import SpriteStage.Step.Compact

/-!
# Errors

Two layers fail. An animation fails to be read, compiled or played; a scene fails to be built, or
one of its events or actors does. A constructor is a cause, and the wording of all causes is here.
A failing animation never stops a scene: the actor is idle and the rest goes on.
-/

set_option autoImplicit false

namespace SpriteStage

/-- Why a step cannot be compiled. -/
inductive StepDefect where
  /-- The duration is not usable. -/
  | duration (fault : DurationFault)
  /-- A group shows nothing. -/
  | emptyGroup
  /-- A choice always shows the same frame, so it could not avoid the last one. -/
  | sameChoices (choices : List UInt64)
deriving DecidableEq

/-- The reason as messages give it. -/
def StepDefect.reason : StepDefect → String
  | .duration fault => fault.reason
  | .emptyGroup => "frame group has no frames"
  | .sameChoices choices =>
    "unique step needs at least 2 distinct choices, got [" ++
      ", ".intercalate (choices.map fun c => toString c.toNat) ++ "]"

/-- Why a motion cannot start. -/
inductive TweenFault where
  /-- A motion is timed by a duration or by a speed. -/
  | bothTimings
  /-- A motion has a duration or a speed. -/
  | noTiming
  /-- A duration is finite and not negative. -/
  | duration (time : Float32)
  /-- A speed is finite and positive. -/
  | speed (rate : Float32)
deriving DecidableEq

/-- The reason as messages give it. -/
def TweenFault.reason : TweenFault → String
  | .bothTimings => "give either duration or speed, not both"
  | .noTiming => "a tween needs a duration or a speed"
  | .duration time => "duration must be non-negative, got " ++ Decimal.messageText time
  | .speed rate => "speed must be positive, got " ++ Decimal.messageText rate

/-- Why an animation cannot be read, compiled or played. -/
inductive AnimationError where
  /-- No animation has the name. -/
  | unknownAnimation (name : String)
  /-- The steps redirect without end, or frames pass without time. -/
  | degenerateCycle (animation : String) (redirects : Nat)
  /-- A step cannot be compiled. -/
  | invalidStep (animation : String) (step : Nat) (defect : StepDefect)
  /-- An animation has no steps. -/
  | emptyAnimation (animation : String)
  /-- A link names no animation of its set. -/
  | unknownLinkTarget (animation : String) (step : Nat) (target : String)
  /-- A step shows a frame that the asset does not have. -/
  | frameOutOfRange (animation : String) (frame : UInt64) (frameCount : Nat)
  /-- No easing has the name. -/
  | unknownEasing (name : String)
  /-- A motion cannot start. -/
  | invalidTween (fault : TweenFault)
  /-- The time of one duration unit is not positive and finite. -/
  | invalidTimeScale (value : Float32)
  /-- The time that has passed is not finite. -/
  | invalidElapsed (value : Float32)
  /-- The text of an asset is refused. -/
  | unreadable (cause : Json.ReadError StepFault)
  /-- A frame has pixels, but not one for each place. -/
  | pixelCount (asset : String) (frame count expected : Nat)

namespace AnimationError

/-- The text of the error. -/
def message : AnimationError → String
  | unknownAnimation name => s!"Animation not found: {name}"
  | degenerateCycle animation redirects =>
    s!"Degenerate animation cycle in '{animation}' after {redirects} redirects"
  | invalidStep animation step defect =>
    s!"Invalid duration in '{animation}' step {step}: " ++ defect.reason
  | emptyAnimation animation => s!"Animation '{animation}' has no steps"
  | unknownLinkTarget animation step target =>
    s!"Animation '{animation}' step {step} links to unknown animation '{target}'"
  | frameOutOfRange animation frame frameCount =>
    s!"Animation '{animation}' references frame {frame.toNat} but the asset has {frameCount} frames"
  | unknownEasing name => s!"Easing function not found: {name}"
  | invalidTween fault => "Invalid tween: " ++ fault.reason
  | invalidTimeScale value => "Invalid per-frame time scale: " ++ Decimal.messageText value
  | invalidElapsed value => "Invalid elapsed time: " ++ Decimal.messageText value
  | unreadable (.refused fault) => "Parse error: " ++ fault.message
  | unreadable .malformed => "Parse error: malformed text"
  | pixelCount asset frame count expected =>
    s!"Parse error: frame {frame} of '{asset}' has {count} pixels, expected {expected}"

/-- The kind of work that failed. -/
inductive Category where
  | lookup | cycle | compile | tween | playback | parse
deriving DecidableEq, Repr

/-- The name of the category. -/
def Category.name : Category → String
  | lookup => "lookup"
  | cycle => "cycle"
  | compile => "compile"
  | tween => "tween"
  | playback => "playback"
  | parse => "parse"

/-- The kind of work that failed with the error. -/
def category : AnimationError → Category
  | unknownAnimation _ | unknownLinkTarget .. => .lookup
  | degenerateCycle .. => .cycle
  | invalidStep .. | emptyAnimation _ | frameOutOfRange .. => .compile
  | unknownEasing _ | invalidTween _ => .tween
  | invalidTimeScale _ | invalidElapsed _ => .playback
  | unreadable _ | pixelCount .. => .parse

/-- Whether a running actor raises the error, as opposed to the making of an asset. -/
def isPlayback : AnimationError → Bool
  | unknownAnimation _ | degenerateCycle .. | unknownEasing _ | invalidTween _
  | invalidTimeScale _ | invalidElapsed _ => true
  | invalidStep .. | emptyAnimation _ | unknownLinkTarget .. | frameOutOfRange ..
  | unreadable _ | pixelCount .. => false

end AnimationError

/-- Why a scene cannot be built, or one of its events or actors fails. -/
inductive SceneError where
  /-- No actor has the name. -/
  | unknownActor (name : String)
  /-- No asset has the name. -/
  | unknownAsset (name : String)
  /-- Two actors have one name. -/
  | duplicateActor (name : String)
  /-- An event has a time that is not finite. -/
  | invalidEvent (index : Nat) (time : Float32)
  /-- An actor fails. -/
  | animation (actor : String) (source : AnimationError)
  /-- The text of a scene is refused. -/
  | unreadable

namespace SceneError

/-- The text of the error. -/
def message : SceneError → String
  | unknownActor name => s!"Actor not found: {name}"
  | unknownAsset name => s!"Pixel asset not found: {name}"
  | duplicateActor name => s!"Duplicate actor name: {name}"
  | invalidEvent index time =>
    s!"Timeline event {index} is invalid: time must be finite, got " ++ Decimal.messageText time
  | animation actor source => s!"Actor '{actor}': " ++ source.message
  | unreadable => "Parse error: malformed text"

/-- The name of the actor that the error is about, if it is about one. -/
def actor? : SceneError → Option String
  | unknownActor name | duplicateActor name | animation name _ => some name
  | unknownAsset _ | invalidEvent .. | unreadable => none

end SceneError

end SpriteStage
