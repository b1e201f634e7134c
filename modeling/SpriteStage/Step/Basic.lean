import SpriteStage.Decimal.Layout
import SpriteStage.Random

/-!
# Animation steps

An animation is authored as a list of steps. A step shows a frame, a group of frames or one frame
out of several for some time, or it redirects: back to the start, or to another animation. Played
steps are the same without groups. A duration counts units of a time scale that is chosen when the
animation is played.
-/

set_option autoImplicit false

namespace SpriteStage

/-- How long a frame stays, in units of the time scale. -/
inductive FrameDuration where
  /-- The same count on every visit. -/
  | fixed (count : Float32)
  /-- A whole number between two bounds, both included, drawn anew on every visit. -/
  | range (least greatest : UInt32)
deriving DecidableEq

/-- Why a duration is not usable. -/
inductive DurationFault where
  /-- A fixed count must be positive and finite. -/
  | notPositive (count : Float32)
  /-- A range starts at one or later. -/
  | zeroMinimum
  /-- The bounds of a range are in order. -/
  | inverted (least greatest : UInt32)
deriving DecidableEq

/-- The reason as messages give it. -/
def DurationFault.reason : DurationFault → String
  | .notPositive count => "duration must be a positive count, got " ++ Decimal.messageText count
  | .zeroMinimum => "range minimum must be at least 1"
  | .inverted least greatest => s!"range minimum {least.toNat} exceeds maximum {greatest.toNat}"

namespace FrameDuration

/-- The duration of a step that gives none. -/
def single : FrameDuration := .fixed 1.0

instance : Inhabited FrameDuration := ⟨single⟩

/-- Refuses a duration that no frame can have. -/
def check : FrameDuration → Except DurationFault Unit
  | .fixed count =>
    if count.isFinite = false ∨ count ≤ 0.0 then .error (.notPositive count) else .ok ()
  | .range least greatest =>
    if least = 0 then .error .zeroMinimum
    else if greatest < least then .error (.inverted least greatest)
    else .ok ()

/-- The count of one visit. A range draws it. -/
def draw (d : FrameDuration) (r : Random) : Float32 × Random :=
  match d with
  | .fixed count => (count, r)
  | .range least greatest =>
    let (n, r) := r.range least greatest
    (n.toFloat32, r)

end FrameDuration

/-- A step as authors write it. -/
inductive AuthoredStep where
  /-- Shows a frame. -/
  | frame (index : UInt64) (duration : FrameDuration)
  /-- Shows frames one after the other, each for the same duration. -/
  | group (frames : List UInt64) (duration : FrameDuration)
  /-- Goes back to the first step. -/
  | loop
  /-- Goes to the first step of another animation. -/
  | link (target : String)
  /-- Shows one of several frames, not the one that was picked last. -/
  | unique (choices : List UInt64) (duration : FrameDuration)
deriving DecidableEq

/-- A step as it is played. -/
inductive AnimationStep where
  /-- Shows a frame. -/
  | frame (index : UInt64) (duration : FrameDuration)
  /-- Goes back to the first step. -/
  | loop
  /-- Goes to the first step of another animation. -/
  | link (target : String)
  /-- Shows one of several frames, not the one that was picked last. -/
  | unique (choices : List UInt64) (duration : FrameDuration)
deriving DecidableEq

/-- The steps of one animation, as they are played. -/
abbrev Sequence := List AnimationStep

/-- The played steps that an authored step stands for. -/
def AuthoredStep.expansion : AuthoredStep → Sequence
  | .frame index duration => [.frame index duration]
  | .group frames duration => frames.map fun index => .frame index duration
  | .loop => [.loop]
  | .link target => [.link target]
  | .unique choices duration => [.unique choices duration]

/-- The frames that a step can show. -/
def AnimationStep.frames : AnimationStep → List UInt64
  | .frame index _ => [index]
  | .unique choices _ => choices
  | .loop => []
  | .link _ => []

end SpriteStage
