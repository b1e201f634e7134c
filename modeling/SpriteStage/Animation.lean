import SpriteStage.Error
import SpriteStage.Table

/-!
# Compiled animations

Compiling checks authored steps and expands their groups; the steps keep their order. A set of
animations is compiled whole: every link leads to an animation of the set, and, where the number of
frames is known, every frame exists. So no actor that plays a compiled set can reach a bad step.
-/

set_option autoImplicit false

namespace SpriteStage

/-- Refuses a step that cannot be played. -/
def AuthoredStep.check : AuthoredStep → Except StepDefect Unit
  | .frame _ duration => duration.check.mapError .duration
  | .group frames duration => do
    duration.check.mapError .duration
    if frames = [] then .error .emptyGroup else .ok ()
  | .loop => .ok ()
  | .link _ => .ok ()
  | .unique choices duration => do
    duration.check.mapError .duration
    if choices.all fun c => choices.head? = some c then .error (.sameChoices choices) else .ok ()

/-- Refuses the first step that cannot be played, counting steps from `start`. -/
def checkSteps (name : String) (start : Nat) : List AuthoredStep → Except AnimationError Unit
  | [] => .ok ()
  | step :: rest =>
    match step.check with
    | .error defect => .error (.invalidStep name start defect)
    | .ok () => checkSteps name (start + 1) rest

/-- The steps that are played, without any check. -/
def expandSteps (steps : List AuthoredStep) : Sequence := steps.flatMap AuthoredStep.expansion

/-- Compiles the steps of one animation. -/
def compileAnimation (name : String) (steps : List AuthoredStep) :
    Except AnimationError Sequence := do
  checkSteps name 0 steps
  if steps = [] then .error (.emptyAnimation name) else .ok (expandSteps steps)

/-- Refuses the first frame that an asset of `frameCount` frames does not have. -/
def checkFrames (name : String) (frameCount : Nat) (steps : Sequence) :
    Except AnimationError Unit :=
  match (steps.flatMap AnimationStep.frames).find? fun frame => frameCount ≤ frame.toNat with
  | some frame => .error (.frameOutOfRange name frame frameCount)
  | none => .ok ()

/-- Refuses the first link, counting steps from `start`, whose target has no animation. -/
def checkLinks (name : String) (isDefined : String → Bool) (start : Nat) :
    List AuthoredStep → Except AnimationError Unit
  | [] => .ok ()
  | .link target :: rest =>
    if isDefined target then checkLinks name isDefined (start + 1) rest
    else .error (.unknownLinkTarget name start target)
  | _ :: rest => checkLinks name isDefined (start + 1) rest

/-- The animations of an asset, as they are played, by name. -/
abbrev AnimationSet := Table Sequence

/-- Compiles one animation of a set: its steps, then its links, then its frames. -/
def compileMember (isDefined : String → Bool) (frameCount : Option Nat) (name : String)
    (steps : List AuthoredStep) : Except AnimationError Sequence := do
  let compiled ← compileAnimation name steps
  checkLinks name isDefined 0 steps
  match frameCount with
  | some count => checkFrames name count compiled
  | none => .ok ()
  return compiled

/-- Compiles a set of animations in the order of their names, so that of several failing animations
the first by name is reported. -/
def compileSet (animations : Table (List AuthoredStep)) (frameCount : Option Nat) :
    Except AnimationError AnimationSet :=
  animations.sortByName.mapM (compileMember animations.contains frameCount)

end SpriteStage
