import SpriteStage.Error
import SpriteStage.Easing.Basic

/-!
# Options of a motion

A motion takes a given time, or goes at a given speed; authors give one of the two. The time of a
motion is a formula over any scalar; that the given number is usable is checked apart from it.
-/

set_option autoImplicit false

namespace SpriteStage

universe u

/-- How the time of a motion is given. -/
inductive Timing (α : Type u) where
  /-- The time, in milliseconds. -/
  | duration (time : α)
  /-- The speed, in units of the way for each millisecond. -/
  | speed (rate : α)
deriving DecidableEq

namespace Timing

/-- The time that a motion over a distance takes. -/
def span {α : Type u} [Scalar α] (t : Timing α) (distance : α) : α :=
  match t with
  | duration time => time
  | speed rate => distance / rate

/-- Refuses a time or a speed that no motion can have. -/
def check : Timing Float32 → Except TweenFault Unit
  | duration time =>
    if time.isFinite = true ∧ 0.0 ≤ time then .ok () else .error (.duration time)
  | speed rate =>
    if rate.isFinite = true ∧ 0.0 < rate then .ok () else .error (.speed rate)

end Timing

/-- How a motion goes. -/
structure MoveOptions where
  /-- How its time is given. -/
  timing : Timing Float32
  /-- Its easing; without one, a default is used. -/
  easing : Option Easing := none
deriving DecidableEq

namespace MoveOptions

/-- The options with an easing. -/
def withEasing (o : MoveOptions) (easing : Easing) : MoveOptions := { o with easing := some easing }

/-- The easing that an author names, if any. -/
def easingOfName? : (name : Option String) → Except AnimationError (Option Easing)
  | none => .ok none
  | some name =>
    match Easing.ofName? name with
    | some easing => .ok (some easing)
    | none => .error (.unknownEasing name)

/-- The options of authored fields: one of duration and speed, and an easing if it is given. -/
def ofFields (duration speed : Option Float32) (ease : Option String) :
    Except AnimationError MoveOptions :=
  match duration, speed with
  | some _, some _ => .error (.invalidTween .bothTimings)
  | none, none => .error (.invalidTween .noTiming)
  | some time, none => (easingOfName? ease).map fun easing => ⟨.duration time, easing⟩
  | none, some rate => (easingOfName? ease).map fun easing => ⟨.speed rate, easing⟩

end MoveOptions

end SpriteStage
