import SpriteStage.Motion.Options
import SpriteStage.Node

/-!
# Tweens

A tween leads a value from its origin to its target. It keeps the time that has passed; the value
at that time follows from it, and at the end the value is the target exactly, whatever rounding
happened on the way.
-/

set_option autoImplicit false

namespace SpriteStage

/-- A motion of a value that is under way. -/
structure Tween (V : Type) where
  /-- Where the motion began. -/
  origin : V
  /-- The way from the origin. -/
  delta : V
  /-- Where the motion ends. -/
  target : V
  /-- The time that has passed. -/
  current : Float32 := 0.0
  /-- The time that the motion takes. -/
  duration : Float32
  /-- How the way follows the time. -/
  easing : Easing
deriving DecidableEq

namespace Tween

variable {V : Type}

/-- Lets time pass. -/
def advance (t : Tween V) (elapsed : Float32) : Tween V := { t with current := t.current + elapsed }

/-- Whether the time of the motion is over. -/
def isDone (t : Tween V) : Bool := decide (t.duration ≤ t.current)

/-- The value between origin and target at the time that has passed. -/
def between [Add V] [HMul V Float32 V] (t : Tween V) : V :=
  t.easing.apply t.current t.origin t.delta t.duration

/-- The value at the time that has passed; the target, if the motion is over. -/
def value [Add V] [HMul V Float32 V] (t : Tween V) : V :=
  if t.isDone then t.target else t.between

/-- The motion, unless it is over. -/
def unfinished? (t : Tween V) : Option (Tween V) := if t.isDone then none else some t

end Tween

end SpriteStage
