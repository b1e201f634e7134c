import SpriteStage.Scalar

/-!
# Shortest turns

The turn from one angle to another along the shorter side of the circle.
-/

set_option autoImplicit false

namespace SpriteStage

universe u

variable {α : Type u} [Scalar α]

/-- The signed turn from `current` to `target`, more than minus half a turn and at most half a
turn, where `halfTurn` is half a turn. -/
def shortestTurn (halfTurn current target : α) : α :=
  let turn := Scalar.euclideanRem (target - current) (2.0 * halfTurn)
  if halfTurn < turn then turn - 2.0 * halfTurn else turn

end SpriteStage
