/-!
# Scalars

Curves and angles are formulas over any kind of number that has the four operations, decimal
constants, an order that can be tested and a Euclidean remainder. They run on single-precision
numbers; the same formulas can be read in exact arithmetic, where their laws are stated.
-/

set_option autoImplicit false

namespace SpriteStage

universe u

/-- Numbers over which curves and angles are written. -/
class Scalar (α : Type u) extends Add α, Sub α, Mul α, Div α, Neg α, OfScientific α, LT α where
  /-- The order can be tested. -/
  decideLT : (a b : α) → Decidable (a < b)
  /-- The remainder of a division whose quotient is rounded so that no remainder is negative. -/
  euclideanRem : α → α → α
  /-- The distance from zero. -/
  magnitude : α → α

instance Scalar.decidableLT {α : Type u} [Scalar α] (a b : α) : Decidable (a < b) :=
  Scalar.decideLT a b

namespace Scalar

variable {α : Type u} [Scalar α]

/-- The square. -/
def square (x : α) : α := x * x

/-- The third power, with one product by the square. -/
def cube (x : α) : α := x * square x

/-- The fourth power, as the square of the square. -/
def fourth (x : α) : α := square (square x)

/-- The fifth power, with one product by the fourth. -/
def fifth (x : α) : α := x * fourth x

end Scalar

end SpriteStage
