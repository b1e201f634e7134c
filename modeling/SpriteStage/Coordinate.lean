import SpriteStage.Single

/-!
# Coordinates and points

A coordinate is a single-precision number that is stored as its 32 bits. Many bit patterns stand for
an undefined number, and they differ in their place in the total order, so a coordinate keeps the
pattern that it was given. Arithmetic is that of the numbers; an undefined operand passes its
pattern on to the result.
-/

set_option autoImplicit false

namespace SpriteStage

/-- A single-precision number that keeps its bits, also when it is undefined. -/
structure Coordinate where
  /-- The sign, the exponent and the mantissa. -/
  bits : UInt32
deriving DecidableEq

namespace Coordinate

/-- The number that the bits stand for. -/
def value (c : Coordinate) : Float32 := Float32.ofBits c.bits

/-- The coordinate of a number. -/
def ofSingle (x : Float32) : Coordinate := ⟨x.toBits⟩

/-- The origin of an axis. -/
def zero : Coordinate := ⟨0⟩

/-- The rank of a coordinate in the total order of all bit patterns: an undefined number comes first
or last, as its sign bit says. -/
def rank (c : Coordinate) : Int := Single.rankOfBits c.bits

/-- Whether the number is undefined. -/
def isUndefined (c : Coordinate) : Bool := c.value.isNaN

/-- An undefined number as an operation passes it on: with the first bit of its mantissa set. -/
def quiet (c : Coordinate) : Coordinate := ⟨c.bits ||| 0x00400000⟩

/-- The undefined number that comes of defined operands, as from infinity less infinity. -/
def invalid : Coordinate := ⟨0xffc00000⟩

/-- The outcome of an operation whose number is `result`; the first operand that is undefined
decides. -/
def outcome (operands : List Coordinate) (result : Float32) : Coordinate :=
  match operands.find? isUndefined with
  | some c => c.quiet
  | none => if result.isNaN then invalid else ofSingle result

instance : Add Coordinate where
  add c d := outcome [c, d] (c.value + d.value)

instance : Sub Coordinate where
  sub c d := outcome [c, d] (c.value - d.value)

instance : HMul Coordinate Float32 Coordinate where
  hMul c factor := outcome [c] (c.value * factor)

end Coordinate

/-- A value for each of the two axes. -/
structure Point (α : Type) where
  /-- The horizontal value. -/
  x : α
  /-- The vertical value. -/
  y : α
deriving DecidableEq

namespace Point

variable {α β : Type}

/-- Applies a function on both axes. -/
def map (f : α → β) (p : Point α) : Point β := ⟨f p.x, f p.y⟩

instance [Add α] : Add (Point α) where
  add p q := ⟨p.x + q.x, p.y + q.y⟩

instance [Sub α] : Sub (Point α) where
  sub p q := ⟨p.x - q.x, p.y - q.y⟩

instance [HMul α Float32 α] : HMul (Point α) Float32 (Point α) where
  hMul p factor := ⟨p.x * factor, p.y * factor⟩

end Point

end SpriteStage
