/-!
# Shortest decimals

A finite binary floating-point number stands for every real number that rounds to it. Of the
decimals in that interval `shortest` takes one with the fewest digits, and among those the one
nearest to the number itself. It walks the decimal grids from coarse to fine and looks on each grid
at the two neighbours of the number, in exact natural-number arithmetic; the first grid on which a
neighbour lies in the interval gives the answer.
-/

set_option autoImplicit false

namespace SpriteStage.Decimal

open Float.Model

/-- A finite binary floating-point number: a sign, a mantissa and a power of two. -/
structure Binary where
  /-- Whether the sign is minus; zero has a sign too. -/
  negative : Bool
  /-- The mantissa, zero for zero. -/
  mantissa : Nat
  /-- The power of two by which the mantissa is multiplied. -/
  exponent : Int
  /-- Whether the next number towards zero is only half as far away as the next one outwards. -/
  narrow : Bool

/-- A decimal: a natural number times a power of ten. -/
structure Digits where
  /-- The digits read as a natural number. -/
  value : Nat
  /-- The power of ten by which they are multiplied. -/
  place : Int
deriving DecidableEq, Repr

/-- Which of two equally near decimals is taken. -/
inductive Tie where
  /-- The larger one. -/
  | up
  /-- The one whose last digit is even. -/
  | even
deriving DecidableEq, Repr

/-- The parts of a finite number of a format with the given mantissa width and least exponent. -/
def Binary.ofParts? (mantissaBits : Nat) (leastExponent : Int) : UnpackedFloat → Option Binary
  | .zero sign => some ⟨sign == .negative, 0, 0, false⟩
  | .finite sign m e _ =>
    some ⟨sign == .negative, m, e, m == 1 <<< mantissaBits && leastExponent < e⟩
  | _ => none

/-- The parts of a finite single-precision number. -/
def Binary.ofSingle? (x : Float32) : Option Binary :=
  Binary.ofParts? 23 (-149) x.toModel.unpack

/-- The parts of a finite double-precision number. -/
def Binary.ofDouble? (x : Float) : Option Binary :=
  Binary.ofParts? 52 (-1074) x.toModel.unpack

/-- The decimal on the grid of the multiples of `10 ^ place` that rounds to `b`, if there is one; of
two the nearer. -/
def onGrid? (tie : Tie) (b : Binary) (place : Int) : Option Nat :=
  -- in a unit that makes all of them whole: the number, the distance to the next number outwards,
  -- and one step of the grid are `b.mantissa * gap`, `gap` and `step`
  let gap := Nat.pow 10 (-place).toNat <<< b.exponent.toNat
  let step := Nat.pow 10 place.toNat <<< (-b.exponent).toNat
  let below := b.mantissa * gap / step
  let excess := b.mantissa * gap % step
  let short := step - excess
  -- both ends of the interval round to the number exactly when its mantissa is even
  let within (far near : Nat) := if b.mantissa % 2 = 0 then far ≤ near else far < near
  let hitBelow := 0 < below ∧ within ((if b.narrow then 4 else 2) * excess) gap
  let hitAbove := within (2 * short) gap
  if hitBelow ∧ hitAbove then
    match compare excess short with
    | .lt => some below
    | .gt => some (below + 1)
    | .eq =>
      match tie with
      | .up => some (below + 1)
      | .even => some (if below % 2 = 0 then below else below + 1)
  else if hitBelow then some below
  else if hitAbove then some (below + 1)
  else none

/-- The first hit on `grids + 1` successive grids, from the multiples of `10 ^ place` on. -/
def firstHit (tie : Tie) (b : Binary) : (grids : Nat) → (place : Int) → Digits
  | 0, place => ⟨(onGrid? tie b place).getD 0, place⟩
  | grids + 1, place =>
    match onGrid? tie b place with
    | some value => ⟨value, place⟩
    | none => firstHit tie b grids (place - 1)

/-- The shortest decimal that rounds to `b`, nearest to `b` among the shortest. The walk starts
above the number, and seventeen digits always suffice. -/
def shortest (tie : Tie) (b : Binary) : Digits :=
  if b.mantissa = 0 then ⟨0, 0⟩
  else
    -- the number is below two to this power; a decimal logarithm is about 0.30103 of a binary one
    let power := b.mantissa.log2 + 1 + b.exponent
    firstHit tie b 21 (power * 30103 / 100000 + 2)

end SpriteStage.Decimal
