import SpriteStage.Json.Value

/-!
# Number literals

A number literal is split off the text by the JSON grammar alone; its value is decided afterwards.
Without point and exponent it is an integer if it fits in 64 bits. Every other literal is read with
one rounding of its leading digits and one of a product or quotient by a power of ten: the digits
that together fit in 64 bits are converted to double precision, and the result is scaled. A literal
beyond the largest double-precision number has no value.
-/

set_option autoImplicit false

namespace SpriteStage.Json

/-- A number literal, taken apart. -/
structure Literal where
  /-- Whether it starts with a minus sign. -/
  minus : Bool
  /-- The digits before the point. -/
  whole : List Nat
  /-- The digits after the point; `none` without a point. -/
  fraction : Option (List Nat)
  /-- The exponent; `none` if it has none. -/
  exponent : Option Int
deriving DecidableEq, Repr

namespace Literal

/-- The value of a decimal digit. -/
def digitValue (c : Char) : Nat := c.toNat - '0'.toNat

/-- Splits off the leading decimal digits. -/
def scanDigits (cs : List Char) : List Nat × List Char :=
  ((cs.takeWhile Char.isDigit).map digitValue, cs.dropWhile Char.isDigit)

/-- The number that decimal digits stand for. -/
def ofDigits (digits : List Nat) : Nat := digits.foldl (fun n d => 10 * n + d) 0

/-- Splits off a point and the digits after it, if a point comes next; a point needs a digit. -/
def scanFraction : List Char → Option (Option (List Nat) × List Char)
  | '.' :: r =>
    match scanDigits r with
    | ([], _) => none
    | (digits, rest) => some (some digits, rest)
  | cs => some (none, cs)

/-- Splits off the digits of an exponent and gives them a sign; an exponent needs a digit. -/
def scanPower (negative : Bool) (cs : List Char) : Option (Option Int × List Char) :=
  match scanDigits cs with
  | ([], _) => none
  | (digits, rest) => some (some (if negative then -ofDigits digits else ofDigits digits), rest)

/-- Splits off an exponent, if one comes next. -/
def scanExponent : List Char → Option (Option Int × List Char)
  | c :: r =>
    if c = 'e' ∨ c = 'E' then
      match r with
      | '+' :: r => scanPower false r
      | '-' :: r => scanPower true r
      | r => scanPower false r
    else some (none, c :: r)
  | [] => some (none, [])

/-- Splits off a literal without its sign. A number of several digits does not start with zero. -/
def scanUnsigned (minus : Bool) (cs : List Char) : Option (Literal × List Char) := do
  let (whole, rest) := scanDigits cs
  match whole with
  | [] => none
  | 0 :: _ :: _ => none
  | _ =>
    let (fraction, rest) ← scanFraction rest
    let (exponent, rest) ← scanExponent rest
    some (⟨minus, whole, fraction, exponent⟩, rest)

/-- Splits a number literal off the text. -/
def scan : List Char → Option (Literal × List Char)
  | '-' :: r => scanUnsigned true r
  | cs => scanUnsigned false cs

/-- Appends digits to `n` while the number stays below `2 ^ 64`; returns it with the digits left. -/
def gather (n : Nat) : List Nat → Nat × List Nat
  | [] => (n, [])
  | d :: rest => if 10 * n + d < UInt64.size then gather (10 * n + d) rest else (n, d :: rest)

/-- The double-precision power of ten with an exponent of at most 308. -/
def powerOfTen (k : Nat) : Float := Float.ofScientific 1 false k

/-- Divides by a power of ten, at most 308 places at a time. -/
def scaleDown (x : Float) (places : Nat) : Float :=
  if places ≤ 308 then x / powerOfTen places
  else if x == 0.0 then x
  else scaleDown (x / powerOfTen 308) (places - 308)
termination_by places

/-- Multiplies by a power of ten, upwards or downwards; `none` if the result is too large. -/
def scale? (x : Float) (places : Int) : Option Float :=
  if places < 0 then some (scaleDown x (-places).toNat)
  else if places ≤ 308 then
    let y := x * powerOfTen places.toNat
    if y.isInf then none else some y
  else if x == 0.0 then some x
  else none

/-- The double-precision value of the literal. -/
def toDouble? (l : Literal) : Option Float :=
  let (n, dropped) := gather 0 l.whole
  let digits := l.fraction.getD []
  let (n, ignored) := gather n digits
  let places := dropped.length - (digits.length - ignored.length : Nat) + l.exponent.getD 0
  (scale? n.toUInt64.toFloat places).map fun x => if l.minus then -x else x

/-- The value of the literal, or `none` if it is too large. -/
def toNumber? (l : Literal) : Option Number :=
  let n := ofDigits l.whole
  if l.fraction.isNone ∧ l.exponent.isNone ∧ ¬ l.minus ∧ n < UInt64.size then
    some (.natural n.toUInt64)
  else if l.fraction.isNone ∧ l.exponent.isNone ∧ l.minus ∧ 0 < n ∧ n ≤ UInt64.size / 2 then
    some (.negative n.toUInt64)
  else l.toDouble?.map .real

end Literal

end SpriteStage.Json
