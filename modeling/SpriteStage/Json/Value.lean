import SpriteStage.Single

/-!
# JSON values

A JSON number is a natural number or a negative integer of 64 bits, or a double-precision number;
which of them it is depends on how it is written, and `3` and `3.0` differ. Objects keep their
members in the order of the text, repetitions included.
-/

set_option autoImplicit false

namespace SpriteStage.Json

/-- A JSON number. -/
inductive Number where
  /-- A natural number of 64 bits. -/
  | natural (n : UInt64)
  /-- The integer `-n`, for an `n` between `1` and `2 ^ 63`. -/
  | negative (n : UInt64)
  /-- Every other number, in double precision. -/
  | real (x : Float)
deriving DecidableEq

/-- The number in double precision. -/
def Number.toDouble : Number → Float
  | .natural n => n.toFloat
  | .negative n => -n.toFloat
  | .real x => x

/-- The number in single precision, rounded once from how it is held. -/
def Number.toSingle : Number → Float32
  | .natural n => n.toFloat32
  | .negative n => -n.toFloat32
  | .real x => Single.ofDouble x

/-- The number of an integer, clamped to 64 bits and a sign. -/
def Number.ofInt (i : Int) : Number :=
  if 0 ≤ i then .natural (UInt64.ofNat (min i.toNat (UInt64.size / 2 - 1)))
  else .negative (UInt64.ofNat (min (-i).toNat (UInt64.size / 2)))

/-- A JSON value. -/
inductive Value where
  /-- The absent value. -/
  | null
  /-- A truth value. -/
  | bool (b : Bool)
  /-- A number. -/
  | number (n : Number)
  /-- A string. -/
  | string (s : String)
  /-- An array. -/
  | array (items : List Value)
  /-- An object: names and their values in the order of the text. -/
  | object (members : List (String × Value))
deriving Inhabited

namespace Value

/-- The value of a natural number. -/
def ofNatural (n : UInt64) : Value := .number (.natural n)

/-- The natural number that the value is. -/
def natural? : Value → Option UInt64
  | .number (.natural n) => some n
  | _ => none

/-- The natural number of 32 bits that the value is. -/
def word? (v : Value) : Option UInt32 :=
  v.natural?.bind fun n => if n.toNat < UInt32.size then some (UInt32.ofNat n.toNat) else none

/-- The number that the value is, in single precision. -/
def single? : Value → Option Float32
  | .number n => some n.toSingle
  | _ => none

/-- The string that the value is. -/
def string? : Value → Option String
  | .string s => some s
  | _ => none

/-- The truth value that the value is. -/
def bool? : Value → Option Bool
  | .bool b => some b
  | _ => none

/-- What `read` makes of the value, where the absent value stands for nothing. -/
def optional? {α : Type} (read : Value → Option α) : Value → Option (Option α)
  | .null => some none
  | v => (read v).map some

@[simp] theorem natural?_ofNatural (n : UInt64) : (ofNatural n).natural? = some n := rfl

end Value

end SpriteStage.Json
