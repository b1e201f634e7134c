import SpriteStage.Decimal.Layout
import SpriteStage.Json.Value
import SpriteStage.Json.Quoted

/-!
# Writing JSON text

Text is compact: no blanks, members in the order given. A value that is shown inside a message is
put into its normal form first, where the members of every object are sorted by name and a repeated
name keeps its last value.
-/

set_option autoImplicit false

namespace SpriteStage.Json

/-- Texts between brackets, separated by commas. -/
def bracketed (opening close : Char) (items : List (List Char)) : List Char :=
  opening :: (items.intersperse [',']).flatten ++ [close]

/-- An array of texts. -/
def arrayText (items : List (List Char)) : List Char := bracketed '[' ']' items

/-- An object of texts. -/
def objectText (members : List (String × List Char)) : List Char :=
  bracketed '{' '}' (members.map fun m => Quoted.encode m.1 ++ ':' :: m.2)

/-- The text of a truth value. -/
def boolText (b : Bool) : List Char := if b then "true".toList else "false".toList

/-- The text of a natural number. -/
def naturalText (n : Nat) : List Char := Decimal.numeral n

/-- The text of a number. -/
def Number.write : Number → List Char
  | .natural n => naturalText n.toNat
  | .negative n => '-' :: naturalText n.toNat
  | .real x => Decimal.doubleText x

namespace Value

mutual

/-- The text of a value. -/
def write : Value → List Char
  | .null => "null".toList
  | .bool b => boolText b
  | .number n => n.write
  | .string s => Quoted.encode s
  | .array items => arrayText (writeItems items)
  | .object members => bracketed '{' '}' (writeMembers members)

/-- The texts of the items of an array. -/
def writeItems : List Value → List (List Char)
  | [] => []
  | v :: rest => v.write :: writeItems rest

/-- The texts of the members of an object. -/
def writeMembers : List (String × Value) → List (List Char)
  | [] => []
  | (name, v) :: rest => (Quoted.encode name ++ ':' :: v.write) :: writeMembers rest

end

/-- Members sorted by name, where a repeated name keeps its last value. -/
def sortMembers (members : List (String × Value)) : List (String × Value) :=
  let lasts := members.foldr
    (fun m kept => if kept.any (·.1 == m.1) then kept else m :: kept) []
  lasts.mergeSort fun a b => decide (a.1 ≤ b.1)

mutual

/-- The value with the members of every object sorted and without repetitions. -/
def normalize : Value → Value
  | .array items => .array (normalizeItems items)
  | .object members => .object (sortMembers (normalizeMembers members))
  | v => v

/-- The normal forms of the items of an array. -/
def normalizeItems : List Value → List Value
  | [] => []
  | v :: rest => v.normalize :: normalizeItems rest

/-- The members of an object with their values in normal form. -/
def normalizeMembers : List (String × Value) → List (String × Value)
  | [] => []
  | (name, v) :: rest => (name, v.normalize) :: normalizeMembers rest

end

/-- The text of the value as messages show it. -/
def text (v : Value) : String := String.ofList v.normalize.write

end Value

end SpriteStage.Json
