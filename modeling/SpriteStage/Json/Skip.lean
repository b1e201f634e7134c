import SpriteStage.Json.Reader

/-!
# Passing over values

A member that a record does not know is passed over. Its value must follow the grammar, and nothing
else is asked of it. The walk keeps the brackets that are open; every step takes at least one
character, so the walk ends with the text.
-/

set_option autoImplicit false

namespace SpriteStage.Json

/-- A text that is shorter than `cs`. -/
abbrev Shorter (cs : List Char) : Type := { rest : List Char // rest.length < cs.length }

namespace Skip

theorem length_skipBlank_le (cs : List Char) : (skipBlank cs).length ≤ cs.length :=
  (List.dropWhile_sublist _).length_le

/-- The rest of a scanned text, if it is shorter. -/
def shorter? {α : Type} (cs : List Char) : Option (α × List Char) → Option (Shorter cs)
  | some (_, rest) => if h : rest.length < cs.length then some ⟨rest, h⟩ else none
  | none => none

/-- Takes the character `c`, after any blanks. -/
def char? (c : Char) (cs : List Char) : Option (Shorter cs) :=
  match h : skipBlank cs with
  | [] => none
  | d :: rest =>
    if d = c then
      some ⟨rest, by have := length_skipBlank_le cs; rw [h] at this; simp at this; omega⟩
    else none

/-- Takes a quoted string, after any blanks. -/
def string? (cs : List Char) : Option (Shorter cs) :=
  match char? '"' cs with
  | none => none
  | some rest => (shorter? rest.1 (Quoted.scan rest.1)).map fun r => ⟨r.1, Nat.lt_trans r.2 rest.2⟩

/-- Takes the name of a member and the colon after it. -/
def memberName? (cs : List Char) : Option (Shorter cs) :=
  match string? cs with
  | none => none
  | some rest => (char? ':' rest.1).map fun r => ⟨r.1, Nat.lt_trans r.2 rest.2⟩

/-- Takes a word. -/
def keyword? (word cs : List Char) : Option (Unit × List Char) :=
  if word.isPrefixOf cs then some ((), cs.drop word.length) else none

/-- Takes a value that is neither an array nor an object, after any blanks. -/
def scalar? (cs : List Char) : Option (Shorter cs) :=
  match skipBlank cs with
  | [] => none
  | '"' :: _ => string? cs
  | 'n' :: rest => shorter? cs (keyword? ['n', 'u', 'l', 'l'] ('n' :: rest))
  | 't' :: rest => shorter? cs (keyword? ['t', 'r', 'u', 'e'] ('t' :: rest))
  | 'f' :: rest => shorter? cs (keyword? ['f', 'a', 'l', 's', 'e'] ('f' :: rest))
  | c :: rest => shorter? cs (Literal.scan (c :: rest))

/-- The next character that is not blank. -/
def next? (cs : List Char) : Option Char := (skipBlank cs).head?

/-- A bracket that is open. -/
inductive Bracket where
  /-- The bracket of an array. -/
  | array
  /-- The bracket of an object. -/
  | object
deriving DecidableEq, Repr

mutual

/-- Takes a value and what follows it until all of `outer` is closed. -/
def value? (outer : List Bracket) (cs : List Char) : Option (List Char) :=
  match next? cs with
  | some '[' =>
    match char? '[' cs with
    | none => none
    | some rest =>
      match char? ']' rest.1 with
      | some rest' => close? outer rest'.1
      | none => value? (.array :: outer) rest.1
  | some '{' =>
    match char? '{' cs with
    | none => none
    | some rest =>
      match char? '}' rest.1 with
      | some rest' => close? outer rest'.1
      | none =>
        match memberName? rest.1 with
        | none => none
        | some rest' => value? (.object :: outer) rest'.1
  | _ =>
    match scalar? cs with
    | none => none
    | some rest => close? outer rest.1
termination_by cs.length
decreasing_by all_goals grind

/-- Takes what follows a value until all of `outer` is closed. -/
def close? (outer : List Bracket) (cs : List Char) : Option (List Char) :=
  match outer with
  | [] => some cs
  | .array :: outer =>
    match char? ']' cs with
    | some rest => close? outer rest.1
    | none =>
      match char? ',' cs with
      | none => none
      | some rest => value? (.array :: outer) rest.1
  | .object :: outer =>
    match char? '}' cs with
    | some rest => close? outer rest.1
    | none =>
      match char? ',' cs with
      | none => none
      | some rest =>
        match memberName? rest.1 with
        | none => none
        | some rest' => value? (.object :: outer) rest'.1
termination_by cs.length
decreasing_by all_goals grind

end

end Skip

/-- Passes over a value of any kind. -/
def Reader.skip {ε : Type} : Reader ε Unit := fun cs =>
  match Skip.value? [] cs with
  | none => .error .malformed
  | some rest => .ok ((), rest)

end SpriteStage.Json
