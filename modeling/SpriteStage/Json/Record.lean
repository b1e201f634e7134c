import SpriteStage.Json.Skip

/-!
# Records

A record is written as an object of its fields in any order, or as an array of its fields in their
declared order. In an object, members that are no field are passed over and a field may come only
once. In an array, fields may be left out at the end, and nothing may follow the last. Reading fills
a draft; what a missing field means is decided when the draft is complete.
-/

set_option autoImplicit false

namespace SpriteStage.Json

/-- A field of a record with drafts of type `σ`. -/
structure Field (ε σ : Type) where
  /-- The name of the field. -/
  name : String
  /-- Whether a draft holds the field already. -/
  filled : σ → Bool
  /-- Reads the field into a draft, with the given nesting left. -/
  read : (nesting : Nat) → σ → Reader ε σ

namespace Record

variable {ε σ : Type}

/-- Reads a member of the object form. -/
def member (fields : List (Field ε σ)) (nesting : Nat) (draft : σ) : Reader ε σ := do
  let name ← Reader.memberName
  match fields.find? (·.name = name) with
  | none => Reader.skip; return draft
  | some field => if field.filled draft then Reader.fail else field.read nesting draft

/-- Reads an item of the array form; the fields that are still to come go along with the draft. -/
def item (nesting : Nat) : List (Field ε σ) × σ → Reader ε (List (Field ε σ) × σ)
  | ([], _) => Reader.fail
  | (field :: fields, draft) => return (fields, ← field.read nesting draft)

/-- Fills a draft from the object form or the array form. -/
def read (fields : List (Field ε σ)) (draft : σ) : (nesting : Nat) → Reader ε σ
  | 0 => Reader.fail
  | nesting + 1 => do
    if (← Reader.peek) = '[' then
      return (← Reader.bracketed '[' ']' (item nesting) (fields, draft)).2
    else Reader.bracketed '{' '}' (member fields nesting) draft

end Record

/-- The field `name` of a draft, read by `reader`, seen by `get` and stored by `set`. -/
def Field.of {ε σ α : Type} (name : String) (reader : (nesting : Nat) → Reader ε α)
    (get : σ → Option α) (set : σ → α → σ) : Field ε σ where
  name := name
  filled draft := (get draft).isSome
  read nesting draft := return set draft (← reader nesting)

/-- An array of items, one level deeper. -/
def Reader.listWithin {ε α : Type} (item : (nesting : Nat) → Reader ε α) :
    (nesting : Nat) → Reader ε (List α)
  | 0 => Reader.fail
  | nesting + 1 => Reader.list (item nesting)

/-- An object with members of one kind, one level deeper. -/
def Reader.membersWithin {ε α : Type} (item : (nesting : Nat) → Reader ε α) :
    (nesting : Nat) → Reader ε (List (String × α))
  | 0 => Reader.fail
  | nesting + 1 => Reader.members (item nesting)

/-- Members of an object that is held as a value. -/
abbrev Members := List (String × Value)

namespace Members

/-- The value of a name that may be absent; `none` if the name comes more than once. -/
def field? (ms : Members) (name : String) : Option (Option Value) :=
  match ms.filter (·.1 = name) with
  | [] => some none
  | [(_, v)] => some (some v)
  | _ => none

/-- What `read` makes of a name that must be there once. -/
def required? {α : Type} (ms : Members) (name : String) (read : Value → Option α) : Option α :=
  match ms.field? name with
  | some (some v) => read v
  | _ => none

/-- What `read` makes of a name that may be absent, and then stands for `default`. -/
def defaulted? {α : Type} (ms : Members) (name : String) (default : α) (read : Value → Option α) :
    Option α :=
  match ms.field? name with
  | some (some v) => read v
  | some none => some default
  | none => none

end Members

/-- Reads the one name of a plain enumeration: a string, or an object that gives the name the absent
value. -/
def Reader.choice {ε α : Type} (ofName? : String → Option α) : Reader ε α := do
  if (← Reader.peek) = '{' then
    Reader.expect '{'
    let name ← Reader.memberName
    let a ← Reader.require (ofName? name)
    Reader.null
    Reader.expect '}'
    return a
  else Reader.require (ofName? (← Reader.string))

end SpriteStage.Json
