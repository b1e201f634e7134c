import SpriteStage.Json.Literal
import SpriteStage.Json.Quoted

/-!
# Reading JSON text

A reader takes a value of its type off the front of the text. Text is refused where it stops being
JSON or stops fitting the type, or where a rule about the value refuses it with a cause of its own;
whichever comes first in the text is the refusal. Nesting is limited: a reader of values is given
the number of arrays and objects it may still open.

`Reader.value` reads any value. `Reader.skip` passes over a value that nobody wants: it follows the
grammar alone, so neither nesting nor the size of numbers nor surrogate halves matter to it.
-/

set_option autoImplicit false

namespace SpriteStage.Json

/-- Why a text is refused. -/
inductive ReadError (ε : Type) where
  /-- The text is not JSON, or its shape does not fit. -/
  | malformed
  /-- A rule about a value refuses it. -/
  | refused (cause : ε)
deriving DecidableEq, Repr

/-- A reader of values of type `α` whose rules refuse with causes of type `ε`. -/
abbrev Reader (ε α : Type) := StateT (List Char) (Except (ReadError ε)) α

/-- The number of arrays and objects that may be open at a time. -/
def maxNesting : Nat := 127

/-- Whether the character separates tokens. -/
def isBlank (c : Char) : Bool := c = ' ' || c = '\t' || c = '\n' || c = '\r'

/-- The text from its first character that is not blank. -/
def skipBlank (cs : List Char) : List Char := cs.dropWhile isBlank

namespace Reader

variable {ε α σ : Type}

/-- Refuses the text. -/
def fail : Reader ε α := fun _ => .error .malformed

/-- Refuses a value by a rule. -/
def refuse (cause : ε) : Reader ε α := fun _ => .error (.refused cause)

/-- Takes the result, or refuses the text without one. -/
def require : Option α → Reader ε α
  | some a => pure a
  | none => fail

/-- Looks at the next character that is not blank, and leaves it. -/
def peek : Reader ε Char := fun cs =>
  match skipBlank cs with
  | [] => .error .malformed
  | c :: rest => .ok (c, c :: rest)

/-- Takes the character `c`, after any blanks. -/
def expect (c : Char) : Reader ε Unit := fun cs =>
  match skipBlank cs with
  | [] => .error .malformed
  | d :: rest => if d = c then .ok ((), rest) else .error .malformed

/-- Takes what a scanner splits off the text after any blanks. -/
def scanned (scan : List Char → Option (α × List Char)) : Reader ε α := fun cs =>
  match scan (skipBlank cs) with
  | none => .error .malformed
  | some result => .ok result

/-- Takes a word letter by letter. -/
def keyword (word : List Char) : Reader ε Unit :=
  scanned fun cs => if word.isPrefixOf cs then some ((), cs.drop word.length) else none

/-- Reads a string. -/
def string : Reader ε String := do
  expect '"'
  let pieces ← fun cs =>
    match Quoted.scan cs with
    | none => .error .malformed
    | some result => .ok result
  return String.ofList (← require (Quoted.decode pieces))

/-- Reads a number. -/
def number : Reader ε Number := do
  require (← scanned Literal.scan).toNumber?

/-- Reads a truth value. -/
def bool : Reader ε Bool := do
  match ← peek with
  | 't' => keyword ['t', 'r', 'u', 'e']; return true
  | 'f' => keyword ['f', 'a', 'l', 's', 'e']; return false
  | _ => fail

/-- Reads the absent value. -/
def null : Reader ε Unit := keyword ['n', 'u', 'l', 'l']

/-- Reads items up to a closing bracket, each after the other, and takes the bracket. `limit` bounds
the number of items; a text has fewer items than characters. -/
def items (close : Char) (item : σ → Reader ε σ) : (limit : Nat) → σ → Reader ε σ
  | 0, _ => fail
  | limit + 1, s => do
    let s ← item s
    let c ← peek
    if c = ',' then
      expect ','
      items close item limit s
    else
      expect close
      return s

/-- Reads items between brackets, separated by commas; there may be none. -/
def bracketed (opening close : Char) (item : σ → Reader ε σ) (s : σ) : Reader ε σ := do
  expect opening
  if (← peek) = close then
    expect close
    return s
  else
    items close item (← get).length s

/-- Reads an array of items of one kind. -/
def list (item : Reader ε α) : Reader ε (List α) := do
  return (← bracketed '[' ']' (fun done => return (← item) :: done) []).reverse

/-- Reads the name of a member and the colon after it. -/
def memberName : Reader ε String := do
  let name ← string
  expect ':'
  return name

/-- Reads an object whose members are of one kind, in the order of the text. -/
def members (item : Reader ε α) : Reader ε (List (String × α)) := do
  return (← bracketed '{' '}' (fun done => return (← memberName, ← item) :: done) []).reverse

/-- Reads a value that is neither an array nor an object. -/
def scalar : Reader ε Value := do
  let c ← peek
  if c = '"' then return .string (← string)
  else if c = 'n' then null; return .null
  else if c = 't' ∨ c = 'f' then return .bool (← bool)
  else return .number (← number)

/-- Reads a value with at most the given nesting. -/
def value : (nesting : Nat) → Reader ε Value
  | 0 => scalar
  | nesting + 1 => do
    let c ← peek
    if c = '[' then return .array (← list (value nesting))
    else if c = '{' then return .object (← members (value nesting))
    else scalar

/-- Reads the absent value, or a value of one kind. -/
def optional (item : Reader ε α) : Reader ε (Option α) := do
  if (← peek) = 'n' then null; return none
  else return some (← item)

/-- Reads a natural number of 64 bits. -/
def natural : Reader ε UInt64 := do require (Value.number (← number)).natural?

/-- Reads a natural number of 32 bits. -/
def word : Reader ε UInt32 := do require (Value.number (← number)).word?

/-- Reads a number in single precision. -/
def single : Reader ε Float32 := return (← number).toSingle

/-- Reads the whole of a text. -/
def run (reader : Reader ε α) (text : String) : Except (ReadError ε) α :=
  match reader text.toList with
  | .error e => .error e
  | .ok (a, rest) => if skipBlank rest = [] then .ok a else .error .malformed

end Reader

/-- Reads a JSON value from the whole of a text. -/
def Value.ofText? (text : String) : Except (ReadError Empty) Value :=
  (Reader.value maxNesting).run text

end SpriteStage.Json
