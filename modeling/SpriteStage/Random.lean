/-!
# Random frames

A source of pseudo-random numbers whose state is a word of 32 bits, never zero. A draw mixes the
state by three shifts, each added without carries. Sources with equal states draw the same numbers,
so a scene that is played twice shows the same frames.

A source asks that ranges have their bounds in order and that there is an index to draw. Nothing
checks that, so the source records what is drawn from it, and the record tells of a run whether all
of its draws were permitted.
-/

set_option autoImplicit false

namespace SpriteStage

/-- What can be drawn from a source. -/
inductive Draw where
  /-- A number between two bounds, both included. -/
  | range (least greatest : UInt32)
  /-- An index below a length. -/
  | index (length : Nat)
deriving DecidableEq, Repr

/-- What a source asks of a draw: bounds in order, and an index to draw. -/
def Draw.Permitted : Draw → Prop
  | range least greatest => least ≤ greatest
  | index length => 0 < length

/-- A source of pseudo-random numbers. -/
structure Random where
  /-- The state, which is also the last number drawn. -/
  state : UInt32
  /-- What was drawn so far, the latest draw first. No number depends on it. -/
  drawn : List Draw := []
deriving DecidableEq, Repr

namespace Random

/-- The source of a seed; the seed zero counts as one. -/
def ofSeed (seed : UInt32) : Random where
  state := if seed = 0 then 1 else seed

/-- The hash of a text: for each byte, the byte is mixed in and the hash multiplied. -/
def hash (name : String) : UInt32 :=
  name.toUTF8.toList.foldl (fun h byte => (h ^^^ byte.toUInt32) * 0x01000193) 0x811C9DC5

/-- The source of an actor: actors with different names draw differently from one seed. -/
def forActor (seed : UInt32) (name : String) : Random := ofSeed (seed ^^^ hash name)

/-- The state after a draw. -/
def step (x : UInt32) : UInt32 :=
  let x := x ^^^ (x <<< 13)
  let x := x ^^^ (x >>> 17)
  x ^^^ (x <<< 5)

/-- Draws a word. -/
def next (r : Random) : UInt32 × Random := (step r.state, { r with state := step r.state })

/-- Enters a draw into the record. -/
def recording (r : Random) (draw : Draw) : Random := { r with drawn := draw :: r.drawn }

/-- Draws a number between `least` and `greatest`, both included. -/
def range (r : Random) (least greatest : UInt32) : UInt32 × Random :=
  let (x, r) := r.next
  let span := (greatest - least).toNat + 1
  (least + UInt32.ofNat (x.toNat % span), r.recording (.range least greatest))

/-- Draws an index below `length`. -/
def index (r : Random) (length : Nat) : Nat × Random :=
  let (x, r) := r.next
  (x.toNat % length, r.recording (.index length))

end Random

end SpriteStage
