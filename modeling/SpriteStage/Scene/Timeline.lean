import SpriteStage.Outcome
import SpriteStage.Scene.Action

/-!
# Timelines

A timeline holds events in the order of their times, and a clock that only goes forward. Advancing
the clock makes events due, and each event is due once. A time that the clock cannot use counts as
no time.
-/

set_option autoImplicit false

namespace SpriteStage

/-- Whether the clock can be advanced by the time. -/
def isUsableElapsed (elapsed : Float32) : Bool := decide (elapsed.isFinite = true ∧ 0.0 ≤ elapsed)

/-- The time by which the clock is advanced: negative, infinite and undefined times count as
zero. -/
def clampElapsed (elapsed : Float32) : Float32 := if isUsableElapsed elapsed then elapsed else 0.0

/-- What is logged about a time. -/
def elapsedLog (elapsed : Float32) : List LogLine :=
  if isUsableElapsed elapsed then []
  else [.warning ("ignoring invalid elapsed time " ++ Decimal.messageText elapsed)]

/-- Events in the order of their times, and a clock. -/
structure Timeline where
  /-- The events. -/
  events : List TimelineEntry
  /-- The index of the next event. -/
  cursor : Nat := 0
  /-- The time on the clock. -/
  elapsed : Float32 := 0.0
deriving DecidableEq

namespace Timeline

/-- Refuses the first event, counting events from `start`, whose time is not finite. -/
def checkTimes (start : Nat) : List TimelineEntry → Except SceneError Unit
  | [] => .ok ()
  | e :: rest =>
    if e.time.isFinite then checkTimes (start + 1) rest else .error (.invalidEvent start e.time)

/-- The events sorted by time; events whose times have one rank keep their authored order. -/
def sortEvents (events : List TimelineEntry) : List TimelineEntry :=
  events.mergeSort fun a b => decide (Single.rank a.time ≤ Single.rank b.time)

/-- The timeline of authored events. -/
def create (events : List TimelineEntry) : Except SceneError Timeline := do
  checkTimes 0 events
  return { events := sortEvents events }

/-- The event at an index. -/
def get? (t : Timeline) (index : Nat) : Option TimelineEntry := t.events[index]?

/-- The number of events. -/
def size (t : Timeline) : Nat := t.events.length

/-- Whether there is no event. -/
def isEmpty (t : Timeline) : Bool := t.events.isEmpty

/-- Whether every event was due. -/
def isFinished (t : Timeline) : Bool := decide (t.size ≤ t.cursor)

/-- The events that are still to come, with their indices. -/
def pending (t : Timeline) : List (TimelineEntry × Nat) := t.events.zipIdx.drop t.cursor

/-- The events that the time on the clock makes due, with their indices. -/
def due (t : Timeline) : List (TimelineEntry × Nat) :=
  t.pending.takeWhile fun e => decide (e.1.time ≤ t.elapsed)

/-- Moves the clock forward. -/
def wait (t : Timeline) (elapsed : Float32) : Timeline :=
  { t with elapsed := t.elapsed + clampElapsed elapsed }

/-- Moves the clock forward and the cursor past the events that are due. -/
def advance (t : Timeline) (elapsed : Float32) : Timeline :=
  let later := t.wait elapsed
  { later with cursor := later.cursor + later.due.length }

/-- Puts clock and cursor back to the start. -/
def rewind (t : Timeline) : Timeline := { t with cursor := 0, elapsed := 0.0 }

end Timeline

end SpriteStage
