import SpriteStage.Actor
import SpriteStage.Scene.Timeline

/-!
# Frames of a scene

What one tick of a scene does is known from its reports: one for each event that was due, in order,
and one for each actor, in the order of the cast. A frame gathers them: the events that were
applied, the signals, the errors, and whether anything on the stage may have changed.
-/

set_option autoImplicit false

namespace SpriteStage

/-- An event that was applied. -/
structure AppliedEvent where
  /-- The index of the event on the timeline. -/
  index : Nat
  /-- The time of the event. -/
  time : Float32
  /-- The name of the actor. -/
  actor : String
  /-- The kind of its action. -/
  kind : EventKind
deriving DecidableEq

/-- A signal and the name of the actor that gave it. -/
structure ActorSignal where
  /-- The name of the actor. -/
  actor : String
  /-- What it signals. -/
  signal : Signal
deriving DecidableEq

/-- What came of an event that was due. -/
structure EventReport where
  /-- The event. -/
  entry : TimelineEntry
  /-- The index of the event on the timeline. -/
  index : Nat
  /-- The signals of the actor, or why the event failed. -/
  result : Except SceneError (List Signal)
  /-- What the event logged. -/
  log : List LogLine

namespace EventReport

/-- The event, if it was applied. -/
def applied? (r : EventReport) : Option AppliedEvent :=
  match r.result with
  | .ok _ => some ⟨r.index, r.entry.time, r.entry.sprite, r.entry.action.kind⟩
  | .error _ => none

/-- Why the event failed, if it did. -/
def error? (r : EventReport) : Option SceneError :=
  match r.result with
  | .ok _ => none
  | .error e => some e

/-- The signals of the event. -/
def signals (r : EventReport) : List ActorSignal :=
  match r.result with
  | .ok signals => signals.map fun s => ⟨r.entry.sprite, s⟩
  | .error _ => []

/-- How the log sums up the event. -/
def summary (r : EventReport) : LogLine :=
  let time := Decimal.messageText r.entry.time
  match r.result with
  | .ok _ => ⟨.debug, s!"t={time} applied {r.entry.action.kind.title} to '{r.entry.sprite}'"⟩
  | .error e => .warning (s!"timeline event {r.index} at t={time}: " ++ e.message)

/-- The lines of the log that the event gives. -/
def lines (r : EventReport) : List LogLine := r.log ++ [r.summary]

end EventReport

/-- What the tick of an actor did. -/
structure ActorReport where
  /-- The name of the actor. -/
  actor : String
  /-- The outcome of its tick. -/
  outcome : Outcome Actor Bool

namespace ActorReport

/-- Whether the sprite may have changed: a failing actor counts as changed. -/
def changed (r : ActorReport) : Bool :=
  match r.outcome.result with
  | .ok changed => changed
  | .error _ => true

/-- Why the actor failed, if it did. -/
def error? (r : ActorReport) : Option SceneError :=
  match r.outcome.result with
  | .ok _ => none
  | .error cause => some (.animation r.actor cause)

/-- The signals of the actor. -/
def signals (r : ActorReport) : List ActorSignal := r.outcome.signals.map fun s => ⟨r.actor, s⟩

/-- The lines of the log that the actor gives. -/
def lines (r : ActorReport) : List LogLine :=
  r.outcome.log ++
    match r.outcome.result with
    | .ok _ => []
    | .error cause => [.warning (s!"actor '{r.actor}' stopped: " ++ cause.message)]

end ActorReport

/-- The result of one tick of a scene. -/
structure SceneFrame where
  /-- The time on the clock after the tick. -/
  elapsed : Float32
  /-- Whether an actor or the drawing order may have changed. -/
  changed : Bool
  /-- The events that were applied. -/
  applied : List AppliedEvent
  /-- The signals: those of the events, then those of the actors. -/
  signals : List ActorSignal
  /-- The errors that the tick passed over: those of the events, then those of the actors. -/
  errors : List SceneError

/-- Gathers the reports of one tick. -/
def SceneFrame.ofReports (elapsed : Float32) (reordered : Bool) (events : List EventReport)
    (actors : List ActorReport) : SceneFrame where
  elapsed := elapsed
  changed :=
    events.any (fun r => r.applied?.isSome) || actors.any ActorReport.changed || reordered
  applied := events.filterMap EventReport.applied?
  signals := events.flatMap EventReport.signals ++ actors.flatMap ActorReport.signals
  errors := events.filterMap EventReport.error? ++ actors.filterMap ActorReport.error?

end SpriteStage
