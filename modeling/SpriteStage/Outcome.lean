import SpriteStage.Error
import SpriteStage.Signal

/-!
# Outcomes

An operation of the stage gives a new state, signals, log lines and a result; the state, the
signals and the log lines are there whether the operation succeeds or fails.
-/

set_option autoImplicit false

namespace SpriteStage

/-- How much a line of the log matters. -/
inductive LogLevel where
  /-- Something was ignored or failed. -/
  | warn
  /-- Something went as planned. -/
  | debug
deriving DecidableEq, Repr

/-- The name of the level. -/
def LogLevel.name : LogLevel → String
  | warn => "warn"
  | debug => "debug"

/-- A line of the log. -/
structure LogLine where
  /-- How much the line matters. -/
  level : LogLevel
  /-- What the line says. -/
  text : String
deriving DecidableEq, Repr

/-- A warning. -/
def LogLine.warning (text : String) : LogLine := ⟨.warn, text⟩

/-- What an operation on states of type `σ` does. -/
structure Outcome (σ α : Type) where
  /-- The state after the operation. -/
  state : σ
  /-- The signals that the operation gave, in order. -/
  signals : List Signal := []
  /-- The lines that the operation logged, in order. -/
  log : List LogLine := []
  /-- The answer of the operation, or why it failed. -/
  result : Except AnimationError α

namespace Outcome

variable {σ τ α β : Type}

/-- Success without signals. -/
def success (state : σ) (answer : α) : Outcome σ α where
  state := state
  result := .ok answer

/-- Failure without signals. -/
def failure (state : σ) (cause : AnimationError) : Outcome σ α where
  state := state
  result := .error cause

/-- The same outcome after earlier signals. -/
def after (o : Outcome σ α) (earlier : List Signal) : Outcome σ α :=
  { o with signals := earlier ++ o.signals }

/-- The same outcome seen as an operation on larger states. -/
def embed (o : Outcome σ α) (f : σ → τ) : Outcome τ α where
  state := f o.state
  signals := o.signals
  log := o.log
  result := o.result

@[simp] theorem state_after (o : Outcome σ α) (earlier : List Signal) :
    (o.after earlier).state = o.state := rfl

@[simp] theorem signals_after (o : Outcome σ α) (earlier : List Signal) :
    (o.after earlier).signals = earlier ++ o.signals := rfl

@[simp] theorem result_after (o : Outcome σ α) (earlier : List Signal) :
    (o.after earlier).result = o.result := rfl

end Outcome

end SpriteStage
