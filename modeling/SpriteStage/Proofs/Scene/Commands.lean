import SpriteStage.Proofs.Actor.Steps
import SpriteStage.Proofs.Scene.Delivery

/-!
# Commands to a scene

All that a host can do to a scene while it plays: let time pass, do an action, restart, draw the
frames of the actors, exchange the sheet, and take hold of an actor and do something to it with a
sheet of its own. None of this disturbs the clock (`wellTimed_obey`), and a property that the actors
keep in every step of their own they keep here (`Everyone.obey`).
-/

set_option autoImplicit false

namespace SpriteStage

/-- What a host can do to a scene. -/
inductive SceneCommand where
  /-- Time passes, or an action is done. -/
  | call (call : HostCall)
  /-- The scene goes back to the start. -/
  | restart
  /-- The frames of the actors are added to the sheet. -/
  | renderSheet (force : Bool)
  /-- Another sheet is used from now on. -/
  | useSheet (sheet : FrameSheet)
  /-- Something is done to one actor, with a sheet of the host. -/
  | direct (name : String) (sheet : FrameSheet) (step : ActorStep)

theorem Timeline.WellTimed.rewind {t : Timeline} (h : t.WellTimed) : t.rewind.WellTimed := by
  have hdefined : (0.0 : Float32).isNaN = false := by decide
  have hsign : Single.sign (Single.parts (0.0 : Float32)) = .positive := rfl
  refine ⟨h.finite, h.ordered, hdefined, hsign, Nat.zero_le _, ?_⟩
  intro e he
  cases he

namespace Scene

/-- The scene after a command. -/
def obey (s : Scene) : SceneCommand → Scene
  | .call call => s.react call
  | .restart => s.restart
  | .renderSheet force => (s.renderSheet force).2
  | .useSheet sheet => { s with sheet := sheet }
  | .direct name sheet step =>
    { s with actors := s.actors.modify name fun a => (a.take sheet step).state }

/-- The scene after commands. -/
def obeyAll (s : Scene) (commands : List SceneCommand) : Scene := commands.foldl obey s

/-- A property that commands keep holds after all of them. -/
theorem obeyAll_induct {Q : Scene → Prop} (hstep : ∀ s command, Q s → Q (s.obey command))
    {s : Scene} (h : Q s) (commands : List SceneCommand) : Q (s.obeyAll commands) := by
  induction commands generalizing s with
  | nil => exact h
  | cons command rest ih => exact ih (hstep s command h)

/-! ## The clock -/

theorem wellTimed_obey {s : Scene} (h : s.timeline.WellTimed) (command : SceneCommand) :
    (s.obey command).timeline.WellTimed := by
  cases command with
  | call call => exact wellTimed_react h call
  | restart => exact h.rewind
  | renderSheet force => exact h
  | useSheet sheet => exact h
  | direct name sheet step => exact h

/-! ## The actors -/

/-- Every actor of the scene has the property. -/
def Everyone (P : Actor → Prop) (s : Scene) : Prop :=
  ∀ name a, s.actors.get? name = some a → P a

namespace Everyone

variable {P : Actor → Prop} {s : Scene}

/-- Changing one actor, if there is one of that name. -/
theorem modify (h : s.Everyone P) {name : String} {f : Actor → Actor}
    (hf : ∀ a, s.actors.get? name = some a → P (f a)) :
    Everyone P { s with actors := s.actors.modify name f } := by
  intro other a ha
  rw [Table.get?_modify] at ha
  by_cases hname : other = name
  · rw [if_pos hname, hname] at ha
    obtain ⟨b, hb, rfl⟩ := Option.map_eq_some_iff.1 ha
    exact hf b hb
  · rw [if_neg hname] at ha
    exact h other a ha

/-- Changing every actor. -/
theorem map {Q : Actor → Prop} (h : s.Everyone P) {f : Actor → Actor} (hf : ∀ a, P a → Q (f a)) :
    Everyone Q { s with actors := s.actors.mapWithName fun _ => f } := by
  intro name a ha
  rw [Table.get?_mapWithName] at ha
  obtain ⟨b, hb, rfl⟩ := Option.map_eq_some_iff.1 ha
  exact hf b (h name b hb)

theorem apply (h : s.Everyone P) (hkept : Actor.Kept P) (sprite : String) (action : SceneAction) :
    (s.apply sprite action).1.Everyone P := by
  unfold Scene.apply
  cases hactor : s.actors.get? sprite with
  | none => exact h
  | some actor =>
      exact h.modify fun _ _ => hkept.perform (h sprite actor hactor) action s.sheet

theorem applyEvents (h : s.Everyone P) (hkept : Actor.Kept P)
    (events : List (TimelineEntry × Nat)) : (applyEvents events s).2.Everyone P := by
  induction events generalizing s with
  | nil => exact h
  | cons e rest ih =>
      obtain ⟨entry, index⟩ := e
      rw [applyEvents_cons]
      exact ih (h.apply hkept entry.sprite entry.action)

theorem tick (h : s.Everyone P) (hkept : Actor.Kept P) (elapsed : Float32) :
    (s.tick elapsed).1.Everyone P := by
  -- the events, then the actors; the drawing order has no part in it
  have hstart : Everyone P { s with timeline := s.timeline.advance (clampElapsed elapsed) } := h
  have hevents : (s.afterEvents elapsed).Everyone P := hstart.applyEvents hkept _
  have hactors : (s.afterActors elapsed).Everyone P := hevents.map fun a ha => hkept.tick ha _ _
  obtain ⟨sorted, hsorted⟩ := (s.afterActors elapsed).exists_reordered_eq
  rw [tick_state, hsorted]
  exact hactors

theorem obey (h : s.Everyone P) (hkept : Actor.Kept P) (command : SceneCommand) :
    (s.obey command).Everyone P := by
  cases command with
  | call call =>
      cases call with
      | tick elapsed => exact h.tick hkept elapsed
      | apply sprite action => exact h.apply hkept sprite action
  | restart => exact h.map fun a ha => hkept.backstage ha
  | renderSheet force => exact h
  | useSheet sheet => exact h
  | direct name sheet step => exact h.modify fun a ha => hkept a sheet step (h name a ha)

end Everyone

end Scene

end SpriteStage
