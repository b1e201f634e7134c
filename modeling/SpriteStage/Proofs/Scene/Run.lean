import SpriteStage.Proofs.Scene.Clock
import SpriteStage.Scene.Play

/-!
# Runs of a scene

A host drives a scene by ticks and by actions of its own. This module names what one tick goes
through, as its parts are used one by one (`tick_state`, `tick_frame`): the events that are due are
applied, then the actors get their time, then the drawing order is brought up to date.
-/

set_option autoImplicit false

namespace SpriteStage

/-- What a host may ask of a scene while it plays. -/
inductive HostCall where
  /-- Lets time pass. -/
  | tick (elapsed : Float32)
  /-- Does an action to an actor. -/
  | apply (sprite : String) (action : SceneAction)

namespace Scene

/-! ## Building -/

/-- A scene that was built has its cast and its timeline. -/
theorem parts_of_create {data : SceneData} {library : AssetLibrary} {sheet : FrameSheet}
    {config : SceneConfig} {s : Scene} (h : (create data library sheet config).2 = .ok s) :
    cast library config.actor data.pixels .empty = .ok s.actors ∧
      Timeline.create data.timeline = .ok s.timeline := by
  unfold create at h
  cases hcast : cast library config.actor data.pixels .empty with
  | error e =>
      rw [hcast] at h
      cases h
  | ok actors =>
      rw [hcast] at h
      dsimp only at h
      cases htimeline : Timeline.create data.timeline with
      | error e =>
          rw [htimeline] at h
          cases h
      | ok timeline =>
          rw [htimeline] at h
          cases h
          exact ⟨rfl, rfl⟩

/-- What holds of every actor when it joins the cast holds of the whole cast. -/
theorem forall_of_cast {P : String → Actor → Prop} {library : AssetLibrary} {config : Config}
    {pixels : List String} {actors players : Table Actor}
    (h : cast library config pixels actors = .ok players)
    (hnew : ∀ asset : Asset, P asset.name (.create asset { visible := false } config))
    (hactors : ∀ name a, actors.get? name = some a → P name a) :
    ∀ name a, players.get? name = some a → P name a := by
  induction pixels generalizing actors with
  | nil =>
      cases h
      exact hactors
  | cons pixel rest ih =>
      rw [cast.eq_def] at h
      dsimp only at h
      cases hasset : library.get? pixel with
      | none =>
          rw [hasset] at h
          cases h
      | some asset =>
          rw [hasset] at h
          dsimp only at h
          by_cases htaken : actors.contains asset.name = true
          · rw [if_pos htaken] at h
            cases h
          · rw [if_neg htaken] at h
            refine ih h ?_
            intro name a ha
            rw [Table.get?_insert] at ha
            by_cases hname : name = asset.name
            · rw [if_pos hname] at ha
              cases ha
              exact hname ▸ hnew asset
            · rw [if_neg hname] at ha
              exact hactors name a ha

/-! ## The parts of a tick -/

/-- What came of the events that a tick makes due, and the scene after them. -/
def played (s : Scene) (elapsed : Float32) : List EventReport × Scene :=
  applyEvents (s.timeline.wait (clampElapsed elapsed)).due
    { s with timeline := s.timeline.advance (clampElapsed elapsed) }

/-- What came of the events that a tick makes due. -/
def eventReports (s : Scene) (elapsed : Float32) : List EventReport := (s.played elapsed).1

/-- The scene after the events that a tick makes due. -/
def afterEvents (s : Scene) (elapsed : Float32) : Scene := (s.played elapsed).2

/-- The scene after the actors got their time. -/
def afterActors (s : Scene) (elapsed : Float32) : Scene :=
  (s.afterEvents elapsed).tickActors (clampElapsed elapsed)

/-- Whether the drawing order changes, and the scene with the order brought up to date. -/
def reordered (s : Scene) : Bool × Scene :=
  if s.options.sortY then s.sortDepth else (false, s)

theorem tick_state (s : Scene) (elapsed : Float32) :
    (s.tick elapsed).1 = (s.afterActors elapsed).reordered.2 := rfl

/-- Bringing the drawing order up to date changes nothing else. -/
theorem exists_reordered_eq (s : Scene) : ∃ sorted, s.reordered.2 = { s with sorted := sorted } := by
  unfold reordered
  by_cases hsort : s.options.sortY = true
  · rw [if_pos hsort]
    unfold sortDepth
    by_cases horder : s.inDepthOrder s.sorted = true
    · rw [if_pos horder]
      exact ⟨s.sorted, rfl⟩
    · rw [if_neg horder]
      exact ⟨_, rfl⟩
  · rw [if_neg hsort]
    exact ⟨s.sorted, rfl⟩

theorem timeline_reordered (s : Scene) : s.reordered.2.timeline = s.timeline := by
  obtain ⟨sorted, hsorted⟩ := s.exists_reordered_eq
  rw [hsorted]

theorem timeline_apply (s : Scene) (sprite : String) (action : SceneAction) :
    (s.apply sprite action).1.timeline = s.timeline := by
  unfold apply
  cases s.actors.get? sprite with
  | none => rfl
  | some actor => rfl

/-- An action fails for want of an actor, or as the actor fails to perform it. -/
theorem apply_error_cases {s : Scene} {sprite : String} {action : SceneAction} {e : SceneError}
    (h : (s.apply sprite action).2.2 = .error e) :
    (s.actors.get? sprite = none ∧ e = .unknownActor sprite) ∨
    ∃ actor cause, s.actors.get? sprite = some actor ∧
      (actor.perform action s.sheet).result = .error cause ∧ e = .animation sprite cause := by
  unfold apply at h
  cases hactor : s.actors.get? sprite with
  | none =>
      rw [hactor] at h
      cases h
      exact Or.inl ⟨rfl, rfl⟩
  | some actor =>
      rw [hactor] at h
      dsimp only at h
      cases hresult : (actor.perform action s.sheet).result with
      | ok answer =>
          rw [hresult] at h
          cases h
      | error cause =>
          rw [hresult] at h
          cases h
          exact Or.inr ⟨actor, cause, rfl, hresult, rfl⟩

theorem applyEvents_cons (entry : TimelineEntry) (index : Nat) (rest : List (TimelineEntry × Nat))
    (s : Scene) :
    applyEvents ((entry, index) :: rest) s =
      (⟨entry, index, (s.apply entry.sprite entry.action).2.2,
          (s.apply entry.sprite entry.action).2.1⟩ ::
          (applyEvents rest (s.apply entry.sprite entry.action).1).1,
        (applyEvents rest (s.apply entry.sprite entry.action).1).2) := rfl

theorem timeline_applyEvents (events : List (TimelineEntry × Nat)) (s : Scene) :
    (applyEvents events s).2.timeline = s.timeline := by
  induction events generalizing s with
  | nil => rfl
  | cons e rest ih =>
      obtain ⟨entry, index⟩ := e
      rw [applyEvents_cons]
      exact (ih _).trans (timeline_apply s entry.sprite entry.action)

/-- Only the time moves the timeline; neither events nor actors do. -/
theorem timeline_tick (s : Scene) (elapsed : Float32) :
    (s.tick elapsed).1.timeline = s.timeline.advance (clampElapsed elapsed) := by
  rw [tick_state, timeline_reordered]
  exact timeline_applyEvents _ _

theorem tick_frame (s : Scene) (elapsed : Float32) :
    (s.tick elapsed).2.2 = .ofReports (s.tick elapsed).1.timeline.elapsed
      (s.afterActors elapsed).reordered.1 (s.eventReports elapsed)
      ((s.afterEvents elapsed).actorReports (clampElapsed elapsed)) := rfl

/-! ## Runs -/

/-- The scene after a call. -/
def react (s : Scene) : HostCall → Scene
  | .tick elapsed => (s.tick elapsed).1
  | .apply sprite action => (s.apply sprite action).1

/-- The scene after calls. -/
def after (s : Scene) (calls : List HostCall) : Scene := calls.foldl react s

/-- What came of the timeline events in the ticks of a run, one tick after the other. -/
def handled (s : Scene) : List HostCall → List EventReport
  | [] => []
  | .tick elapsed :: rest => s.eventReports elapsed ++ handled (s.tick elapsed).1 rest
  | .apply sprite action :: rest => handled (s.apply sprite action).1 rest

theorem after_cons (s : Scene) (call : HostCall) (rest : List HostCall) :
    s.after (call :: rest) = (s.react call).after rest := rfl

end Scene

end SpriteStage
