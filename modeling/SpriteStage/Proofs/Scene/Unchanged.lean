import SpriteStage.Proofs.Actor.Unchanged
import SpriteStage.Proofs.Scene.Delivery
import SpriteStage.Proofs.Table

/-!
# Frames that say that nothing changed

A host draws again when a frame says that something changed, so a frame must not deny a change. It
denies one only if no event was applied, every actor answered that nothing changed, and the drawing
order was in order already. Events that fail leave the nodes alone (`nodes_apply_error`), so then no
node has been written, and the drawing order is the old one (`unchanged_of_tick`).
-/

set_option autoImplicit false

namespace SpriteStage.Scene

/-- The nodes of all actors, by name and in the order of the cast. -/
def nodes (s : Scene) : Table SpriteNode := s.actors.mapWithName fun _ a => a.node

variable {s : Scene} {elapsed : Float32}

/-! ## Events -/

/-- An action that fails leaves every node alone. -/
theorem nodes_apply_error {sprite : String} {action : SceneAction} {e : SceneError}
    (h : (s.apply sprite action).2.2 = .error e) : (s.apply sprite action).1.nodes = s.nodes := by
  rcases apply_error_cases h with ⟨hnone, -⟩ | ⟨actor, cause, hactor, hresult, -⟩
  · unfold apply
    rw [hnone]
  · unfold apply
    rw [hactor]
    exact Table.mapWithName_modify_of_get? hactor (Actor.node_of_perform_error hresult)

/-- Actions do not reorder actors. -/
theorem renderOrder_apply (s : Scene) (sprite : String) (action : SceneAction) :
    (s.apply sprite action).1.renderOrder = s.renderOrder := by
  unfold apply
  cases s.actors.get? sprite with
  | none => rfl
  | some actor => rfl

theorem renderOrder_applyEvents (events : List (TimelineEntry × Nat)) (s : Scene) :
    (applyEvents events s).2.renderOrder = s.renderOrder := by
  induction events generalizing s with
  | nil => rfl
  | cons e rest ih =>
      obtain ⟨entry, index⟩ := e
      rw [applyEvents_cons]
      exact (ih _).trans (s.renderOrder_apply entry.sprite entry.action)

/-- Events none of which is applied leave every node alone. -/
theorem nodes_applyEvents {events : List (TimelineEntry × Nat)}
    (h : ((applyEvents events s).1.any fun r => r.applied?.isSome) = false) :
    (applyEvents events s).2.nodes = s.nodes := by
  induction events generalizing s with
  | nil => rfl
  | cons e rest ih =>
      obtain ⟨entry, index⟩ := e
      rw [applyEvents_cons] at h ⊢
      rw [List.any_cons, Bool.or_eq_false_iff] at h
      cases hresult : (s.apply entry.sprite entry.action).2.2 with
      | ok signals =>
          -- this event was applied
          unfold EventReport.applied? at h
          rw [hresult] at h
          exact absurd h.1 Bool.noConfusion
      | error e => exact (ih h.2).trans (nodes_apply_error hresult)

/-! ## Actors -/

/-- Only a tick that answers that nothing changed is reported as one. -/
theorem result_of_not_changed {r : ActorReport} (h : r.changed = false) :
    r.outcome.result = .ok false := by
  unfold ActorReport.changed at h
  cases hresult : r.outcome.result with
  | ok changed =>
      rw [hresult] at h
      exact congrArg _ h
  | error cause =>
      rw [hresult] at h
      cases h

theorem nodes_tickActors (h : (s.actorReports elapsed).any ActorReport.changed = false) :
    (s.tickActors elapsed).nodes = s.nodes := by
  apply Table.ext_entries
  show ((s.actors.entries.map _).map _) = s.actors.entries.map _
  rw [List.map_map]
  refine List.map_congr_left ?_
  rintro ⟨name, a⟩ hmem
  -- the actor has a report, which denies a change
  have hreport := List.any_eq_false.1 h _ (List.mem_map.2 ⟨(name, a), hmem, rfl⟩)
  have hresult := result_of_not_changed (Bool.eq_false_iff.2 hreport)
  exact congrArg (Prod.mk name) (Actor.node_of_tick (Or.inl hresult))

/-! ## The drawing order -/

theorem reordered_of_not_reordered (h : s.reordered.1 = false) : s.reordered.2 = s := by
  unfold reordered at h ⊢
  by_cases hsort : s.options.sortY = true
  · rw [if_pos hsort] at h ⊢
    unfold sortDepth at h ⊢
    by_cases horder : s.inDepthOrder s.sorted = true
    · rw [if_pos horder]
    · rw [if_neg horder] at h
      cases h
  · rw [if_neg hsort]

/-! ## Ticks -/

/-- A frame that denies a change has one reason for each part of the tick. -/
theorem changed_tick_eq_false_iff :
    (s.tick elapsed).2.2.changed = false ↔
      ((s.eventReports elapsed).any fun r => r.applied?.isSome) = false ∧
        ((s.afterEvents elapsed).actorReports (clampElapsed elapsed)).any ActorReport.changed
          = false ∧
        (s.afterActors elapsed).reordered.1 = false := by
  rw [tick_frame]
  unfold SceneFrame.ofReports
  rw [Bool.or_eq_false_iff, Bool.or_eq_false_iff, and_assoc]

/-- A frame that denies a change leaves every node and the drawing order as they were; and an actor
that denies one, or refuses the time, leaves its own node as it was. -/
theorem unchanged_of_tick :
    (∀ (s : Scene) (elapsed : Float32), (s.tick elapsed).2.2.changed = false →
      (s.tick elapsed).1.nodes = s.nodes ∧ (s.tick elapsed).1.renderOrder = s.renderOrder) ∧
    ∀ (a : Actor) (elapsed : Float32) (sheet : FrameSheet),
      ((a.tick elapsed sheet).result = .ok false ∨
          ∃ value, (a.tick elapsed sheet).result = .error (.invalidElapsed value)) →
        (a.tick elapsed sheet).state.node = a.node := by
  refine ⟨?_, fun a elapsed sheet h => Actor.node_of_tick h⟩
  intro s elapsed h
  obtain ⟨hevents, hactors, horder⟩ := changed_tick_eq_false_iff.1 h
  have hnodes : (s.afterActors elapsed).nodes = s.nodes :=
    (nodes_tickActors hactors).trans (nodes_applyEvents hevents)
  have hrender : (s.afterActors elapsed).renderOrder = s.renderOrder :=
    renderOrder_applyEvents _ _
  rw [tick_state, reordered_of_not_reordered horder]
  exact ⟨hnodes, hrender⟩

/-- In the second tick of the scene its other event fails, and that is all. -/
theorem unchanged_of_tick_twoEntryScene :
    (twoEntryScene.after [.tick 0.0]).eventReports 20.0 ≠ [] ∧
      ((twoEntryScene.after [.tick 0.0]).tick 20.0).1.nodes =
        (twoEntryScene.after [.tick 0.0]).nodes ∧
      ((Actor.create bareAsset {} {}).tick (0.0 / 0.0) {}).state.node =
        (Actor.create bareAsset {} {}).node := by
  refine ⟨?_, ?_, ?_⟩
  · intro h
    have hlength : ((twoEntryScene.after [.tick 0.0]).eventReports 20.0).length = 1 := by
      decide +kernel
    rw [h] at hlength
    cases hlength
  · have hchanged : ((twoEntryScene.after [.tick 0.0]).tick 20.0).2.2.changed = false := by
      decide +kernel
    exact (unchanged_of_tick.1 _ _ hchanged).1
  · have hrefused : ((Actor.create bareAsset {} {}).tick (0.0 / 0.0) {}).result =
        .error (.invalidElapsed (0.0 / 0.0)) := rfl
    exact unchanged_of_tick.2 _ _ _ (Or.inr ⟨_, hrefused⟩)

end SpriteStage.Scene
