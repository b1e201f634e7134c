import SpriteStage.Proofs.Actor.Outline
import SpriteStage.Proofs.Actor.Sound
import SpriteStage.Proofs.Animator.Failure

/-!
# Actors that say that nothing changed

The node of an actor is written in four places: by the texture of a frame that is shown, by the
direction of an animation that was started, by a motion and by an action. A tick that answers that
nothing changed has shown no frame (`Animator.quiet_of_tick`) and run no motion
(`Motions.node_of_unchanged`), so the node is what it was (`node_of_tick`). An action that
fails has not come as far as the node (`node_of_perform_error`).
-/

set_option autoImplicit false

namespace SpriteStage

/-! ## Animations -/

namespace Animator

variable {a : Animator} {elapsed : Float32} {shown budget : Nat}

/-- Frames that are due are told from frames that are not by the answer: where it is negative, none
was shown. -/
theorem quiet_of_advanceWithin (h : (a.advanceWithin shown budget).result = .ok false) :
    shown = 0 ∧ (a.advanceWithin shown budget).signals.any Signal.isFrame = false := by
  induction budget using Nat.strongRecOn generalizing a shown with
  | ind budget ih =>
      rcases advanceWithin_cases a shown budget with
        ⟨-, heq⟩ | ⟨-, -, heq⟩ | ⟨-, -, cause, heq, -⟩ | ⟨-, -, -, -, rest, rfl, heq⟩
      · rw [heq] at h ⊢
        refine ⟨?_, rfl⟩
        simpa [Outcome.success] using h
      · rw [heq] at h ⊢
        refine ⟨?_, rfl⟩
        simpa using h
      · rw [heq] at h
        cases h
      · -- a frame was shown, and the rest of the tick knows of it
        rw [heq, Outcome.result_after] at h
        exact absurd (ih rest (Nat.lt_succ_self rest) h).1 (Nat.succ_ne_zero shown)

/-- A tick that answers that nothing changed shows no frame. -/
theorem quiet_of_tick (h : (a.tick elapsed).result = .ok false) :
    (a.tick elapsed).signals.any Signal.isFrame = false := by
  by_cases hinvalid : elapsed.isFinite = false
  · rw [tick_of_invalidElapsed hinvalid]
    rfl
  · by_cases hidle : a.playback.playing = false
    · rw [tick_of_idle hinvalid hidle]
      rfl
    · rw [tick_eq hinvalid hidle] at h ⊢
      exact (quiet_of_advanceWithin h).2

end Animator

/-! ## Motions -/

/-- Without a motion on either channel, nothing is written. -/
theorem Motions.node_of_unchanged {m : Motions} {elapsed : Float32} {node : SpriteNode}
    (h : (m.tick elapsed node).changed = false) : (m.tick elapsed node).node = node := by
  obtain ⟨position, rotation, easing⟩ := m
  cases position with
  | some motion => cases h
  | none =>
      cases rotation with
      | some turn => cases h
      | none => rfl

namespace Actor

variable {a : Actor} {elapsed : Float32} {sheet : FrameSheet}

/-! ## Ticks -/

/-- Where no frame was shown, the texture stays. -/
theorem node_follow_of_quiet {α : Type} {o : Outcome Animator α}
    (h : o.signals.any Signal.isFrame = false) : (a.follow o sheet).state.node = a.node := by
  unfold follow
  rw [h]
  rfl

/-- Motions do not touch the node of an outcome that stays unchanged. -/
theorem node_moved_of_unchanged {o : Outcome Actor Bool}
    (h : (moved o elapsed).result = .ok false) :
    o.result = .ok false ∧ (moved o elapsed).state.node = o.state.node := by
  have hresult : o.result.map (fun changed =>
      changed || (o.state.motions.tick elapsed o.state.node).changed) = .ok false := h
  cases ho : o.result with
  | error cause =>
      rw [ho] at hresult
      cases hresult
  | ok changed =>
      rw [ho] at hresult
      have hneither := Except.ok.inj hresult
      rw [Bool.or_eq_false_iff] at hneither
      exact ⟨congrArg _ hneither.1, Motions.node_of_unchanged hneither.2⟩

/-- A tick that changes nothing, or is refused for its time, does not touch the node. -/
theorem node_of_tick (h : (a.tick elapsed sheet).result = .ok false ∨
      ∃ value, (a.tick elapsed sheet).result = .error (.invalidElapsed value)) :
    (a.tick elapsed sheet).state.node = a.node := by
  unfold tick at h ⊢
  by_cases hinvalid : elapsed.isFinite = false
  · rw [if_pos hinvalid]
    rfl
  · rw [if_neg hinvalid] at h ⊢
    rcases h with hquiet | ⟨value, hrefused⟩
    · obtain ⟨hanimated, hnode⟩ := node_moved_of_unchanged hquiet
      rw [hnode]
      exact node_follow_of_quiet (Animator.quiet_of_tick hanimated)
    · -- the time is finite, so the animation has not refused it, and the motions refuse none
      have htick : (a.tick elapsed sheet).result = .error (.invalidElapsed value) := by
        unfold tick
        rw [if_neg hinvalid]
        exact hrefused
      exact absurd (Animator.isFinite_of_tick_invalidElapsed (a.error_of_tick htick)) hinvalid

/-! ## Actions -/

/-- An action that fails does not touch the node. -/
theorem node_of_perform_error {action : SceneAction} {cause : AnimationError}
    (h : (a.perform action sheet).result = .error cause) :
    (a.perform action sheet).state.node = a.node := by
  cases action with
  | place target => cases h
  | unplace => cases h
  | animate animation reverse frameTime =>
      change (a.started _ sheet).result = .error cause at h
      rw [(a.started_eq _ sheet).2] at h
      show (a.started _ sheet).state.node = a.node
      unfold started
      rw [h]
      rfl
  | move target duration speed ease =>
      cases hoptions : MoveOptions.ofFields duration speed ease with
      | error refused =>
          rw [perform_move_of_error hoptions]
          rfl
      | ok options =>
          rw [perform_move_of_ok hoptions]
          rfl

end Actor

end SpriteStage
