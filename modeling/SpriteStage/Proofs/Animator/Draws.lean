import SpriteStage.Proofs.Animator.Play
import SpriteStage.Proofs.Random

/-!
# The draws of an animator

An animator draws from its random source when a frame is shown: the frame, if it is one of several,
and the duration, if it is a range. What is picked is one of the candidates (`pick_mem`). Which draws
a step asks for is said by `stepDraws`; that it makes these draws, in this order and no others, is
seen from the record of the source (`random_resolveStep`).
-/

set_option autoImplicit false

namespace SpriteStage

/-- The draw of a duration. -/
def FrameDuration.draws : FrameDuration → List Draw
  | .range least greatest => [.range least greatest]
  | _ => []

theorem FrameDuration.random_draw (d : FrameDuration) (r : Random) :
    (d.draw r).2 = r.after d.draws := by
  cases d with
  | fixed count => rfl
  | range least greatest => rfl

namespace Animator

/-! ## Picks -/

theorem candidates_of_eq_nil {a : Animator} {choices : List UInt64}
    (h : allowed a.playback.lastPick choices = []) : a.candidates choices = choices :=
  if_pos h

theorem candidates_of_ne_nil {a : Animator} {choices : List UInt64}
    (h : allowed a.playback.lastPick choices ≠ []) :
    a.candidates choices = allowed a.playback.lastPick choices :=
  if_neg h

theorem candidates_subset (a : Animator) (choices : List UInt64) :
    ∀ c ∈ a.candidates choices, c ∈ choices := by
  intro c hc
  by_cases hnone : allowed a.playback.lastPick choices = []
  · rwa [candidates_of_eq_nil hnone] at hc
  · rw [candidates_of_ne_nil hnone] at hc
    exact (List.mem_filter.1 hc).1

theorem candidates_ne_nil (a : Animator) {choices : List UInt64} (h : choices ≠ []) :
    a.candidates choices ≠ [] := by
  by_cases hnone : allowed a.playback.lastPick choices = []
  · rwa [candidates_of_eq_nil hnone]
  · rwa [candidates_of_ne_nil hnone]

/-- The frame that is picked is the one whose index is drawn. -/
theorem getElem?_candidates (a : Animator) {choices : List UInt64} (h : a.candidates choices ≠ []) :
    (a.candidates choices)[(a.random.index (a.candidates choices).length).1]? =
      some (a.pick choices).1 := by
  have hlt := a.random.index_lt (List.length_pos_iff.2 h)
  have hpick : (a.pick choices).1 =
      ((a.candidates choices)[(a.random.index (a.candidates choices).length).1]?).getD
        (choices.headD 0) := rfl
  rw [hpick, List.getElem?_eq_getElem hlt, Option.getD_some]

/-- The frame that is picked is one of the choices. -/
theorem pick_mem (a : Animator) {choices : List UInt64} (h : choices ≠ []) :
    (a.pick choices).1 ∈ choices :=
  a.candidates_subset choices _ (List.mem_of_getElem? (a.getElem?_candidates (a.candidates_ne_nil h)))

/-! ## Draws of a step -/

/-- The draws of the step under the cursor. -/
def stepDraws (a : Animator) : List Draw :=
  match a.playback.step? with
  | some (.unique choices duration) => .index (a.candidates choices).length :: duration.draws
  | some (.frame _ duration) => duration.draws
  | _ => []

theorem random_display (a : Animator) (frame : UInt64) (duration : FrameDuration)
    (leftover : Float32) :
    (a.display frame duration leftover).random = a.random.after duration.draws :=
  duration.random_draw a.random

/-- A step that shows a frame draws for it, and any other step draws nothing. -/
theorem random_resolveStep (a : Animator) (leftover : Float32) :
    (∃ b frame, a.resolveStep leftover = .shown b frame ∧
      b.random = a.random.after a.stepDraws) ∨
    (∃ b signal, a.resolveStep leftover = .redirected b signal ∧ b.random = a.random ∧
      a.stepDraws = []) ∨
    (∃ cause, a.resolveStep leftover = .failed cause ∧ a.stepDraws = []) := by
  unfold stepDraws
  rcases resolveStep_cases a leftover with ⟨index, duration, hstep, heq⟩ |
    ⟨choices, duration, hstep, heq⟩ | ⟨hstep, heq⟩ | ⟨target, steps, hstep, -, heq⟩ |
    ⟨hstep, heq⟩ | ⟨target, hstep, -, heq⟩
  · -- a frame is drawn for, if its duration is a range
    rw [hstep]
    exact Or.inl ⟨_, _, heq, random_display a index duration leftover⟩
  · -- the source is drawn from twice: for the frame, and for its duration
    rw [hstep]
    refine Or.inl ⟨_, _, heq, ?_⟩
    exact random_display _ _ duration leftover
  · -- from here on no frame is shown, and the source stays as it is
    rw [hstep]
    exact Or.inr (Or.inl ⟨_, _, heq, rfl, rfl⟩)
  · rw [hstep]
    exact Or.inr (Or.inl ⟨_, _, heq, rfl, rfl⟩)
  · rw [hstep]
    exact Or.inr (Or.inr ⟨_, heq, rfl⟩)
  · rw [hstep]
    exact Or.inr (Or.inr ⟨_, heq, rfl⟩)

end Animator

end SpriteStage
