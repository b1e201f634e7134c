import SpriteStage.Proofs.Animator.Compiled
import SpriteStage.Proofs.Animator.Visits

/-!
# No bad step

An animator that only plays animations of a set that was compiled whole cannot reach a bad step.
What carries this through all operations is `PlaysFrom`: the steps that are played belong to the set,
and the frame on screen exists. Under it, ticking fails only by a cycle or by a time that is not
finite (`PlaysFrom.tick`), starting fails only by an unknown name, a bad time scale or a cycle
(`PlaysFrom.animate`), and every step that may come up can be drawn for (`PlaysFrom.drawable`).
-/

set_option autoImplicit false

namespace SpriteStage

/-- An error that says that redirections, or frames, go on without end. -/
def AnimationError.IsCycle (e : AnimationError) : Prop :=
  ∃ animation redirects, e = .degenerateCycle animation redirects

namespace Animator

/-- An animator whose steps are those of an animation of the set, and whose frame is one of so
many. -/
structure PlaysFrom (animations : AnimationSet) (count : Nat) (a : Animator) : Prop where
  /-- The set is the one that the animator knows. -/
  animations_eq : a.animations = animations
  /-- The steps belong to the set. -/
  steps_known : ∀ steps, a.playback.steps = some steps →
    ∃ name, animations.get? name = some steps
  /-- The frame on screen exists. -/
  frame_lt : ∀ frame, a.playback.frame = some frame → frame.toNat < count

/-- The cursor is on a step. -/
def OnStep (a : Animator) : Prop := a.playback.cursor < a.playback.length

theorem onStep_of_steps {a : Animator} {steps : Sequence} (hsteps : a.playback.steps = some steps)
    (hcursor : a.playback.cursor < steps.length) : a.OnStep := by
  unfold OnStep Playback.length
  rw [hsteps]
  exact hcursor

/-- The step under the cursor. -/
theorem OnStep.exists_step {a : Animator} (h : a.OnStep) :
    ∃ steps step, a.playback.steps = some steps ∧ a.playback.step? = some step ∧ step ∈ steps := by
  unfold OnStep Playback.length at h
  unfold Playback.step?
  cases hsteps : a.playback.steps with
  | none =>
      rw [hsteps] at h
      exact absurd h (Nat.not_lt_zero _)
  | some steps =>
      rw [hsteps] at h
      have hcursor : a.playback.cursor < steps.length := h
      refine ⟨steps, steps[a.playback.cursor], rfl, ?_, List.getElem_mem hcursor⟩
      exact List.getElem?_eq_getElem hcursor

/-! ## One step -/

section

variable {animations : AnimationSet} {count : Nat} (hset : SoundSet animations (some count))

theorem PlaysFrom.display {a : Animator} (h : PlaysFrom animations count a) {frame : UInt64}
    (hframe : frame.toNat < count) (duration : FrameDuration) (leftover : Float32) :
    PlaysFrom animations count (a.display frame duration leftover) := by
  refine ⟨h.animations_eq, h.steps_known, ?_⟩
  intro other hother
  cases hother
  exact hframe

theorem PlaysFrom.stop {a : Animator} (h : PlaysFrom animations count a) :
    PlaysFrom animations count a.stop :=
  ⟨h.animations_eq, h.steps_known, h.frame_lt⟩

theorem PlaysFrom.advanced {a : Animator} (h : PlaysFrom animations count a) :
    PlaysFrom animations count a.advanced :=
  ⟨h.animations_eq, h.steps_known, h.frame_lt⟩

theorem PlaysFrom.elapse {a : Animator} (h : PlaysFrom animations count a) (elapsed : Float32) :
    PlaysFrom animations count (a.elapse elapsed) :=
  ⟨h.animations_eq, h.steps_known, h.frame_lt⟩

include hset

/-- The step under the cursor was compiled with its set. -/
theorem PlaysFrom.exists_step {a : Animator} (h : PlaysFrom animations count a) (hin : a.OnStep) :
    ∃ step, a.playback.step? = some step ∧ step.Playable ∧
      (∀ frame ∈ step.frames, frame.toNat < count) ∧
      ∀ target, step = .link target → ∃ next, animations.get? target = some next := by
  obtain ⟨steps, step, hsteps, hstep, hmem⟩ := hin.exists_step
  obtain ⟨name, hname⟩ := h.steps_known steps hsteps
  refine ⟨step, hstep, (hset.playable name steps hname).playable step hmem, ?_, ?_⟩
  · exact hset.framed count rfl name steps hname step hmem
  · rintro target rfl
    exact hset.linked name steps target hname hmem

/-- The first step of an animation of the set. -/
theorem PlaysFrom.switched {a : Animator} (h : PlaysFrom animations count a) {target : String}
    {next : Sequence} (hnext : animations.get? target = some next) :
    PlaysFrom animations count (a.switched target next) ∧ (a.switched target next).OnStep := by
  refine ⟨⟨h.animations_eq, ?_, h.frame_lt⟩, ?_⟩
  · intro steps hsteps
    cases hsteps
    exact ⟨target, hnext⟩
  · exact onStep_of_steps rfl (List.length_pos_iff.2 (hset.playable target next hnext).nonempty)

/-- Every step that may come up was compiled, so that it can be drawn for. -/
theorem PlaysFrom.drawable {a : Animator} (h : PlaysFrom animations count a) :
    a.StepsSatisfy AnimationStep.Drawable := by
  have hknown : ∀ name steps, animations.get? name = some steps → ∀ step ∈ steps, step.Drawable :=
    fun name steps hname step hstep => ((hset.playable name steps hname).playable step hstep).drawable
  refine ⟨?_, h.animations_eq.symm ▸ hknown⟩
  intro steps hsteps
  obtain ⟨name, hname⟩ := h.steps_known steps hsteps
  exact hknown name steps hname

/-- A step of the set shows a frame that exists or leads to another step of the set. -/
theorem PlaysFrom.resolveStep {a : Animator} (h : PlaysFrom animations count a) (hin : a.OnStep)
    (leftover : Float32) :
    (∃ b frame, a.resolveStep leftover = .shown b frame ∧ PlaysFrom animations count b) ∨
      ∃ b signal, a.resolveStep leftover = .redirected b signal ∧
        PlaysFrom animations count b ∧ b.OnStep := by
  obtain ⟨step, hstep, hplayable, hframes, hlinks⟩ := h.exists_step hset hin
  rcases resolveStep_cases a leftover with ⟨index, duration, hcase, heq⟩ |
    ⟨choices, duration, hcase, heq⟩ | ⟨hcase, heq⟩ | ⟨target, next, hcase, hnext, heq⟩ |
    ⟨hcase, heq⟩ | ⟨target, hcase, hnone, heq⟩
  · -- a frame
    cases hstep.symm.trans hcase
    refine Or.inl ⟨_, _, heq, ?_⟩
    exact h.display (hframes index List.mem_cons_self) duration leftover
  · -- one of several frames; picking one of them leaves the steps and the frame as they are
    cases hstep.symm.trans hcase
    obtain ⟨-, hchoices⟩ := hplayable
    have hpicked : PlaysFrom animations count (a.pick choices).2 :=
      ⟨h.animations_eq, h.steps_known, h.frame_lt⟩
    refine Or.inl ⟨_, _, heq, ?_⟩
    exact hpicked.display (hframes _ (a.pick_mem hchoices)) duration leftover
  · -- a loop, which leads to the first step; there is one, as the cursor is on a step
    refine Or.inr ⟨_, _, heq, ?_, ?_⟩
    · exact ⟨h.animations_eq, h.steps_known, h.frame_lt⟩
    · exact Nat.lt_of_le_of_lt (Nat.zero_le _) hin
  · -- a link
    rw [h.animations_eq] at hnext
    exact Or.inr ⟨_, _, heq, h.switched hset hnext⟩
  · -- no step: the cursor would be behind the last one
    exact absurd (hstep.symm.trans hcase) (Option.some_ne_none step)
  · -- a link to nowhere: compiling the set has refused it
    cases hstep.symm.trans hcase
    obtain ⟨next, hnext⟩ := hlinks target rfl
    rw [h.animations_eq, hnext] at hnone
    exact absurd hnone (Option.some_ne_none next)

/-! ## Runs of steps -/

/-- Redirections within the set end at a frame that exists or exceed their budget. -/
theorem PlaysFrom.resolveWithin {a : Animator} (h : PlaysFrom animations count a) (hin : a.OnStep)
    (leftover : Float32) (budget : Nat) :
    PlaysFrom animations count (a.resolveWithin leftover budget).state ∧
      ∀ e, (a.resolveWithin leftover budget).result = .error e → e.IsCycle := by
  induction budget generalizing a with
  | zero =>
      obtain ⟨b, frame, heq, hb⟩ | ⟨b, signal, heq, hb, -⟩ := h.resolveStep hset hin leftover
      · rw [resolveWithin_of_shown heq]
        exact ⟨hb, fun e he => (nomatch he)⟩
      · rw [resolveWithin_zero_of_redirected heq]
        refine ⟨hb, ?_⟩
        intro e he
        cases he
        exact ⟨_, _, rfl⟩
  | succ budget ih =>
      obtain ⟨b, frame, heq, hb⟩ | ⟨b, signal, heq, hb, hbin⟩ := h.resolveStep hset hin leftover
      · rw [resolveWithin_of_shown heq]
        exact ⟨hb, fun e he => (nomatch he)⟩
      · rw [resolveWithin_succ_of_redirected heq]
        exact ih hb hbin

/-- Starting an animation of the set fails only by a bad time scale or a cycle. -/
theorem PlaysFrom.launch {a : Animator} (h : PlaysFrom animations count a) {name : String}
    {steps : Sequence} (hsteps : animations.get? name = some steps) (reverse : Bool)
    (timeScale : Float32) :
    PlaysFrom animations count (a.launch steps (some name) reverse timeScale).state ∧
      ∀ e, (a.launch steps (some name) reverse timeScale).result = .error e →
        e = .invalidTimeScale timeScale ∨ e.IsCycle := by
  -- the animation has a first step, as it was compiled
  have hne := (hset.playable name steps hsteps).nonempty
  by_cases hscale : timeScale.isFinite = false ∨ timeScale ≤ 0.0
  · rw [launch_of_invalidTimeScale hscale]
    refine ⟨h.stop, ?_⟩
    intro e he
    cases he
    exact Or.inl rfl
  · have hbegun : PlaysFrom animations count (a.begun steps (some name) reverse timeScale) := by
      refine ⟨h.animations_eq, ?_, h.frame_lt⟩
      intro other hother
      cases hother
      exact ⟨name, hsteps⟩
    have hin : (a.begun steps (some name) reverse timeScale).OnStep :=
      onStep_of_steps rfl (List.length_pos_iff.2 hne)
    obtain ⟨hstate, herror⟩ := hbegun.resolveWithin hset hin 0.0 a.maxRedirects
    rw [launch_eq hscale hne, result_stopOnFailure]
    refine ⟨stopOnFailure_induct (fun _ hb => hb.stop) hstate, ?_⟩
    intro e he
    exact Or.inr (herror e he)

theorem PlaysFrom.animate {a : Animator} (h : PlaysFrom animations count a) (name : String)
    (reverse : Bool) (timeScale : Option Float32) :
    PlaysFrom animations count (a.animate name reverse timeScale).state ∧
      ∀ e, (a.animate name reverse timeScale).result = .error e →
        (e = .unknownAnimation name ∧ animations.get? name = none) ∨
          e = .invalidTimeScale (timeScale.getD a.frameTime) ∨ e.IsCycle := by
  unfold Animator.animate
  rw [h.animations_eq]
  cases hget : animations.get? name with
  | none =>
      refine ⟨h.stop, ?_⟩
      intro e he
      cases he
      exact Or.inl ⟨rfl, rfl⟩
  | some steps =>
      obtain ⟨hstate, herror⟩ := h.launch hset hget reverse (timeScale.getD a.frameTime)
      refine ⟨hstate, ?_⟩
      intro e he
      exact Or.inr (herror e he)

/-! ## Ticks -/

theorem PlaysFrom.due {a : Animator} (h : PlaysFrom animations count a)
    (hin : a.playback.cursor + 1 < a.playback.length) :
    PlaysFrom animations count a.due.state ∧ ∀ e, a.due.result = .error e → e.IsCycle :=
  h.advanced.resolveWithin hset hin a.playback.countdown a.maxRedirects

theorem PlaysFrom.advanceWithin {a : Animator} (h : PlaysFrom animations count a)
    (shown budget : Nat) :
    PlaysFrom animations count (a.advanceWithin shown budget).state ∧
      ∀ e, (a.advanceWithin shown budget).result = .error e → e.IsCycle := by
  induction budget using Nat.strongRecOn generalizing a shown with
  | ind budget ih =>
      rcases advanceWithin_cases a shown budget with
        ⟨hwait, heq⟩ | ⟨-, hend, heq⟩ | ⟨hdue, hin, cause, heq, hresult⟩ |
        ⟨hdue, hin, hok, hmoved, rest, rfl, heq⟩
      · rw [heq]
        exact ⟨h, fun e he => (nomatch he)⟩
      · rw [heq]
        exact ⟨h.advanced.stop, fun e he => (nomatch he)⟩
      · -- the frame is refused for its own cycle, or for taking no time, which counts as one
        obtain ⟨hstate, herror⟩ := h.due hset hin
        rw [heq]
        refine ⟨hstate.stop, ?_⟩
        intro e he
        cases he
        rcases hresult with hfailed | ⟨-, hcause, -⟩
        · exact herror cause hfailed
        · exact ⟨_, _, hcause⟩
      · rw [heq]
        exact ih rest (Nat.lt_succ_self rest) (h.due hset hin).1 (shown + 1)

/-- A tick over animations of the set fails only by a cycle or a time that is not finite. -/
theorem PlaysFrom.tick {a : Animator} (h : PlaysFrom animations count a) (elapsed : Float32) :
    PlaysFrom animations count (a.tick elapsed).state ∧
      ∀ e, (a.tick elapsed).result = .error e → e = .invalidElapsed elapsed ∨ e.IsCycle := by
  by_cases hinvalid : elapsed.isFinite = false
  · rw [tick_of_invalidElapsed hinvalid]
    refine ⟨h, ?_⟩
    intro e he
    cases he
    exact Or.inl rfl
  · by_cases hidle : a.playback.playing = false
    · rw [tick_of_idle hinvalid hidle]
      exact ⟨h, fun e he => (nomatch he)⟩
    · rw [tick_eq hinvalid hidle]
      obtain ⟨hstate, herror⟩ := (h.elapse elapsed).advanceWithin hset 0 a.maxFramesPerTick
      refine ⟨hstate, ?_⟩
      intro e he
      exact Or.inr (herror e he)

end

end Animator

end SpriteStage
