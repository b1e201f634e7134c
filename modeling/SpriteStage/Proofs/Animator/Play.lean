import SpriteStage.Animator

/-!
# How an animator plays

What a step does is one of a few things, and so is what a tick does with a frame that is due. This
module states each as an equation, and draws from them what every property of a run is proved by: a
property of animators that no single step breaks holds after redirections (`resolveWithin_induct`),
after a start (`launch_induct`) and after the frames of a tick (`advanceWithin_induct`), whether they
succeed or fail.
-/

set_option autoImplicit false

namespace SpriteStage.Animator

variable {a b : Animator} {leftover : Float32} {frame : UInt64} {cause : AnimationError}
  {signal : Signal} {shown budget : Nat}

/-! ## Steps -/

/-- The animator that shows one of several frames. -/
def picked (a : Animator) (choices : List UInt64) (duration : FrameDuration) (leftover : Float32) :
    Animator :=
  (a.pick choices).2.display (a.pick choices).1 duration leftover

/-- The animator at the first of its steps. -/
def rewound (a : Animator) : Animator := { a with playback := a.playback.rewound }

/-- The animator at the first step of another animation. -/
def switched (a : Animator) (target : String) (steps : Sequence) : Animator :=
  { a with playback := a.playback.switched target steps }

/-- Every way in which a step is resolved. -/
theorem resolveStep_cases (a : Animator) (leftover : Float32) :
    (∃ index duration, a.playback.step? = some (.frame index duration) ∧
      a.resolveStep leftover = .shown (a.display index duration leftover) index) ∨
    (∃ choices duration, a.playback.step? = some (.unique choices duration) ∧
      a.resolveStep leftover = .shown (a.picked choices duration leftover) (a.pick choices).1) ∨
    (a.playback.step? = some .loop ∧ a.resolveStep leftover = .redirected a.rewound .loop) ∨
    (∃ target steps, a.playback.step? = some (.link target) ∧
      a.animations.get? target = some steps ∧
      a.resolveStep leftover = .redirected (a.switched target steps) (.link target)) ∨
    (a.playback.step? = none ∧
      a.resolveStep leftover = .failed (.emptyAnimation a.playback.label)) ∨
    (∃ target, a.playback.step? = some (.link target) ∧ a.animations.get? target = none ∧
      a.resolveStep leftover = .failed (.unknownAnimation target)) := by
  unfold resolveStep
  cases hstep : a.playback.step? with
  | none => exact Or.inr (Or.inr (Or.inr (Or.inr (Or.inl ⟨rfl, rfl⟩))))
  | some step =>
      cases step with
      | frame index duration => exact Or.inl ⟨index, duration, rfl, rfl⟩
      | unique choices duration => exact Or.inr (Or.inl ⟨choices, duration, rfl, rfl⟩)
      | loop => exact Or.inr (Or.inr (Or.inl ⟨rfl, rfl⟩))
      | link target =>
          cases hget : a.animations.get? target with
          | some steps =>
              refine Or.inr (Or.inr (Or.inr (Or.inl ⟨target, steps, rfl, hget, ?_⟩)))
              simp only [hget]
              rfl
          | none =>
              refine Or.inr (Or.inr (Or.inr (Or.inr (Or.inr ⟨target, rfl, hget, ?_⟩))))
              simp only [hget]

/-- A step that shows a frame has it, or picks it. -/
theorem shown_cases (h : a.resolveStep leftover = .shown b frame) :
    (∃ duration, a.playback.step? = some (.frame frame duration) ∧
      b = a.display frame duration leftover) ∨
    ∃ choices duration, a.playback.step? = some (.unique choices duration) ∧
      frame = (a.pick choices).1 ∧ b = a.picked choices duration leftover := by
  rcases resolveStep_cases a leftover with ⟨_, duration, hstep, heq⟩ |
    ⟨choices, duration, hstep, heq⟩ | ⟨-, heq⟩ | ⟨_, _, -, -, heq⟩ | ⟨-, heq⟩ | ⟨_, -, -, heq⟩
  · cases heq.symm.trans h
    exact Or.inl ⟨duration, hstep, rfl⟩
  · cases heq.symm.trans h
    exact Or.inr ⟨choices, duration, hstep, rfl, rfl⟩
  all_goals cases heq.symm.trans h

/-- A step that redirects is a loop, or a link to an animation that is known. -/
theorem redirected_cases (h : a.resolveStep leftover = .redirected b signal) :
    (a.playback.step? = some .loop ∧ signal = .loop ∧ b = a.rewound) ∨
    ∃ target steps, a.playback.step? = some (.link target) ∧
      a.animations.get? target = some steps ∧ signal = .link target ∧
      b = a.switched target steps := by
  rcases resolveStep_cases a leftover with ⟨_, _, -, heq⟩ | ⟨_, _, -, heq⟩ | ⟨hstep, heq⟩ |
    ⟨target, steps, hstep, hget, heq⟩ | ⟨-, heq⟩ | ⟨_, -, -, heq⟩
  · cases heq.symm.trans h
  · cases heq.symm.trans h
  · cases heq.symm.trans h
    exact Or.inl ⟨hstep, rfl, rfl⟩
  · cases heq.symm.trans h
    exact Or.inr ⟨target, steps, hstep, hget, rfl, rfl⟩
  all_goals cases heq.symm.trans h

/-- A step that fails is missing, or links to an animation that is not known. -/
theorem failed_cases (h : a.resolveStep leftover = .failed cause) :
    (a.playback.step? = none ∧ cause = .emptyAnimation a.playback.label) ∨
    ∃ target, a.playback.step? = some (.link target) ∧ a.animations.get? target = none ∧
      cause = .unknownAnimation target := by
  rcases resolveStep_cases a leftover with ⟨_, _, -, heq⟩ | ⟨_, _, -, heq⟩ | ⟨-, heq⟩ |
    ⟨_, _, -, -, heq⟩ | ⟨hstep, heq⟩ | ⟨target, hstep, hget, heq⟩
  · cases heq.symm.trans h
  · cases heq.symm.trans h
  · cases heq.symm.trans h
  · cases heq.symm.trans h
  · cases heq.symm.trans h
    exact Or.inl ⟨hstep, rfl⟩
  · cases heq.symm.trans h
    exact Or.inr ⟨target, hstep, hget, rfl⟩

/-! ## Redirections -/

theorem resolveWithin_of_shown (h : a.resolveStep leftover = .shown b frame) :
    a.resolveWithin leftover budget = { state := b, signals := [.frame frame], result := .ok () } := by
  rw [resolveWithin.eq_def, h]

theorem resolveWithin_of_failed (h : a.resolveStep leftover = .failed cause) :
    a.resolveWithin leftover budget = .failure a cause := by
  rw [resolveWithin.eq_def, h]

theorem resolveWithin_zero_of_redirected (h : a.resolveStep leftover = .redirected b signal) :
    a.resolveWithin leftover 0 =
      { state := b
        signals := [signal]
        result := .error (.degenerateCycle b.playback.label (b.maxRedirects + 1)) } := by
  rw [resolveWithin.eq_def, h]

theorem resolveWithin_succ_of_redirected (h : a.resolveStep leftover = .redirected b signal) :
    a.resolveWithin leftover (budget + 1) = (b.resolveWithin leftover budget).after [signal] := by
  rw [resolveWithin.eq_def, h]

/-- What showing a frame and going to another step keep holds after redirections, whether they
succeed or fail. -/
theorem resolveWithin_induct {P : Animator → Prop}
    (hdisplay : ∀ a index duration, P a → P (a.display index duration leftover))
    (hpicked : ∀ a choices duration, P a → P (a.picked choices duration leftover))
    (hrewound : ∀ a, P a → P a.rewound)
    (hswitched : ∀ a target steps, P a → a.animations.get? target = some steps →
      P (a.switched target steps))
    (h : P a) : P (a.resolveWithin leftover budget).state := by
  -- Each redirection uses up budget; without any, the step that it leads to is not resolved.
  induction budget generalizing a with
  | zero =>
      rcases resolveStep_cases a leftover with ⟨_, _, -, hstep⟩ | ⟨_, _, -, hstep⟩ | ⟨-, hstep⟩ |
        ⟨_, _, -, hget, hstep⟩ | ⟨-, hstep⟩ | ⟨_, -, -, hstep⟩
      · rw [resolveWithin_of_shown hstep]
        exact hdisplay a _ _ h
      · rw [resolveWithin_of_shown hstep]
        exact hpicked a _ _ h
      · rw [resolveWithin_zero_of_redirected hstep]
        exact hrewound a h
      · rw [resolveWithin_zero_of_redirected hstep]
        exact hswitched a _ _ h hget
      · rw [resolveWithin_of_failed hstep]
        exact h
      · rw [resolveWithin_of_failed hstep]
        exact h
  | succ budget ih =>
      rcases resolveStep_cases a leftover with ⟨_, _, -, hstep⟩ | ⟨_, _, -, hstep⟩ | ⟨-, hstep⟩ |
        ⟨_, _, -, hget, hstep⟩ | ⟨-, hstep⟩ | ⟨_, -, -, hstep⟩
      · rw [resolveWithin_of_shown hstep]
        exact hdisplay a _ _ h
      · rw [resolveWithin_of_shown hstep]
        exact hpicked a _ _ h
      · rw [resolveWithin_succ_of_redirected hstep, Outcome.state_after]
        exact ih (hrewound a h)
      · rw [resolveWithin_succ_of_redirected hstep, Outcome.state_after]
        exact ih (hswitched a _ _ h hget)
      · rw [resolveWithin_of_failed hstep]
        exact h
      · rw [resolveWithin_of_failed hstep]
        exact h

/-! ## Starting -/

/-- The playback that a start begins with. -/
def begun (a : Animator) (steps : Sequence) (animation : Option String) (reverse : Bool)
    (timeScale : Float32) : Animator :=
  { a with
    playback :=
      { a.playback with
        steps := some steps
        cursor := 0
        animation := animation
        mirrored := reverse
        timeScale := timeScale
        playing := true } }

theorem launch_of_invalidTimeScale {steps : Sequence} {animation : Option String} {reverse : Bool}
    {timeScale : Float32} (h : timeScale.isFinite = false ∨ timeScale ≤ 0.0) :
    a.launch steps animation reverse timeScale = .failure a.stop (.invalidTimeScale timeScale) := by
  unfold launch
  rw [if_pos h]

theorem launch_nil {animation : Option String} {reverse : Bool} {timeScale : Float32}
    (h : ¬(timeScale.isFinite = false ∨ timeScale ≤ 0.0)) :
    a.launch [] animation reverse timeScale =
      .failure a.stop (.emptyAnimation (animation.getD Playback.manualLabel)) := by
  unfold launch
  rw [if_neg h, if_pos rfl]

theorem launch_eq {steps : Sequence} {animation : Option String} {reverse : Bool}
    {timeScale : Float32} (h : ¬(timeScale.isFinite = false ∨ timeScale ≤ 0.0)) (hne : steps ≠ []) :
    a.launch steps animation reverse timeScale =
      stopOnFailure ((a.begun steps animation reverse timeScale).resolve 0.0) := by
  unfold launch
  rw [if_neg h, if_neg hne]
  rfl

/-- A start is refused, or the first frame is sought. -/
theorem launch_cases (a : Animator) (steps : Sequence) (animation : Option String) (reverse : Bool)
    (timeScale : Float32) :
    (∃ cause, a.launch steps animation reverse timeScale = .failure a.stop cause) ∨
      a.launch steps animation reverse timeScale =
        stopOnFailure ((a.begun steps animation reverse timeScale).resolve 0.0) := by
  by_cases hscale : timeScale.isFinite = false ∨ timeScale ≤ 0.0
  · exact Or.inl ⟨_, launch_of_invalidTimeScale hscale⟩
  · by_cases hne : steps = []
    · subst hne
      exact Or.inl ⟨_, launch_nil hscale⟩
    · exact Or.inr (launch_eq hscale hne)

theorem stopOnFailure_of_ok {α : Type} {o : Outcome Animator α} {answer : α}
    (h : o.result = .ok answer) : stopOnFailure o = o := by
  unfold stopOnFailure
  rw [h]

theorem stopOnFailure_of_error {α : Type} {o : Outcome Animator α}
    (h : o.result = .error cause) : stopOnFailure o = { o with state := o.state.stop } := by
  unfold stopOnFailure
  rw [h]

theorem stopOnFailure_induct {α : Type} {P : Animator → Prop} {o : Outcome Animator α}
    (hstop : ∀ a, P a → P a.stop) (h : P o.state) : P (stopOnFailure o).state := by
  unfold stopOnFailure
  cases o.result with
  | ok answer => exact h
  | error cause => exact hstop _ h

theorem result_stopOnFailure {α : Type} (o : Outcome Animator α) :
    (stopOnFailure o).result = o.result := by
  obtain ⟨state, signals, log, result⟩ := o
  cases result with
  | ok answer => rfl
  | error cause => rfl

/-- What stopping keeps, and resolving from the first of some steps gives, holds after a start. -/
theorem launch_induct {P : Animator → Prop} {steps : Sequence} {animation : Option String}
    {reverse : Bool} {timeScale : Float32} (hstop : ∀ a, P a → P a.stop)
    (hresolve : steps ≠ [] → P ((a.begun steps animation reverse timeScale).resolve 0.0).state)
    (h : P a) : P (a.launch steps animation reverse timeScale).state := by
  by_cases hscale : timeScale.isFinite = false ∨ timeScale ≤ 0.0
  · rw [launch_of_invalidTimeScale hscale]
    exact hstop a h
  · by_cases hne : steps = []
    · subst hne
      rw [launch_nil hscale]
      exact hstop a h
    · rw [launch_eq hscale hne]
      exact stopOnFailure_induct hstop (hresolve hne)

/-- A named animation is started if there is one; what a refused start and a start of any steps have
in common, the start of a named animation has too. -/
theorem animate_induct {P : Outcome Animator Unit → Prop}
    (hrefused : ∀ cause, P (.failure a.stop cause))
    (hlaunch : ∀ steps animation reverse timeScale, P (a.launch steps animation reverse timeScale))
    (name : String) (reverse : Bool) (timeScale : Option Float32) :
    P (a.animate name reverse timeScale) := by
  unfold animate
  cases a.animations.get? name with
  | none => exact hrefused _
  | some steps => exact hlaunch steps (some name) reverse _

/-- The same for authored steps, which are started if they compile. -/
theorem animateManual_induct {P : Outcome Animator Unit → Prop}
    (hrefused : ∀ cause, P (.failure a.stop cause))
    (hlaunch : ∀ steps animation reverse timeScale, P (a.launch steps animation reverse timeScale))
    (steps : List AuthoredStep) (reverse : Bool) (timeScale : Option Float32) :
    P (a.animateManual steps reverse timeScale) := by
  unfold animateManual
  cases compileAnimation Playback.manualLabel steps with
  | error cause => exact hrefused cause
  | ok compiled => exact hlaunch compiled none reverse _

/-! ## Ticking -/

/-- The outcome of a tick that cannot go on: the animator is idle, and the signals are kept. -/
def refused (o : Outcome Animator Unit) (cause : AnimationError) : Outcome Animator Bool :=
  { state := o.state.stop, signals := o.signals, result := .error cause }

/-- The frame on screen stays as long as time is left for it. -/
theorem advanceWithin_of_waiting (h : ¬ a.playback.countdown ≤ 0.0) :
    a.advanceWithin shown budget = .success a (decide (0 < shown)) := by
  rw [advanceWithin.eq_def, if_neg h]

/-- Running past the last step ends playback. -/
theorem advanceWithin_of_end (h : a.playback.countdown ≤ 0.0)
    (hend : a.playback.length ≤ a.playback.cursor + 1) :
    a.advanceWithin shown budget =
      { state := a.advanced.stop
        signals := [.stop a.playback.animation]
        result := .ok (decide (0 < shown)) } := by
  rw [advanceWithin.eq_def, if_pos h]
  exact if_pos hend

/-- A step that cannot be resolved ends playback. -/
theorem advanceWithin_of_error (h : a.playback.countdown ≤ 0.0)
    (hin : ¬ a.playback.length ≤ a.playback.cursor + 1)
    (hresult : (a.advanced.resolve a.playback.countdown).result = .error cause) :
    a.advanceWithin shown budget = refused (a.advanced.resolve a.playback.countdown) cause := by
  rw [advanceWithin.eq_def, if_pos h]
  refine (if_neg hin).trans ?_
  dsimp only
  rw [show a.advanced.playback.countdown = a.playback.countdown from rfl, hresult]
  rfl

/-- The error of a tick that shows too many frames, or one that takes no time. -/
def overrun (o : Outcome Animator Unit) (shown : Nat) : AnimationError :=
  .degenerateCycle o.state.playback.label (shown + 1)

/-- A frame that leaves the countdown where it was ends playback. -/
theorem advanceWithin_of_stuck (h : a.playback.countdown ≤ 0.0)
    (hin : ¬ a.playback.length ≤ a.playback.cursor + 1)
    (hresult : (a.advanced.resolve a.playback.countdown).result = .ok ())
    (hstuck : (a.advanced.resolve a.playback.countdown).state.playback.countdown ≤
      a.playback.countdown) :
    a.advanceWithin shown budget =
      refused (a.advanced.resolve a.playback.countdown)
        (overrun (a.advanced.resolve a.playback.countdown) shown) := by
  rw [advanceWithin.eq_def, if_pos h]
  refine (if_neg hin).trans ?_
  dsimp only
  rw [show a.advanced.playback.countdown = a.playback.countdown from rfl, hresult]
  exact if_pos hstuck

/-- A frame too many ends playback. -/
theorem advanceWithin_zero (h : a.playback.countdown ≤ 0.0)
    (hin : ¬ a.playback.length ≤ a.playback.cursor + 1)
    (hresult : (a.advanced.resolve a.playback.countdown).result = .ok ()) :
    a.advanceWithin shown 0 =
      refused (a.advanced.resolve a.playback.countdown)
        (overrun (a.advanced.resolve a.playback.countdown) shown) := by
  rw [advanceWithin.eq_def, if_pos h]
  refine (if_neg hin).trans ?_
  dsimp only
  rw [show a.advanced.playback.countdown = a.playback.countdown from rfl, hresult]
  exact ite_self _

/-- A frame within the budget is shown, and the tick goes on from it. -/
theorem advanceWithin_succ (h : a.playback.countdown ≤ 0.0)
    (hin : ¬ a.playback.length ≤ a.playback.cursor + 1)
    (hresult : (a.advanced.resolve a.playback.countdown).result = .ok ())
    (hmoved : ¬ (a.advanced.resolve a.playback.countdown).state.playback.countdown ≤
      a.playback.countdown) :
    a.advanceWithin shown (budget + 1) =
      ((a.advanced.resolve a.playback.countdown).state.advanceWithin (shown + 1) budget).after
        (a.advanced.resolve a.playback.countdown).signals := by
  rw [advanceWithin.eq_def, if_pos h]
  refine (if_neg hin).trans ?_
  dsimp only
  rw [show a.advanced.playback.countdown = a.playback.countdown from rfl, hresult]
  exact if_neg hmoved

/-- The frame that is due next, found with the time that the last one left over. -/
def due (a : Animator) : Outcome Animator Unit := a.advanced.resolve a.playback.countdown

/-- Every way in which a tick can go on: the frame stays, playback ends, the next frame is refused, or
it is shown and the tick goes on from it. -/
theorem advanceWithin_cases (a : Animator) (shown budget : Nat) :
    (¬ a.playback.countdown ≤ 0.0 ∧
      a.advanceWithin shown budget = .success a (decide (0 < shown))) ∨
    (a.playback.countdown ≤ 0.0 ∧ a.playback.length ≤ a.playback.cursor + 1 ∧
      a.advanceWithin shown budget =
        { state := a.advanced.stop
          signals := [.stop a.playback.animation]
          result := .ok (decide (0 < shown)) }) ∨
    (a.playback.countdown ≤ 0.0 ∧ a.playback.cursor + 1 < a.playback.length ∧
      ∃ cause, a.advanceWithin shown budget = refused a.due cause ∧
        (a.due.result = .error cause ∨
          (a.due.result = .ok () ∧ cause = overrun a.due shown ∧
            (a.due.state.playback.countdown ≤ a.playback.countdown ∨ budget = 0)))) ∨
    (a.playback.countdown ≤ 0.0 ∧ a.playback.cursor + 1 < a.playback.length ∧
      a.due.result = .ok () ∧ ¬ a.due.state.playback.countdown ≤ a.playback.countdown ∧
      ∃ rest, budget = rest + 1 ∧
        a.advanceWithin shown budget =
          (a.due.state.advanceWithin (shown + 1) rest).after a.due.signals) := by
  by_cases hdue : a.playback.countdown ≤ 0.0
  · by_cases hlast : a.playback.length ≤ a.playback.cursor + 1
    · exact Or.inr (Or.inl ⟨hdue, hlast, advanceWithin_of_end hdue hlast⟩)
    · have hin : a.playback.cursor + 1 < a.playback.length := by omega
      cases hresult : a.due.result with
      | error cause =>
          -- no frame is found
          refine Or.inr (Or.inr (Or.inl ⟨hdue, hin, cause, ?_, Or.inl rfl⟩))
          exact advanceWithin_of_error hdue hlast hresult
      | ok u =>
          by_cases hstuck : a.due.state.playback.countdown ≤ a.playback.countdown
          · -- the frame takes no time
            refine Or.inr (Or.inr (Or.inl ⟨hdue, hin, _, ?_, Or.inr ⟨rfl, rfl, Or.inl hstuck⟩⟩))
            exact advanceWithin_of_stuck hdue hlast hresult hstuck
          · cases budget with
            | zero =>
                -- the frame is one too many
                refine Or.inr (Or.inr (Or.inl ⟨hdue, hin, _, ?_, Or.inr ⟨rfl, rfl, Or.inr rfl⟩⟩))
                exact advanceWithin_zero hdue hlast hresult
            | succ rest =>
                refine Or.inr (Or.inr (Or.inr ⟨hdue, hin, rfl, hstuck, rest, rfl, ?_⟩))
                exact advanceWithin_succ hdue hlast hresult hstuck
  · exact Or.inl ⟨hdue, advanceWithin_of_waiting hdue⟩

/-- What advancing, resolving and stopping keep holds after the frames that are due. -/
theorem advanceWithin_induct {P : Animator → Prop} (hstop : ∀ a, P a → P a.stop)
    (hend : ∀ a, P a → P a.advanced.stop)
    (hnext : ∀ a, P a → a.playback.cursor + 1 < a.playback.length → P a.due.state) (h : P a) :
    P (a.advanceWithin shown budget).state := by
  -- The tick goes on with what is left of the budget, which the cases name, so the induction is strong.
  induction budget using Nat.strongRecOn generalizing a shown with
  | ind budget ih =>
      rcases advanceWithin_cases a shown budget with
        ⟨-, heq⟩ | ⟨-, -, heq⟩ | ⟨-, hin, cause, heq, -⟩ | ⟨-, hin, -, -, rest, hrest, heq⟩
      · rw [heq]
        exact h
      · rw [heq]
        exact hend a h
      · rw [heq]
        exact hstop _ (hnext a h hin)
      · rw [heq, Outcome.state_after]
        exact ih rest (by omega) (hnext a h hin)

theorem tick_of_invalidElapsed {elapsed : Float32} (h : elapsed.isFinite = false) :
    a.tick elapsed = .failure a (.invalidElapsed elapsed) := by
  unfold tick
  exact if_pos h

theorem tick_of_idle {elapsed : Float32} (h : ¬ elapsed.isFinite = false)
    (hidle : a.playback.playing = false) : a.tick elapsed = .success a false := by
  unfold tick
  exact (if_neg h).trans (if_pos hidle)

theorem tick_eq {elapsed : Float32} (h : ¬ elapsed.isFinite = false)
    (hplaying : ¬ a.playback.playing = false) :
    a.tick elapsed = (a.elapse elapsed).advanceWithin 0 a.maxFramesPerTick := by
  unfold tick
  exact (if_neg h).trans (if_neg hplaying)

/-- A tick is refused for its time, does nothing to an idle animator, or shows what is due. -/
theorem tick_cases (a : Animator) (elapsed : Float32) :
    a.tick elapsed = .failure a (.invalidElapsed elapsed) ∨
      (a.playback.playing = false ∧ a.tick elapsed = .success a false) ∨
      (a.playback.playing = true ∧
        a.tick elapsed = (a.elapse elapsed).advanceWithin 0 a.maxFramesPerTick) := by
  by_cases hinvalid : elapsed.isFinite = false
  · exact Or.inl (tick_of_invalidElapsed hinvalid)
  · by_cases hidle : a.playback.playing = false
    · exact Or.inr (Or.inl ⟨hidle, tick_of_idle hinvalid hidle⟩)
    · exact Or.inr (Or.inr ⟨by simpa using hidle, tick_eq hinvalid hidle⟩)

end SpriteStage.Animator
