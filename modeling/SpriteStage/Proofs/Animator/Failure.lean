import SpriteStage.Proofs.Animator.Story

/-!
# Failures of an animator

A start can fail before anything was touched, and after the steps, the cursor, the name and the
direction were written. Either way it leaves the animator idle and without a name, and no frame was
shown: redirections alone change nothing that a frame leaves behind (`failedStart_launch`). A tick
that fails leaves the animator idle as well (`idle_of_tick_error`), unless its time is refused, and
then it does nothing. An idle animator does nothing until something is started (`Idle.resting`).
-/

set_option autoImplicit false

namespace SpriteStage

/-- Whether the call starts something, or tries to. -/
def AnimatorCall.isStart : AnimatorCall → Bool
  | animate .. => true
  | animateManual .. => true
  | start .. => true
  | _ => false

namespace Animator

variable {a b c : Animator} {leftover elapsed : Float32} {shown budget : Nat}
  {cause : AnimationError}

/-! ## Causes -/

/-- A step fails for what is played, and not for how it is played. -/
theorem category_of_resolveStep (h : a.resolveStep leftover = .failed cause) :
    cause.category ≠ .playback := by
  rcases failed_cases h with ⟨-, rfl⟩ | ⟨target, -, -, rfl⟩
  · simp [AnimationError.category]
  · simp [AnimationError.category]

/-- Redirections fail for what is played, or for going on without end. -/
theorem category_of_resolveWithin (h : (a.resolveWithin leftover budget).result = .error cause) :
    cause.category ≠ .playback := by
  fun_induction resolveWithin leftover budget a with
  | case1 budget a b frame hstep => cases h
  | case2 budget a failure hstep =>
      cases h
      exact category_of_resolveStep hstep
  | case3 a b signal hstep =>
      cases h
      simp [AnimationError.category]
  | case4 a b signal hstep budget ih => exact ih h

theorem category_of_advanceWithin (h : (a.advanceWithin shown budget).result = .error cause) :
    cause.category ≠ .playback := by
  induction budget using Nat.strongRecOn generalizing a shown with
  | ind budget ih =>
      rcases advanceWithin_cases a shown budget with
        ⟨-, heq⟩ | ⟨-, -, heq⟩ | ⟨-, -, failure, heq, hcause⟩ | ⟨-, -, -, -, rest, rfl, heq⟩
      · rw [heq] at h
        cases h
      · rw [heq] at h
        cases h
      · rw [heq] at h
        cases h
        rcases hcause with hfailed | ⟨-, rfl, -⟩
        · exact category_of_resolveWithin hfailed
        · simp [overrun, AnimationError.category]
      · rw [heq, Outcome.result_after] at h
        exact ih rest (Nat.lt_succ_self rest) h

/-- Only a time that is not finite is refused as one. -/
theorem isFinite_of_tick_invalidElapsed {value : Float32}
    (h : (a.tick elapsed).result = .error (.invalidElapsed value)) : elapsed.isFinite = false := by
  by_cases hinvalid : elapsed.isFinite = false
  · exact hinvalid
  · by_cases hidle : a.playback.playing = false
    · rw [tick_of_idle hinvalid hidle] at h
      cases h
    · rw [tick_eq hinvalid hidle] at h
      exact absurd rfl (category_of_advanceWithin h)

/-! ## Idle animators -/

/-- Nothing is playing, and nothing is named. -/
structure Idle (a : Animator) : Prop where
  /-- Time does not move the animator. -/
  playing_eq : a.playback.playing = false
  /-- No animation is named. -/
  animation_eq : a.playback.animation = none

/-- Until something is started, the animator reports nothing, and time does nothing to it. -/
def Resting (a : Animator) : Prop :=
  ∀ later : List AnimatorCall, (∀ call ∈ later, call.isStart = false) →
    a.chronicle later = [] ∧
      ∀ elapsed, elapsed.isFinite = true →
        (a.respondAll later).tick elapsed = .success (a.respondAll later) false

theorem idle_stop (a : Animator) : a.stop.Idle := ⟨rfl, rfl⟩

/-- Time is refused or does nothing. -/
theorem Idle.tick_eq (h : a.Idle) (elapsed : Float32) :
    a.tick elapsed =
      if elapsed.isFinite = false then .failure a (.invalidElapsed elapsed)
      else .success a false := by
  unfold tick
  rw [if_pos h.playing_eq]

theorem Idle.respond (h : a.Idle) {call : AnimatorCall} (hcall : call.isStart = false) :
    (a.respond call).Idle ∧ a.reports call = [] := by
  cases call with
  | animate name reverse timeScale => cases hcall
  | animateManual steps reverse timeScale => cases hcall
  | start steps reverse timeScale => cases hcall
  | tick elapsed =>
      rw [Animator.respond, reports, h.tick_eq]
      split
      · exact ⟨h, rfl⟩
      · exact ⟨h, rfl⟩
  | stop => exact ⟨a.idle_stop, rfl⟩
  | setFrame frame => exact ⟨⟨rfl, rfl⟩, rfl⟩
  | reset random => exact ⟨⟨rfl, rfl⟩, rfl⟩

theorem Idle.resting (h : a.Idle) : a.Resting := by
  intro later hlater
  induction later generalizing a with
  | nil =>
      refine ⟨rfl, fun elapsed hfinite => ?_⟩
      rw [respondAll_nil, h.tick_eq, hfinite]
      rfl
  | cons call later ih =>
      obtain ⟨hcall, hrest⟩ := List.forall_mem_cons.1 hlater
      obtain ⟨hidle, hreports⟩ := h.respond hcall
      obtain ⟨hchronicle, htick⟩ := ih hidle hrest
      rw [chronicle, hreports, hchronicle]
      exact ⟨rfl, htick⟩

/-! ## What a frame leaves behind -/

/-- No frame was shown in between: what showing one changes is what it was. -/
structure Undisturbed (a b : Animator) : Prop where
  /-- The frame on screen. -/
  frame_eq : b.playback.frame = a.playback.frame
  /-- The time left for it. -/
  countdown_eq : b.playback.countdown = a.playback.countdown
  /-- The frame that was picked last. -/
  lastPick_eq : b.playback.lastPick = a.playback.lastPick
  /-- The source of durations and picks. -/
  random_eq : b.random = a.random

theorem Undisturbed.trans (h : a.Undisturbed b) (k : b.Undisturbed c) : a.Undisturbed c where
  frame_eq := k.frame_eq.trans h.frame_eq
  countdown_eq := k.countdown_eq.trans h.countdown_eq
  lastPick_eq := k.lastPick_eq.trans h.lastPick_eq
  random_eq := k.random_eq.trans h.random_eq

theorem undisturbed_stop (a : Animator) : a.Undisturbed a.stop := ⟨rfl, rfl, rfl, rfl⟩

theorem undisturbed_begun (a : Animator) (steps : Sequence) (animation : Option String)
    (reverse : Bool) (timeScale : Float32) :
    a.Undisturbed (a.begun steps animation reverse timeScale) := ⟨rfl, rfl, rfl, rfl⟩

theorem undisturbed_of_redirected {signal : Signal}
    (h : a.resolveStep leftover = .redirected b signal) : a.Undisturbed b := by
  rcases redirected_cases h with ⟨-, -, rfl⟩ | ⟨target, steps, -, -, -, rfl⟩
  · exact ⟨rfl, rfl, rfl, rfl⟩
  · exact ⟨rfl, rfl, rfl, rfl⟩

/-- Redirections that lead to no frame disturb nothing. -/
theorem undisturbed_resolveWithin (h : (a.resolveWithin leftover budget).result = .error cause) :
    a.Undisturbed (a.resolveWithin leftover budget).state := by
  fun_induction resolveWithin leftover budget a with
  | case1 budget a b frame hstep => cases h
  | case2 budget a failure hstep => exact ⟨rfl, rfl, rfl, rfl⟩
  | case3 a b signal hstep => exact undisturbed_of_redirected hstep
  | case4 a b signal hstep budget ih => exact (undisturbed_of_redirected hstep).trans (ih h)

theorem isRedirection_of_resolveWithin_error
    (h : (a.resolveWithin leftover budget).result = .error cause) :
    ∀ signal ∈ (a.resolveWithin leftover budget).signals, signal.isRedirection = true := by
  rcases a.signals_resolveWithin leftover budget with ⟨s, hok, -, -⟩ | ⟨-, -, hsignals, -⟩
  · cases hok.symm.trans h
  · exact hsignals

/-! ## Starts -/

/-- What a start that failed leaves behind. -/
structure FailedStart (a : Animator) (o : Outcome Animator Unit) : Prop where
  /-- The animator is idle. -/
  idle : o.state.Idle
  /-- The frame, its time, the last pick and the random source are what they were. -/
  undisturbed : a.Undisturbed o.state
  /-- Only redirections were signalled. -/
  isRedirection : ∀ signal ∈ o.signals, signal.isRedirection = true
  /-- Nothing happens until something is started. -/
  resting : o.state.Resting

theorem failedStart_refused (a : Animator) (cause : AnimationError) :
    a.FailedStart (.failure a.stop cause) where
  idle := a.idle_stop
  undisturbed := a.undisturbed_stop
  isRedirection _ hsignal := nomatch hsignal
  resting := a.idle_stop.resting

theorem failedStart_launch (a : Animator) (steps : Sequence) (animation : Option String)
    (reverse : Bool) (timeScale : Float32) (cause : AnimationError)
    (h : (a.launch steps animation reverse timeScale).result = .error cause) :
    a.FailedStart (a.launch steps animation reverse timeScale) := by
  rcases a.launch_cases steps animation reverse timeScale with ⟨refusal, heq⟩ | heq
  · rw [heq]
    exact a.failedStart_refused refusal
  · -- the start was written, and then no frame was found
    rw [heq, result_stopOnFailure] at h
    rw [heq, stopOnFailure_of_error h]
    have hresolved := undisturbed_resolveWithin h
    exact
      { idle := idle_stop _
        undisturbed := ((a.undisturbed_begun _ _ _ _).trans hresolved).trans (undisturbed_stop _)
        isRedirection := isRedirection_of_resolveWithin_error h
        resting := (idle_stop _).resting }

theorem failedStart_animate (a : Animator) (name : String) (reverse : Bool)
    (timeScale : Option Float32) (cause : AnimationError)
    (h : (a.animate name reverse timeScale).result = .error cause) :
    a.FailedStart (a.animate name reverse timeScale) :=
  animate_induct (P := fun o => o.result = .error cause → a.FailedStart o)
    (fun refusal _ => a.failedStart_refused refusal)
    (fun steps animation reverse timeScale =>
      a.failedStart_launch steps animation reverse timeScale cause)
    name reverse timeScale h

theorem failedStart_animateManual (a : Animator) (steps : List AuthoredStep) (reverse : Bool)
    (timeScale : Option Float32) (cause : AnimationError)
    (h : (a.animateManual steps reverse timeScale).result = .error cause) :
    a.FailedStart (a.animateManual steps reverse timeScale) :=
  animateManual_induct (P := fun o => o.result = .error cause → a.FailedStart o)
    (fun refusal _ => a.failedStart_refused refusal)
    (fun steps animation reverse timeScale =>
      a.failedStart_launch steps animation reverse timeScale cause)
    steps reverse timeScale h

/-! ## Ticks -/

theorem idle_of_advanceWithin_error (h : (a.advanceWithin shown budget).result = .error cause) :
    (a.advanceWithin shown budget).state.Idle := by
  -- the tick goes on with what is left of the budget
  induction budget using Nat.strongRecOn generalizing a shown with
  | ind budget ih =>
      rcases advanceWithin_cases a shown budget with
        ⟨-, heq⟩ | ⟨-, -, heq⟩ | ⟨-, -, refusal, heq, -⟩ | ⟨-, -, -, -, rest, rfl, heq⟩
      · rw [heq] at h
        cases h
      · rw [heq] at h
        cases h
      · rw [heq]
        exact idle_stop _
      · rw [heq, Outcome.result_after] at h
        rw [heq, Outcome.state_after]
        exact ih rest (Nat.lt_succ_self rest) h

/-- A tick whose time is refused does nothing. -/
theorem tick_of_error_invalidElapsed {value : Float32}
    (h : (a.tick elapsed).result = .error (.invalidElapsed value)) :
    a.tick elapsed = .failure a (.invalidElapsed value) := by
  have htick := tick_of_invalidElapsed (a := a) (isFinite_of_tick_invalidElapsed h)
  rw [htick] at h ⊢
  cases h
  rfl

/-- A tick that fails for anything else leaves the animator idle. -/
theorem idle_of_tick_error (h : (a.tick elapsed).result = .error cause)
    (hcause : ∀ value, cause ≠ .invalidElapsed value) : (a.tick elapsed).state.Idle := by
  rcases a.tick_cases elapsed with heq | ⟨-, heq⟩ | ⟨-, heq⟩
  · rw [heq] at h
    cases h
    exact absurd rfl (hcause elapsed)
  · rw [heq] at h
    cases h
  · rw [heq] at h ⊢
    exact idle_of_advanceWithin_error h

/-- What an animator does when it fails. -/
structure FailsCleanly (a : Animator) : Prop where
  /-- A named animation that cannot be started. -/
  animate : ∀ name reverse timeScale cause,
    (a.animate name reverse timeScale).result = .error cause →
      a.FailedStart (a.animate name reverse timeScale)
  /-- Authored steps that cannot be started. -/
  animateManual : ∀ steps reverse timeScale cause,
    (a.animateManual steps reverse timeScale).result = .error cause →
      a.FailedStart (a.animateManual steps reverse timeScale)
  /-- Compiled steps that cannot be started. -/
  start : ∀ steps reverse timeScale cause,
    (a.start steps reverse timeScale).result = .error cause →
      a.FailedStart (a.start steps reverse timeScale)
  /-- A tick that fails leaves the animator idle, and nothing happens until something is started. -/
  tick : ∀ elapsed cause, (a.tick elapsed).result = .error cause →
    (∀ value, cause ≠ .invalidElapsed value) →
      (a.tick elapsed).state.Idle ∧ (a.tick elapsed).state.Resting
  /-- A tick whose time is refused changes nothing and signals nothing. -/
  invalidElapsed : ∀ elapsed value, (a.tick elapsed).result = .error (.invalidElapsed value) →
    a.tick elapsed = .failure a (.invalidElapsed value)

/-- In all that it does, an animator fails cleanly. -/
theorem failsCleanly (a : Animator) : a.FailsCleanly where
  animate := a.failedStart_animate
  animateManual := a.failedStart_animateManual
  start steps := a.failedStart_launch steps none
  tick _ _ h hcause := ⟨idle_of_tick_error h hcause, (idle_of_tick_error h hcause).resting⟩
  invalidElapsed _ _ h := tick_of_error_invalidElapsed h

/-- Steps that go round in circles are followed as far as is allowed before they are refused. -/
example : ((create ∅ { maxRedirects := 1 } (.ofSeed 1)).start [.loop] false 1.0).signals =
    [.loop, .loop] := by rfl

end Animator

end SpriteStage
