import SpriteStage.Proofs.Animator.Calls

/-!
# What the signals of an animator tell

The signals of a tick are a list of showings: a frame, after the redirections that led to it. Then
playback may stop, or fail after redirections that led to no frame. The list is no longer than the
budgets of the tick allow (`transcript_tick`), and what is on screen afterwards is the frame that
was signalled last (`frame_tick`, `Begins.frame_eq`).
-/

set_option autoImplicit false

namespace SpriteStage

namespace Signal

/-- Whether playback went to another step without showing a frame. -/
def isRedirection : Signal → Bool
  | loop => true
  | link _ => true
  | _ => false

/-- The frame that is shown, if one is. -/
def frame? : Signal → Option UInt64
  | frame index => some index
  | _ => none

end Signal

/-- The frame that was signalled last. -/
def lastFrame (signals : List Signal) : Option UInt64 := (signals.filterMap Signal.frame?).getLast?

@[simp] theorem lastFrame_nil : lastFrame [] = none := rfl

@[simp] theorem lastFrame_singleton (signal : Signal) : lastFrame [signal] = signal.frame? := by
  cases signal <;> rfl

@[simp] theorem lastFrame_append (first second : List Signal) :
    lastFrame (first ++ second) = (lastFrame second).or (lastFrame first) := by
  simp [lastFrame, List.getLast?_append]

@[simp] theorem lastFrame_cons (signal : Signal) (signals : List Signal) :
    lastFrame (signal :: signals) = (lastFrame signals).or signal.frame? := by
  rw [← List.singleton_append, lastFrame_append, lastFrame_singleton]

/-- Without a frame among the signals, none was signalled last. -/
theorem lastFrame_eq_none_iff {signals : List Signal} :
    lastFrame signals = none ↔ signals.any Signal.isFrame = false := by
  have hframe : ∀ signal : Signal, signal.frame? = none ↔ ¬ signal.isFrame = true := by
    intro signal
    cases signal <;> simp [Signal.frame?, Signal.isFrame]
  simp [lastFrame, hframe]

/-- A frame that was shown, and the redirections that led to it. -/
structure Showing where
  /-- The signals of the redirections. -/
  redirections : List Signal
  /-- The frame. -/
  frame : UInt64

namespace Showing

/-- The signals of a showing. -/
def signals (s : Showing) : List Signal := s.redirections ++ [.frame s.frame]

/-- Nothing but redirections led to the frame, and no more of them than are allowed. -/
structure Within (limit : Nat) (s : Showing) : Prop where
  /-- They are redirections. -/
  isRedirection : ∀ signal ∈ s.redirections, signal.isRedirection = true
  /-- There are not too many. -/
  length_le : s.redirections.length ≤ limit

/-- One more redirection, of one more that are allowed. -/
theorem Within.cons {limit : Nat} {s : Showing} (h : s.Within limit) {signal : Signal}
    (hsignal : signal.isRedirection = true) :
    Within (limit + 1) ⟨signal :: s.redirections, s.frame⟩ := by
  refine ⟨?_, Nat.succ_le_succ h.length_le⟩
  simpa [hsignal] using h.isRedirection

end Showing

/-- The signals of an outcome in order: the frames that were shown, at most `limit` redirections
before each, and then the end of playback, or the redirections that led to no frame. One frame
more than `most` can be shown, but not by an operation that succeeds. -/
structure Transcript (limit most : Nat) (o : Outcome Animator Bool) (showings : List Showing)
    (ending : List Signal) : Prop where
  /-- There are no other signals. -/
  signals_eq : o.signals = showings.flatMap Showing.signals ++ ending
  /-- The redirections before each frame are allowed. -/
  within : ∀ s ∈ showings, s.Within limit
  /-- There are not too many frames. -/
  length_le : showings.length ≤ most + 1
  /-- One frame too many is a cycle, and the animator is idle. -/
  of_overrun : showings.length = most + 1 →
    (∃ animation redirects, o.result = .error (.degenerateCycle animation redirects)) ∧
      o.state.playback.playing = false
  /-- Success: nothing but the end of playback comes after the frames. -/
  of_ok : ∀ changed, o.result = .ok changed →
    ending = [] ∨ ∃ animation, ending = [.stop animation]
  /-- Failure: nothing but redirections come after the frames, one more than are allowed at most. -/
  of_error : ∀ cause, o.result = .error cause →
    (∀ signal ∈ ending, signal.isRedirection = true) ∧ ending.length ≤ limit + 1

namespace Transcript

variable {limit most : Nat} {o : Outcome Animator Bool} {showings : List Showing}
  {ending : List Signal}

/-- Nothing was signalled. -/
theorem silent (h : o.signals = []) : Transcript limit most o [] [] :=
  ⟨by simp [h], by simp, by simp, by simp, by simp, by simp⟩

/-- An operation that succeeds has not shown a frame too many. -/
theorem length_le_of_ok (h : Transcript limit most o showings ending) {changed : Bool}
    (hok : o.result = .ok changed) : showings.length ≤ most := by
  have hle := h.length_le
  by_cases hover : showings.length = most + 1
  · obtain ⟨⟨animation, redirects, herror⟩, -⟩ := h.of_overrun hover
    cases hok.symm.trans herror
  · omega

/-- Another showing before those of a transcript. -/
theorem after (h : Transcript limit most o showings ending) {s : Showing} (hs : s.Within limit) :
    Transcript limit (most + 1) (o.after s.signals) (s :: showings) ending := by
  refine ⟨?_, ?_, ?_, ?_, h.of_ok, h.of_error⟩
  · simp [h.signals_eq]
  · simpa [hs] using h.within
  · simpa using h.length_le
  · simpa using h.of_overrun

end Transcript

namespace Animator

variable {a b : Animator} {leftover : Float32} {budget shown : Nat} {signal : Signal}

/-! ## Finding a frame -/

theorem isRedirection_of_redirected (h : a.resolveStep leftover = .redirected b signal) :
    signal.isRedirection = true := by
  rcases redirected_cases h with ⟨-, rfl, -⟩ | ⟨target, steps, -, -, rfl, -⟩
  · rfl
  · rfl

/-- A step that redirects leaves the frame on screen, the budgets and the time scale as they
are. -/
theorem kept_of_redirected (h : a.resolveStep leftover = .redirected b signal) :
    b.playback.frame = a.playback.frame ∧ b.maxRedirects = a.maxRedirects ∧
      b.maxFramesPerTick = a.maxFramesPerTick := by
  rcases redirected_cases h with ⟨-, -, rfl⟩ | ⟨target, steps, -, -, -, rfl⟩
  · exact ⟨rfl, rfl, rfl⟩
  · exact ⟨rfl, rfl, rfl⟩

/-- A step that shows a frame has it on screen and leaves the budgets as they are. -/
theorem kept_of_shown {frame : UInt64} (h : a.resolveStep leftover = .shown b frame) :
    b.playback.frame = some frame ∧ b.maxRedirects = a.maxRedirects ∧
      b.maxFramesPerTick = a.maxFramesPerTick := by
  rcases shown_cases h with ⟨duration, -, rfl⟩ | ⟨choices, duration, -, rfl, rfl⟩
  · exact ⟨rfl, rfl, rfl⟩
  · exact ⟨rfl, rfl, rfl⟩

/-- Redirections lead to a frame or fail, and are signalled either way. -/
theorem signals_resolveWithin (a : Animator) (leftover : Float32) (budget : Nat) :
    (∃ s : Showing, (a.resolveWithin leftover budget).result = .ok () ∧
      (a.resolveWithin leftover budget).signals = s.signals ∧ s.Within budget) ∨
    ∃ cause, (a.resolveWithin leftover budget).result = .error cause ∧
      (∀ signal ∈ (a.resolveWithin leftover budget).signals, signal.isRedirection = true) ∧
      (a.resolveWithin leftover budget).signals.length ≤ budget + 1 := by
  fun_induction resolveWithin leftover budget a with
  | case1 budget a b frame hstep =>
      exact Or.inl ⟨⟨[], frame⟩, rfl, rfl, by simp, Nat.zero_le budget⟩
  | case2 budget a cause hstep =>
      exact Or.inr ⟨cause, rfl, by simp [Outcome.failure], Nat.zero_le _⟩
  | case3 a b signal hstep =>
      refine Or.inr ⟨_, rfl, ?_, Nat.le_refl _⟩
      simpa using isRedirection_of_redirected hstep
  | case4 a b signal hstep budget ih =>
      have hsignal := isRedirection_of_redirected hstep
      rcases ih with ⟨s, hresult, hsignals, hwithin⟩ | ⟨cause, hresult, hsignals, hlength⟩
      · refine Or.inl ⟨⟨signal :: s.redirections, s.frame⟩, hresult, ?_, hwithin.cons hsignal⟩
        simp [hsignals, Showing.signals]
      · refine Or.inr ⟨cause, hresult, ?_, ?_⟩
        · simpa [hsignal] using hsignals
        · simpa using hlength

/-- The frame on screen is the one that was signalled last. -/
theorem frame_resolveWithin (a : Animator) (leftover : Float32) (budget : Nat) :
    (a.resolveWithin leftover budget).state.playback.frame =
      (lastFrame (a.resolveWithin leftover budget).signals).or a.playback.frame := by
  have hnone : ∀ {a b : Animator} {signal : Signal},
      a.resolveStep leftover = .redirected b signal → signal.frame? = none := by
    intro a b signal hstep
    rcases redirected_cases hstep with ⟨-, rfl, -⟩ | ⟨target, steps, -, -, rfl, -⟩
    · rfl
    · rfl
  fun_induction resolveWithin leftover budget a with
  | case1 budget a b frame hstep => simpa [Signal.frame?] using (kept_of_shown hstep).1
  | case2 budget a cause hstep => simp [Outcome.failure]
  | case3 a b signal hstep => simpa [hnone hstep] using (kept_of_redirected hstep).1
  | case4 a b signal hstep budget ih =>
      simp [ih, hnone hstep, (kept_of_redirected hstep).1]

/-- Without a frame that is found, none was signalled. -/
theorem lastFrame_resolveWithin_of_error {cause : AnimationError}
    (h : (a.resolveWithin leftover budget).result = .error cause) :
    lastFrame (a.resolveWithin leftover budget).signals = none := by
  rcases signals_resolveWithin a leftover budget with ⟨s, hok, -, -⟩ | ⟨-, -, hsignals, -⟩
  · cases hok.symm.trans h
  · rw [lastFrame_eq_none_iff, List.any_eq_false]
    intro signal hsignal
    have hredirection := hsignals signal hsignal
    cases signal <;> simp_all [Signal.isRedirection, Signal.isFrame]

/-! ## Starting -/

/-- What a start leads to, whether it succeeds or fails. -/
structure Begins (a : Animator) (o : Outcome Animator Unit) : Prop where
  /-- The frame on screen is the one that was signalled last. -/
  frame_eq : o.state.playback.frame = (lastFrame o.signals).or a.playback.frame
  /-- A start that fails has signalled no frame and leaves the animator idle. -/
  of_error : ∀ cause, o.result = .error cause →
    lastFrame o.signals = none ∧ o.state.playback.playing = false

/-- A start that is refused does nothing but end playback. -/
theorem begins_refused (a : Animator) (cause : AnimationError) :
    a.Begins (.failure a.stop cause) :=
  ⟨rfl, fun _ _ => ⟨rfl, rfl⟩⟩

theorem begins_launch (a : Animator) (steps : Sequence) (animation : Option String) (reverse : Bool)
    (timeScale : Float32) : a.Begins (a.launch steps animation reverse timeScale) := by
  rcases a.launch_cases steps animation reverse timeScale with ⟨cause, heq⟩ | heq
  · rw [heq]
    exact begins_refused a cause
  · have hframe := frame_resolveWithin (a.begun steps animation reverse timeScale) 0.0 a.maxRedirects
    rw [heq]
    cases hresult : ((a.begun steps animation reverse timeScale).resolve 0.0).result with
    | ok u =>
        rw [stopOnFailure_of_ok hresult]
        refine ⟨hframe, ?_⟩
        intro cause herror
        cases hresult.symm.trans herror
    | error cause =>
        -- playback has ended, but the frame is the same as before that
        rw [stopOnFailure_of_error hresult]
        exact ⟨hframe, fun _ _ => ⟨lastFrame_resolveWithin_of_error hresult, rfl⟩⟩

theorem begins_animate (a : Animator) (name : String) (reverse : Bool)
    (timeScale : Option Float32) : a.Begins (a.animate name reverse timeScale) := by
  unfold animate
  cases a.animations.get? name with
  | none => exact begins_refused a _
  | some steps => exact begins_launch a _ _ _ _

theorem begins_animateManual (a : Animator) (steps : List AuthoredStep) (reverse : Bool)
    (timeScale : Option Float32) : a.Begins (a.animateManual steps reverse timeScale) := by
  unfold animateManual
  cases compileAnimation Playback.manualLabel steps with
  | error cause => exact begins_refused a _
  | ok compiled => exact begins_launch a _ _ _ _

/-! ## Ticking -/

/-- The frame that is due is shown after redirections, or the redirections led to no frame. -/
theorem signals_due (a : Animator) :
    (∃ s : Showing, a.due.result = .ok () ∧ a.due.signals = s.signals ∧ s.Within a.maxRedirects) ∨
    ∃ cause, a.due.result = .error cause ∧
      (∀ signal ∈ a.due.signals, signal.isRedirection = true) ∧
      a.due.signals.length ≤ a.maxRedirects + 1 :=
  signals_resolveWithin a.advanced a.playback.countdown a.maxRedirects

theorem transcript_advanceWithin (a : Animator) (shown budget : Nat) :
    ∃ showings ending,
      Transcript a.maxRedirects budget (a.advanceWithin shown budget) showings ending := by
  induction budget using Nat.strongRecOn generalizing a shown with
  | ind budget ih =>
      rcases advanceWithin_cases a shown budget with
        ⟨-, heq⟩ | ⟨-, -, heq⟩ | ⟨-, -, cause, heq, hcause⟩ | ⟨-, -, hok, -, rest, rfl, heq⟩
      · -- time is left for the frame on screen
        rw [heq]
        exact ⟨[], [], .silent rfl⟩
      · refine ⟨[], [.stop a.playback.animation], ?_⟩
        rw [heq]
        exact ⟨rfl, by simp, by simp, by simp, by simp, by simp⟩
      · rw [heq]
        rcases signals_due a with ⟨s, hok, hsignals, hwithin⟩ | ⟨failure, herror, hsignals, hlength⟩
        · -- the frame is shown and refused; it may be the one too many
          rcases hcause with herror | ⟨-, rfl, -⟩
          · cases hok.symm.trans herror
          · refine ⟨[s], [], ?_⟩
            refine ⟨by simp [refused, hsignals], by simpa using hwithin, by simp, ?_, ?_, by simp⟩
            · exact fun _ => ⟨⟨_, _, rfl⟩, rfl⟩
            · simp [refused]
        · refine ⟨[], a.due.signals, ?_⟩
          refine ⟨rfl, by simp, by simp, by simp, by simp [refused], ?_⟩
          exact fun _ _ => ⟨hsignals, hlength⟩
      · rw [heq]
        rcases signals_due a with ⟨s, -, hsignals, hwithin⟩ | ⟨failure, herror, -, -⟩
        · obtain ⟨showings, ending, h⟩ := ih rest (Nat.lt_succ_self rest) a.due.state (shown + 1)
          have hlimit : a.due.state.maxRedirects = a.maxRedirects :=
            congrArg (·.2.2.1) (settings_due a)
          rw [hlimit] at h
          exact ⟨s :: showings, ending, hsignals ▸ h.after hwithin⟩
        · cases hok.symm.trans herror

/-- What a tick signals stays within the budgets. -/
theorem transcript_tick (a : Animator) (elapsed : Float32) :
    ∃ showings ending,
      Transcript a.maxRedirects a.maxFramesPerTick (a.tick elapsed) showings ending := by
  rcases a.tick_cases elapsed with heq | ⟨-, heq⟩ | ⟨-, heq⟩
  · rw [heq]
    exact ⟨[], [], .silent rfl⟩
  · rw [heq]
    exact ⟨[], [], .silent rfl⟩
  · rw [heq]
    exact transcript_advanceWithin (a.elapse elapsed) 0 a.maxFramesPerTick

theorem frame_advanceWithin (a : Animator) (shown budget : Nat) :
    (a.advanceWithin shown budget).state.playback.frame =
      (lastFrame (a.advanceWithin shown budget).signals).or a.playback.frame := by
  induction budget using Nat.strongRecOn generalizing a shown with
  | ind budget ih =>
      have hdue : a.due.state.playback.frame = (lastFrame a.due.signals).or a.playback.frame :=
        frame_resolveWithin a.advanced a.playback.countdown a.maxRedirects
      rcases advanceWithin_cases a shown budget with
        ⟨-, heq⟩ | ⟨-, -, heq⟩ | ⟨-, -, cause, heq, -⟩ | ⟨-, -, hok, -, rest, rfl, heq⟩
      · simp [heq, Outcome.success]
      · simp [heq, Signal.frame?, stop, Playback.stop, advanced]
      · rw [heq]
        exact hdue
      · rw [heq, Outcome.state_after, ih rest (Nat.lt_succ_self rest), hdue, Outcome.signals_after,
          lastFrame_append, Option.or_assoc]

/-- After a tick, whether it succeeds or fails, the frame on screen is the one that was signalled
last. -/
theorem frame_tick (a : Animator) (elapsed : Float32) :
    (a.tick elapsed).state.playback.frame =
      (lastFrame (a.tick elapsed).signals).or a.playback.frame := by
  rcases a.tick_cases elapsed with heq | ⟨-, heq⟩ | ⟨-, heq⟩
  · rw [heq]
    rfl
  · rw [heq]
    rfl
  · rw [heq]
    exact frame_advanceWithin (a.elapse elapsed) 0 a.maxFramesPerTick

end Animator

end SpriteStage
