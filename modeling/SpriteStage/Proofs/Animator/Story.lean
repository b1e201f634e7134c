import SpriteStage.Proofs.Animator.Reachable
import SpriteStage.Proofs.Animator.Transcript

/-!
# The story that signals tell

From the signals of a call alone one can tell what happened. A tick has shown the frames that it
signals, with nothing but redirections before each; it has ended playback exactly if a stop comes
last, and the stop names the animation that the last link led to (`story_tick`). A start that
succeeds has shown one frame (`opening_launch`).

Over a whole run, a stop is owed to a start: playing is what a successful start gives and what a
stop takes away. `Owed` reads the reports of a run with that in mind, and `owed_chronicle` shows
that every run can be read so.
-/

set_option autoImplicit false

namespace SpriteStage

namespace Signal

/-- The animation that playback went over to, if it did. -/
def target? : Signal → Option String
  | link target => some target
  | _ => none

/-- Whether playback ran past the last step. -/
def isStop : Signal → Bool
  | stop _ => true
  | _ => false

end Signal

/-- The animation that was linked to last. -/
def lastTarget (signals : List Signal) : Option String :=
  (signals.filterMap Signal.target?).getLast?

@[simp] theorem lastTarget_nil : lastTarget [] = none := rfl

@[simp] theorem lastTarget_append (first second : List Signal) :
    lastTarget (first ++ second) = (lastTarget second).or (lastTarget first) := by
  simp [lastTarget, List.getLast?_append]

@[simp] theorem lastTarget_singleton (signal : Signal) : lastTarget [signal] = signal.target? := by
  cases signal <;> rfl

@[simp] theorem lastTarget_cons (signal : Signal) (signals : List Signal) :
    lastTarget (signal :: signals) = (lastTarget signals).or signal.target? := by
  rw [← List.singleton_append, lastTarget_append, lastTarget_singleton]

/-- Nothing but redirections led to the frame. -/
def Showing.Plain (s : Showing) : Prop := ∀ signal ∈ s.redirections, signal.isRedirection = true

theorem isStop_eq_false_of_isRedirection {signal : Signal} (h : signal.isRedirection = true) :
    signal.isStop = false := by
  cases signal with
  | stop animation => cases h
  | _ => rfl

/-- Showing a frame does not end playback. -/
theorem Showing.Plain.isStop_eq_false {s : Showing} (h : s.Plain) :
    ∀ signal ∈ s.signals, signal.isStop = false := by
  intro signal hsignal
  rcases List.mem_append.1 hsignal with hredirection | hframe
  · exact isStop_eq_false_of_isRedirection (h signal hredirection)
  · cases List.mem_singleton.1 hframe
    rfl

namespace Animator

variable {a b : Animator} {leftover : Float32} {budget : Nat}

/-! ## The name of what is playing -/

/-- What is playing has the name that was linked to last. -/
theorem animation_resolveWithin (a : Animator) (leftover : Float32) (budget : Nat) :
    (a.resolveWithin leftover budget).state.playback.animation =
      (lastTarget (a.resolveWithin leftover budget).signals).or a.playback.animation := by
  -- a link replaces the name, and a loop keeps it
  have hredirected : ∀ {a b : Animator} {signal : Signal},
      a.resolveStep leftover = .redirected b signal →
      b.playback.animation = signal.target?.or a.playback.animation := by
    intro a b signal hstep
    rcases redirected_cases hstep with ⟨-, rfl, rfl⟩ | ⟨target, steps, -, -, rfl, rfl⟩
    · rfl
    · rfl
  fun_induction resolveWithin leftover budget a with
  | case1 budget a b frame hstep =>
      rcases shown_cases hstep with ⟨duration, -, rfl⟩ | ⟨choices, duration, -, -, rfl⟩
      · rfl
      · rfl
  | case2 budget a cause hstep => rfl
  | case3 a b signal hstep => simpa using hredirected hstep
  | case4 a b signal hstep budget ih => simp [ih, hredirected hstep, Option.or_assoc]

/-- A frame that is due is shown after redirections; what is playing goes on, under the name that
they led to. -/
theorem showing_due (a : Animator) (hok : a.due.result = .ok ()) :
    ∃ s : Showing, a.due.signals = s.signals ∧ s.Plain ∧
      a.due.state.playback.frame = some s.frame ∧
      a.due.state.playback.playing = a.playback.playing ∧
      a.due.state.playback.animation = (lastTarget s.signals).or a.playback.animation := by
  rcases signals_due a with ⟨s, -, hsignals, hwithin⟩ | ⟨cause, herror, -⟩
  · have hframe : a.due.state.playback.frame = (lastFrame a.due.signals).or a.playback.frame :=
      frame_resolveWithin a.advanced a.playback.countdown a.maxRedirects
    have hname : a.due.state.playback.animation =
        (lastTarget a.due.signals).or a.playback.animation :=
      animation_resolveWithin a.advanced a.playback.countdown a.maxRedirects
    refine ⟨s, hsignals, hwithin.isRedirection, ?_, (sameSettings_of_ok hok).playing_eq, ?_⟩
    · rw [hframe, hsignals]
      simp [Showing.signals, Signal.frame?]
    · rw [hname, hsignals]
  · cases hok.symm.trans herror

/-- Redirections that lead to no frame are all that is signalled, and leave the frame on screen. -/
theorem lost_due (a : Animator) {cause : AnimationError} (herror : a.due.result = .error cause) :
    (∀ signal ∈ a.due.signals, signal.isRedirection = true) ∧
      a.due.state.playback.frame = a.playback.frame := by
  constructor
  · rcases signals_due a with ⟨s, hok, -⟩ | ⟨failure, -, hsignals, -⟩
    · cases hok.symm.trans herror
    · exact hsignals
  · have hframe : a.due.state.playback.frame = (lastFrame a.due.signals).or a.playback.frame :=
      frame_resolveWithin a.advanced a.playback.countdown a.maxRedirects
    have hnone : lastFrame a.due.signals = none := lastFrame_resolveWithin_of_error herror
    rw [hframe, hnone, Option.none_or]

/-- Finding a frame does not end playback. -/
theorem isStop_due (a : Animator) : ∀ signal ∈ a.due.signals, signal.isStop = false := by
  cases hresult : a.due.result with
  | ok u =>
      obtain ⟨s, hsignals, hplain, -⟩ := showing_due a hresult
      rw [hsignals]
      exact hplain.isStop_eq_false
  | error cause =>
      intro signal hsignal
      exact isStop_eq_false_of_isRedirection ((lost_due a hresult).1 signal hsignal)

/-! ## Ticks -/

/-- What the signals of a tick say: the frames that it has shown, each after redirections, and how
it came to its end. -/
structure Story (a : Animator) (o : Outcome Animator Bool) (showings : List Showing)
    (ending : List Signal) : Prop where
  /-- There are no other signals. -/
  signals_eq : o.signals = showings.flatMap Showing.signals ++ ending
  /-- Nothing but redirections led to the frames. -/
  plain : ∀ s ∈ showings, s.Plain
  /-- The last of the frames is on screen; without any it is the frame from before. -/
  frame_eq : o.state.playback.frame = (showings.getLast?.map Showing.frame).or a.playback.frame
  /-- Time starts nothing. -/
  playing_before : o.state.playback.playing = true → a.playback.playing = true
  /-- Success: the only signal after the frames is a stop, given exactly if playback has ended, for
  the animation that the last link led to. -/
  ending_of_ok : ∀ changed, o.result = .ok changed →
    ending =
      if a.playback.playing = true ∧ o.state.playback.playing = false then
        [.stop ((lastTarget o.signals).or a.playback.animation)]
      else []
  /-- Failure: the only signals after the frames are redirections that led to none. -/
  ending_of_error : ∀ cause, o.result = .error cause →
    ∀ signal ∈ ending, signal.isRedirection = true

/-- A call that does nothing has nothing to tell. -/
theorem story_of_silent {o : Outcome Animator Bool} (hstate : o.state = a)
    (hsignals : o.signals = []) : a.Story o [] [] := by
  refine ⟨hsignals, by simp, by simp [hstate], by simp [hstate], ?_, by simp⟩
  intro changed hok
  cases hplaying : a.playback.playing <;> simp [hstate, hplaying]

/-- Another frame is shown before what a story tells. -/
theorem Story.after {o : Outcome Animator Bool} {showings : List Showing} {ending : List Signal}
    (h : b.Story o showings ending) {s : Showing} (hplain : s.Plain)
    (hframe : b.playback.frame = some s.frame) (hplaying : b.playback.playing = a.playback.playing)
    (hname : b.playback.animation = (lastTarget s.signals).or a.playback.animation) :
    a.Story (o.after s.signals) (s :: showings) ending := by
  refine ⟨?_, ?_, ?_, ?_, ?_, h.ending_of_error⟩
  · simp [h.signals_eq]
  · simpa [hplain] using h.plain
  · rw [Outcome.state_after, h.frame_eq, hframe, List.getLast?_cons]
    cases showings.getLast? <;> rfl
  · rw [← hplaying]
    exact h.playing_before
  · intro changed hok
    rw [h.ending_of_ok changed hok, hplaying, hname, Outcome.signals_after, lastTarget_append,
      Option.or_assoc]
    rfl

/-- A tick that is refused has shown the frames that were found. -/
theorem story_refused {o : Outcome Animator Unit} {showings : List Showing} {ending : List Signal}
    (hsignals : o.signals = showings.flatMap Showing.signals ++ ending)
    (hplain : ∀ s ∈ showings, s.Plain)
    (hframe : o.state.playback.frame =
      (showings.getLast?.map Showing.frame).or a.playback.frame)
    (hending : ∀ signal ∈ ending, signal.isRedirection = true) (cause : AnimationError) :
    a.Story (refused o cause) showings ending := by
  refine ⟨hsignals, hplain, hframe, ?_, ?_, fun _ _ => hending⟩
  · intro hidle
    exact absurd hidle Bool.false_ne_true
  · intro changed hresult
    cases hresult

theorem story_advanceWithin (hplaying : a.playback.playing = true) (shown budget : Nat) :
    ∃ showings ending, a.Story (a.advanceWithin shown budget) showings ending ∧
      ∀ changed, (a.advanceWithin shown budget).result = .ok changed →
        changed = decide (0 < shown + showings.length) := by
  -- The frames that were shown before enter only the answer, so they are generalized.
  induction budget using Nat.strongRecOn generalizing a shown with
  | ind budget ih =>
      rcases advanceWithin_cases a shown budget with
        ⟨-, heq⟩ | ⟨-, -, heq⟩ | ⟨-, -, cause, heq, hcause⟩ | ⟨-, -, hok, -, rest, rfl, heq⟩
      · rw [heq]
        refine ⟨[], [], story_of_silent rfl rfl, ?_⟩
        rintro changed ⟨⟩
        rfl
      · -- playback ends under the name that it had
        rw [heq]
        refine ⟨[], [.stop a.playback.animation], ⟨rfl, by simp, rfl, ?_, ?_, ?_⟩, ?_⟩
        · exact fun hidle => absurd hidle Bool.false_ne_true
        · intro changed _
          rw [if_pos ⟨hplaying, rfl⟩]
          rfl
        · intro cause herror
          cases herror
        · rintro changed ⟨⟩
          rfl
      · rw [heq]
        rcases hcause with herror | ⟨hok, -, -⟩
        · -- redirections led to no frame
          obtain ⟨hsignals, hframe⟩ := lost_due a herror
          refine ⟨[], a.due.signals, story_refused rfl (by simp) hframe hsignals cause, ?_⟩
          intro changed hresult
          cases hresult
        · -- the frame was shown before it was refused
          obtain ⟨s, hsignals, hplain, hframe, -, -⟩ := showing_due a hok
          refine ⟨[s], [], story_refused ?_ (by simpa using hplain) hframe (by simp) cause, ?_⟩
          · simp [hsignals]
          · intro changed hresult
            cases hresult
      · -- the frame comes first in what the rest of the tick tells
        obtain ⟨s, hsignals, hplain, hframe, hgoes, hname⟩ := showing_due a hok
        obtain ⟨showings, ending, hstory, hchanged⟩ :=
          ih rest (Nat.lt_succ_self rest) (hgoes.trans hplaying) (shown + 1)
        rw [heq, hsignals]
        refine ⟨s :: showings, ending, hstory.after hplain hframe hgoes hname, ?_⟩
        intro changed hresult
        rw [hchanged changed hresult, List.length_cons, Nat.add_assoc, Nat.add_comm 1]

theorem story_tick (a : Animator) (elapsed : Float32) :
    ∃ showings ending, a.Story (a.tick elapsed) showings ending ∧
      ∀ changed, (a.tick elapsed).result = .ok changed → (changed = true ↔ showings ≠ []) := by
  rcases a.tick_cases elapsed with heq | ⟨-, heq⟩ | ⟨hplaying, heq⟩
  · rw [heq]
    refine ⟨[], [], story_of_silent rfl rfl, ?_⟩
    intro changed hresult
    cases hresult
  · rw [heq]
    refine ⟨[], [], story_of_silent rfl rfl, ?_⟩
    rintro changed ⟨⟩
    simp
  · have helapsed : (a.elapse elapsed).playback.playing = true := hplaying
    obtain ⟨showings, ending, hstory, hchanged⟩ :=
      story_advanceWithin helapsed 0 a.maxFramesPerTick
    rw [heq]
    refine ⟨showings, ending, ⟨hstory.signals_eq, hstory.plain, hstory.frame_eq,
      hstory.playing_before, hstory.ending_of_ok, hstory.ending_of_error⟩, ?_⟩
    intro changed hresult
    rw [hchanged changed hresult, Nat.zero_add, decide_eq_true_iff, List.length_pos_iff]

/-! ## Starts -/

/-- What the signals of a start say: the one frame that it has shown, or why there is none. -/
structure Opening (o : Outcome Animator Unit) : Prop where
  /-- Success: one frame is shown after redirections, and time moves the animator from then on. -/
  of_ok : o.result = .ok () → o.state.playback.playing = true ∧
    ∃ s : Showing, o.signals = s.signals ∧ s.Plain ∧ o.state.playback.frame = some s.frame
  /-- Failure: the animator is idle, and the only signals are redirections that led to no frame. -/
  of_error : ∀ cause, o.result = .error cause → o.state.playback.playing = false ∧
    ∀ signal ∈ o.signals, signal.isRedirection = true

theorem opening_refused (a : Animator) (cause : AnimationError) :
    Opening (.failure a.stop cause) := by
  refine ⟨?_, ?_⟩
  · intro hok
    cases hok
  · intro _ _
    exact ⟨rfl, by simp [Outcome.failure]⟩

/-- The first frame is sought by an animator that is playing. -/
theorem opening_resolve (hplaying : a.playback.playing = true) (leftover : Float32) :
    Opening (stopOnFailure (a.resolve leftover)) := by
  have hframe : (a.resolve leftover).state.playback.frame =
      (lastFrame (a.resolve leftover).signals).or a.playback.frame :=
    frame_resolveWithin a leftover a.maxRedirects
  have hsignals := signals_resolveWithin a leftover a.maxRedirects
  rw [show a.resolveWithin leftover a.maxRedirects = a.resolve leftover from rfl] at hsignals
  rcases hsignals with ⟨s, hok, hsignals, hwithin⟩ | ⟨cause, herror, hsignals, -⟩
  · rw [stopOnFailure_of_ok hok]
    refine ⟨fun _ => ⟨?_, s, hsignals, hwithin.isRedirection, ?_⟩, ?_⟩
    · exact (sameSettings_of_ok hok).playing_eq.trans hplaying
    · rw [hframe, hsignals]
      simp [Showing.signals, Signal.frame?]
    · intro cause herror
      cases hok.symm.trans herror
  · rw [stopOnFailure_of_error herror]
    refine ⟨?_, fun _ _ => ⟨rfl, hsignals⟩⟩
    intro hok
    cases hok.symm.trans herror

theorem opening_launch (a : Animator) (steps : Sequence) (animation : Option String)
    (reverse : Bool) (timeScale : Float32) :
    Opening (a.launch steps animation reverse timeScale) := by
  rcases a.launch_cases steps animation reverse timeScale with ⟨cause, heq⟩ | heq
  · rw [heq]
    exact opening_refused a cause
  · rw [heq]
    exact opening_resolve rfl 0.0

theorem opening_animate (a : Animator) (name : String) (reverse : Bool)
    (timeScale : Option Float32) : Opening (a.animate name reverse timeScale) :=
  animate_induct a.opening_refused a.opening_launch name reverse timeScale

theorem opening_animateManual (a : Animator) (steps : List AuthoredStep) (reverse : Bool)
    (timeScale : Option Float32) : Opening (a.animateManual steps reverse timeScale) :=
  animateManual_induct a.opening_refused a.opening_launch steps reverse timeScale

end Animator

/-! ## Runs -/

/-- What can be heard of an animator: its signals, and that a start has succeeded. -/
inductive Report where
  /-- A start has succeeded. -/
  | started
  /-- A signal was given. -/
  | signal (signal : Signal)

namespace Report

/-- Whether a start has succeeded. -/
def isStart : Report → Bool
  | started => true
  | signal _ => false

/-- Whether playback ran past the last step. -/
def isStop : Report → Bool
  | started => false
  | signal s => s.isStop

/-- A report is of a start, of a stop, or of neither. -/
theorem cases_stop (r : Report) : r = .started ∨ (∃ animation, r = .signal (.stop animation)) ∨
    ∃ s : Signal, s.isStop = false ∧ r = .signal s := by
  cases r with
  | started => exact Or.inl rfl
  | signal s =>
      cases s with
      | stop animation => exact Or.inr (Or.inl ⟨animation, rfl⟩)
      | _ => exact Or.inr (Or.inr ⟨_, rfl, rfl⟩)

end Report

/-- Every stop is owed to a start of its own: one that comes before it and after the stop before it.
The first may be owed to a start from before the reports, if there is one to be `pending`. -/
def Owed : (pending : Bool) → List Report → Prop
  | _, [] => True
  | _, .started :: rest => Owed true rest
  | pending, .signal (.stop _) :: rest => pending = true ∧ Owed false rest
  | pending, .signal _ :: rest => Owed pending rest

namespace Owed

variable {pending : Bool} {reports : List Report}

theorem started_iff : Owed pending (.started :: reports) ↔ Owed true reports := Iff.rfl

theorem stop_iff {animation : Option String} :
    Owed pending (.signal (.stop animation) :: reports) ↔ pending = true ∧ Owed false reports :=
  Iff.rfl

theorem signal_iff {signal : Signal} (h : signal.isStop = false) :
    Owed pending (.signal signal :: reports) ↔ Owed pending reports := by
  cases signal with
  | stop animation => cases h
  | _ => exact Iff.rfl

/-- Signals other than stops do not matter. -/
theorem signals_append {signals : List Signal} (h : ∀ signal ∈ signals, signal.isStop = false) :
    Owed pending (signals.map .signal ++ reports) ↔ Owed pending reports := by
  induction signals with
  | nil => exact Iff.rfl
  | cons signal signals ih =>
      obtain ⟨hsignal, hsignals⟩ := List.forall_mem_cons.1 h
      exact (signal_iff hsignal).trans (ih hsignals)

/-- A start that is pending does no harm. -/
theorem of_imp {earlier : Bool} (h : Owed pending reports)
    (hpending : pending = true → earlier = true) : Owed earlier reports := by
  induction reports generalizing pending earlier with
  | nil => trivial
  | cons report reports ih =>
      rcases report.cases_stop with rfl | ⟨animation, rfl⟩ | ⟨s, hs, rfl⟩
      · exact h
      · rw [stop_iff] at h ⊢
        exact ⟨hpending h.1, h.2⟩
      · rw [signal_iff hs] at h ⊢
        exact ih h hpending

/-- What is owed to none from before is owed whatever was pending. -/
theorem of_false (h : Owed false reports) : Owed pending reports :=
  h.of_imp fun hfalse => absurd hfalse Bool.false_ne_true

/-- There are no more stops than starts. -/
theorem countP_isStop_le (h : Owed pending reports) :
    reports.countP Report.isStop ≤ reports.countP Report.isStart + pending.toNat := by
  induction reports generalizing pending with
  | nil => exact Nat.zero_le _
  | cons report reports ih =>
      rcases report.cases_stop with rfl | ⟨animation, rfl⟩ | ⟨s, hs, rfl⟩
      · -- the start makes up for whatever was pending before
        rw [started_iff] at h
        have hrest := ih h
        simp only [Bool.toNat_true] at hrest
        simp only [List.countP_cons, Report.isStop, Report.isStart, Bool.false_eq_true, if_false,
          if_true]
        omega
      · -- the stop takes what was pending
        rw [stop_iff] at h
        obtain ⟨rfl, hrest⟩ := h
        simpa [List.countP_cons, Report.isStop, Report.isStart, Signal.isStop] using ih hrest
      · rw [signal_iff hs] at h
        simpa [List.countP_cons, Report.isStop, Report.isStart, hs] using ih h

/-- What is owed in the whole is owed in its last part. -/
theorem of_append {earlier : List Report} (h : Owed pending (earlier ++ reports)) :
    ∃ later, Owed later reports := by
  induction earlier generalizing pending with
  | nil => exact ⟨pending, h⟩
  | cons report earlier ih =>
      rw [List.cons_append] at h
      rcases report.cases_stop with rfl | ⟨animation, rfl⟩ | ⟨s, hs, rfl⟩
      · exact ih (started_iff.1 h)
      · exact ih (stop_iff.1 h).2
      · exact ih ((signal_iff hs).1 h)

/-- A stop that is owed to no start from before is owed to one among the reports before it. -/
theorem started_mem {earlier : List Report} {animation : Option String}
    (h : Owed false (earlier ++ .signal (.stop animation) :: reports)) : .started ∈ earlier := by
  induction earlier with
  | nil => exact absurd (stop_iff.1 h).1 Bool.false_ne_true
  | cons report earlier ih =>
      rw [List.cons_append] at h
      rcases report.cases_stop with rfl | ⟨other, rfl⟩ | ⟨s, hs, rfl⟩
      · exact List.mem_cons_self
      · exact absurd (stop_iff.1 h).1 Bool.false_ne_true
      · exact List.mem_cons_of_mem _ (ih ((signal_iff hs).1 h))

end Owed

namespace Animator

variable {a : Animator}

/-- What a start reports. -/
def opening (o : Outcome Animator Unit) : List Report :=
  (if o.result.isOk then [.started] else []) ++ o.signals.map .signal

/-- What a call reports. -/
def reports (a : Animator) : AnimatorCall → List Report
  | .animate name reverse timeScale => opening (a.animate name reverse timeScale)
  | .animateManual steps reverse timeScale => opening (a.animateManual steps reverse timeScale)
  | .start steps reverse timeScale => opening (a.start steps reverse timeScale)
  | .tick elapsed => (a.tick elapsed).signals.map .signal
  | .stop => []
  | .setFrame _ => []
  | .reset _ => []

/-- What calls report, whether they succeed or fail. -/
def chronicle (a : Animator) : List AnimatorCall → List Report
  | [] => []
  | call :: calls => a.reports call ++ (a.respond call).chronicle calls

/-- A start that succeeds gives what the reports after it owe; one that fails leaves them
nothing. -/
theorem Opening.owed {o : Outcome Animator Unit} (h : Opening o) {pending : Bool}
    {later : List Report} (hlater : Owed o.state.playback.playing later) :
    Owed pending (opening o ++ later) := by
  unfold opening
  -- no signal of a start is a stop, so all that counts is whether it succeeded
  cases hresult : o.result with
  | ok u =>
      obtain ⟨hplaying, s, hsignals, hplain, -⟩ := h.of_ok hresult
      rw [hplaying] at hlater
      rw [hsignals]
      exact (Owed.signals_append hplain.isStop_eq_false).2 hlater
  | error cause =>
      obtain ⟨hidle, hsignals⟩ := h.of_error cause hresult
      rw [hidle] at hlater
      refine (Owed.signals_append ?_).2 hlater.of_false
      exact fun signal hsignal => isStop_eq_false_of_isRedirection (hsignals signal hsignal)

/-- A tick stops only what is playing. -/
theorem Story.owed {o : Outcome Animator Bool} {showings : List Showing} {ending : List Signal}
    (h : a.Story o showings ending) {later : List Report}
    (hlater : Owed o.state.playback.playing later) :
    Owed a.playback.playing (o.signals.map .signal ++ later) := by
  have hshowings : ∀ signal ∈ showings.flatMap Showing.signals, signal.isStop = false := by
    intro signal hsignal
    obtain ⟨s, hs, hmem⟩ := List.mem_flatMap.1 hsignal
    exact (h.plain s hs).isStop_eq_false signal hmem
  rw [h.signals_eq, List.map_append, List.append_assoc, Owed.signals_append hshowings]
  cases hresult : o.result with
  | ok changed =>
      rw [h.ending_of_ok changed hresult]
      by_cases hended : a.playback.playing = true ∧ o.state.playback.playing = false
      · -- the stop takes away what was pending
        rw [hended.2] at hlater
        rw [if_pos hended]
        exact ⟨hended.1, hlater⟩
      · rw [if_neg hended]
        exact hlater.of_imp h.playing_before
  | error cause =>
      refine (Owed.signals_append ?_).2 (hlater.of_imp h.playing_before)
      exact fun signal hsignal =>
        isStop_eq_false_of_isRedirection (h.ending_of_error cause hresult signal hsignal)

theorem owed_reports (a : Animator) (call : AnimatorCall) {later : List Report}
    (hlater : Owed (a.respond call).playback.playing later) :
    Owed a.playback.playing (a.reports call ++ later) := by
  cases call with
  | animate name reverse timeScale => exact (opening_animate _ _ _ _).owed hlater
  | animateManual steps reverse timeScale => exact (opening_animateManual _ _ _ _).owed hlater
  | start steps reverse timeScale => exact (opening_launch _ _ _ _ _).owed hlater
  | tick elapsed =>
      obtain ⟨showings, ending, hstory, -⟩ := a.story_tick elapsed
      exact hstory.owed hlater
  | stop => exact hlater.of_false
  | setFrame frame => exact hlater.of_false
  | reset random => exact hlater.of_false

/-- In every run, stops are owed to starts; what is playing at first was started before. -/
theorem owed_chronicle (a : Animator) (calls : List AnimatorCall) :
    Owed a.playback.playing (a.chronicle calls) := by
  -- what is pending between two calls is whether the animator is playing there
  induction calls generalizing a with
  | nil => trivial
  | cons call calls ih => exact a.owed_reports call (ih (a.respond call))

/-- What the calls of an animator tell by their signals. -/
structure Truthful (a : Animator) : Prop where
  /-- A tick tells the frames that it has shown and how it ended; it answers whether it has shown
  any. -/
  tick : ∀ elapsed, ∃ showings ending, a.Story (a.tick elapsed) showings ending ∧
    ∀ changed, (a.tick elapsed).result = .ok changed → (changed = true ↔ showings ≠ [])
  /-- The start of a named animation tells the frame that it has shown. -/
  animate : ∀ name reverse timeScale, Opening (a.animate name reverse timeScale)
  /-- So does that of authored steps. -/
  animateManual : ∀ steps reverse timeScale, Opening (a.animateManual steps reverse timeScale)
  /-- So does that of compiled steps. -/
  start : ∀ steps reverse timeScale, Opening (a.start steps reverse timeScale)
  /-- Time means nothing to an idle animator. -/
  silent_of_idle : a.playback.playing = false → ∀ elapsed, (a.tick elapsed).signals = []

/-- What the reports of a run add up to. -/
structure Accounted (reports : List Report) : Prop where
  /-- There are no more stops than successful starts. -/
  stops_le : reports.countP Report.isStop ≤ reports.countP Report.isStart
  /-- Between two stops there is a successful start. -/
  started_between : ∀ earlier between later first second,
    reports = earlier ++ .signal (.stop first) :: (between ++ .signal (.stop second) :: later) →
    .started ∈ between

/-- Whatever is asked of an animator, in any order: the signals of every call tell what it did, and
those of the whole run add up. -/
theorem signals_tell (animations : AnimationSet) (config : Config) (random : Random)
    (calls : List AnimatorCall) :
    ((create animations config random).respondAll calls).Truthful ∧
      Accounted ((create animations config random).chronicle calls) := by
  have howed : Owed false ((create animations config random).chronicle calls) :=
    owed_chronicle (create animations config random) calls
  generalize (create animations config random).respondAll calls = a
  refine ⟨⟨a.story_tick, a.opening_animate, a.opening_animateManual,
    fun steps => a.opening_launch steps none, ?_⟩, howed.countP_isStop_le, ?_⟩
  · intro hidle elapsed
    rcases a.tick_cases elapsed with heq | ⟨-, heq⟩ | ⟨hplaying, -⟩
    · rw [heq]
      rfl
    · rw [heq]
      rfl
    · cases hidle.symm.trans hplaying
  · intro earlier between later first second heq
    rw [heq] at howed
    obtain ⟨pending, hrest⟩ := howed.of_append
    exact Owed.started_mem hrest.2

end Animator

end SpriteStage
