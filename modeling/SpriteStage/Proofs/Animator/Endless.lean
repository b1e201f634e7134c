import SpriteStage.Proofs.Animator.Consistent
import SpriteStage.Proofs.Animator.Picks
import SpriteStage.Proofs.Animator.Story

/-!
# Only a frame can be the end of playback

Whenever a frame has been found, the cursor rests on the step that has it. So an animator that is
playing rests on a step with a frame (`poised_respondAll`), and running past the last step means
that the last step of what was playing then has a frame (`ends_of_stop`).

Steps that end with a redirection are never run past. Where all animations of a set end that way,
whatever is started by its name plays on until a tick fails (`PlaysOn`): a redirection leads to
another such animation, whichever steps were started first.
-/

set_option autoImplicit false

namespace SpriteStage

/-- Whether the step shows a frame, its own or one that is picked. The other steps redirect. -/
def AnimationStep.hasFrame : AnimationStep → Bool
  | .frame _ _ => true
  | .unique _ _ => true
  | .loop => false
  | .link _ => false

/-- The steps end with a redirection. -/
def Endless (steps : Sequence) : Prop :=
  ∃ step, steps.getLast? = some step ∧ step.hasFrame = false

/-- Every animation of the set ends with a redirection. -/
def EndlessSet (animations : AnimationSet) : Prop :=
  ∀ name steps, animations.get? name = some steps → Endless steps

namespace Animator

variable {a b : Animator} {leftover : Float32} {shown budget : Nat} {name : Option String}

/-! ## Where the cursor rests -/

/-- The cursor is on a step with a frame. -/
def Rests (a : Animator) : Prop := ∃ step, a.playback.step? = some step ∧ step.hasFrame = true

/-- What is playing rests on a step with a frame. -/
def Poised (a : Animator) : Prop := a.playback.playing = true → a.Rests

theorem poised_of_idle (hidle : a.playback.playing = false) : a.Poised := by
  intro hplaying
  rw [hidle] at hplaying
  cases hplaying

/-- Showing a frame leaves the cursor on its step. -/
theorem rests_of_shown {frame : UInt64} (h : a.resolveStep leftover = .shown b frame) :
    b.Rests := by
  rcases shown_cases h with ⟨duration, hstep, rfl⟩ | ⟨choices, duration, hstep, -, rfl⟩
  · exact ⟨_, hstep, rfl⟩
  · exact ⟨_, hstep, rfl⟩

/-- Wherever redirections lead, the frame that is found there is under the cursor. -/
theorem rests_of_ok (hok : (a.resolveWithin leftover budget).result = .ok ()) :
    (a.resolveWithin leftover budget).state.Rests := by
  -- nothing need be known of the steps on the way: the one that shows a frame rests on it
  obtain ⟨b, frame, -, hstep⟩ := exists_shown_of_ok (P := fun _ => True) (fun _ _ => trivial)
    (fun _ _ _ _ _ => trivial) trivial hok
  exact rests_of_shown hstep

theorem poised_launch (a : Animator) (steps : Sequence) (animation : Option String)
    (reverse : Bool) (timeScale : Float32) :
    (a.launch steps animation reverse timeScale).state.Poised := by
  rcases a.launch_cases steps animation reverse timeScale with ⟨cause, heq⟩ | heq
  · rw [heq]
    exact poised_of_idle rfl
  · rw [heq]
    cases hresult : ((a.begun steps animation reverse timeScale).resolve 0.0).result with
    | ok u =>
        rw [stopOnFailure_of_ok hresult]
        exact fun _ => rests_of_ok hresult
    | error cause =>
        rw [stopOnFailure_of_error hresult]
        exact poised_of_idle rfl

theorem Rests.poised_advanceWithin (h : a.Rests) (shown budget : Nat) :
    (a.advanceWithin shown budget).state.Poised := by
  induction budget using Nat.strongRecOn generalizing a shown with
  | ind budget ih =>
      rcases advanceWithin_cases a shown budget with
        ⟨-, heq⟩ | ⟨-, -, heq⟩ | ⟨-, -, cause, heq, -⟩ | ⟨-, -, hok, -, rest, rfl, heq⟩
      · rw [heq]
        exact fun _ => h
      · rw [heq]
        exact poised_of_idle rfl
      · rw [heq]
        exact poised_of_idle rfl
      · -- the cursor was moved, and is at rest again once the frame is found
        rw [heq, Outcome.state_after]
        exact ih rest (Nat.lt_succ_self rest) (rests_of_ok hok) _

theorem Poised.tick (h : a.Poised) (elapsed : Float32) : (a.tick elapsed).state.Poised := by
  rcases a.tick_cases elapsed with heq | ⟨hidle, heq⟩ | ⟨hplaying, heq⟩
  · rw [heq]
    exact h
  · rw [heq]
    exact h
  · have helapsed : (a.elapse elapsed).Rests := h hplaying
    rw [heq]
    exact helapsed.poised_advanceWithin _ _

theorem poised_animate (a : Animator) (name : String) (reverse : Bool)
    (timeScale : Option Float32) : (a.animate name reverse timeScale).state.Poised :=
  animate_induct (P := fun o => o.state.Poised) (fun _ => poised_of_idle rfl) a.poised_launch name
    reverse timeScale

theorem poised_animateManual (a : Animator) (steps : List AuthoredStep) (reverse : Bool)
    (timeScale : Option Float32) : (a.animateManual steps reverse timeScale).state.Poised :=
  animateManual_induct (P := fun o => o.state.Poised) (fun _ => poised_of_idle rfl) a.poised_launch
    steps reverse timeScale

theorem Poised.respond (h : a.Poised) (call : AnimatorCall) : (a.respond call).Poised := by
  cases call with
  | animate name reverse timeScale => exact poised_animate _ _ _ _
  | animateManual steps reverse timeScale => exact poised_animateManual _ _ _ _
  | start steps reverse timeScale => exact poised_launch _ _ _ _ _
  | tick elapsed => exact h.tick elapsed
  | stop => exact poised_of_idle rfl
  | setFrame frame => exact poised_of_idle rfl
  | reset random => exact poised_of_idle rfl

/-- Whatever is asked of an animator, if it is playing then, its cursor is on a step with a
frame. -/
theorem poised_respondAll (h : a.Poised) (calls : List AnimatorCall) :
    (a.respondAll calls).Poised := by
  induction calls generalizing a with
  | nil => exact h
  | cons call calls ih => exact ih (h.respond call)

/-! ## The end of playback -/

/-- The moments of a tick: when its time has passed, and when a frame that was due then has been
shown. At each of them the next step may be due. -/
inductive Moment : Animator → Animator → Prop where
  /-- No other frame has been shown yet. -/
  | now (a : Animator) : Moment a a
  /-- The frame that is due is shown, and takes some time. -/
  | later {a b : Animator} (hdue : a.playback.countdown ≤ 0.0) (hok : a.due.result = .ok ())
      (hmoved : ¬ a.due.state.playback.countdown ≤ a.playback.countdown)
      (h : Moment a.due.state b) : Moment a b

/-- Playback of `b` ends with a signal for `name` and leads to `after`: the cursor of `b` is on the
last of its steps, which has a frame, and time has run out for it. -/
structure Ends (b : Animator) (name : Option String) (after : Animator) : Prop where
  /-- The cursor is on the last step that `b` plays, and the step has a frame. -/
  last : ∃ steps step, b.playback.steps = some steps ∧ b.playback.cursor + 1 = steps.length ∧
    steps.getLast? = some step ∧ step.hasFrame = true
  /-- No time is left for the frame. -/
  elapsed : b.playback.countdown ≤ 0.0
  /-- The name is that of what `b` plays. -/
  name_eq : name = b.playback.animation
  /-- Nothing else changes: the cursor runs past the step, and the animator is idle. -/
  after_eq : after = b.advanced.stop

/-- Where no step comes after the cursor, it is on the last step that is played. -/
theorem Rests.last (h : a.Rests) (hend : a.playback.length ≤ a.playback.cursor + 1) :
    ∃ steps step, a.playback.steps = some steps ∧ a.playback.cursor + 1 = steps.length ∧
      steps.getLast? = some step ∧ step.hasFrame = true := by
  obtain ⟨step, hstep, hframe⟩ := h
  obtain ⟨steps, hsteps, hcursor⟩ := Option.bind_eq_some_iff.1 hstep
  have hlength : a.playback.length = steps.length := by simp [Playback.length, hsteps]
  obtain ⟨hlt, -⟩ := List.getElem?_eq_some_iff.1 hcursor
  have hlast : a.playback.cursor + 1 = steps.length := by omega
  refine ⟨steps, step, hsteps, hlast, ?_, hframe⟩
  rw [List.getLast?_eq_getElem?, ← hlast]
  exact hcursor

/-- Running past the last step that is played means to rest on it before. -/
theorem Rests.ends (h : a.Rests) (hdue : a.playback.countdown ≤ 0.0)
    (hend : a.playback.length ≤ a.playback.cursor + 1) :
    a.Ends a.playback.animation a.advanced.stop :=
  ⟨h.last hend, hdue, rfl, rfl⟩

/-- Finding a frame does not end playback. -/
theorem stop_notMem_due (a : Animator) (name : Option String) : .stop name ∉ a.due.signals := by
  intro hstop
  cases isStop_due a _ hstop

/-- If playback ends while frames are due, it does so at a moment at which the last step that is
played then has a frame. -/
theorem Rests.ends_of_stop (h : a.Rests)
    (hstop : .stop name ∈ (a.advanceWithin shown budget).signals) :
    ∃ b, Moment a b ∧ b.Ends name (a.advanceWithin shown budget).state := by
  induction budget using Nat.strongRecOn generalizing a shown with
  | ind budget ih =>
      rcases advanceWithin_cases a shown budget with
        ⟨-, heq⟩ | ⟨hdue, hend, heq⟩ | ⟨-, -, cause, heq, -⟩ |
          ⟨hdue, -, hok, hmoved, rest, rfl, heq⟩
      · rw [heq] at hstop
        cases hstop
      · -- the step that the cursor rests on is the last one
        rw [heq] at hstop ⊢
        cases List.mem_singleton.1 hstop
        exact ⟨a, .now a, h.ends hdue hend⟩
      · rw [heq] at hstop
        exact absurd hstop (stop_notMem_due a name)
      · rw [heq, Outcome.signals_after, List.mem_append] at hstop
        rw [heq, Outcome.state_after]
        obtain ⟨b, hmoment, hends⟩ :=
          ih rest (Nat.lt_succ_self rest) (rests_of_ok hok)
            (hstop.resolve_left (stop_notMem_due a name))
        exact ⟨b, .later hdue hok hmoved hmoment, hends⟩

theorem Poised.ends_of_stop (h : a.Poised) {elapsed : Float32}
    (hstop : .stop name ∈ (a.tick elapsed).signals) :
    ∃ b, Moment (a.elapse elapsed) b ∧ b.Ends name (a.tick elapsed).state := by
  rcases a.tick_cases elapsed with heq | ⟨-, heq⟩ | ⟨hplaying, heq⟩
  · rw [heq] at hstop
    cases hstop
  · rw [heq] at hstop
    cases hstop
  · have helapsed : (a.elapse elapsed).Rests := h hplaying
    rw [heq] at hstop ⊢
    exact helapsed.ends_of_stop hstop

/-! ## Playback without an end -/

/-- The steps that are played, and all that redirections can lead to, end with a redirection. -/
structure Tireless (a : Animator) : Prop where
  /-- Links lead to animations that end with a redirection. -/
  set_endless : EndlessSet a.animations
  /-- So do the steps that are played now. -/
  steps_endless : ∃ steps, a.playback.steps = some steps ∧ Endless steps

theorem Tireless.switched (h : a.Tireless) {target : String} {steps : Sequence}
    (hget : a.animations.get? target = some steps) : (a.switched target steps).Tireless :=
  ⟨h.set_endless, steps, rfl, h.set_endless target steps hget⟩

theorem Tireless.resolveWithin (h : a.Tireless) (leftover : Float32) (budget : Nat) :
    (a.resolveWithin leftover budget).state.Tireless := by
  refine resolveWithin_induct ?_ ?_ ?_ ?_ h
  · exact fun _ _ _ hb => ⟨hb.set_endless, hb.steps_endless⟩
  · exact fun _ _ _ hb => ⟨hb.set_endless, hb.steps_endless⟩
  · exact fun _ hb => ⟨hb.set_endless, hb.steps_endless⟩
  · exact fun _ _ _ hb hget => hb.switched hget

theorem Tireless.due (h : a.Tireless) : a.due.state.Tireless := by
  have hadvanced : a.advanced.Tireless := ⟨h.set_endless, h.steps_endless⟩
  exact hadvanced.resolveWithin _ _

/-- A step with a frame is not the last one, so there is one after it. -/
theorem Tireless.next_lt (h : a.Tireless) (hrests : a.Rests) :
    a.playback.cursor + 1 < a.playback.length := by
  refine Nat.lt_of_not_le fun hend => ?_
  obtain ⟨steps, step, hsteps, -, hlast, hframe⟩ := hrests.last hend
  obtain ⟨others, hothers, last, hredirecting, hredirects⟩ := h.steps_endless
  -- the last step would have a frame and redirect
  cases hsteps.symm.trans hothers
  cases hlast.symm.trans hredirecting
  rw [hframe] at hredirects
  cases hredirects

/-- An outcome of an animator that does not come to an end: only an error can leave it idle. -/
structure Lasting (a : Animator) (o : Outcome Animator Bool) : Prop where
  /-- Playback does not end. -/
  no_stop : ∀ name, .stop name ∉ o.signals
  /-- Redirections lead on and on. -/
  tireless : o.state.Tireless
  /-- Time moves the animator as before, unless something failed. -/
  playing_or : o.state.playback.playing = a.playback.playing ∨ ∃ cause, o.result = .error cause

/-- Nothing happened. -/
theorem Tireless.lasting_of_silent (h : a.Tireless) {o : Outcome Animator Bool}
    (hstate : o.state = a) (hsignals : o.signals = []) : a.Lasting o := by
  refine ⟨?_, hstate ▸ h, Or.inl (by rw [hstate])⟩
  intro name
  rw [hsignals]
  exact List.not_mem_nil

theorem Tireless.lasting_advanceWithin (h : a.Tireless) (hrests : a.Rests) (shown budget : Nat) :
    a.Lasting (a.advanceWithin shown budget) := by
  induction budget using Nat.strongRecOn generalizing a shown with
  | ind budget ih =>
      rcases advanceWithin_cases a shown budget with
        ⟨-, heq⟩ | ⟨-, hend, -⟩ | ⟨-, -, cause, heq, -⟩ | ⟨-, -, hok, -, rest, rfl, heq⟩
      · rw [heq]
        exact h.lasting_of_silent rfl rfl
      · -- there is a step after this one
        exact absurd (h.next_lt hrests) (Nat.not_lt.2 hend)
      · rw [heq]
        exact ⟨stop_notMem_due a, ⟨h.due.set_endless, h.due.steps_endless⟩, Or.inr ⟨cause, rfl⟩⟩
      · have hlater := ih rest (Nat.lt_succ_self rest) h.due (rests_of_ok hok) (shown + 1)
        have hplaying : a.due.state.playback.playing = a.playback.playing :=
          (sameSettings_of_ok hok).playing_eq
        rw [heq]
        refine ⟨?_, hlater.tireless, hlater.playing_or.imp_left (·.trans hplaying)⟩
        intro name hstop
        rcases List.mem_append.1 hstop with hfirst | hrest
        · exact stop_notMem_due a name hfirst
        · exact hlater.no_stop name hrest

theorem Tireless.lasting_tick (h : a.Tireless) (hpoised : a.Poised) (elapsed : Float32) :
    a.Lasting (a.tick elapsed) := by
  rcases a.tick_cases elapsed with heq | ⟨-, heq⟩ | ⟨hplaying, heq⟩
  · rw [heq]
    exact h.lasting_of_silent rfl rfl
  · rw [heq]
    exact h.lasting_of_silent rfl rfl
  · have helapsed : (a.elapse elapsed).Tireless := ⟨h.set_endless, h.steps_endless⟩
    have hlasting := helapsed.lasting_advanceWithin (hpoised hplaying) 0 a.maxFramesPerTick
    rw [heq]
    exact ⟨hlasting.no_stop, hlasting.tireless, hlasting.playing_or⟩

/-- The animator after ticks, whether they succeed or fail. -/
def tickAll (a : Animator) (times : List Float32) : Animator :=
  times.foldl (fun b elapsed => (b.tick elapsed).state) a

/-- Ticks do not run past the last step, and only a failure leaves the animator idle. -/
structure PlaysOn (a : Animator) : Prop where
  /-- No tick of any run ends playback. -/
  no_stop : ∀ times elapsed name, .stop name ∉ ((a.tickAll times).tick elapsed).signals
  /-- An animator that a run leaves idle has had a tick that failed, and not for its time. -/
  failed_of_idle : ∀ times, (a.tickAll times).playback.playing = false →
    ∃ earlier elapsed later cause, times = earlier ++ elapsed :: later ∧
      elapsed.isFinite = true ∧ ((a.tickAll earlier).tick elapsed).result = .error cause

theorem Tireless.no_stop_tickAll (h : a.Tireless) (hpoised : a.Poised) (times : List Float32)
    (elapsed : Float32) (name : Option String) :
    .stop name ∉ ((a.tickAll times).tick elapsed).signals := by
  induction times generalizing a with
  | nil => exact (h.lasting_tick hpoised elapsed).no_stop name
  | cons first times ih =>
      -- both invariants outlast the first tick, also where it fails
      exact ih (h.lasting_tick hpoised first).tireless (hpoised.tick first)

/-- A tick that leaves the animator idle has failed, and not for its time. -/
theorem Tireless.failed_of_idle_tick (h : a.Tireless) (hpoised : a.Poised)
    (hplaying : a.playback.playing = true) {elapsed : Float32}
    (hidle : (a.tick elapsed).state.playback.playing = false) :
    elapsed.isFinite = true ∧ ∃ cause, (a.tick elapsed).result = .error cause := by
  constructor
  · -- a time that is no number leaves the animator as it is
    rw [← Bool.not_eq_false]
    intro hinvalid
    rw [tick_of_invalidElapsed hinvalid] at hidle
    cases hplaying.symm.trans hidle
  · rcases (h.lasting_tick hpoised elapsed).playing_or with hsame | hfailed
    · cases (hplaying.symm.trans hsame.symm).trans hidle
    · exact hfailed

theorem Tireless.failed_of_idle_tickAll (h : a.Tireless) (hpoised : a.Poised)
    (hplaying : a.playback.playing = true) {times : List Float32}
    (hidle : (a.tickAll times).playback.playing = false) :
    ∃ earlier elapsed later cause, times = earlier ++ elapsed :: later ∧
      elapsed.isFinite = true ∧ ((a.tickAll earlier).tick elapsed).result = .error cause := by
  induction times generalizing a with
  | nil => cases hplaying.symm.trans hidle
  | cons first times ih =>
      cases hfirst : (a.tick first).state.playback.playing with
      | false =>
          -- the first tick is the one that failed
          obtain ⟨hfinite, cause, hfailed⟩ := h.failed_of_idle_tick hpoised hplaying hfirst
          exact ⟨[], first, times, cause, rfl, hfinite, hfailed⟩
      | true =>
          obtain ⟨earlier, elapsed, later, cause, rfl, hfinite, hfailed⟩ :=
            ih (h.lasting_tick hpoised first).tireless (hpoised.tick first) hfirst hidle
          exact ⟨first :: earlier, elapsed, later, cause, rfl, hfinite, hfailed⟩

/-- A start that succeeds plays an animation of the set, or one that a link of it leads to. -/
theorem tireless_of_animate (hset : EndlessSet a.animations) {reverse : Bool}
    {timeScale : Option Float32} {name : String}
    (hok : (a.animate name reverse timeScale).result = .ok ()) :
    (a.animate name reverse timeScale).state.Tireless ∧
      (a.animate name reverse timeScale).state.playback.playing = true := by
  unfold animate at hok ⊢
  cases hget : a.animations.get? name with
  | none =>
      rw [hget] at hok
      cases hok
  | some steps =>
      simp only [hget] at hok ⊢
      generalize timeScale.getD a.frameTime = scale at hok ⊢
      rcases a.launch_cases steps (some name) reverse scale with ⟨cause, heq⟩ | heq
      · rw [heq] at hok
        cases hok
      · rw [heq, result_stopOnFailure] at hok
        rw [heq, stopOnFailure_of_ok hok]
        have hbegun : (a.begun steps (some name) reverse scale).Tireless :=
          ⟨hset, steps, rfl, hset name steps hget⟩
        exact ⟨hbegun.resolveWithin _ _, (sameSettings_of_ok hok).playing_eq⟩

/-- Whatever was asked of an animator before: a tick ends playback only at a moment at which the
cursor is on the last step of what is played then, and that step has a frame. So where every
animation of the set ends with a redirection, one that is started by its name plays on, through runs
of ticks of any length, until a tick fails. The set need not have been compiled. -/
theorem stops_only_on_frame (animations : AnimationSet) (config : Config) (random : Random)
    (calls : List AnimatorCall) :
    (∀ elapsed name,
      .stop name ∈ ((((create animations config random).respondAll calls).tick elapsed).signals) →
      ∃ b, Moment (((create animations config random).respondAll calls).elapse elapsed) b ∧
        b.Ends name (((create animations config random).respondAll calls).tick elapsed).state) ∧
    (EndlessSet animations → ∀ name reverse timeScale,
      (((create animations config random).respondAll calls).animate name reverse timeScale).result =
        .ok () →
      (((create animations config random).respondAll calls).animate name reverse
        timeScale).state.PlaysOn) := by
  -- no call exchanges the set, so the animator that is reached has the one it was made with
  have hanimations : ((create animations config random).respondAll calls).animations = animations :=
    congrArg (·.1) (settings_respondAll (create animations config random) calls)
  have hpoised : ((create animations config random).respondAll calls).Poised :=
    poised_respondAll (poised_of_idle rfl) calls
  generalize (create animations config random).respondAll calls = a at hanimations hpoised ⊢
  constructor
  · exact fun elapsed name hstop => hpoised.ends_of_stop hstop
  · intro hset name reverse timeScale hok
    subst hanimations
    obtain ⟨htireless, hplaying⟩ := tireless_of_animate hset hok
    have hstarted := poised_animate a name reverse timeScale
    exact ⟨htireless.no_stop_tickAll hstarted,
      fun _ hidle => htireless.failed_of_idle_tickAll hstarted hplaying hidle⟩

theorem endlessSet_winkSet : EndlessSet winkSet := by
  intro name steps hsteps
  have hmem : (name, steps) ∈ winkSet.entries := (winkSet.mem_entries_iff name steps).2 hsteps
  rcases List.mem_cons.1 hmem with heq | hrest
  · cases heq
    exact ⟨.loop, rfl, rfl⟩
  · cases List.mem_singleton.1 hrest
    exact ⟨.link "nod", rfl, rfl⟩

/-- An animator that has started one frame without a name, with the two animations at hand. -/
def glancing : Animator :=
  (create winkSet {} (Random.ofSeed 7)).respondAll
    [.animateManual [.frame 4 (.fixed 1.0)] false none]

/-- The frame is the last step, so time runs past it; a link to steps that loop plays on. -/
theorem playsOn_glancing :
    (∃ b, Moment (glancing.elapse 1000.0) b ∧ b.Ends none (glancing.tick 1000.0).state) ∧
      (glancing.animate "wink" false none).state.PlaysOn := by
  have hends := stops_only_on_frame winkSet {} (Random.ofSeed 7)
    [.animateManual [.frame 4 (.fixed 1.0)] false none]
  refine ⟨hends.1 1000.0 none (by decide +kernel), hends.2 endlessSet_winkSet "wink" false none ?_⟩
  have hisOk : (glancing.animate "wink" false none).result.isOk = true := by decide +kernel
  cases hok : (glancing.animate "wink" false none).result with
  | error cause =>
      rw [hok] at hisOk
      cases hisOk
  | ok u => exact hok

end Animator

end SpriteStage
