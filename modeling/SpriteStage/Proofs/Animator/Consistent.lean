import SpriteStage.Proofs.Animator.Reachable
import SpriteStage.Proofs.Animator.Sound
import SpriteStage.Proofs.Animator.Split
import SpriteStage.Proofs.Single.Bounds

/-!
# What an animator shows is what it plays

An animator that is playing has a cursor on a step with a frame, and that frame is on screen; what
is left of its time is a number and not negative, and its name leads to the steps that it plays. An
animator that is idle has no name. Every operation keeps that, whether it succeeds or fails, so it
holds of every animator that can be reached (`consistent_of_reachable`).

In the middle of a tick some of it is lost: time is taken off the countdown before any frame is
found, and the cursor is moved before the frame is on screen. `Cued` is what is left then, and
finding a frame gives the rest back (`Cued.landed`).
-/

set_option autoImplicit false

namespace SpriteStage.Animator

/-! ## What is on screen -/

/-- The frame on screen is that of a step: the one frame it has, or one of its choices, which is
then the one that was picked last. Redirections have no frame. -/
def Shows (a : Animator) : AnimationStep → Prop
  | .frame index _ => a.playback.frame = some index
  | .unique choices _ =>
    ∃ choice ∈ choices, a.playback.frame = some choice ∧ a.playback.lastPick = some choice
  | .loop => False
  | .link _ => False

/-- The cursor is on a step that has a frame, and the frame is on screen. -/
def OnScreen (a : Animator) : Prop :=
  ∃ steps step, a.playback.steps = some steps ∧ steps[a.playback.cursor]? = some step ∧ a.Shows step

/-- The name of what is playing, if there is one, leads to the steps that are played. -/
def Named (animations : AnimationSet) (a : Animator) : Prop :=
  ∀ name, a.playback.animation = some name →
    ∃ steps, animations.get? name = some steps ∧ a.playback.steps = some steps

/-- What holds of an animator that is playing. -/
structure Performs (animations : AnimationSet) (a : Animator) : Prop where
  /-- The cursor is on a step with a frame, which is on screen. -/
  onScreen : a.OnScreen
  /-- The time that is left is a number. -/
  countdown_defined : a.playback.countdown.isNaN = false
  /-- The time that is left is not negative. -/
  countdown_nonneg : 0.0 ≤ a.playback.countdown
  /-- The time of one duration unit is finite. -/
  timeScale_finite : a.playback.timeScale.isFinite = true
  /-- The time of one duration unit is above zero. -/
  timeScale_pos : 0.0 < a.playback.timeScale
  /-- The name leads to the steps. -/
  named : a.Named animations

/-- What holds of an animator whether it is playing or not. -/
structure Consistent (animations : AnimationSet) (a : Animator) : Prop where
  /-- What is playing is on screen. -/
  performs : a.playback.playing = true → a.Performs animations
  /-- What is idle has no name. -/
  unnamed : a.playback.playing = false → a.playback.animation = none
  /-- The sprite looks one way or the other. -/
  flip_eq : a.playback.flip = 1.0 ∨ a.playback.flip = -1.0

variable {animations : AnimationSet} {frameCount : Option Nat} {a b : Animator}
  {leftover : Float32} {budget : Nat}

/-- The sprite of every animator looks one way or the other. -/
theorem flip_cases (a : Animator) : a.playback.flip = 1.0 ∨ a.playback.flip = -1.0 := by
  cases h : a.playback.mirrored with
  | true => exact Or.inr (by simp [Playback.flip, h])
  | false => exact Or.inl (by simp [Playback.flip, h])

/-- Only the name of an idle animator can be wrong. -/
theorem consistent_of_idle (hidle : a.playback.playing = false)
    (hname : a.playback.animation = none) : a.Consistent animations := by
  refine ⟨?_, fun _ => hname, a.flip_cases⟩
  intro hplaying
  rw [hidle] at hplaying
  exact absurd hplaying Bool.false_ne_true

theorem consistent_stop (a : Animator) : a.stop.Consistent animations :=
  consistent_of_idle rfl rfl

/-! ## Finding a frame -/

/-- A frame that is found is that of the step where the redirections end, and what redirections keep
still holds there. -/
theorem exists_shown_of_ok {P : Animator → Prop} (hrewound : ∀ a, P a → P a.rewound)
    (hswitched : ∀ a target steps, P a → a.animations.get? target = some steps →
      P (a.switched target steps))
    (h : P a) (hok : (a.resolveWithin leftover budget).result = .ok ()) :
    ∃ b frame, P b ∧
      b.resolveStep leftover = .shown (a.resolveWithin leftover budget).state frame := by
  fun_induction resolveWithin leftover budget a with
  | case1 budget a b frame hstep => exact ⟨a, frame, h, hstep⟩
  | case2 budget a cause hstep => cases hok
  | case3 a b signal hstep => cases hok
  | case4 a b signal hstep budget ih =>
      refine ih ?_ hok
      rcases redirected_cases hstep with ⟨-, -, rfl⟩ | ⟨target, steps, -, hget, -, rfl⟩
      · exact hrewound a h
      · exact hswitched a target steps h hget

/-- What holds of an animator that is about to find a frame: all that holds of one that is playing,
but for the frame and the time that is left. -/
structure Cued (animations : AnimationSet) (a : Animator) : Prop where
  /-- The steps can be played. -/
  provided : a.Provided animations
  /-- Time moves the animator. -/
  playing_eq : a.playback.playing = true
  /-- The time of one duration unit is positive and finite. -/
  timeScale_ok : ¬(a.playback.timeScale.isFinite = false ∨ a.playback.timeScale ≤ 0.0)
  /-- The name leads to the steps. -/
  named : a.Named animations

/-- Neither the cursor, the frame nor the countdown matter to a cue. -/
theorem Cued.congr (h : a.Cued animations) (hanimations : b.animations = a.animations)
    (hsteps : b.playback.steps = a.playback.steps)
    (hname : b.playback.animation = a.playback.animation)
    (hplaying : b.playback.playing = a.playback.playing)
    (hscale : b.playback.timeScale = a.playback.timeScale) : b.Cued animations := by
  refine ⟨⟨hanimations.trans h.provided.animations_eq, ?_⟩, hplaying.trans h.playing_eq, ?_, ?_⟩
  · rw [hsteps]
    exact h.provided.steps_playable
  · rw [hscale]
    exact h.timeScale_ok
  · unfold Named
    rw [hname, hsteps]
    exact h.named

/-- A redirection leads to steps of the set, under their name. -/
theorem Cued.switched (hset : SoundSet animations frameCount) (h : a.Cued animations)
    {target : String} {next : Sequence} (hnext : a.animations.get? target = some next) :
    (a.switched target next).Cued animations := by
  rw [h.provided.animations_eq] at hnext
  refine ⟨⟨h.provided.animations_eq, ?_⟩, h.playing_eq, h.timeScale_ok, ?_⟩
  · intro steps hsteps
    cases hsteps
    exact hset.playable target next hnext
  · intro name hname
    cases hname
    exact ⟨next, hnext, rfl⟩

/-- A step that shows a frame has it on screen, and keeps what is played and its name. -/
theorem Cued.shown (h : a.Cued animations) {frame : UInt64}
    (hshown : a.resolveStep leftover = .shown b frame) : b.Cued animations ∧ b.OnScreen := by
  rcases shown_cases hshown with ⟨duration, hstep, rfl⟩ | ⟨choices, duration, hstep, rfl, rfl⟩
  · obtain ⟨steps, hsteps, hcursor⟩ := Option.bind_eq_some_iff.1 hstep
    exact ⟨h.congr rfl rfl rfl rfl rfl, steps, _, hsteps, hcursor, rfl⟩
  · -- steps that can be played leave something to pick, so the pick is one of the choices
    obtain ⟨steps, hsteps, hcursor⟩ := Option.bind_eq_some_iff.1 hstep
    have hplayable := (h.provided.steps_playable steps hsteps).playable _
      (List.mem_of_getElem? hcursor)
    exact ⟨h.congr rfl rfl rfl rfl rfl, steps, _, hsteps, hcursor, _, a.pick_mem hplayable.2,
      rfl, rfl⟩

/-- A frame that is found is on screen, and counts down from its hold and what was left over. -/
theorem Cued.landed (hset : SoundSet animations frameCount) (h : a.Cued animations)
    (hok : (a.resolve leftover).result = .ok ()) :
    (a.resolve leftover).state.Cued animations ∧ (a.resolve leftover).state.OnScreen ∧
      ∃ held, Single.Unsigned held ∧
        (a.resolve leftover).state.playback.countdown = held + leftover := by
  obtain ⟨last, frame, hfrom, hstep⟩ := exists_shown_of_ok
    (fun _ hb => hb.congr rfl rfl rfl rfl rfl) (fun _ _ _ hb => hb.switched hset) h hok
  obtain ⟨hfound, hscreen⟩ := hfrom.shown hstep
  exact ⟨hfound, hscreen, h.provided.exists_hold hset h.timeScale_ok hok⟩

/-- With the frame on screen and time left, nothing is missing. -/
theorem Cued.performs (h : a.Cued animations) (hscreen : a.OnScreen)
    (htime : 0.0 ≤ a.playback.countdown) : a.Performs animations := by
  obtain ⟨hfinite, habove⟩ := not_or.1 h.timeScale_ok
  rw [Bool.not_eq_false] at hfinite
  have hdefined := Single.isNaN_eq_false_of_isFinite hfinite
  exact ⟨hscreen, (Single.isNaN_eq_false_of_le htime).2, htime, hfinite,
    Single.zero_lt_of_not_le hdefined habove, h.named⟩

/-- Once time is left, an animator that is playing is consistent. -/
theorem Cued.consistent (h : a.Cued animations) (hscreen : a.OnScreen)
    (htime : 0.0 ≤ a.playback.countdown) : a.Consistent animations := by
  refine ⟨fun _ => h.performs hscreen htime, ?_, a.flip_cases⟩
  intro hidle
  rw [h.playing_eq] at hidle
  exact absurd hidle.symm Bool.false_ne_true

/-! ## Starting -/

/-- A start either fails and leaves the animator idle, or the first frame is on screen. -/
theorem Provided.consistent_launch (hset : SoundSet animations frameCount)
    (h : a.Provided animations) {steps : Sequence} (hsteps : PlayableSteps steps)
    {animation : Option String} (hname : ∀ name, animation = some name →
      animations.get? name = some steps) (reverse : Bool) (timeScale : Float32) :
    (a.launch steps animation reverse timeScale).state.Consistent animations := by
  by_cases hscale : timeScale.isFinite = false ∨ timeScale ≤ 0.0
  · rw [launch_of_invalidTimeScale hscale]
    exact consistent_stop a
  · have hcued : (a.begun steps animation reverse timeScale).Cued animations := by
      refine ⟨h.begun hsteps animation reverse timeScale, rfl, hscale, ?_⟩
      intro name heq
      exact ⟨steps, hname name heq, rfl⟩
    rw [launch_eq hscale hsteps.nonempty]
    cases hresult : ((a.begun steps animation reverse timeScale).resolve 0.0).result with
    | error cause =>
        rw [stopOnFailure_of_error hresult]
        exact consistent_stop _
    | ok u =>
        rw [stopOnFailure_of_ok hresult]
        obtain ⟨hfound, hscreen, held, hheld, hcountdown⟩ := hcued.landed hset hresult
        refine hfound.consistent hscreen ?_
        -- nothing is left over from before, so the hold is all there is
        rw [hcountdown, Single.add_zero hheld.sign_eq]
        exact hheld.nonneg

/-! ## Ticking -/

/-- The frame that is due next leaves the countdown bounded below, like the frame before. -/
theorem Cued.due (hset : SoundSet animations frameCount) (h : a.Cued animations)
    (hbelow : Single.BoundedBelow a.playback.countdown) (hdue : a.playback.countdown ≤ 0.0)
    (hok : a.due.result = .ok ()) :
    a.due.state.Cued animations ∧ a.due.state.OnScreen ∧
      Single.BoundedBelow a.due.state.playback.countdown := by
  have hadvanced : a.advanced.Cued animations := h.congr rfl rfl rfl rfl rfl
  obtain ⟨hfound, hscreen, held, hheld, hcountdown⟩ := hadvanced.landed hset hok
  refine ⟨hfound, hscreen, ?_⟩
  have hlater : a.due.state.playback.countdown = held + a.playback.countdown := hcountdown
  rw [hlater]
  exact hbelow.add hdue hheld.nonneg

/-- The frames of a tick leave the animator idle, or with a frame on screen that has time left. -/
theorem Cued.consistent_advanceWithin (hset : SoundSet animations frameCount)
    (h : a.Cued animations) (hscreen : a.OnScreen)
    (hbelow : Single.BoundedBelow a.playback.countdown) (shown budget : Nat) :
    (a.advanceWithin shown budget).state.Consistent animations ∧
      ((a.advanceWithin shown budget).state.playback.playing = true →
        0.0 < (a.advanceWithin shown budget).state.playback.countdown) := by
  induction budget using Nat.strongRecOn generalizing a shown with
  | ind budget ih =>
      rcases advanceWithin_cases a shown budget with
        ⟨hwait, heq⟩ | ⟨-, -, heq⟩ | ⟨-, -, cause, heq, -⟩ | ⟨hdue, -, hok, -, rest, rfl, heq⟩
      · -- the frame stays; its countdown is a number, so it is above zero
        have hpos := Single.zero_lt_of_not_le hbelow.defined hwait
        rw [heq]
        exact ⟨h.consistent hscreen (Single.le_of_lt hpos), fun _ => hpos⟩
      · rw [heq]
        exact ⟨consistent_stop _, fun hplaying => absurd hplaying Bool.false_ne_true⟩
      · rw [heq]
        exact ⟨consistent_stop _, fun hplaying => absurd hplaying Bool.false_ne_true⟩
      · rw [heq, Outcome.state_after]
        obtain ⟨hnext, hframe, hbound⟩ := h.due hset hbelow hdue hok
        exact ih rest (Nat.lt_succ_self rest) hnext hframe hbound _

/-- A tick keeps an animator consistent; if it succeeds and the animator plays on, time is left. -/
theorem Steady.consistent_tick (hset : SoundSet animations frameCount)
    (hsteady : a.Steady animations) (h : a.Consistent animations) (elapsed : Float32) :
    (a.tick elapsed).state.Consistent animations ∧
      ∀ changed, (a.tick elapsed).result = .ok changed →
        (a.tick elapsed).state.playback.playing = true →
          0.0 < (a.tick elapsed).state.playback.countdown := by
  by_cases hinvalid : elapsed.isFinite = false
  · rw [tick_of_invalidElapsed hinvalid]
    refine ⟨h, ?_⟩
    intro changed hok
    cases hok
  · by_cases hidle : a.playback.playing = false
    · rw [tick_of_idle hinvalid hidle]
      refine ⟨h, ?_⟩
      intro changed _ hplaying
      exact absurd (hidle.symm.trans hplaying) Bool.false_ne_true
    · have hplaying : a.playback.playing = true := by simpa using hidle
      have hperforms := h.performs hplaying
      have hcued : a.Cued animations :=
        ⟨hsteady.provided, hplaying, hsteady.timeScale_ok hplaying, hperforms.named⟩
      have helapsed : (a.elapse elapsed).Cued animations := hcued.congr rfl rfl rfl rfl rfl
      -- what is left may be below zero now, but not below every number
      have hbelow : Single.BoundedBelow (a.elapse elapsed).playback.countdown :=
        Single.boundedBelow_sub hperforms.countdown_nonneg (by simpa using hinvalid)
      rw [tick_eq hinvalid hidle]
      obtain ⟨hstate, htime⟩ := helapsed.consistent_advanceWithin hset hperforms.onScreen hbelow 0
        a.maxFramesPerTick
      exact ⟨hstate, fun _ _ => htime⟩

/-! ## Every reachable animator -/

/-- Every animator that operations lead to, whether they succeed or fail, is consistent; and a tick
that succeeds leaves time for the frame on screen. -/
theorem consistent_of_reachable {authored : Table (List AuthoredStep)}
    (hcompile : compileSet authored frameCount = .ok animations) {config : Config}
    (h : Reachable animations config a) :
    a.Consistent animations ∧
      ∀ elapsed changed, (a.tick elapsed).result = .ok changed →
        (a.tick elapsed).state.playback.playing = true →
          0.0 < (a.tick elapsed).state.playback.countdown := by
  have hset := sound_of_compileSet hcompile
  have hconsistent : a.Consistent animations := by
    induction h with
    | create random => exact consistent_of_idle rfl rfl
    | @animate a ha name reverse timeScale _ =>
        have hprovided := (steady_of_reachable hset ha).provided
        unfold Animator.animate
        cases hget : a.animations.get? name with
        | none => exact consistent_stop a
        | some steps =>
            rw [hprovided.animations_eq] at hget
            refine hprovided.consistent_launch hset (hset.playable name steps hget) ?_ _ _
            intro other hother
            cases hother
            exact hget
    | @animateManual a ha steps reverse timeScale _ =>
        unfold Animator.animateManual
        cases hsteps : compileAnimation Playback.manualLabel steps with
        | error cause => exact consistent_stop a
        | ok compiled =>
            exact (steady_of_reachable hset ha).provided.consistent_launch hset
              (playableSteps_of_compileAnimation hsteps) (by simp) _ _
    | start ha hsteps reverse timeScale _ =>
        exact (steady_of_reachable hset ha).provided.consistent_launch hset
          (playable_of_compiled hset hsteps) (by simp) _ _
    | tick ha elapsed ih => exact ((steady_of_reachable hset ha).consistent_tick hset ih elapsed).1
    | stop ha _ => exact consistent_stop _
    | setFrame ha frame _ => exact consistent_of_idle rfl rfl
    | reset ha random _ => exact consistent_of_idle rfl rfl
  refine ⟨hconsistent, ?_⟩
  intro elapsed
  exact ((steady_of_reachable hset h).consistent_tick hset hconsistent elapsed).2

/-- After the first frame of its animation, the animator shows a frame that was picked. -/
theorem consistent_of_striding :
    (striding.tick 475.0).state.playback.playing = true ∧
      (striding.tick 475.0).state.Performs strideSet := by
  have hplaying : (striding.tick 475.0).state.playback.playing = true := by decide +kernel
  have hreach : Reachable strideSet {} (striding.tick 475.0).state :=
    ((Reachable.create _).animate "stride" false none).tick 475.0
  have hconsistent := (consistent_of_reachable compileSet_strideSteps hreach).1
  exact ⟨hplaying, hconsistent.performs hplaying⟩

end SpriteStage.Animator
