import SpriteStage.Proofs.Animator.Leftover
import SpriteStage.Proofs.Random
import SpriteStage.Proofs.Single.Product

/-!
# Reachable animators

An animator is driven by seven operations, in any order, whether they succeed or fail. What is
proved of all animators that can be reached this way is `Steady`: they know the set they were made
with, they play steps that can be played, and while they play, their time scale is positive and
their countdown is not negative (`steady_of_reachable`).
-/

set_option autoImplicit false

namespace SpriteStage

/-- A count of a duration that passed its check is positive. -/
theorem FrameDuration.positive_draw {duration : FrameDuration} (h : duration.check = .ok ())
    (random : Random) : Single.Positive (duration.draw random).1 := by
  cases duration with
  | fixed count =>
      -- the check refuses a count that is not above zero
      obtain ⟨hcount, habove⟩ := not_or.1 (fixed_of_check h)
      rw [Bool.not_eq_false] at hcount
      exact Single.positive_of_not_le (Single.isNaN_eq_false_of_isFinite hcount) habove
  | range least greatest =>
      -- what is drawn is not below the least, which is not zero
      obtain ⟨hleast, hle⟩ := range_of_check h
      have hpos : 0 < least.toNat := Nat.pos_of_ne_zero fun h0 => hleast (UInt32.toNat_inj.1 h0)
      have hbounds := random.range_bounds hle
      exact Single.toFloat32_positive (Nat.lt_of_lt_of_le hpos hbounds.1)

namespace Animator

/-- Steps that were compiled, by themselves or with a set. -/
def Compiled (animations : AnimationSet) (steps : Sequence) : Prop :=
  (∃ name authored, compileAnimation name authored = .ok steps) ∨
    ∃ name, animations.get? name = some steps

/-- The animators that operations lead to, whether they succeed or fail. -/
inductive Reachable (animations : AnimationSet) (config : Config) : Animator → Prop where
  /-- An animator starts idle. -/
  | create (random : Random) : Reachable animations config (create animations config random)
  /-- A named animation is started. -/
  | animate {a : Animator} (h : Reachable animations config a) (name : String) (reverse : Bool)
      (timeScale : Option Float32) :
      Reachable animations config (a.animate name reverse timeScale).state
  /-- Authored steps are compiled and started. -/
  | animateManual {a : Animator} (h : Reachable animations config a) (steps : List AuthoredStep)
      (reverse : Bool) (timeScale : Option Float32) :
      Reachable animations config (a.animateManual steps reverse timeScale).state
  /-- Compiled steps are started. -/
  | start {a : Animator} (h : Reachable animations config a) {steps : Sequence}
      (hsteps : Compiled animations steps) (reverse : Bool) (timeScale : Float32) :
      Reachable animations config (a.start steps reverse timeScale).state
  /-- Time passes. -/
  | tick {a : Animator} (h : Reachable animations config a) (elapsed : Float32) :
      Reachable animations config (a.tick elapsed).state
  /-- Playback is stopped. -/
  | stop {a : Animator} (h : Reachable animations config a) : Reachable animations config a.stop
  /-- A frame is put on screen. -/
  | setFrame {a : Animator} (h : Reachable animations config a) (frame : UInt64) :
      Reachable animations config (a.setFrame frame)
  /-- Playback is forgotten. -/
  | reset {a : Animator} (h : Reachable animations config a) (random : Random) :
      Reachable animations config (a.reset random)

/-- What holds of every animator that can be reached. -/
structure Steady (animations : AnimationSet) (a : Animator) : Prop where
  /-- The set is the one that the animator was made with. -/
  animations_eq : a.animations = animations
  /-- The steps can be played. -/
  steps_playable : ∀ steps, a.playback.steps = some steps → PlayableSteps steps
  /-- The time scale of what is playing is positive and finite. -/
  timeScale_ok : a.playback.playing = true →
    ¬(a.playback.timeScale.isFinite = false ∨ a.playback.timeScale ≤ 0.0)
  /-- The countdown of what is playing is not negative. -/
  countdown_ok : a.playback.playing = true → ¬ a.playback.countdown < 0.0

/-! ## What is played can be played -/

/-- The part of `Steady` that every step keeps. -/
structure Provided (animations : AnimationSet) (a : Animator) : Prop where
  /-- The set is the one that the animator was made with. -/
  animations_eq : a.animations = animations
  /-- The steps can be played. -/
  steps_playable : ∀ steps, a.playback.steps = some steps → PlayableSteps steps

variable {animations : AnimationSet} {frameCount : Option Nat} {a : Animator}

theorem Steady.provided (h : a.Steady animations) : a.Provided animations :=
  ⟨h.animations_eq, h.steps_playable⟩

theorem Provided.steady_of_idle (h : a.Provided animations) (hidle : a.playback.playing = false) :
    a.Steady animations := by
  refine ⟨h.animations_eq, h.steps_playable, ?_, ?_⟩
  · intro hplaying
    rw [hidle] at hplaying
    cases hplaying
  · intro hplaying
    rw [hidle] at hplaying
    cases hplaying

theorem Provided.stop (h : a.Provided animations) : a.stop.Provided animations :=
  ⟨h.animations_eq, h.steps_playable⟩

/-- Durations of steps that can be played passed their check. -/
theorem Provided.durations (hset : SoundSet animations frameCount) (h : a.Provided animations) :
    a.DurationsSatisfy fun d => d.check = .ok () := by
  refine ⟨?_, ?_⟩
  · intro steps hsteps step hstep duration hduration
    exact ((h.steps_playable steps hsteps).playable step hstep).check_eq_ok hduration
  · intro name steps hsteps step hstep duration hduration
    rw [h.animations_eq] at hsteps
    exact ((hset.playable name steps hsteps).playable step hstep).check_eq_ok hduration

theorem Provided.resolveWithin (hset : SoundSet animations frameCount)
    (h : a.Provided animations) (leftover : Float32) (budget : Nat) :
    (a.resolveWithin leftover budget).state.Provided animations := by
  refine resolveWithin_induct ?_ ?_ ?_ ?_ h
  · intro b index duration hb
    exact ⟨hb.animations_eq, hb.steps_playable⟩
  · intro b choices duration hb
    exact ⟨hb.animations_eq, hb.steps_playable⟩
  · intro b hb
    exact ⟨hb.animations_eq, hb.steps_playable⟩
  · intro b target next hb hnext
    refine ⟨hb.animations_eq, ?_⟩
    intro steps hsteps
    cases hsteps
    rw [hb.animations_eq] at hnext
    exact hset.playable target next hnext

theorem Provided.begun (h : a.Provided animations) {steps : Sequence} (hsteps : PlayableSteps steps)
    (animation : Option String) (reverse : Bool) (timeScale : Float32) :
    (a.begun steps animation reverse timeScale).Provided animations := by
  refine ⟨h.animations_eq, ?_⟩
  intro other hother
  cases hother
  exact hsteps

theorem Provided.advanceWithin (hset : SoundSet animations frameCount) (h : a.Provided animations)
    (shown budget : Nat) : (a.advanceWithin shown budget).state.Provided animations := by
  refine advanceWithin_induct (fun _ hb => hb.stop) ?_ ?_ h
  · intro b hb
    exact ⟨hb.animations_eq, hb.steps_playable⟩
  · intro b hb hin
    have hadvanced : b.advanced.Provided animations := ⟨hb.animations_eq, hb.steps_playable⟩
    exact hadvanced.resolveWithin hset _ _

/-! ## The countdown -/

/-- A hold is a positive count of positive units. -/
theorem unsigned_hold {duration : FrameDuration} (hduration : duration.check = .ok ())
    (hscale : ¬(a.playback.timeScale.isFinite = false ∨ a.playback.timeScale ≤ 0.0))
    (random : Random) : Single.Unsigned (a.hold duration random) := by
  obtain ⟨hfinite, hpositive⟩ := not_or.1 hscale
  rw [Bool.not_eq_false] at hfinite
  have hunit := Single.positive_of_not_le (Single.isNaN_eq_false_of_isFinite hfinite) hpositive
  exact Single.mul_positive (FrameDuration.positive_draw hduration random) hunit hfinite

/-- A frame that is found leaves the settings as they are. -/
theorem sameSettings_of_ok {leftover : Float32} {budget : Nat}
    (hok : (a.resolveWithin leftover budget).result = .ok ()) :
    SameSettings a (a.resolveWithin leftover budget).state := by
  have htrivial : a.DurationsSatisfy fun _ => True :=
    ⟨fun _ _ _ _ _ _ => trivial, fun _ _ _ _ _ _ _ => trivial⟩
  obtain ⟨b, duration, random, signals, hland, hany⟩ := resolveWithin_landing htrivial hok
  -- the frame is found for any countdown, so for its own
  have hself := hany a.playback.countdown leftover
  rw [withCountdown_self] at hself
  rw [hself]
  exact ⟨hland.settings.animations_eq, hland.settings.playing_eq, hland.settings.timeScale_eq,
    hland.settings.maxRedirects_eq, hland.settings.maxFramesPerTick_eq⟩

/-- A frame that is found counts down from its hold and from what was left over. -/
theorem Provided.exists_hold (hset : SoundSet animations frameCount) (h : a.Provided animations)
    (hscale : ¬(a.playback.timeScale.isFinite = false ∨ a.playback.timeScale ≤ 0.0))
    {leftover : Float32} {budget : Nat} (hok : (a.resolveWithin leftover budget).result = .ok ()) :
    ∃ held, Single.Unsigned held ∧
      (a.resolveWithin leftover budget).state.playback.countdown = held + leftover := by
  obtain ⟨b, duration, random, signals, hland, hany⟩ :=
    resolveWithin_landing (h.durations hset) hok
  have hself := hany a.playback.countdown leftover
  rw [withCountdown_self] at hself
  refine ⟨a.hold duration random, unsigned_hold hland.duration_ok hscale random, ?_⟩
  rw [hself]
  rfl

/-- A frame that is shown from the start counts down from its hold alone. -/
theorem Provided.countdown_of_ok (hset : SoundSet animations frameCount)
    (h : a.Provided animations)
    (hscale : ¬(a.playback.timeScale.isFinite = false ∨ a.playback.timeScale ≤ 0.0)) {budget : Nat}
    (hok : (a.resolveWithin 0.0 budget).result = .ok ()) :
    ¬ (a.resolveWithin 0.0 budget).state.playback.countdown < 0.0 := by
  obtain ⟨held, hheld, hcountdown⟩ := h.exists_hold hset hscale hok
  rw [hcountdown, Single.add_zero hheld.sign_eq]
  exact hheld.not_lt

theorem Steady.launch (hset : SoundSet animations frameCount) (h : a.Steady animations)
    {steps : Sequence} (hsteps : PlayableSteps steps) (animation : Option String) (reverse : Bool)
    (timeScale : Float32) :
    (a.launch steps animation reverse timeScale).state.Steady animations := by
  by_cases hscale : timeScale.isFinite = false ∨ timeScale ≤ 0.0
  · rw [launch_of_invalidTimeScale hscale]
    exact h.provided.stop.steady_of_idle rfl
  · have hbegun := h.provided.begun hsteps animation reverse timeScale
    have hstate := hbegun.resolveWithin hset 0.0 a.maxRedirects
    rw [launch_eq hscale hsteps.nonempty]
    cases hresult : ((a.begun steps animation reverse timeScale).resolve 0.0).result with
    | error cause =>
        -- a failed start leaves the animator idle, whatever its countdown
        rw [stopOnFailure_of_error hresult]
        exact hstate.stop.steady_of_idle rfl
    | ok u =>
        rw [stopOnFailure_of_ok hresult]
        have hsettings := sameSettings_of_ok hresult
        refine ⟨hstate.animations_eq, hstate.steps_playable, fun _ => ?_, fun _ => ?_⟩
        · have htime : ((a.begun steps animation reverse timeScale).resolve 0.0).state.playback.timeScale =
              timeScale := hsettings.timeScale_eq
          rw [htime]
          exact hscale
        · exact hbegun.countdown_of_ok hset hscale hresult

/-- What is playing after a tick has time left, and plays at the same time scale. -/
theorem playing_advanceWithin (a : Animator) (shown budget : Nat)
    (hplaying : (a.advanceWithin shown budget).state.playback.playing = true) :
    SameSettings a (a.advanceWithin shown budget).state ∧
      ¬ (a.advanceWithin shown budget).state.playback.countdown ≤ 0.0 := by
  induction budget using Nat.strongRecOn generalizing a shown with
  | ind budget ih =>
      rcases advanceWithin_cases a shown budget with
        ⟨hwait, heq⟩ | ⟨-, -, heq⟩ | ⟨-, -, cause, heq, -⟩ | ⟨-, -, hok, -, rest, rfl, heq⟩
      · rw [heq]
        exact ⟨⟨rfl, rfl, rfl, rfl, rfl⟩, hwait⟩
      · -- playback has ended
        rw [heq] at hplaying
        cases hplaying
      · -- a refused frame has ended it
        rw [heq] at hplaying
        cases hplaying
      · rw [heq, Outcome.state_after] at hplaying ⊢
        have hfirst : SameSettings a a.due.state := by
          have hdue := sameSettings_of_ok hok
          exact ⟨hdue.animations_eq, hdue.playing_eq, hdue.timeScale_eq, hdue.maxRedirects_eq,
            hdue.maxFramesPerTick_eq⟩
        obtain ⟨hlater, hcountdown⟩ := ih rest (Nat.lt_succ_self rest) _ _ hplaying
        exact ⟨hfirst.trans hlater, hcountdown⟩

theorem Steady.tick (hset : SoundSet animations frameCount) (h : a.Steady animations)
    (elapsed : Float32) : (a.tick elapsed).state.Steady animations := by
  by_cases hinvalid : elapsed.isFinite = false
  · rw [tick_of_invalidElapsed hinvalid]
    exact h
  · by_cases hidle : a.playback.playing = false
    · rw [tick_of_idle hinvalid hidle]
      exact h
    · rw [tick_eq hinvalid hidle]
      -- `elapse` may take the countdown below zero, so `Steady` is lost and only `Provided` is kept;
      -- the frames that are due make up for it
      have helapsed : (a.elapse elapsed).Provided animations := ⟨h.animations_eq, h.steps_playable⟩
      have hstate := helapsed.advanceWithin hset 0 a.maxFramesPerTick
      have hplaying := playing_advanceWithin (a.elapse elapsed) 0 a.maxFramesPerTick
      refine ⟨hstate.animations_eq, hstate.steps_playable, ?_, ?_⟩
      · intro hp
        rw [(hplaying hp).1.timeScale_eq]
        exact h.timeScale_ok (Bool.not_eq_false _ ▸ hidle)
      · intro hp
        exact Single.not_lt_of_not_le (hplaying hp).2

/-! ## Every reachable animator -/

theorem playable_of_compiled (hset : SoundSet animations frameCount) {steps : Sequence}
    (h : Compiled animations steps) : PlayableSteps steps := by
  rcases h with ⟨name, authored, hcompile⟩ | ⟨name, hname⟩
  · exact playableSteps_of_compileAnimation hcompile
  · exact hset.playable name steps hname

theorem steady_of_reachable (hset : SoundSet animations frameCount) {config : Config}
    (h : Reachable animations config a) : a.Steady animations := by
  induction h with
  | create random =>
      have hprovided : (create animations config random).Provided animations :=
        ⟨rfl, fun steps hsteps => (nomatch hsteps)⟩
      exact hprovided.steady_of_idle rfl
  | @animate a _ name reverse timeScale ih =>
      unfold Animator.animate
      cases hget : a.animations.get? name with
      | none => exact ih.provided.stop.steady_of_idle rfl
      | some steps =>
          rw [ih.animations_eq] at hget
          exact ih.launch hset (hset.playable name steps hget) _ _ _
  | @animateManual a _ steps reverse timeScale ih =>
      unfold Animator.animateManual
      cases hcompile : compileAnimation Playback.manualLabel steps with
      | error cause => exact ih.provided.stop.steady_of_idle rfl
      | ok compiled => exact ih.launch hset (playableSteps_of_compileAnimation hcompile) _ _ _
  | start _ hsteps reverse timeScale ih =>
      exact ih.launch hset (playable_of_compiled hset hsteps) _ _ _
  | tick _ elapsed ih => exact ih.tick hset elapsed
  | stop _ ih => exact ih.provided.stop.steady_of_idle rfl
  | @setFrame a _ frame ih =>
      have hprovided : (a.setFrame frame).Provided animations :=
        ⟨ih.animations_eq, ih.steps_playable⟩
      exact hprovided.steady_of_idle rfl
  | @reset a _ random ih =>
      have hprovided : (a.reset random).Provided animations :=
        ⟨ih.animations_eq, fun steps hsteps => (nomatch hsteps)⟩
      exact hprovided.steady_of_idle rfl

end Animator

end SpriteStage
