import SpriteStage.Proofs.Animator.Calls
import SpriteStage.Proofs.Animator.Consistent
import SpriteStage.Proofs.Single.Overflow

/-!
# Holds

A frame is held for a count times the milliseconds of one unit. Both are finite and above zero, but
nothing is asked of their product, and it may overflow. As long as no time passes backwards, the
countdown of the frame on screen is what is left of its hold (`Timed`): it is no more than the hold if
that is finite, and if the hold is infinite it stays so, and no tick ever ends the frame (`Holds`).
-/

set_option autoImplicit false

namespace SpriteStage

namespace Single

open Float.Model (Format UnpackedFloat)

variable {x y held countdown : Float32}

/-- A countdown is what is left of a hold. -/
structure LeftOf (held countdown : Float32) : Prop where
  /-- The hold is a number and has no sign. -/
  unsigned : Unsigned held
  /-- Of a finite hold, no more is left than there was. -/
  le_held : held.isFinite = true → countdown ≤ held
  /-- An infinite hold is still infinite. -/
  eq_held : held.isFinite = false → countdown = held

/-- The hold of a frame, with the time that the last frame left over. -/
theorem Unsigned.leftOf_add (h : Unsigned held) (hy : y.isFinite = true) (hy0 : y ≤ 0.0) :
    LeftOf held (held + y) := by
  refine ⟨h, fun hfinite => add_le_of_nonpos hfinite h.nonneg hy hy0, fun hinfinite => ?_⟩
  rcases h.infinite_or_isFinite with hp | hfinite
  · exact add_infinity hp hy
  · rw [hinfinite] at hfinite
    cases hfinite

/-- Time that passes is taken off. -/
theorem LeftOf.sub (h : LeftOf held countdown) (h0 : 0.0 ≤ countdown) (hy : y.isFinite = true)
    (hy0 : 0.0 ≤ y) : LeftOf held (countdown - y) := by
  have hyn := isNaN_eq_false_of_isFinite hy
  have hneg : -y ≤ 0.0 := by
    rw [nonneg_iff_units hyn] at hy0
    rw [nonpos_iff_units (isNaN_eq_false_of_isFinite (isFinite_neg hy)), parts_neg, units_neg]
    omega
  rw [sub_eq_add]
  refine ⟨h.unsigned, fun hfinite => ?_, fun hinfinite => ?_⟩
  · have hle := h.le_held hfinite
    have hcountdown := isFinite_of_le_of_le rfl hfinite h0 hle
    exact le_trans (add_le_of_nonpos hcountdown h0 (isFinite_neg hy) hneg) hle
  · rw [h.eq_held hinfinite]
    exact (h.unsigned.leftOf_add (isFinite_neg hy) hneg).eq_held hinfinite

/-- Counts that are drawn are finite. -/
theorem isFinite_toFloat32 (n : UInt32) : n.toFloat32.isFinite = true := by
  have hlt : n.toNat < 2 ^ 32 := n.toNat_lt
  refine (isFinite_normalize_iff (n.toNat : Int) (e := 0) (by omega) .positive).2 ?_
  rw [Int.natAbs_mul, Int.natAbs_pow, Int.natAbs_natCast]
  calc
    n.toNat * 2 ^ 149 < 2 ^ 32 * 2 ^ 149 := Nat.mul_lt_mul_of_pos_right hlt (Nat.two_pow_pos 149)
    _ ≤ overflow := by
      rw [overflow_eq 103 149 rfl]
      exact Nat.mul_le_mul_right _ (by decide)

end Single

/-- The call does not let time pass backwards. -/
def AnimatorCall.Forward : AnimatorCall → Prop
  | tick elapsed => 0.0 ≤ elapsed
  | _ => True

/-- A count of a duration that passed its check is finite. -/
theorem FrameDuration.isFinite_draw {duration : FrameDuration} (h : duration.check = .ok ())
    (random : Random) : (duration.draw random).1.isFinite = true := by
  cases duration with
  | fixed count =>
      have hfinite := (not_or.1 (fixed_of_check h)).1
      rwa [Bool.not_eq_false] at hfinite
  | range least greatest => exact Single.isFinite_toFloat32 _

/-- The hold of a frame is a number and not negative; it is finite exactly if the exact product of
its count and the time of one unit is. -/
theorem FrameDuration.hold_isFinite_iff {duration : FrameDuration} (h : duration.check = .ok ())
    {scale : Float32} (hfinite : scale.isFinite = true) (hpositive : 0.0 < scale) (random : Random) :
    0.0 ≤ (duration.draw random).1 * scale ∧
      (((duration.draw random).1 * scale).isFinite = true ↔
        Single.ProductFits (duration.draw random).1 scale) := by
  have hdefined := Single.isNaN_eq_false_of_isFinite hfinite
  have habove : ¬ scale ≤ 0.0 := (Single.not_le_iff_lt hdefined (by decide)).2 hpositive
  have hunit := Single.positive_of_not_le hdefined habove
  exact ⟨(Single.mul_positive (positive_draw h random) hunit hfinite).nonneg,
    Single.isFinite_mul_iff (isFinite_draw h random) hfinite⟩

namespace Animator

open Single (LeftOf ProductFits)

/-- The countdown is what is left of a hold for the step under the cursor. -/
def Timed (a : Animator) : Prop :=
  ∃ step duration random, a.playback.step? = some step ∧ step.duration? = some duration ∧
    LeftOf (a.hold duration random) a.playback.countdown

variable {animations : AnimationSet} {frameCount : Option Nat} {a b : Animator}
  {leftover : Float32} {frame : UInt64}

/-! ## Finding a frame -/

/-- A frame that is shown counts down from the hold of its step and what was left over. -/
theorem exists_hold_of_shown (h : a.resolveStep leftover = .shown b frame) :
    ∃ step duration random, b.playback.step? = some step ∧ step.duration? = some duration ∧
      b.playback.countdown = b.hold duration random + leftover := by
  rcases shown_cases h with ⟨duration, hstep, rfl⟩ | ⟨choices, duration, hstep, -, rfl⟩
  · exact ⟨_, duration, a.random, hstep, rfl, rfl⟩
  · exact ⟨_, duration, (a.pick choices).2.random, hstep, rfl, rfl⟩

/-- A frame that is found after what is not above zero has all of its hold left, or less. -/
theorem Cued.timed_resolve (hset : SoundSet animations frameCount) (h : a.Cued animations)
    (hfinite : leftover.isFinite = true) (hleftover : leftover ≤ 0.0)
    (hok : (a.resolve leftover).result = .ok ()) : (a.resolve leftover).state.Timed := by
  obtain ⟨last, frame, hfrom, hshown⟩ := exists_shown_of_ok
    (fun _ hb => hb.congr rfl rfl rfl rfl rfl) (fun _ _ _ hb => hb.switched hset) h hok
  obtain ⟨hfound, -⟩ := hfrom.shown hshown
  obtain ⟨step, duration, random, hstep, hduration, hcountdown⟩ := exists_hold_of_shown hshown
  have hchecked := (hfound.provided.durations hset).of_step hstep hduration
  refine ⟨step, duration, random, hstep, hduration, ?_⟩
  have hlater : (a.resolve leftover).state.playback.countdown = _ := hcountdown
  rw [hlater]
  exact (unsigned_hold hchecked hfound.timeScale_ok random).leftOf_add hfinite hleftover

/-! ## Starting and ticking -/

theorem Provided.timed_launch (hset : SoundSet animations frameCount)
    (h : a.Provided animations) {steps : Sequence} (hsteps : PlayableSteps steps)
    {animation : Option String} (hname : ∀ name, animation = some name →
      animations.get? name = some steps) (reverse : Bool) (timeScale : Float32)
    (hplaying : (a.launch steps animation reverse timeScale).state.playback.playing = true) :
    (a.launch steps animation reverse timeScale).state.Timed := by
  by_cases hscale : timeScale.isFinite = false ∨ timeScale ≤ 0.0
  · rw [launch_of_invalidTimeScale hscale] at hplaying
    cases hplaying
  · have hcued : (a.begun steps animation reverse timeScale).Cued animations := by
      refine ⟨h.begun hsteps animation reverse timeScale, rfl, hscale, ?_⟩
      intro name heq
      exact ⟨steps, hname name heq, rfl⟩
    rw [launch_eq hscale hsteps.nonempty] at hplaying ⊢
    cases hresult : ((a.begun steps animation reverse timeScale).resolve 0.0).result with
    | error cause =>
        rw [stopOnFailure_of_error hresult] at hplaying
        cases hplaying
    | ok u =>
        rw [stopOnFailure_of_ok hresult]
        exact hcued.timed_resolve hset rfl (Single.le_refl (by decide)) hresult

theorem Cued.timed_advanceWithin (hset : SoundSet animations frameCount) (h : a.Cued animations)
    (hbelow : Single.BoundedBelow a.playback.countdown) (htimed : a.Timed) (shown budget : Nat)
    (hplaying : (a.advanceWithin shown budget).state.playback.playing = true) :
    (a.advanceWithin shown budget).state.Timed := by
  induction budget using Nat.strongRecOn generalizing a shown with
  | ind budget ih =>
      rcases advanceWithin_cases a shown budget with
        ⟨-, heq⟩ | ⟨-, -, heq⟩ | ⟨-, -, cause, heq, -⟩ | ⟨hdue, -, hok, -, rest, rfl, heq⟩
      · rw [heq]
        exact htimed
      · rw [heq] at hplaying
        cases hplaying
      · rw [heq] at hplaying
        cases hplaying
      · rw [heq, Outcome.state_after] at hplaying ⊢
        obtain ⟨hnext, -, hbound⟩ := h.due hset hbelow hdue hok
        -- what is left over is not above zero, and not below every number
        obtain ⟨least, hleast, hle⟩ := hbelow
        have hfinite := Single.isFinite_of_le_of_le hleast rfl hle hdue
        have hadvanced : a.advanced.Cued animations := h.congr rfl rfl rfl rfl rfl
        exact ih rest (Nat.lt_succ_self rest) hnext hbound
          (hadvanced.timed_resolve hset hfinite hdue hok) _ hplaying

theorem Steady.timed_tick (hset : SoundSet animations frameCount) (hsteady : a.Steady animations)
    (hconsistent : a.Consistent animations) (h : a.playback.playing = true → a.Timed)
    {elapsed : Float32} (hforward : 0.0 ≤ elapsed)
    (hplaying : (a.tick elapsed).state.playback.playing = true) : (a.tick elapsed).state.Timed := by
  by_cases hinvalid : elapsed.isFinite = false
  · rw [tick_of_invalidElapsed hinvalid] at hplaying ⊢
    exact h hplaying
  · by_cases hidle : a.playback.playing = false
    · rw [tick_of_idle hinvalid hidle] at hplaying ⊢
      exact h hplaying
    · rw [tick_eq hinvalid hidle] at hplaying ⊢
      rw [Bool.not_eq_false] at hidle hinvalid
      have hperforms := hconsistent.performs hidle
      have hcued : (a.elapse elapsed).Cued animations :=
        ⟨⟨hsteady.animations_eq, hsteady.steps_playable⟩, hidle, hsteady.timeScale_ok hidle,
          hperforms.named⟩
      obtain ⟨step, duration, random, hstep, hduration, hleft⟩ := h hidle
      have helapsed : (a.elapse elapsed).Timed :=
        ⟨step, duration, random, hstep, hduration,
          hleft.sub hperforms.countdown_nonneg hinvalid hforward⟩
      exact hcued.timed_advanceWithin hset
        (Single.boundedBelow_sub hperforms.countdown_nonneg hinvalid) helapsed 0 _ hplaying

/-! ## Runs of calls -/

/-- A call of a reachable animator leads to a reachable one. -/
theorem Reachable.respond {config : Config} (h : Reachable animations config a) {call : AnimatorCall}
    (hstarts : call.Starts (Compiled animations)) : Reachable animations config (a.respond call) := by
  cases call with
  | animate name reverse timeScale => exact h.animate name reverse timeScale
  | animateManual steps reverse timeScale => exact h.animateManual steps reverse timeScale
  | start steps reverse timeScale => exact h.start hstarts reverse timeScale
  | tick elapsed => exact h.tick elapsed
  | stop => exact h.stop
  | setFrame frame => exact h.setFrame frame
  | reset random => exact h.reset random

/-- No call but a tick that goes backwards makes the countdown anything else than what is left. -/
theorem Reachable.timed_respond {authored : Table (List AuthoredStep)}
    (hcompile : compileSet authored frameCount = .ok animations) {config : Config}
    (hreach : Reachable animations config a) (h : a.playback.playing = true → a.Timed)
    {call : AnimatorCall} (hstarts : call.Starts (Compiled animations)) (hforward : call.Forward)
    (hplaying : (a.respond call).playback.playing = true) : (a.respond call).Timed := by
  have hset := sound_of_compileSet hcompile
  have hsteady := steady_of_reachable hset hreach
  cases call with
  | animate name reverse timeScale =>
      have hstate : (a.animate name reverse timeScale).state.playback.playing = true := hplaying
      show (a.animate name reverse timeScale).state.Timed
      unfold Animator.animate at hstate ⊢
      cases hget : a.animations.get? name with
      | none =>
          rw [hget] at hstate
          cases hstate
      | some steps =>
          rw [hget] at hstate
          rw [hsteady.animations_eq] at hget
          refine hsteady.provided.timed_launch hset (hset.playable name steps hget) ?_ _ _ hstate
          intro other hother
          cases hother
          exact hget
  | animateManual steps reverse timeScale =>
      have hstate : (a.animateManual steps reverse timeScale).state.playback.playing = true :=
        hplaying
      show (a.animateManual steps reverse timeScale).state.Timed
      unfold Animator.animateManual at hstate ⊢
      cases hsteps : compileAnimation Playback.manualLabel steps with
      | error cause =>
          rw [hsteps] at hstate
          cases hstate
      | ok compiled =>
          rw [hsteps] at hstate
          exact hsteady.provided.timed_launch hset (playableSteps_of_compileAnimation hsteps)
            (by simp) _ _ hstate
  | start steps reverse timeScale =>
      exact hsteady.provided.timed_launch hset (playable_of_compiled hset hstarts) (by simp)
        _ _ hplaying
  | tick elapsed =>
      exact hsteady.timed_tick hset (consistent_of_reachable hcompile hreach).1 h hforward hplaying
  | stop => cases hplaying
  | setFrame frame => cases hplaying
  | reset random => cases hplaying

/-- The countdown of an animator that is playing, for a hold of the duration that it shows. -/
structure Holds (a : Animator) (duration : FrameDuration) (random : Random) : Prop where
  /-- The hold is finite exactly if the product of the count and the time of one unit is. -/
  isFinite_iff : (a.hold duration random).isFinite = true ↔
    ProductFits (duration.draw random).1 a.playback.timeScale
  /-- The countdown is a number and not negative. -/
  nonneg : 0.0 ≤ a.playback.countdown
  /-- Of a finite hold, no more is left than there was. -/
  finite : (a.hold duration random).isFinite = true →
    a.playback.countdown.isFinite = true ∧ a.playback.countdown ≤ a.hold duration random
  /-- Of an infinite hold, all is left, and a tick does nothing. -/
  endless : (a.hold duration random).isFinite = false →
    a.playback.countdown = a.hold duration random ∧
      ∀ elapsed, elapsed.isFinite = true → a.tick elapsed = .success a false

/-- A tick does nothing as long as the countdown is infinite. -/
theorem tick_of_infinite (hplaying : a.playback.playing = true)
    (hcountdown : Single.parts a.playback.countdown = .infinity .positive) {elapsed : Float32}
    (helapsed : elapsed.isFinite = true) : a.tick elapsed = .success a false := by
  have hself : a.playback.countdown - elapsed = a.playback.countdown := by
    rw [Single.sub_eq_add]
    exact Single.add_infinity hcountdown (Single.isFinite_neg helapsed)
  have helapse : a.elapse elapsed = a := by
    show a.withCountdown (a.playback.countdown - elapsed) = a
    rw [hself, withCountdown_self]
  have hwaiting : ¬ a.playback.countdown ≤ 0.0 := by
    have hvalue : a.playback.countdown = Single.packed (.infinity .positive) := by
      rw [← hcountdown, Single.packed_parts]
    rw [hvalue]
    decide
  rw [tick_eq (by simp [helapsed]) (by simp [hplaying]), helapse, advanceWithin_of_waiting hwaiting]
  rfl

theorem Timed.exists_holds (hset : SoundSet animations frameCount) (hsteady : a.Steady animations)
    (hconsistent : a.Consistent animations) (hplaying : a.playback.playing = true) (h : a.Timed) :
    ∃ step duration random, a.playback.step? = some step ∧ step.duration? = some duration ∧
      a.Holds duration random := by
  obtain ⟨step, duration, random, hstep, hduration, hleft⟩ := h
  have hperforms := hconsistent.performs hplaying
  have hchecked := (hsteady.provided.durations hset).of_step hstep hduration
  refine ⟨step, duration, random, hstep, hduration, ?_, hperforms.countdown_nonneg, ?_, ?_⟩
  · exact (FrameDuration.hold_isFinite_iff hchecked hperforms.timeScale_finite
      hperforms.timeScale_pos random).2
  · intro hfinite
    have hle := hleft.le_held hfinite
    exact ⟨Single.isFinite_of_le_of_le rfl hfinite hperforms.countdown_nonneg hle, hle⟩
  · intro hinfinite
    have heq := hleft.eq_held hinfinite
    refine ⟨heq, fun elapsed helapsed => tick_of_infinite hplaying ?_ helapsed⟩
    rcases hleft.unsigned.infinite_or_isFinite with hp | hfinite
    · rw [heq]
      exact hp
    · rw [hinfinite] at hfinite
      cases hfinite

/-- Whatever is asked of a reachable animator, without letting time pass backwards, the frame on
screen has a hold of its step, and the countdown is what is left of it. -/
theorem Reachable.exists_holds {authored : Table (List AuthoredStep)}
    (hcompile : compileSet authored frameCount = .ok animations) {config : Config}
    (hreach : Reachable animations config a) (h : a.playback.playing = true → a.Timed)
    {calls : List AnimatorCall}
    (hcalls : ∀ call ∈ calls, call.Starts (Compiled animations) ∧ call.Forward)
    (hplaying : (a.respondAll calls).playback.playing = true) :
    ∃ step duration random, (a.respondAll calls).playback.step? = some step ∧
      step.duration? = some duration ∧ (a.respondAll calls).Holds duration random := by
  induction calls generalizing a with
  | nil =>
      have hset := sound_of_compileSet hcompile
      exact (h hplaying).exists_holds hset (steady_of_reachable hset hreach)
        (consistent_of_reachable hcompile hreach).1 hplaying
  | cons call rest ih =>
      obtain ⟨hstarts, hforward⟩ := hcalls call List.mem_cons_self
      refine ih (hreach.respond hstarts) ?_ (fun later hlater => ?_) hplaying
      · exact hreach.timed_respond hcompile h hstarts hforward
      · exact hcalls later (List.mem_cons_of_mem _ hlater)

end Animator

end SpriteStage
