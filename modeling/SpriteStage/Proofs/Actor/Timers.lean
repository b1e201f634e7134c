import SpriteStage.Proofs.Animator.Holds
import SpriteStage.Proofs.Animator.Split
import SpriteStage.Proofs.Motion.Durations

/-!
# The timers of an actor

An actor has three timers: the countdown of the frame on screen and the durations of its two motions.
Every number that they come from is checked to be finite, but the product and the quotients are not.
`TimerLaw` says of each timer when it is finite and what becomes of it otherwise
(`timerLaw_of_compileSet`). So a timer may be infinite, or undefined, though everything that was
asked for was accepted (`not_finite_timers`).
-/

set_option autoImplicit false

namespace SpriteStage

open Animator (Compiled)

/-- What the timers of actors are that play animations of a set. -/
structure TimerLaw (animations : AnimationSet) : Prop where
  /-- The hold of a frame of compiled steps, at any time scale that a start accepts, is a number and
  not negative. It is finite exactly if the product of the count and the scale does not overflow. -/
  hold : ∀ steps, Compiled animations steps → ∀ step ∈ steps, ∀ duration,
    step.duration? = some duration → ∀ scale : Float32, scale.isFinite = true → 0.0 < scale →
      ∀ random, 0.0 ≤ (duration.draw random).1 * scale ∧
        (((duration.draw random).1 * scale).isFinite = true ↔
          Single.ProductFits (duration.draw random).1 scale)
  /-- The countdown of a frame is what is left of its hold, whatever is asked of the animator without
  letting time pass backwards. -/
  countdown : ∀ (config : Config) (random : Random) (calls : List AnimatorCall),
    (∀ call ∈ calls, call.Starts (Compiled animations) ∧ call.Forward) →
      ((Animator.create animations config random).respondAll calls).playback.playing = true →
        ∃ step duration drawn,
          ((Animator.create animations config random).respondAll calls).playback.step? = some step ∧
            step.duration? = some duration ∧
              ((Animator.create animations config random).respondAll calls).Holds duration drawn
  /-- A motion of the position that is accepted has a duration. -/
  move : ∀ (m : Motions) (origin target : Point Coordinate) (options : MoveOptions),
    origin.IsFinite → target.IsFinite → (m.startMove origin target options).result = .ok () →
      (m.startMove origin target options).state.position =
          some (m.moveFrom origin target options) ∧
        MoveTimed origin target options.timing (m.moveFrom origin target options)
  /-- So has a rotation that is accepted, if the difference of the angles does not overflow. -/
  turn : ∀ (m : Motions) (current target : Float32) (options : MoveOptions),
    current.isFinite = true → target.isFinite = true →
      (m.startRotate current target options).result = .ok () →
        (m.startRotate current target options).state.rotation =
            some (m.turnFrom current target options) ∧
          TurnTimed current target options.timing (m.turnFrom current target options)

theorem timerLaw_of_compileSet {authored : Table (List AuthoredStep)} {frameCount : Option Nat}
    {animations : AnimationSet} (hcompile : compileSet authored frameCount = .ok animations) :
    TimerLaw animations := by
  refine ⟨?_, ?_, ?_, ?_⟩
  · intro steps hsteps step hstep duration hduration scale hfinite hpositive random
    have hplayable := Animator.playable_of_compiled (sound_of_compileSet hcompile) hsteps
    exact FrameDuration.hold_isFinite_iff ((hplayable.playable step hstep).check_eq_ok hduration)
      hfinite hpositive random
  · intro config random calls hcalls hplaying
    exact (Animator.Reachable.create random).exists_holds hcompile nofun hcalls hplaying
  · intro m origin target options horigin htarget hok
    exact Motions.moveTimed_of_ok horigin htarget hok
  · intro m current target options hcurrent htarget hok
    exact Motions.turnTimed_of_ok hcurrent htarget hok

/-- A start whose first frame has a hold of twice the given time, which is too long for a number. -/
def stallCalls : List AnimatorCall := [.animate "stride" false (some 3e38)]

/-- The animator after that. -/
def stalled : Animator :=
  (Animator.create Animator.strideSet {} (Random.ofSeed 7)).respondAll stallCalls

theorem forward_stallCalls :
    ∀ call ∈ stallCalls, call.Starts (Compiled Animator.strideSet) ∧ call.Forward := by
  intro call hcall
  cases List.mem_singleton.1 hcall
  exact ⟨trivial, trivial⟩

/-- The origin of both axes. -/
def home : Point Coordinate := ⟨.zero, .zero⟩

/-- The place one unit to the right of it. -/
def nearby : Point Coordinate := ⟨.ofSingle 1.0, .zero⟩

theorem finite_home : home.IsFinite := by decide +kernel

theorem finite_nearby : nearby.IsFinite := by decide +kernel

theorem timerLaw_strideSet :
    (∃ step duration drawn, stalled.playback.step? = some step ∧ step.duration? = some duration ∧
      stalled.Holds duration drawn) ∧
      MoveTimed home nearby (.speed 1e-40) (({} : Motions).moveFrom home nearby ⟨.speed 1e-40, none⟩) ∧
      TurnTimed (-3e38) 3e38 (.speed 1.0)
        (({} : Motions).turnFrom (-3e38) 3e38 ⟨.speed 1.0, none⟩) := by
  have hlaw := timerLaw_of_compileSet Animator.compileSet_strideSteps
  refine ⟨hlaw.countdown {} (Random.ofSeed 7) stallCalls forward_stallCalls (by decide +kernel),
    ?_, ?_⟩
  · exact (hlaw.move {} home nearby ⟨.speed 1e-40, none⟩ finite_home finite_nearby rfl).2
  · exact (hlaw.turn {} (-3e38) 3e38 ⟨.speed 1.0, none⟩ (by decide +kernel) (by decide +kernel)
      rfl).2

/-- The countdown of a frame is always finite. -/
def CountdownsFinite (animations : AnimationSet) : Prop :=
  ∀ (config : Config) (random : Random) (calls : List AnimatorCall),
    (∀ call ∈ calls, call.Starts (Compiled animations) ∧ call.Forward) →
      ((Animator.create animations config random).respondAll calls).playback.playing = true →
        ((Animator.create animations config random).respondAll
          calls).playback.countdown.isFinite = true

/-- The duration of an accepted motion of the position is always finite and not negative. -/
def MovesFinite : Prop :=
  ∀ (m : Motions) (origin target : Point Coordinate) (options : MoveOptions),
    origin.IsFinite → target.IsFinite → (m.startMove origin target options).result = .ok () →
      ∀ t, (m.startMove origin target options).state.position = some t →
        t.duration.isFinite = true ∧ 0.0 ≤ t.duration

/-- The duration of an accepted rotation is always finite and not negative. -/
def TurnsFinite : Prop :=
  ∀ (m : Motions) (current target : Float32) (options : MoveOptions),
    current.isFinite = true → target.isFinite = true →
      (m.startRotate current target options).result = .ok () →
        ∀ t, (m.startRotate current target options).state.rotation = some t →
          t.duration.isFinite = true ∧ 0.0 ≤ t.duration

/-- None of the three timers is always finite: the hold of two units of 3e38 milliseconds is
infinite, so is the time of a motion over one unit at a speed of 1e-40, and the turn between two
angles whose difference overflows is undefined. -/
theorem not_finite_timers :
    ¬ CountdownsFinite Animator.strideSet ∧ ¬ MovesFinite ∧ ¬ TurnsFinite := by
  refine ⟨fun hfinite => ?_, fun hfinite => ?_, fun hfinite => ?_⟩
  · have hcountdown :=
      hfinite {} (Random.ofSeed 7) stallCalls forward_stallCalls (by decide +kernel)
    have hinfinite : stalled.playback.countdown.isFinite = false := by decide +kernel
    rw [stalled] at hinfinite
    rw [hinfinite] at hcountdown
    cases hcountdown
  · have hok : (({} : Motions).startMove home nearby ⟨.speed 1e-40, none⟩).result = .ok () := rfl
    have hinstalled := (Motions.moveTimed_of_ok finite_home finite_nearby hok).1
    have hduration := (hfinite _ _ _ _ finite_home finite_nearby hok _ hinstalled).1
    have hinfinite : (({} : Motions).moveFrom home nearby
        ⟨.speed 1e-40, none⟩).duration.isFinite = false := by decide +kernel
    rw [hinfinite] at hduration
    cases hduration
  · have hcurrent : (-3e38 : Float32).isFinite = true := by decide +kernel
    have htarget : (3e38 : Float32).isFinite = true := by decide +kernel
    have hok : (({} : Motions).startRotate (-3e38) 3e38 ⟨.speed 1.0, none⟩).result = .ok () := rfl
    have hinstalled := (Motions.turnTimed_of_ok hcurrent htarget hok).1
    have hduration := (hfinite _ _ _ _ hcurrent htarget hok _ hinstalled).1
    have hundefined : (({} : Motions).turnFrom (-3e38) 3e38
        ⟨.speed 1.0, none⟩).duration.isFinite = false := by decide +kernel
    rw [hundefined] at hduration
    cases hduration

end SpriteStage
