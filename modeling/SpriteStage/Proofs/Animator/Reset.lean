import SpriteStage.Proofs.Animator.Play

/-!
# Forgetting playback

What an animator does changes its playback and its random source, and nothing else. A reset
replaces both, so it cannot tell an animator that did something from one that did not: no operation
changes what a reset leads to (`reset_animate`, `reset_tick`).
-/

set_option autoImplicit false

namespace SpriteStage.Animator

theorem reset_stop (a : Animator) (random : Random) : a.stop.reset random = a.reset random := rfl

theorem reset_setFrame (a : Animator) (frame : UInt64) (random : Random) :
    (a.setFrame frame).reset random = a.reset random := rfl

theorem reset_resolveWithin (a : Animator) (leftover : Float32) (budget : Nat) (random : Random) :
    (a.resolveWithin leftover budget).state.reset random = a.reset random := by
  refine resolveWithin_induct (P := fun b => b.reset random = a.reset random) ?_ ?_ ?_ ?_ rfl
  · intro b index duration hb
    exact hb
  · intro b choices duration hb
    exact hb
  · intro b hb
    exact hb
  · intro b target steps hb _
    exact hb

theorem reset_launch (a : Animator) (steps : Sequence) (animation : Option String) (reverse : Bool)
    (timeScale : Float32) (random : Random) :
    (a.launch steps animation reverse timeScale).state.reset random = a.reset random := by
  refine launch_induct (P := fun b => b.reset random = a.reset random) ?_ ?_ rfl
  · intro b hb
    exact (b.reset_stop random).trans hb
  · intro _
    exact reset_resolveWithin _ _ _ random

theorem reset_animate (a : Animator) (name : String) (reverse : Bool) (timeScale : Option Float32)
    (random : Random) : (a.animate name reverse timeScale).state.reset random = a.reset random := by
  unfold animate
  cases a.animations.get? name with
  | none => rfl
  | some steps => exact a.reset_launch steps (some name) reverse _ random

theorem reset_animateManual (a : Animator) (steps : List AuthoredStep) (reverse : Bool)
    (timeScale : Option Float32) (random : Random) :
    (a.animateManual steps reverse timeScale).state.reset random = a.reset random := by
  unfold animateManual
  cases compileAnimation Playback.manualLabel steps with
  | error cause => rfl
  | ok compiled => exact a.reset_launch compiled none reverse _ random

theorem reset_advanceWithin (a : Animator) (shown budget : Nat) (random : Random) :
    (a.advanceWithin shown budget).state.reset random = a.reset random := by
  refine advanceWithin_induct (P := fun b => b.reset random = a.reset random) ?_ ?_ ?_ rfl
  · intro b hb
    exact (b.reset_stop random).trans hb
  · intro b hb
    exact (b.advanced.reset_stop random).trans hb
  · intro b hb _
    exact (reset_resolveWithin b.advanced _ _ random).trans hb

theorem reset_tick (a : Animator) (elapsed : Float32) (random : Random) :
    (a.tick elapsed).state.reset random = a.reset random := by
  by_cases hfinite : elapsed.isFinite = false
  · rw [tick_of_invalidElapsed hfinite]
    rfl
  by_cases hidle : a.playback.playing = false
  · rw [tick_of_idle hfinite hidle]
    rfl
  rw [tick_eq hfinite hidle]
  exact reset_advanceWithin (a.elapse elapsed) _ _ random

end SpriteStage.Animator
