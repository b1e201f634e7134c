import SpriteStage.Proofs.Animator.Leftover

/-!
# The calls of an animator

An animator answers seven kinds of calls, in any order, whether they succeed or fail. No call
changes its settings (`settings_respondAll`). The steps that it is asked to start may be compiled
ones, and those are such that every draw for them is permitted (`drawable_of_compileAnimation`), and
that there are two different frames wherever one is picked (`varied_of_compileAnimation`).
-/

set_option autoImplicit false

namespace SpriteStage

/-- What can be asked of an animator. -/
inductive AnimatorCall where
  /-- To start a named animation. -/
  | animate (name : String) (reverse : Bool) (timeScale : Option Float32)
  /-- To compile and start authored steps. -/
  | animateManual (steps : List AuthoredStep) (reverse : Bool) (timeScale : Option Float32)
  /-- To start steps as they are. -/
  | start (steps : Sequence) (reverse : Bool) (timeScale : Float32)
  /-- To let time pass. -/
  | tick (elapsed : Float32)
  /-- To end playback. -/
  | stop
  /-- To put a frame on screen. -/
  | setFrame (frame : UInt64)
  /-- To forget all playback. -/
  | reset (random : Random)

namespace AnimatorCall

/-- The steps that the call starts as they are, if it does so, satisfy `P`. -/
def Starts (P : Sequence → Prop) : AnimatorCall → Prop
  | start steps _ _ => P steps
  | _ => True

/-- Whether the call makes the animator forget what it picked last. -/
def isReset : AnimatorCall → Bool
  | reset _ => true
  | _ => false

end AnimatorCall

/-! ## Compiled steps -/

/-- The bounds of a range are in order. -/
def FrameDuration.Ordered : FrameDuration → Prop
  | .range least greatest => least ≤ greatest
  | .fixed _ => True

namespace AnimationStep

/-- What is drawn for the step can be drawn. -/
def Drawable : AnimationStep → Prop
  | .unique choices duration => duration.Ordered ∧ choices ≠ []
  | .frame _ duration => duration.Ordered
  | _ => True

/-- If the step picks a frame, it has two different ones to pick from. -/
def Varied : AnimationStep → Prop
  | .unique choices _ => ∃ c ∈ choices, ∃ d ∈ choices, c ≠ d
  | _ => True

end AnimationStep

theorem FrameDuration.ordered_of_check {duration : FrameDuration} (h : duration.check = .ok ()) :
    duration.Ordered := by
  cases duration with
  | fixed count => trivial
  | range least greatest => exact (range_of_check h).2

theorem AnimationStep.Playable.drawable {step : AnimationStep} (h : step.Playable) :
    step.Drawable := by
  cases step with
  | frame index duration => exact FrameDuration.ordered_of_check h
  | unique choices duration => exact ⟨FrameDuration.ordered_of_check h.1, h.2⟩
  | loop => trivial
  | link target => trivial

theorem drawable_of_compileAnimation {name : String} {source : List AuthoredStep}
    {compiled : Sequence} (h : compileAnimation name source = .ok compiled) :
    ∀ step ∈ compiled, step.Drawable := fun step hstep =>
  ((playableSteps_of_compileAnimation h).playable step hstep).drawable

/-- A step that passes its check does not pick between equal frames. -/
theorem AuthoredStep.varied_expansion {step : AuthoredStep} (h : step.check = .ok ()) :
    ∀ played ∈ step.expansion, played.Varied := by
  cases step with
  | frame index duration => simp [expansion, AnimationStep.Varied]
  | group frames duration => simp [expansion, AnimationStep.Varied]
  | loop => simp [expansion, AnimationStep.Varied]
  | link target => simp [expansion, AnimationStep.Varied]
  | unique choices duration =>
      obtain ⟨u, -, hchoices⟩ := bind_eq_ok_iff.1 h
      by_cases hsame : (choices.all fun c => choices.head? = some c) = true
      · rw [if_pos hsame] at hchoices
        cases hchoices
      · -- some choice is not the first one
        cases choices with
        | nil => exact absurd rfl hsame
        | cons first rest =>
            obtain ⟨other, hother, hne⟩ : ∃ c ∈ first :: rest, first ≠ c := by
              simpa using hsame
            intro played hplayed
            cases List.mem_singleton.1 hplayed
            exact ⟨first, List.mem_cons_self, other, hother, hne⟩

theorem varied_of_compileAnimation {name : String} {source : List AuthoredStep}
    {compiled : Sequence} (h : compileAnimation name source = .ok compiled) :
    ∀ step ∈ compiled, step.Varied := by
  obtain ⟨hchecked, -, rfl⟩ := compileAnimation_eq_ok h
  intro step hstep
  obtain ⟨authored, hauthored, hexpanded⟩ := List.mem_flatMap.1 hstep
  exact AuthoredStep.varied_expansion (hchecked authored hauthored) step hexpanded

namespace Animator

/-- The animator after a call, whether the call succeeds or fails. -/
def respond (a : Animator) : AnimatorCall → Animator
  | .animate name reverse timeScale => (a.animate name reverse timeScale).state
  | .animateManual steps reverse timeScale => (a.animateManual steps reverse timeScale).state
  | .start steps reverse timeScale => (a.start steps reverse timeScale).state
  | .tick elapsed => (a.tick elapsed).state
  | .stop => a.stop
  | .setFrame frame => a.setFrame frame
  | .reset random => a.reset random

/-- The animator after calls. -/
def respondAll (a : Animator) (calls : List AnimatorCall) : Animator := calls.foldl respond a

@[simp] theorem respondAll_nil (a : Animator) : a.respondAll [] = a := rfl

@[simp] theorem respondAll_cons (a : Animator) (call : AnimatorCall) (calls : List AnimatorCall) :
    a.respondAll (call :: calls) = (a.respond call).respondAll calls := rfl

/-! ## Settings -/

/-- What an animator is made with and keeps. -/
def settings (a : Animator) : AnimationSet × Float32 × Nat × Nat :=
  (a.animations, a.frameTime, a.maxRedirects, a.maxFramesPerTick)

variable {a : Animator}

theorem settings_resolveWithin (a : Animator) (leftover : Float32) (budget : Nat) :
    (a.resolveWithin leftover budget).state.settings = a.settings := by
  refine resolveWithin_induct (P := fun b => b.settings = a.settings) ?_ ?_ ?_ ?_ rfl
  · exact fun _ _ _ hb => hb
  · exact fun _ _ _ hb => hb
  · exact fun _ hb => hb
  · exact fun _ _ _ hb _ => hb

theorem settings_launch (a : Animator) (steps : Sequence) (animation : Option String)
    (reverse : Bool) (timeScale : Float32) :
    (a.launch steps animation reverse timeScale).state.settings = a.settings :=
  launch_induct (P := fun b => b.settings = a.settings) (fun _ hb => hb)
    (fun _ => settings_resolveWithin _ _ _) rfl

theorem settings_due (a : Animator) : a.due.state.settings = a.settings :=
  settings_resolveWithin a.advanced _ _

theorem settings_tick (a : Animator) (elapsed : Float32) :
    (a.tick elapsed).state.settings = a.settings := by
  rcases a.tick_cases elapsed with heq | ⟨-, heq⟩ | ⟨-, heq⟩
  · rw [heq]
    rfl
  · rw [heq]
    rfl
  · rw [heq]
    refine advanceWithin_induct (P := fun b => b.settings = a.settings) (fun _ hb => hb)
      (fun _ hb => hb) ?_ rfl
    intro b hb _
    rw [settings_due]
    exact hb

theorem settings_animate (a : Animator) (name : String) (reverse : Bool)
    (timeScale : Option Float32) :
    (a.animate name reverse timeScale).state.settings = a.settings := by
  unfold animate
  cases a.animations.get? name with
  | none => rfl
  | some steps => exact settings_launch _ _ _ _ _

theorem settings_animateManual (a : Animator) (steps : List AuthoredStep) (reverse : Bool)
    (timeScale : Option Float32) :
    (a.animateManual steps reverse timeScale).state.settings = a.settings := by
  unfold animateManual
  cases compileAnimation Playback.manualLabel steps with
  | error cause => rfl
  | ok compiled => exact settings_launch _ _ _ _ _

theorem settings_respond (a : Animator) (call : AnimatorCall) :
    (a.respond call).settings = a.settings := by
  cases call with
  | animate name reverse timeScale => exact settings_animate _ _ _ _
  | animateManual steps reverse timeScale => exact settings_animateManual _ _ _ _
  | start steps reverse timeScale => exact settings_launch _ _ _ _ _
  | tick elapsed => exact settings_tick _ _
  | stop => rfl
  | setFrame frame => rfl
  | reset random => rfl

theorem settings_respondAll (a : Animator) (calls : List AnimatorCall) :
    (a.respondAll calls).settings = a.settings := by
  induction calls generalizing a with
  | nil => rfl
  | cons call calls ih => rw [respondAll_cons, ih, settings_respond]

end Animator

end SpriteStage
