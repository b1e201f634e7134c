import SpriteStage.Proofs.Animator.Compiled
import SpriteStage.Proofs.Animator.Play

/-!
# The time that is left over

The countdown has no say in which frame is found next, nor has the time that is left over from the
last frame: animators that differ in nothing else find the same frame, give the same signals and
draw the same numbers, and what they count down from differs by what was left over
(`resolveWithin_landing`). What they count down from is the hold of a step that the animator knows.
-/

set_option autoImplicit false

namespace SpriteStage

/-- The duration of a step that shows a frame. -/
def AnimationStep.duration? : AnimationStep → Option FrameDuration
  | .unique _ duration => some duration
  | .frame _ duration => some duration
  | _ => none

/-- A step that can be played has a duration that passed its check. -/
theorem AnimationStep.Playable.check_eq_ok {step : AnimationStep} (h : step.Playable)
    {duration : FrameDuration} (hduration : step.duration? = some duration) :
    duration.check = .ok () := by
  cases step with
  | frame index d =>
      cases hduration
      exact h
  | unique choices d =>
      cases hduration
      exact h.1
  | loop => cases hduration
  | link target => cases hduration

namespace Animator

/-- The animator with another time left for its frame. -/
def withCountdown (a : Animator) (countdown : Float32) : Animator :=
  { a with playback := { a.playback with countdown := countdown } }

theorem withCountdown_self (a : Animator) : a.withCountdown a.playback.countdown = a := rfl

/-- Every duration that the animator may come upon satisfies `D`: those of the steps that it plays,
and those of the animations that links lead to. -/
structure DurationsSatisfy (D : FrameDuration → Prop) (a : Animator) : Prop where
  /-- The durations of the steps that are played. -/
  current : ∀ steps, a.playback.steps = some steps →
    ∀ step ∈ steps, ∀ duration, step.duration? = some duration → D duration
  /-- The durations of the animations of the set. -/
  named : ∀ name steps, a.animations.get? name = some steps →
    ∀ step ∈ steps, ∀ duration, step.duration? = some duration → D duration

/-- What finding a frame leaves as it is. -/
structure SameSettings (a b : Animator) : Prop where
  /-- The set of animations. -/
  animations_eq : b.animations = a.animations
  /-- Whether time moves the animator. -/
  playing_eq : b.playback.playing = a.playback.playing
  /-- The time of one duration unit. -/
  timeScale_eq : b.playback.timeScale = a.playback.timeScale
  /-- How many redirections may lead to one frame. -/
  maxRedirects_eq : b.maxRedirects = a.maxRedirects
  /-- How many frames one tick may show. -/
  maxFramesPerTick_eq : b.maxFramesPerTick = a.maxFramesPerTick

theorem SameSettings.trans {a b c : Animator} (hab : SameSettings a b) (hbc : SameSettings b c) :
    SameSettings a c :=
  ⟨hbc.animations_eq.trans hab.animations_eq, hbc.playing_eq.trans hab.playing_eq,
    hbc.timeScale_eq.trans hab.timeScale_eq, hbc.maxRedirects_eq.trans hab.maxRedirects_eq,
    hbc.maxFramesPerTick_eq.trans hab.maxFramesPerTick_eq⟩

variable {D : FrameDuration → Prop} {a : Animator}

theorem mem_of_step?_eq {step : AnimationStep} (h : a.playback.step? = some step) :
    ∃ steps, a.playback.steps = some steps ∧ step ∈ steps := by
  obtain ⟨steps, hsteps, hget⟩ := Option.bind_eq_some_iff.1 h
  exact ⟨steps, hsteps, List.mem_of_getElem? hget⟩

theorem DurationsSatisfy.of_step (h : a.DurationsSatisfy D) {step : AnimationStep}
    (hstep : a.playback.step? = some step) {duration : FrameDuration}
    (hduration : step.duration? = some duration) : D duration := by
  obtain ⟨steps, hsteps, hmem⟩ := mem_of_step?_eq hstep
  exact h.current steps hsteps step hmem duration hduration

theorem DurationsSatisfy.switched (h : a.DurationsSatisfy D) {target : String} {steps : Sequence}
    (hsteps : a.animations.get? target = some steps) :
    (a.switched target steps).DurationsSatisfy D := by
  refine ⟨?_, h.named⟩
  intro other hother
  cases hother
  exact h.named target steps hsteps

/-- The frame that is found, with the countdown left open: `b` is the animator that shows it, for a
count of `duration`. -/
structure Landing (D : FrameDuration → Prop) (a b : Animator) (duration : FrameDuration) : Prop where
  /-- The duration is one that the animator knows. -/
  duration_ok : D duration
  /-- So are the durations that come after it. -/
  durations : b.DurationsSatisfy D
  /-- The settings are those of before. -/
  settings : SameSettings a b

/-- The time that a frame stays if nothing is left over. -/
def hold (a : Animator) (duration : FrameDuration) (random : Random) : Float32 :=
  (duration.draw random).1 * a.playback.timeScale

/-- What one step does, for any countdown and any time left over. -/
theorem resolveStep_withCountdown (h : a.DurationsSatisfy D) {leftover : Float32} :
    (∃ b frame duration random, a.resolveStep leftover = .shown b frame ∧
      Landing D a b duration ∧
      ∀ c l, (a.withCountdown c).resolveStep l =
        .shown (b.withCountdown (a.hold duration random + l)) frame) ∨
    (∃ b signal, a.resolveStep leftover = .redirected b signal ∧ b.DurationsSatisfy D ∧
      SameSettings a b ∧
      ∀ c l, (a.withCountdown c).resolveStep l = .redirected (b.withCountdown c) signal) ∨
    ∃ cause, a.resolveStep leftover = .failed cause := by
  have hsame : ∀ c, (a.withCountdown c).playback.step? = a.playback.step? := fun _ => rfl
  rcases resolveStep_cases a leftover with ⟨index, duration, hstep, heq⟩ |
    ⟨choices, duration, hstep, heq⟩ | ⟨hstep, heq⟩ | ⟨target, steps, hstep, hget, heq⟩ |
    ⟨hstep, heq⟩ | ⟨target, hstep, hnone, heq⟩
  · refine Or.inl ⟨_, _, duration, a.random, heq, ⟨h.of_step hstep rfl, ?_, ?_⟩, ?_⟩
    · exact ⟨h.current, h.named⟩
    · exact ⟨rfl, rfl, rfl, rfl, rfl⟩
    · intro c l
      unfold resolveStep
      rw [hsame, hstep]
      rfl
  · -- the duration is drawn after the frame was picked
    refine Or.inl ⟨_, _, duration, (a.pick choices).2.random, heq, ⟨h.of_step hstep rfl, ?_, ?_⟩, ?_⟩
    · exact ⟨h.current, h.named⟩
    · exact ⟨rfl, rfl, rfl, rfl, rfl⟩
    · intro c l
      unfold resolveStep
      rw [hsame, hstep]
      rfl
  · refine Or.inr (Or.inl ⟨_, _, heq, ⟨h.current, h.named⟩, ⟨rfl, rfl, rfl, rfl, rfl⟩, ?_⟩)
    intro c l
    unfold resolveStep
    rw [hsame, hstep]
    rfl
  · refine Or.inr (Or.inl ⟨_, _, heq, h.switched hget, ⟨rfl, rfl, rfl, rfl, rfl⟩, ?_⟩)
    intro c l
    have hgetc : (a.withCountdown c).animations.get? target = some steps := hget
    unfold resolveStep
    rw [hsame, hstep]
    dsimp only
    rw [hgetc]
    rfl
  · exact Or.inr (Or.inr ⟨_, heq⟩)
  · exact Or.inr (Or.inr ⟨_, heq⟩)

/-- A frame that is found is found for any countdown and any time left over, and it counts down from
its hold and what was left over. -/
theorem resolveWithin_landing (h : a.DurationsSatisfy D) {leftover : Float32} {budget : Nat}
    (hok : (a.resolveWithin leftover budget).result = .ok ()) :
    ∃ b duration random signals, Landing D a b duration ∧
      ∀ c l, (a.withCountdown c).resolveWithin l budget =
        { state := b.withCountdown (a.hold duration random + l)
          signals := signals
          result := .ok () } := by
  -- A redirection keeps both the countdown and the time left over, so the statement is about all of
  -- them, and `b` is found from any.
  induction budget generalizing a with
  | zero =>
      rcases resolveStep_withCountdown h with
        ⟨b, frame, duration, random, heq, hland, hany⟩ | ⟨b, signal, heq, -⟩ | ⟨cause, heq⟩
      · refine ⟨b, duration, random, [.frame frame], hland, ?_⟩
        intro c l
        exact resolveWithin_of_shown (hany c l)
      · rw [resolveWithin_zero_of_redirected heq] at hok
        cases hok
      · rw [resolveWithin_of_failed heq] at hok
        cases hok
  | succ budget ih =>
      rcases resolveStep_withCountdown h with
        ⟨b, frame, duration, random, heq, hland, hany⟩ | ⟨b, signal, heq, hb, hsettings, hany⟩ |
        ⟨cause, heq⟩
      · refine ⟨b, duration, random, [.frame frame], hland, ?_⟩
        intro c l
        exact resolveWithin_of_shown (hany c l)
      · rw [resolveWithin_succ_of_redirected heq, Outcome.result_after] at hok
        obtain ⟨d, duration, random, signals, hland, hrest⟩ := ih hb hok
        -- a redirection keeps the time scale, so the hold is the one that `a` counts
        have hhold : b.hold duration random = a.hold duration random := by
          unfold hold
          rw [hsettings.timeScale_eq]
        refine ⟨d, duration, random, signal :: signals, ?_, ?_⟩
        · exact ⟨hland.duration_ok, hland.durations, hsettings.trans hland.settings⟩
        · intro c l
          rw [resolveWithin_succ_of_redirected (hany c l), hrest c l, hhold]
          rfl
      · rw [resolveWithin_of_failed heq] at hok
        cases hok

end Animator

end SpriteStage
