import SpriteStage.Proofs.Animator.Calls
import SpriteStage.Proofs.Animator.Draws

/-!
# The steps that an animator visits

An animator visits a step when it does what the step says. This module lists the visits of each
operation in order, each as the animator that makes it, and follows the animator from one visit to
the next: a `Path` is a chain of visits and of changes between them that neither draw nor pick.
Every operation goes along the path of its visits, whether it succeeds or fails (`path_tick`,
`path_launch`, `path_respondAll`), and so an induction over paths is all that a property of the
visits needs. No draw is made but by a visit (`Path.random_eq`), and where all steps can be drawn
for, no draw is made that the random source does not permit (`Path.leadsTo`).
-/

set_option autoImplicit false

namespace SpriteStage.Animator

/-! ## Visits -/

/-- The visits on the way to the next frame. -/
def resolveVisits (leftover : Float32) : Nat → Animator → List Animator
  | 0, a => [a]
  | budget + 1, a =>
    match a.resolveStep leftover with
    | .redirected b _ => a :: resolveVisits leftover budget b
    | _ => [a]

/-- The visits for the frame that is due next. -/
def dueVisits (a : Animator) : List Animator :=
  a.advanced.resolveVisits a.playback.countdown a.maxRedirects

/-- Another frame is due. -/
abbrev NextDue (a : Animator) : Prop :=
  a.playback.countdown ≤ 0.0 ∧ a.playback.cursor + 1 < a.playback.length

/-- The frame that is due takes time, so the tick can go on from it. -/
abbrev DueMoves (a : Animator) : Prop :=
  a.due.result.isOk = true ∧ ¬ a.due.state.playback.countdown ≤ a.playback.countdown

/-- The visits for the frames that are due. -/
def advanceVisits : Nat → Animator → List Animator
  | 0, a => if a.NextDue then a.dueVisits else []
  | budget + 1, a =>
    if a.NextDue then
      a.dueVisits ++ if a.DueMoves then advanceVisits budget a.due.state else []
    else []

/-- The visits of a tick. -/
def tickVisits (a : Animator) (elapsed : Float32) : List Animator :=
  if elapsed.isFinite = false ∨ a.playback.playing = false then []
  else (a.elapse elapsed).advanceVisits a.maxFramesPerTick

/-- The visits of a start. -/
def launchVisits (a : Animator) (steps : Sequence) (animation : Option String) (reverse : Bool)
    (timeScale : Float32) : List Animator :=
  if (timeScale.isFinite = false ∨ timeScale ≤ 0.0) ∨ steps = [] then []
  else (a.begun steps animation reverse timeScale).resolveVisits 0.0 a.maxRedirects

/-- The visits of the start of a named animation. -/
def animateVisits (a : Animator) (name : String) (reverse : Bool) (timeScale : Option Float32) :
    List Animator :=
  match a.animations.get? name with
  | none => []
  | some steps => a.launchVisits steps (some name) reverse (timeScale.getD a.frameTime)

/-- The visits of the start of authored steps. -/
def animateManualVisits (a : Animator) (steps : List AuthoredStep) (reverse : Bool)
    (timeScale : Option Float32) : List Animator :=
  match compileAnimation Playback.manualLabel steps with
  | .error _ => []
  | .ok compiled => a.launchVisits compiled none reverse (timeScale.getD a.frameTime)

/-- The visits of a call. -/
def callVisits (a : Animator) : AnimatorCall → List Animator
  | .animate name reverse timeScale => a.animateVisits name reverse timeScale
  | .animateManual steps reverse timeScale => a.animateManualVisits steps reverse timeScale
  | .start steps reverse timeScale => a.launchVisits steps none reverse timeScale
  | .tick elapsed => a.tickVisits elapsed
  | _ => []

/-- The visits of calls. -/
def visits (a : Animator) : List AnimatorCall → List Animator
  | [] => []
  | call :: calls => a.callVisits call ++ (a.respond call).visits calls

/-! ## Paths -/

/-- The animator after a visit; a step that fails leaves it as it is. -/
def stepped (a : Animator) (leftover : Float32) : Animator :=
  match a.resolveStep leftover with
  | .shown b _ => b
  | .redirected b _ => b
  | .failed _ => a

/-- A change between visits, which neither draws nor picks. -/
structure Between (a b : Animator) : Prop where
  /-- The animations stay. -/
  animations_eq : b.animations = a.animations
  /-- The steps stay. -/
  steps_eq : b.playback.steps = a.playback.steps
  /-- What was picked last is remembered. -/
  lastPick_eq : b.playback.lastPick = a.playback.lastPick
  /-- The source is not drawn from. -/
  random_eq : b.random = a.random

/-- How an animator gets from one state to another, with its visits in order. The steps that are
started on the way satisfy `P`. -/
inductive Path (P : Sequence → Prop) : Animator → List Animator → Animator → Prop where
  /-- The animator is there. -/
  | done (a : Animator) : Path P a [] a
  /-- It visits a step. -/
  | visit {a c : Animator} {later : List Animator} (leftover : Float32)
      (rest : Path P (a.stepped leftover) later c) : Path P a (a :: later) c
  /-- It changes in what no visit depends on. -/
  | between {a b c : Animator} {later : List Animator} (h : a.Between b) (rest : Path P b later c) :
      Path P a later c
  /-- It starts other steps. -/
  | begun {a c : Animator} {later : List Animator} {steps : Sequence} (hsteps : P steps)
      (animation : Option String) (reverse : Bool) (timeScale : Float32)
      (rest : Path P (a.begun steps animation reverse timeScale) later c) : Path P a later c

variable {P : Sequence → Prop} {a b c : Animator} {visits : List Animator}

namespace Path

theorem append {later : List Animator} (h : Path P a visits b) (hlater : Path P b later c) :
    Path P a (visits ++ later) c := by
  induction h with
  | done a => exact hlater
  | visit leftover _ ih => exact .visit leftover (ih hlater)
  | between hbetween _ ih => exact .between hbetween (ih hlater)
  | begun hsteps animation reverse timeScale _ ih =>
      exact .begun hsteps animation reverse timeScale (ih hlater)

theorem of_between (h : a.Between b) : Path P a [] b := .between h (.done b)

theorem stop (h : Path P a visits b) : Path P a visits b.stop := by
  rw [← List.append_nil visits]
  exact h.append (of_between ⟨rfl, rfl, rfl, rfl⟩)

end Path

theorem path_stepped (a : Animator) (leftover : Float32) : Path P a [a] (a.stepped leftover) :=
  .visit leftover (.done _)

theorem path_resolveWithin (a : Animator) (leftover : Float32) (budget : Nat) :
    Path P a (resolveVisits leftover budget a) (a.resolveWithin leftover budget).state := by
  induction budget generalizing a with
  | zero =>
      have hvisit := path_stepped (P := P) a leftover
      unfold stepped at hvisit
      cases hstep : a.resolveStep leftover with
      | shown b frame => simpa [resolveVisits, resolveWithin_of_shown hstep, hstep] using hvisit
      | redirected b signal =>
          simpa [resolveVisits, resolveWithin_zero_of_redirected hstep, hstep] using hvisit
      | failed cause =>
          simpa [resolveVisits, resolveWithin_of_failed hstep, Outcome.failure, hstep] using hvisit
  | succ budget ih =>
      have hvisit := path_stepped (P := P) a leftover
      unfold stepped at hvisit
      cases hstep : a.resolveStep leftover with
      | shown b frame => simpa [resolveVisits, resolveWithin_of_shown hstep, hstep] using hvisit
      | redirected b signal =>
          -- the redirection is one visit, and the rest of the way starts where it leads
          rw [hstep] at hvisit
          simpa [resolveVisits, resolveWithin_succ_of_redirected hstep, hstep] using
            hvisit.append (ih b)
      | failed cause =>
          simpa [resolveVisits, resolveWithin_of_failed hstep, Outcome.failure, hstep] using hvisit

theorem path_launch {steps : Sequence} (hsteps : P steps) (a : Animator) (animation : Option String)
    (reverse : Bool) (timeScale : Float32) :
    Path P a (a.launchVisits steps animation reverse timeScale)
      (a.launch steps animation reverse timeScale).state := by
  unfold launchVisits
  by_cases hscale : timeScale.isFinite = false ∨ timeScale ≤ 0.0
  · rw [launch_of_invalidTimeScale hscale, if_pos (Or.inl hscale)]
    exact (Path.done a).stop
  · by_cases hne : steps = []
    · subst hne
      rw [launch_nil hscale, if_pos (Or.inr rfl)]
      exact (Path.done a).stop
    · rw [launch_eq hscale hne, if_neg (not_or.2 ⟨hscale, hne⟩)]
      refine .begun hsteps animation reverse timeScale ?_
      exact stopOnFailure_induct (fun _ hpath => hpath.stop) (path_resolveWithin _ _ _)

theorem path_due (a : Animator) : Path P a a.dueVisits a.due.state := by
  have hadvanced : a.Between a.advanced := ⟨rfl, rfl, rfl, rfl⟩
  exact .between hadvanced (path_resolveWithin _ _ _)

theorem advanceVisits_eq (budget : Nat) (a : Animator) :
    advanceVisits budget a =
      if a.NextDue then
        a.dueVisits ++
          if a.DueMoves ∧ budget ≠ 0 then advanceVisits (budget - 1) a.due.state else []
      else [] := by
  cases budget with
  | zero => simp [advanceVisits]
  | succ budget => simp [advanceVisits]

/-- A tick that is refused does not go on from the frame that was due. -/
theorem not_dueMoves_of_refused {a : Animator} {cause : AnimationError} {shown budget : Nat}
    (h : a.due.result = .error cause ∨
      (a.due.result = .ok () ∧ cause = overrun a.due shown ∧
        (a.due.state.playback.countdown ≤ a.playback.countdown ∨ budget = 0))) :
    ¬ a.DueMoves ∨ budget = 0 := by
  rcases h with herror | ⟨-, -, hstuck | hzero⟩
  · refine Or.inl fun h => ?_
    have hok := h.1
    rw [herror] at hok
    exact absurd hok Bool.false_ne_true
  · exact Or.inl fun h => h.2 hstuck
  · exact Or.inr hzero

theorem path_advanceWithin (a : Animator) (shown budget : Nat) :
    Path P a (advanceVisits budget a) (a.advanceWithin shown budget).state := by
  induction budget using Nat.strongRecOn generalizing a shown with
  | ind budget ih =>
      rw [advanceVisits_eq]
      rcases advanceWithin_cases a shown budget with
        ⟨hwait, heq⟩ | ⟨-, hend, heq⟩ | ⟨hdue, hin, cause, heq, hresult⟩ |
        ⟨hdue, hin, hok, hmoved, rest, rfl, heq⟩
      · rw [heq, if_neg fun h => hwait h.1]
        exact .done a
      · rw [heq, if_neg fun h => by omega]
        exact .of_between ⟨rfl, rfl, rfl, rfl⟩
      · -- the frame was found, and nothing comes after it
        have hlast : ¬(a.DueMoves ∧ budget ≠ 0) := fun h =>
          (not_dueMoves_of_refused hresult).elim (fun hstay => hstay h.1) h.2
        rw [heq, if_pos ⟨hdue, hin⟩, if_neg hlast, List.append_nil]
        exact (path_due a).stop
      · -- the frame was found, and the tick goes on from it with the rest of the budget
        have hmoves : a.DueMoves := ⟨by simp [hok, Except.isOk, Except.toBool], hmoved⟩
        rw [heq, if_pos ⟨hdue, hin⟩, if_pos ⟨hmoves, Nat.succ_ne_zero rest⟩]
        exact (path_due a).append (ih rest (Nat.lt_succ_self rest) _ _)

/-- A tick goes along its visits, whether it succeeds or fails. -/
theorem path_tick (a : Animator) (elapsed : Float32) :
    Path P a (a.tickVisits elapsed) (a.tick elapsed).state := by
  unfold tickVisits
  by_cases hinvalid : elapsed.isFinite = false
  · rw [tick_of_invalidElapsed hinvalid, if_pos (Or.inl hinvalid)]
    exact .done a
  · by_cases hidle : a.playback.playing = false
    · rw [tick_of_idle hinvalid hidle, if_pos (Or.inr hidle)]
      exact .done a
    · rw [tick_eq hinvalid hidle, if_neg (not_or.2 ⟨hinvalid, hidle⟩)]
      have helapse : a.Between (a.elapse elapsed) := ⟨rfl, rfl, rfl, rfl⟩
      exact .between helapse (path_advanceWithin _ _ _)

theorem path_animate (hnamed : ∀ name steps, a.animations.get? name = some steps → P steps)
    (name : String) (reverse : Bool) (timeScale : Option Float32) :
    Path P a (a.animateVisits name reverse timeScale) (a.animate name reverse timeScale).state := by
  unfold animateVisits animate
  cases hget : a.animations.get? name with
  | none => exact (Path.done a).stop
  | some steps => exact path_launch (hnamed name steps hget) _ _ _ _

theorem path_animateManual
    (hcompiled : ∀ name source steps, compileAnimation name source = .ok steps → P steps)
    (a : Animator) (steps : List AuthoredStep) (reverse : Bool) (timeScale : Option Float32) :
    Path P a (a.animateManualVisits steps reverse timeScale)
      (a.animateManual steps reverse timeScale).state := by
  unfold animateManualVisits animateManual
  cases hcompile : compileAnimation Playback.manualLabel steps with
  | error cause => exact (Path.done a).stop
  | ok compiled => exact path_launch (hcompiled _ _ _ hcompile) _ _ _ _

/-- A call goes along its visits, unless it makes the animator forget. The steps that it starts are
those of an animation, compiled ones, or those that it is made with. -/
theorem path_respond {call : AnimatorCall}
    (hnamed : ∀ name steps, a.animations.get? name = some steps → P steps)
    (hcompiled : ∀ name source steps, compileAnimation name source = .ok steps → P steps)
    (hcall : call.Starts P) (hreset : call.isReset = false) :
    Path P a (a.callVisits call) (a.respond call) := by
  cases call with
  | animate name reverse timeScale => exact path_animate hnamed _ _ _
  | animateManual steps reverse timeScale => exact path_animateManual hcompiled _ _ _ _
  | start steps reverse timeScale => exact path_launch hcall _ _ _ _
  | tick elapsed => exact path_tick a elapsed
  | stop => exact (Path.done a).stop
  | setFrame frame => exact .of_between ⟨rfl, rfl, rfl, rfl⟩
  | reset random => cases hreset

theorem path_respondAll {calls : List AnimatorCall}
    (hnamed : ∀ name steps, a.animations.get? name = some steps → P steps)
    (hcompiled : ∀ name source steps, compileAnimation name source = .ok steps → P steps)
    (hcalls : ∀ call ∈ calls, call.Starts P ∧ call.isReset = false) :
    Path P a (a.visits calls) (a.respondAll calls) := by
  induction calls generalizing a with
  | nil => exact .done a
  | cons call calls ih =>
      obtain ⟨hcall, hreset⟩ := hcalls call List.mem_cons_self
      -- a call keeps the animations, so that the next one starts steps of the same set
      have hanimations : (a.respond call).animations = a.animations :=
        congrArg Prod.fst (settings_respond a call)
      refine (path_respond hnamed hcompiled hcall hreset).append (ih ?_ ?_)
      · exact hanimations ▸ hnamed
      · exact fun later hlater => hcalls later (List.mem_cons_of_mem call hlater)

/-! ## What holds along a path -/

theorem random_stepped (a : Animator) (leftover : Float32) :
    (a.stepped leftover).random = a.random.after a.stepDraws := by
  unfold stepped
  rcases random_resolveStep a leftover with
    ⟨b, frame, heq, hdraws⟩ | ⟨b, signal, heq, hkept, hnone⟩ | ⟨cause, heq, hnone⟩
  · simpa [heq] using hdraws
  · simpa [heq, hnone] using hkept
  · simp [heq, hnone]

/-- The visits make all draws. -/
theorem Path.random_eq (h : Path P a visits c) :
    c.random = a.random.after (visits.flatMap stepDraws) := by
  induction h with
  | done a => rfl
  | visit leftover _ ih =>
      rw [ih, random_stepped, List.flatMap_cons, Random.after_append]
  | between hbetween _ ih => rw [ih, hbetween.random_eq]
  | begun _ _ _ _ _ ih => exact ih

/-- Every step that the animator may come upon satisfies `S`: those that it plays, and those of its
animations. -/
structure StepsSatisfy (S : AnimationStep → Prop) (a : Animator) : Prop where
  /-- The steps that are played. -/
  current : ∀ steps, a.playback.steps = some steps → ∀ step ∈ steps, S step
  /-- The steps of the animations. -/
  named : ∀ name steps, a.animations.get? name = some steps → ∀ step ∈ steps, S step

namespace StepsSatisfy

variable {S : AnimationStep → Prop}

theorem create {animations : AnimationSet}
    (h : ∀ name steps, animations.get? name = some steps → ∀ step ∈ steps, S step)
    (config : Config) (random : Random) :
    (Animator.create animations config random).StepsSatisfy S :=
  ⟨fun _ hsteps => (nomatch hsteps), h⟩

theorem of_step (h : a.StepsSatisfy S) {step : AnimationStep}
    (hstep : a.playback.step? = some step) : S step := by
  obtain ⟨steps, hsteps, hmem⟩ := mem_of_step?_eq hstep
  exact h.current steps hsteps step hmem

theorem stepped (h : a.StepsSatisfy S) (leftover : Float32) :
    (a.stepped leftover).StepsSatisfy S := by
  unfold Animator.stepped
  cases hstep : a.resolveStep leftover with
  | shown b frame =>
      rcases shown_cases hstep with ⟨duration, -, rfl⟩ | ⟨choices, duration, -, -, rfl⟩
      · exact ⟨h.current, h.named⟩
      · exact ⟨h.current, h.named⟩
  | redirected b signal =>
      rcases redirected_cases hstep with ⟨-, -, rfl⟩ | ⟨target, steps, -, hget, -, rfl⟩
      · exact ⟨h.current, h.named⟩
      · -- a link leads to steps of the set
        refine ⟨?_, h.named⟩
        intro other hother
        cases hother
        exact h.named target steps hget
  | failed cause => exact h

end StepsSatisfy

/-- What holds of all steps at the start, and of those that are started, holds on every visit. -/
theorem Path.stepsSatisfy {S : AnimationStep → Prop} (h : Path P a visits c)
    (ha : a.StepsSatisfy S) (hP : ∀ steps, P steps → ∀ step ∈ steps, S step) :
    c.StepsSatisfy S ∧ ∀ v ∈ visits, v.StepsSatisfy S := by
  induction h with
  | done a => exact ⟨ha, by simp⟩
  | visit leftover _ ih =>
      obtain ⟨hc, hlater⟩ := ih (ha.stepped leftover)
      exact ⟨hc, by simpa [ha] using hlater⟩
  | between hbetween _ ih =>
      exact ih ⟨hbetween.steps_eq ▸ ha.current, hbetween.animations_eq ▸ ha.named⟩
  | begun hsteps _ _ _ _ ih =>
      refine ih ⟨?_, ha.named⟩
      intro other hother
      cases hother
      exact hP _ hsteps

/-! ## Permitted draws -/

theorem permitted_of_ordered {duration : FrameDuration} (h : duration.Ordered) :
    ∀ d ∈ duration.draws, d.Permitted := by
  cases duration with
  | fixed count => simp [FrameDuration.draws]
  | range least greatest => simpa [FrameDuration.draws, Draw.Permitted, FrameDuration.Ordered] using h

/-- A step that can be drawn for asks nothing of the random source that it does not permit. -/
theorem StepsSatisfy.permitted_stepDraws (h : a.StepsSatisfy AnimationStep.Drawable) :
    ∀ d ∈ a.stepDraws, d.Permitted := by
  unfold stepDraws
  cases hstep : a.playback.step? with
  | none => simp
  | some step =>
      have hdrawable := h.of_step hstep
      cases step with
      | frame index duration => exact permitted_of_ordered hdrawable
      | unique choices duration =>
          have hpos : 0 < (a.candidates choices).length :=
            List.length_pos_iff.2 (a.candidates_ne_nil hdrawable.2)
          simpa [Draw.Permitted, hpos] using permitted_of_ordered hdrawable.1
      | loop => simp
      | link target => simp

/-- Where all steps can be drawn for, every draw on the way is permitted. -/
theorem Path.leadsTo (h : Path P a visits c) (ha : a.StepsSatisfy AnimationStep.Drawable)
    (hP : ∀ steps, P steps → ∀ step ∈ steps, step.Drawable) : a.random.LeadsTo c.random := by
  refine ⟨visits.flatMap stepDraws, ?_, h.random_eq⟩
  intro d hd
  obtain ⟨v, hv, hdraw⟩ := List.mem_flatMap.1 hd
  exact ((h.stepsSatisfy ha hP).2 v hv).permitted_stepDraws d hdraw

/-! ## Whole runs -/

/-- What holds of the steps of the set, of compiled steps and of those that calls start holds of all
steps, after a reset too. -/
theorem StepsSatisfy.respondAll {S : AnimationStep → Prop} {calls : List AnimatorCall}
    (h : a.StepsSatisfy S)
    (hcompiled : ∀ name source steps, compileAnimation name source = .ok steps →
      ∀ step ∈ steps, S step)
    (hcalls : ∀ call ∈ calls, call.Starts fun steps => ∀ step ∈ steps, S step) :
    (a.respondAll calls).StepsSatisfy S := by
  induction calls generalizing a with
  | nil => exact h
  | cons call calls ih =>
      refine ih ?_ fun later hlater => hcalls later (List.mem_cons_of_mem call hlater)
      by_cases hreset : call.isReset = true
      · cases call with
        | reset random => exact ⟨fun _ hsteps => (nomatch hsteps), h.named⟩
        | _ => cases hreset
      · have hpath := path_respond h.named hcompiled (hcalls call List.mem_cons_self)
          (Bool.eq_false_iff.2 hreset)
        exact (hpath.stepsSatisfy h fun _ hsteps => hsteps).1

end SpriteStage.Animator
