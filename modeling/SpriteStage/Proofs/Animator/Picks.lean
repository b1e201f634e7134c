import Mathlib.Data.List.Chain
import SpriteStage.Proofs.Animator.Visits

/-!
# Picked frames

A step that shows one of several frames does not pick the frame that was picked last, whichever step
picked it. This module lists the picks of a run in order. An animator remembers its last pick across
animations, stops and failures, and compiled steps have two different frames to pick from; so a
frame is left whatever was picked last, the index that is drawn is that of such a frame, and no two
picks in a row are equal (`freshPicks_of_compiled`).
-/

set_option autoImplicit false

namespace SpriteStage

open Animator (allowed)

/-- A frame that was picked out of several. -/
structure Pick where
  /-- What it was picked from. -/
  choices : List UInt64
  /-- What was picked before. -/
  last : Option UInt64
  /-- The index that was drawn. -/
  rank : Nat
  /-- What was picked. -/
  frame : UInt64

namespace Pick

/-- The pick is what was drawn: there were choices that differ from what was picked before, and the
index that was drawn is that of one of them. -/
structure Proper (p : Pick) : Prop where
  /-- There were other frames to pick. -/
  allowed_ne_nil : allowed p.last p.choices ≠ []
  /-- The index is that of a frame among them, the one that was picked. -/
  getElem?_rank : (allowed p.last p.choices)[p.rank]? = some p.frame

variable {p : Pick}

theorem Proper.mem_allowed (h : p.Proper) : p.frame ∈ allowed p.last p.choices :=
  List.mem_of_getElem? h.getElem?_rank

theorem Proper.mem_choices (h : p.Proper) : p.frame ∈ p.choices :=
  (List.mem_filter.1 h.mem_allowed).1

theorem Proper.ne_last (h : p.Proper) : some p.frame ≠ p.last := by
  simpa using (List.mem_filter.1 h.mem_allowed).2

/-- Proper picks, each made with the one before it in mind: from what was picked last before them
to what was picked last after them. -/
def Chained (last : Option UInt64) : List Pick → Option UInt64 → Prop
  | [], after => after = last
  | p :: later, after => p.last = last ∧ p.Proper ∧ Chained (some p.frame) later after

namespace Chained

variable {last after : Option UInt64} {picks : List Pick}

theorem proper (h : Chained last picks after) : ∀ p ∈ picks, p.Proper := by
  induction picks generalizing last with
  | nil => simp
  | cons p later ih =>
      obtain ⟨-, hproper, hlater⟩ := h
      simpa [hproper] using ih hlater

theorem after_eq (h : Chained last picks after) :
    after = (picks.map Pick.frame).getLast?.or last := by
  induction picks generalizing last with
  | nil => simpa [Chained] using h
  | cons p later ih =>
      obtain ⟨-, -, hlater⟩ := h
      rw [ih hlater, List.map_cons, List.getLast?_cons]
      cases (later.map Pick.frame).getLast? with
      | none => rfl
      | some frame => rfl

/-- No two picks in a row are equal. -/
theorem isChain (h : Chained last picks after) : (picks.map Pick.frame).IsChain (· ≠ ·) := by
  induction picks generalizing last with
  | nil => simp
  | cons p later ih =>
      obtain ⟨-, -, hlater⟩ := h
      cases later with
      | nil => simp
      | cons q rest =>
          -- the second pick was made with the first one in mind
          have hrest := ih hlater
          obtain ⟨hlast, hproper, -⟩ := hlater
          have hne : p.frame ≠ q.frame := by
            intro heq
            exact hproper.ne_last (heq ▸ hlast.symm)
          exact List.isChain_cons_cons.2 ⟨hne, hrest⟩

end Chained

end Pick

namespace Animator

/-- What is picked on a visit, if anything is. -/
def pick? (a : Animator) : Option Pick :=
  match a.playback.step? with
  | some (.unique choices _) =>
    some
      { choices := choices
        last := a.playback.lastPick
        rank := (a.random.index (a.candidates choices).length).1
        frame := (a.pick choices).1 }
  | _ => none

/-- What is picked in answer to calls. -/
def picks (a : Animator) (calls : List AnimatorCall) : List Pick :=
  (a.visits calls).filterMap pick?

/-! ## One visit -/

variable {a c : Animator}

/-- Of two different frames, one is not the last pick. -/
theorem allowed_ne_nil {choices : List UInt64} (h : ∃ c ∈ choices, ∃ d ∈ choices, c ≠ d)
    (last : Option UInt64) : allowed last choices ≠ [] := by
  obtain ⟨c, hc, d, hd, hne⟩ := h
  by_cases hlast : some c = last
  · have hother : some d ≠ last := by
      rintro rfl
      exact hne (Option.some.inj hlast)
    exact List.ne_nil_of_mem (List.mem_filter.2 ⟨hd, by simpa using hother⟩)
  · exact List.ne_nil_of_mem (List.mem_filter.2 ⟨hc, by simpa using hlast⟩)

/-- Where there are frames that differ from the last pick, the index that is drawn is that of one of
them. -/
theorem getElem?_index {choices : List UInt64} (h : allowed a.playback.lastPick choices ≠ []) :
    (allowed a.playback.lastPick choices)[(a.random.index (a.candidates choices).length).1]? =
      some (a.pick choices).1 := by
  have hcandidates := candidates_of_ne_nil h
  rw [← hcandidates]
  exact a.getElem?_candidates (hcandidates ▸ h)

/-- A pick between two different frames is proper, and is made with the last pick in mind. -/
theorem proper_pick? (h : a.StepsSatisfy AnimationStep.Varied) {p : Pick} (hp : a.pick? = some p) :
    p.last = a.playback.lastPick ∧ p.Proper := by
  unfold pick? at hp
  cases hstep : a.playback.step? with
  | none => simp [hstep] at hp
  | some step =>
      cases step with
      | unique choices duration =>
          have hfresh := allowed_ne_nil (h.of_step hstep) a.playback.lastPick
          simp only [hstep, Option.some.injEq] at hp
          subst hp
          exact ⟨rfl, hfresh, getElem?_index hfresh⟩
      | frame index duration => simp [hstep] at hp
      | loop => simp [hstep] at hp
      | link target => simp [hstep] at hp

/-- A visit leaves its pick as the last one, and keeps the last one if nothing is picked. -/
theorem lastPick_stepped (a : Animator) (leftover : Float32) :
    (a.stepped leftover).playback.lastPick =
      (a.pick?.map Pick.frame).or a.playback.lastPick := by
  unfold stepped pick?
  rcases resolveStep_cases a leftover with ⟨index, duration, hstep, heq⟩ |
    ⟨choices, duration, hstep, heq⟩ | ⟨hstep, heq⟩ | ⟨target, steps, hstep, -, heq⟩ |
    ⟨hstep, heq⟩ | ⟨target, hstep, -, heq⟩
  · simp only [hstep, heq]
    rfl
  · simp only [hstep, heq]
    rfl
  · simp only [hstep, heq]
    rfl
  · simp only [hstep, heq]
    rfl
  · simp [hstep, heq]
  · simp [hstep, heq]

/-! ## Whole runs -/

/-- Along a path between animators that have different frames to pick from, the picks are made one
with the other in mind. -/
theorem Path.chained {P : Sequence → Prop} {visits : List Animator} (h : Path P a visits c)
    (ha : a.StepsSatisfy AnimationStep.Varied)
    (hP : ∀ steps, P steps → ∀ step ∈ steps, step.Varied) :
    Pick.Chained a.playback.lastPick (visits.filterMap pick?) c.playback.lastPick := by
  induction h with
  | done a => rfl
  | @visit a c later leftover _ ih =>
      have hlater := ih (ha.stepped leftover)
      rw [lastPick_stepped] at hlater
      cases hpick : a.pick? with
      | none => simpa [hpick] using hlater
      | some p =>
          obtain ⟨hlast, hproper⟩ := proper_pick? ha hpick
          rw [List.filterMap_cons_some hpick]
          refine ⟨hlast, hproper, ?_⟩
          simpa [hpick] using hlater
  | between hbetween _ ih =>
      rw [← hbetween.lastPick_eq]
      exact ih ⟨hbetween.steps_eq ▸ ha.current, hbetween.animations_eq ▸ ha.named⟩
  | begun hsteps _ _ _ _ ih =>
      refine ih ⟨?_, ha.named⟩
      intro other hother
      cases hother
      exact hP _ hsteps

/-- The picks of a run: all of them, none equal to the one before it. -/
structure FreshPicks (a : Animator) (calls : List AnimatorCall) : Prop where
  /-- The source was drawn from for the visits of the run and for nothing else. -/
  random_eq : (a.respondAll calls).random = a.random.after ((a.visits calls).flatMap stepDraws)
  /-- What the animator remembers is the last pick of the run. -/
  lastPick_eq : (a.respondAll calls).playback.lastPick =
    ((a.picks calls).map Pick.frame).getLast?.or a.playback.lastPick
  /-- No two picks in a row are equal. -/
  isChain : ((a.picks calls).map Pick.frame).IsChain (· ≠ ·)
  /-- Every pick is one of the choices of its step. -/
  mem_choices : ∀ p ∈ a.picks calls, p.frame ∈ p.choices
  /-- Every pick is the one that was drawn among those that differ from the last. -/
  proper : ∀ p ∈ a.picks calls, p.Proper

/-- Steps that were compiled. -/
def WasCompiled (steps : Sequence) : Prop :=
  ∃ name source, compileAnimation name source = .ok steps

/-- A run over compiled animations never picks a frame twice in a row, whatever the random source,
as long as nothing makes the animator forget. -/
theorem freshPicks_of_compiled {animations : AnimationSet}
    (hset : ∀ name steps, animations.get? name = some steps → WasCompiled steps) (config : Config)
    (random : Random) {calls : List AnimatorCall}
    (hcalls : ∀ call ∈ calls, call.Starts WasCompiled ∧ call.isReset = false) :
    FreshPicks (create animations config random) calls := by
  have hvaried : ∀ steps, WasCompiled steps → ∀ step ∈ steps, step.Varied := by
    rintro steps ⟨name, source, hcompile⟩
    exact varied_of_compileAnimation hcompile
  have hsteps : (create animations config random).StepsSatisfy AnimationStep.Varied :=
    .create (fun name steps hname => hvaried steps (hset name steps hname)) config random
  have hpath := path_respondAll (a := create animations config random) hset
    (fun name source steps hcompile => ⟨name, source, hcompile⟩) hcalls
  have hchained := hpath.chained hsteps hvaried
  exact ⟨hpath.random_eq, hchained.after_eq, hchained.isChain,
    fun p hp => (hchained.proper p hp).mem_choices, hchained.proper⟩

/-- Two animations that pick from the same frames, one of them with a frame twice. -/
def winkSet : AnimationSet :=
  { entries := [("nod", [.unique [2, 1] (.range 1 2), .loop]),
      ("wink", [.unique [1, 1, 2] (.fixed 1.0), .link "nod"])] }

theorem freshPicks_winkSet :
    FreshPicks (create winkSet {} (Random.ofSeed 7))
      [.animate "wink" false none, .tick 1000.0, .stop,
        .animateManual [.unique [2, 3, 2] (.fixed 1.0), .link "wink"] true (some 20.0),
        .tick 90.0, .setFrame 5, .animate "blink" false none, .animate "nod" false none] := by
  refine freshPicks_of_compiled ?_ {} _ (by simp [AnimatorCall.Starts, AnimatorCall.isReset])
  intro name steps hsteps
  have hmem : (name, steps) ∈ winkSet.entries := (winkSet.mem_entries_iff name steps).2 hsteps
  rcases List.mem_cons.1 hmem with heq | hrest
  · cases heq
    exact ⟨"nod", [.unique [2, 1] (.range 1 2), .loop], rfl⟩
  · cases List.mem_singleton.1 hrest
    exact ⟨"wink", [.unique [1, 1, 2] (.fixed 1.0), .link "nod"], rfl⟩

end Animator

end SpriteStage
