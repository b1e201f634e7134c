import SpriteStage.Proofs.Animator.Compiled
import SpriteStage.Proofs.Animator.Sound

/-!
# Where redirections lead

A loop leads to the first of the steps that are played, and a link to the first step of its target.
The walk that follows them does not count: it ends at a frame or goes on without end. An animator
counts. It finds the frame at the end of the walk if no more redirections lead there than it allows,
and otherwise gives up after one redirection too many (`followsWalk_of_compileSet`).

A redirection leads to the first of some steps, and that one shows a frame, links to an animation or
leads back to itself. So a walk to a frame takes a link to each animation once at most, after a loop
or a link from where it began (`Walk.length_le`): an animator that allows more redirections than
there are animations gives up on walks without end only.
-/

set_option autoImplicit false

namespace SpriteStage

/-- Where an animator is. -/
structure Place where
  /-- The steps that are played. -/
  steps : Sequence
  /-- The index of the current step. -/
  cursor : Nat
  /-- The name of the animation; there is none for ad hoc steps. -/
  animation : Option String
deriving DecidableEq

namespace Place

/-- The current step. -/
def step? (p : Place) : Option AnimationStep := p.steps[p.cursor]?

/-- The name of the animation, as errors give it. -/
def label (p : Place) : String := p.animation.getD Playback.manualLabel

/-- The current step shows a frame. -/
def AtFrame (p : Place) : Prop :=
  (∃ index duration, p.step? = some (.frame index duration)) ∨
    ∃ choices duration, p.step? = some (.unique choices duration)

/-- The frame is one of those of the current step, if that has any. -/
def Offers (p : Place) (frame : UInt64) : Prop :=
  ∀ step, p.step? = some step → step.frames ≠ [] → frame ∈ step.frames

/-- The cursor is inside the steps, and every link among them names an animation of the set. -/
structure Linked (animations : AnimationSet) (p : Place) : Prop where
  /-- The cursor is inside the steps. -/
  cursor_lt : p.cursor < p.steps.length
  /-- The links name animations of the set. -/
  linked : ∀ target, AnimationStep.link target ∈ p.steps → animations.contains target = true

/-- One redirection, with its signal. -/
inductive Redirects (animations : AnimationSet) (p : Place) : Signal → Place → Prop where
  /-- A loop leads to the first of the same steps. -/
  | loop (h : p.step? = some .loop) : Redirects animations p .loop { p with cursor := 0 }
  /-- A link leads to the first step of its target. -/
  | link {target : String} {next : Sequence} (h : p.step? = some (.link target))
      (hnext : animations.get? target = some next) :
      Redirects animations p (.link target) ⟨next, 0, some target⟩

end Place

/-- A walk: redirections one after the other, with their signals. -/
inductive Walk (animations : AnimationSet) : Place → List Signal → Place → Prop where
  /-- The walk that goes nowhere. -/
  | stay (p : Place) : Walk animations p [] p
  /-- A redirection and the walk from where it leads. -/
  | go {p q r : Place} {signal : Signal} {signals : List Signal}
      (hfirst : p.Redirects animations signal q) (hrest : Walk animations q signals r) :
      Walk animations p (signal :: signals) r

variable {animations : AnimationSet} {frameCount : Option Nat} {p q r : Place}
  {signal other : Signal} {signals others : List Signal}

/-! ## Redirections -/

namespace Place

/-- Redirections lead to the first of some steps. -/
theorem Redirects.cursor_eq_zero (h : p.Redirects animations signal q) : q.cursor = 0 := by
  cases h with
  | loop hstep => rfl
  | link hstep hnext => rfl

/-- There is one redirection at most. -/
theorem Redirects.unique (h : p.Redirects animations signal q)
    (h' : p.Redirects animations other r) : signal = other ∧ q = r := by
  cases h with
  | loop hstep =>
      cases h' with
      | loop hstep' => exact ⟨rfl, rfl⟩
      | link hstep' hnext' => cases hstep.symm.trans hstep'
  | link hstep hnext =>
      cases h' with
      | loop hstep' => cases hstep.symm.trans hstep'
      | link hstep' hnext' =>
          cases hstep.symm.trans hstep'
          cases hnext.symm.trans hnext'
          exact ⟨rfl, rfl⟩

/-- A step that shows a frame leads nowhere. -/
theorem AtFrame.not_redirects (h : p.AtFrame) : ¬ p.Redirects animations signal q := by
  intro hredirects
  rcases h with ⟨index, duration, hframe⟩ | ⟨choices, duration, hframe⟩
  · cases hredirects with
    | loop hstep => cases hframe.symm.trans hstep
    | link hstep hnext => cases hframe.symm.trans hstep
  · cases hredirects with
    | loop hstep => cases hframe.symm.trans hstep
    | link hstep hnext => cases hframe.symm.trans hstep

/-- In a compiled set, a redirection leads to steps with links to animations of the set. -/
theorem Linked.redirected (hset : SoundSet animations frameCount) (h : p.Linked animations)
    (hredirects : p.Redirects animations signal q) : q.Linked animations := by
  cases hredirects with
  | loop hstep => exact ⟨Nat.lt_of_le_of_lt (Nat.zero_le _) h.cursor_lt, h.linked⟩
  | @link target next hstep hnext =>
      refine ⟨List.length_pos_iff.2 (hset.playable target next hnext).nonempty, ?_⟩
      intro further hfurther
      obtain ⟨steps, hsteps⟩ := hset.linked target next further hnext hfurther
      rw [Table.contains_eq_isSome_get?, hsteps]
      rfl

end Place

/-! ## Walks -/

namespace Walk

/-- A walk that begins at a frame ends there. -/
theorem eq_of_atFrame (h : Walk animations p signals q) (hp : p.AtFrame) :
    signals = [] ∧ q = p := by
  cases h with
  | stay => exact ⟨rfl, rfl⟩
  | go hfirst hrest => exact absurd hfirst hp.not_redirects

/-- Whatever walk is taken, the walk to a frame goes on from where it ends. -/
theorem resumes (h : Walk animations p signals q) (hq : q.AtFrame)
    (h' : Walk animations p others r) :
    ∃ rest, signals = others ++ rest ∧ Walk animations r rest q := by
  induction h' generalizing signals with
  | stay p => exact ⟨signals, rfl, h⟩
  | go hfirst' hrest' ih =>
      cases h with
      | stay => exact absurd hfirst' hq.not_redirects
      | go hfirst hrest =>
          obtain ⟨rfl, rfl⟩ := hfirst.unique hfirst'
          obtain ⟨rest, rfl, hlast⟩ := ih hrest
          exact ⟨rest, rfl, hlast⟩

/-- There is one walk to a frame at most. -/
theorem unique (h : Walk animations p signals q) (hq : q.AtFrame)
    (h' : Walk animations p others r) (hr : r.AtFrame) : signals = others ∧ q = r := by
  obtain ⟨rest, hsignals, hrest⟩ := h.resumes hq h'
  obtain ⟨rfl, rfl⟩ := hrest.eq_of_atFrame hr
  exact ⟨hsignals.trans (List.append_nil others), rfl⟩

/-- From a link on, a walk is one from the start of its target. -/
theorem exists_start_of_link_mem (h : Walk animations p signals q) {target : String}
    (hmem : .link target ∈ signals) :
    ∃ next rest, animations.get? target = some next ∧
      Walk animations ⟨next, 0, some target⟩ rest q ∧ rest.length < signals.length := by
  induction h with
  | stay p => cases hmem
  | @go p q r signal signals hfirst hrest ih =>
      rcases List.mem_cons.1 hmem with rfl | hlater
      · cases hfirst with
        | @link _ next hstep hnext => exact ⟨next, signals, hnext, hrest, Nat.lt_succ_self _⟩
      · obtain ⟨next, rest, hnext, hlast, hlength⟩ := ih hlater
        exact ⟨next, rest, hnext, hlast, Nat.lt_succ_of_lt hlength⟩

/-- From a start to a frame, a walk takes links only, and no link twice. -/
theorem links_of_start (h : Walk animations p signals q) (hq : q.AtFrame) (hp : p.cursor = 0) :
    ∃ targets : List String, signals = targets.map .link ∧ targets.Nodup ∧
      targets ⊆ animations.names := by
  induction h with
  | stay p => exact ⟨[], rfl, List.nodup_nil, List.nil_subset _⟩
  | @go p q r signal signals hfirst hrest ih =>
      obtain ⟨targets, rfl, hnodup, hsubset⟩ := ih hq hfirst.cursor_eq_zero
      cases hfirst with
      | loop hstep =>
          -- a loop at a start leads back to the start, where the walk has no reason to go on
          have hback : ({ p with cursor := 0 } : Place) = p := by rw [← hp]
          rw [hback] at hrest
          have hagain : Walk animations p (.loop :: targets.map .link) r :=
            .go (.loop hstep) (by rw [hback]; exact hrest)
          have hlength := congrArg List.length (hrest.unique hq hagain hq).1
          simp at hlength
      | @link target next hstep hnext =>
          refine ⟨target :: targets, rfl, List.nodup_cons.2 ⟨?_, hnodup⟩, ?_⟩
          · -- a second link to the target would begin the same walk once more
            intro hmem
            obtain ⟨again, rest, hagain, hlast, hlength⟩ :=
              hrest.exists_start_of_link_mem (List.mem_map.2 ⟨target, hmem, rfl⟩)
            cases hnext.symm.trans hagain
            rw [(hrest.unique hq hlast hq).1] at hlength
            exact absurd hlength (Nat.lt_irrefl _)
          · have hname : target ∈ animations.names := by
              rw [← Table.contains_iff, Table.contains_eq_isSome_get?, hnext]
              rfl
            exact List.cons_subset.2 ⟨hname, hsubset⟩

/-- A walk to a frame takes one redirection more than there are animations at most. -/
theorem length_le (h : Walk animations p signals q) (hq : q.AtFrame) :
    signals.length ≤ animations.size + 1 := by
  cases h with
  | stay => exact Nat.zero_le _
  | go hfirst hrest =>
      obtain ⟨targets, rfl, hnodup, hsubset⟩ := hrest.links_of_start hq hfirst.cursor_eq_zero
      have htargets : targets.length ≤ animations.names.length :=
        hnodup.length_le_of_subset hsubset
      have hsize : animations.names.length = animations.size := List.length_map _
      simp only [List.length_cons, List.length_map]
      omega

end Walk

namespace Animator

variable {a b : Animator} {leftover : Float32}

/-! ## Animators at a place -/

/-- The animator is at the place. -/
structure At (p : Place) (a : Animator) : Prop where
  /-- It plays the steps. -/
  steps_eq : a.playback.steps = some p.steps
  /-- It is at the step. -/
  cursor_eq : a.playback.cursor = p.cursor
  /-- It plays them under the name. -/
  animation_eq : a.playback.animation = p.animation

theorem At.step?_eq (h : a.At p) : a.playback.step? = p.step? := by
  unfold Playback.step?
  rw [h.steps_eq, h.cursor_eq]
  rfl

theorem At.label_eq (h : a.At p) : a.playback.label = p.label := by
  unfold Playback.label
  rw [h.animation_eq]
  rfl

/-- A frame was found at the place, after some redirections. -/
structure Found (signals : List Signal) (q : Place) (o : Outcome Animator Unit) : Prop where
  /-- It succeeds. -/
  result_eq : o.result = .ok ()
  /-- The redirections are signalled, and then a frame of the step, which is on screen. -/
  exists_frame : ∃ frame, o.signals = signals ++ [.frame frame] ∧
    o.state.playback.frame = some frame ∧ q.Offers frame
  /-- The animator is at the place. -/
  stays : o.state.At q

/-- The animator gave up at the place, after some redirections. -/
structure Lost (limit : Nat) (signals : List Signal) (q : Place) (o : Outcome Animator Unit) :
    Prop where
  /-- It fails, and says where and after how many redirections. -/
  result_eq : o.result = .error (.degenerateCycle q.label limit)
  /-- The redirections are signalled, and nothing else. -/
  signals_eq : o.signals = signals
  /-- The animator is at the place. -/
  stays : o.state.At q

/-- What the walk from a place says of resolving its step. -/
structure FollowsWalk (p : Place) (leftover : Float32) (a : Animator) : Prop where
  /-- A frame is found just if the walk comes to one within the redirections that are allowed. -/
  ok_iff : (a.resolve leftover).result = .ok () ↔ ∃ signals q,
    Walk a.animations p signals q ∧ q.AtFrame ∧ signals.length ≤ a.maxRedirects
  /-- The frame is that at the end of the walk. -/
  found : ∀ signals q, Walk a.animations p signals q → q.AtFrame →
    (a.resolve leftover).result = .ok () → Found signals q (a.resolve leftover)
  /-- Otherwise the animator follows the walk for one redirection more than are allowed. -/
  lost : (a.resolve leftover).result ≠ .ok () → ∃ signals q,
    Walk a.animations p signals q ∧ signals.length = a.maxRedirects + 1 ∧
      Lost (a.maxRedirects + 1) signals q (a.resolve leftover)
  /-- With more redirections than animations, it fails just if the walk comes to no frame. -/
  fails_iff : a.animations.size < a.maxRedirects →
    ((a.resolve leftover).result ≠ .ok () ↔
      ∀ signals q, Walk a.animations p signals q → ¬ q.AtFrame)

/-! ## One step -/

/-- A frame is shown by a step that has one, and the animator stays there. -/
theorem At.of_shown (h : a.At p) {frame : UInt64}
    (hshown : a.resolveStep leftover = .shown b frame) :
    p.AtFrame ∧ b.At p ∧ b.playback.frame = some frame ∧ p.Offers frame := by
  rcases shown_cases hshown with ⟨duration, hstep, rfl⟩ | ⟨choices, duration, hstep, rfl, rfl⟩
  · rw [h.step?_eq] at hstep
    refine ⟨Or.inl ⟨frame, duration, hstep⟩, ⟨h.steps_eq, h.cursor_eq, h.animation_eq⟩, rfl, ?_⟩
    intro step hother _
    cases hstep.symm.trans hother
    exact List.mem_cons_self
  · rw [h.step?_eq] at hstep
    refine ⟨Or.inr ⟨choices, duration, hstep⟩, ⟨h.steps_eq, h.cursor_eq, h.animation_eq⟩, rfl, ?_⟩
    intro step hother hchoices
    cases hstep.symm.trans hother
    exact a.pick_mem hchoices

/-- A redirection is that of the walk, and leads the animator where it leads the walk. -/
theorem At.of_redirected (h : a.At p)
    (hredirected : a.resolveStep leftover = .redirected b signal) :
    ∃ q, p.Redirects a.animations signal q ∧ b.At q ∧ b.animations = a.animations ∧
      b.maxRedirects = a.maxRedirects := by
  rcases redirected_cases hredirected with ⟨hstep, rfl, rfl⟩ |
    ⟨target, steps, hstep, hget, rfl, rfl⟩
  · rw [h.step?_eq] at hstep
    exact ⟨_, .loop hstep, ⟨h.steps_eq, rfl, h.animation_eq⟩, rfl, rfl⟩
  · rw [h.step?_eq] at hstep
    exact ⟨_, .link hstep hget, ⟨rfl, rfl, rfl⟩, rfl, rfl⟩

/-- No step fails where links lead to animations of the set. -/
theorem At.not_failed (h : a.At p) (hlinked : p.Linked a.animations) {cause : AnimationError} :
    a.resolveStep leftover ≠ .failed cause := by
  intro hfailed
  rcases failed_cases hfailed with ⟨hstep, -⟩ | ⟨target, hstep, hnone, -⟩
  · -- the cursor is inside the steps
    rw [h.step?_eq] at hstep
    exact Nat.not_le_of_lt hlinked.cursor_lt (List.getElem?_eq_none_iff.1 hstep)
  · rw [h.step?_eq] at hstep
    have hcontains := hlinked.linked target (List.mem_of_getElem? hstep)
    rw [Table.contains_eq_isSome_get?, hnone] at hcontains
    exact Bool.false_ne_true hcontains

theorem Found.after {o : Outcome Animator Unit} (h : Found signals q o) (signal : Signal) :
    Found (signal :: signals) q (o.after [signal]) := by
  obtain ⟨frame, hsignals, hframe, hoffers⟩ := h.exists_frame
  exact ⟨h.result_eq, ⟨frame, congrArg (signal :: ·) hsignals, hframe, hoffers⟩, h.stays⟩

theorem Lost.after {limit : Nat} {o : Outcome Animator Unit} (h : Lost limit signals q o)
    (signal : Signal) : Lost limit (signal :: signals) q (o.after [signal]) :=
  ⟨h.result_eq, congrArg (signal :: ·) h.signals_eq, h.stays⟩

/-! ## Runs of steps -/

/-- The animator follows the walk, to a frame or until the budget is used up. -/
theorem At.resolveWithin (hset : SoundSet a.animations frameCount) (h : a.At p)
    (hlinked : p.Linked a.animations) (leftover : Float32) (budget : Nat) :
    (∃ signals q, Walk a.animations p signals q ∧ q.AtFrame ∧ signals.length ≤ budget ∧
        Found signals q (a.resolveWithin leftover budget)) ∨
      ∃ signals q, Walk a.animations p signals q ∧ signals.length = budget + 1 ∧
        Lost (a.maxRedirects + 1) signals q (a.resolveWithin leftover budget) := by
  fun_induction Animator.resolveWithin leftover budget a generalizing p with
  | case1 budget a b frame hstep =>
      obtain ⟨hframe, hb, hscreen, hoffers⟩ := h.of_shown hstep
      exact Or.inl ⟨[], p, .stay p, hframe, Nat.zero_le _, rfl, ⟨frame, rfl, hscreen, hoffers⟩, hb⟩
  | case2 budget a cause hstep => exact absurd hstep (h.not_failed hlinked)
  | case3 a b signal hstep =>
      -- the redirection is one too many
      obtain ⟨q, hredirects, hb, -, hlimit⟩ := h.of_redirected hstep
      rw [hb.label_eq, hlimit]
      exact Or.inr ⟨[signal], q, .go hredirects (.stay q), rfl, rfl, rfl, hb⟩
  | case4 a b signal hstep budget ih =>
      -- the walk goes on from where the redirection leads
      obtain ⟨q, hredirects, hb, hanimations, hlimit⟩ := h.of_redirected hstep
      rw [hanimations, hlimit] at ih
      rcases ih hset hb (hlinked.redirected hset hredirects) with
        ⟨signals, r, hwalk, hframe, hlength, hfound⟩ | ⟨signals, r, hwalk, hlength, hlost⟩
      · exact Or.inl ⟨signal :: signals, r, .go hredirects hwalk, hframe,
          Nat.succ_le_succ hlength, hfound.after signal⟩
      · exact Or.inr ⟨signal :: signals, r, .go hredirects hwalk, congrArg Nat.succ hlength,
          hlost.after signal⟩

/-- With a compiled set, from any step of any steps whose links name its animations, an animator
finds what the walk finds. -/
theorem followsWalk_of_compileSet {authored : Table (List AuthoredStep)}
    (hcompile : compileSet authored frameCount = .ok a.animations) (h : a.At p)
    (hlinked : p.Linked a.animations) (leftover : Float32) : a.FollowsWalk p leftover := by
  have hrun :=
    h.resolveWithin (sound_of_compileSet hcompile) hlinked leftover a.maxRedirects
  have hok_iff : (a.resolve leftover).result = .ok () ↔ ∃ signals q,
      Walk a.animations p signals q ∧ q.AtFrame ∧ signals.length ≤ a.maxRedirects := by
    rcases hrun with ⟨signals, q, hwalk, hframe, hlength, hfound⟩ |
      ⟨signals, q, hwalk, hlength, hlost⟩
    · exact ⟨fun _ => ⟨signals, q, hwalk, hframe, hlength⟩, fun _ => hfound.result_eq⟩
    · constructor
      · intro hok
        cases hlost.result_eq.symm.trans hok
      · -- the walk to a frame would go on from where the animator gave up
        rintro ⟨others, r, hother, hframe, hshort⟩
        obtain ⟨rest, rfl, -⟩ := hother.resumes hframe hwalk
        rw [List.length_append] at hshort
        omega
  refine ⟨hok_iff, ?_, ?_, ?_⟩
  · intro others r hother hframe' hok
    rcases hrun with ⟨signals, q, hwalk, hframe, -, hfound⟩ | ⟨signals, q, -, -, hlost⟩
    · -- there is no other walk to a frame
      obtain ⟨rfl, rfl⟩ := hother.unique hframe' hwalk hframe
      exact hfound
    · cases hlost.result_eq.symm.trans hok
  · intro hfails
    rcases hrun with ⟨signals, q, -, -, -, hfound⟩ | hlost
    · exact absurd hfound.result_eq hfails
    · exact hlost
  · intro hmany
    rw [ne_eq, hok_iff]
    constructor
    · -- a walk to a frame is short enough to be found
      intro hnone signals q hwalk hframe
      have hlength := hwalk.length_le hframe
      exact hnone ⟨signals, q, hwalk, hframe, by omega⟩
    · rintro hnone ⟨signals, q, hwalk, hframe, -⟩
      exact hnone signals q hwalk hframe

/-- Two animations, of which one leads to the other. -/
def waySteps : Table (List AuthoredStep) :=
  { entries := [("rest", [.frame 3 (.fixed 1.0)]), ("walk", [.link "rest"])] }

/-- The set of the two. -/
def waySet : AnimationSet :=
  { entries := [("rest", [.frame 3 (.fixed 1.0)]), ("walk", [.link "rest"])] }

theorem compileSet_waySteps : compileSet waySteps none = .ok waySet := by
  have hsorted : waySteps.sortByName = waySteps :=
    Table.ext_entries (List.mergeSort_of_pairwise (by decide))
  unfold compileSet
  rw [hsorted]
  rfl

/-- The loop at the end of steps that lead to the first of them. -/
def wayPlace : Place := ⟨[.link "walk", .loop], 1, none⟩

/-- An animator there that allows one redirection more than there are animations. -/
def wayfarer : Animator :=
  { create waySet { maxRedirects := 3 } (Random.ofSeed 7) with
    playback := { steps := some wayPlace.steps, cursor := 1 } }

theorem linked_wayPlace : wayPlace.Linked waySet := by
  refine ⟨by decide, ?_⟩
  intro target htarget
  rcases List.mem_cons.1 htarget with heq | hrest
  · cases heq
    rfl
  · cases List.mem_singleton.1 hrest

/-- The walk takes as many redirections as are allowed, and a frame is found at its end. -/
theorem followsWalk_wayfarer :
    wayfarer.animations.size < wayfarer.maxRedirects ∧
      Found [.loop, .link "walk", .link "rest"] ⟨[.frame 3 (.fixed 1.0)], 0, some "rest"⟩
        (wayfarer.resolve 0.0) := by
  have hfollows : wayfarer.FollowsWalk wayPlace 0.0 :=
    followsWalk_of_compileSet compileSet_waySteps ⟨rfl, rfl, rfl⟩ linked_wayPlace 0.0
  have hwalk : Walk waySet wayPlace [.loop, .link "walk", .link "rest"]
      ⟨[.frame 3 (.fixed 1.0)], 0, some "rest"⟩ :=
    .go (.loop rfl) (.go (.link rfl rfl) (.go (.link rfl rfl) (.stay _)))
  have hframe : Place.AtFrame ⟨[.frame 3 (.fixed 1.0)], 0, some "rest"⟩ := Or.inl ⟨3, _, rfl⟩
  have hok := hfollows.ok_iff.2 ⟨_, _, hwalk, hframe, by decide⟩
  exact ⟨by decide, hfollows.found _ _ hwalk hframe hok⟩

end Animator

end SpriteStage
