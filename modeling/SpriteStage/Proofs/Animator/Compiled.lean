import SpriteStage.Animation
import SpriteStage.Proofs.Table

/-!
# What compiling guarantees

A sequence that was compiled can be played: it has a step, every duration is usable, and where one
of several frames is picked there is one to pick (`playableSteps_of_compileAnimation`). In a set
that was compiled whole, every link leads to an animation of the set and every frame exists
(`sound_of_compileSet`).
-/

set_option autoImplicit false

namespace SpriteStage

/-- A step that can be shown, if it shows a frame at all. -/
def AnimationStep.Playable : AnimationStep → Prop
  | .unique choices duration => duration.check = .ok () ∧ choices ≠ []
  | .frame _ duration => duration.check = .ok ()
  | _ => True

/-- Steps that can be played from the first. -/
structure PlayableSteps (steps : Sequence) : Prop where
  /-- There is a step. -/
  nonempty : steps ≠ []
  /-- Every step can be shown. -/
  playable : ∀ step ∈ steps, step.Playable

/-! ## Durations -/

theorem FrameDuration.fixed_of_check {count : Float32}
    (h : (FrameDuration.fixed count).check = .ok ()) :
    ¬(count.isFinite = false ∨ count ≤ 0.0) := by
  intro hbad
  unfold FrameDuration.check at h
  dsimp only at h
  rw [if_pos hbad] at h
  cases h

theorem FrameDuration.range_of_check {least greatest : UInt32}
    (h : (FrameDuration.range least greatest).check = .ok ()) :
    least ≠ 0 ∧ least ≤ greatest := by
  unfold FrameDuration.check at h
  dsimp only at h
  by_cases hzero : least = 0
  · rw [if_pos hzero] at h
    cases h
  · rw [if_neg hzero] at h
    by_cases hlt : greatest < least
    · rw [if_pos hlt] at h
      cases h
    · exact ⟨hzero, UInt32.not_lt.1 hlt⟩

/-! ## One animation -/

theorem mapError_eq_ok_iff {ε δ α : Type} {x : Except ε α} {f : ε → δ} {a : α} :
    x.mapError f = .ok a ↔ x = .ok a := by
  cases x with
  | ok b =>
      constructor
      · intro h
        cases h
        rfl
      · intro h
        cases h
        rfl
  | error e =>
      constructor
      · intro h
        cases h
      · intro h
        cases h

theorem bind_eq_ok_iff {ε α β : Type} {x : Except ε α} {f : α → Except ε β} {b : β} :
    (x >>= f) = .ok b ↔ ∃ a, x = .ok a ∧ f a = .ok b := by
  cases x with
  | ok a => simp [bind, Except.bind]
  | error e => simp [bind, Except.bind]

theorem PlayableSteps.singleton {step : AnimationStep} (h : step.Playable) :
    PlayableSteps [step] := by
  refine ⟨List.cons_ne_nil _ _, ?_⟩
  intro other hother
  rw [List.mem_singleton.1 hother]
  exact h

/-- A step that passes its check stands for steps that can be played, at least one of them. -/
theorem AuthoredStep.playableSteps_expansion {step : AuthoredStep} (h : step.check = .ok ()) :
    PlayableSteps step.expansion := by
  cases step with
  | frame index duration =>
      have hduration := mapError_eq_ok_iff.1 h
      exact .singleton hduration
  | group frames duration =>
      obtain ⟨u, hchecked, hframes⟩ := bind_eq_ok_iff.1 h
      have hduration : duration.check = .ok () := mapError_eq_ok_iff.1 hchecked
      have hnonempty : frames ≠ [] := by
        intro hnil
        rw [if_pos hnil] at hframes
        cases hframes
      -- every frame of the group is shown for the duration that was checked
      refine ⟨fun hnil => hnonempty (List.map_eq_nil_iff.1 hnil), ?_⟩
      intro step hstep
      obtain ⟨index, -, rfl⟩ := List.mem_map.1 hstep
      exact hduration
  | loop =>
      exact .singleton trivial
  | link target =>
      exact .singleton trivial
  | unique choices duration =>
      obtain ⟨u, hchecked, hchoices⟩ := bind_eq_ok_iff.1 h
      have hduration : duration.check = .ok () := mapError_eq_ok_iff.1 hchecked
      -- no choices at all would be alike as well, and alike choices are refused
      have hnonempty : choices ≠ [] := by
        rintro rfl
        cases hchoices
      exact .singleton ⟨hduration, hnonempty⟩

theorem check_of_checkSteps {name : String} {start : Nat} {steps : List AuthoredStep}
    (h : checkSteps name start steps = .ok ()) : ∀ step ∈ steps, step.check = .ok () := by
  induction steps generalizing start with
  | nil =>
      intro step hstep
      cases hstep
  | cons first rest ih =>
      unfold checkSteps at h
      cases hfirst : first.check with
      | error defect =>
          rw [hfirst] at h
          cases h
      | ok u =>
          rw [hfirst] at h
          intro step hstep
          rcases List.mem_cons.1 hstep with rfl | hrest
          · exact hfirst
          · exact ih h step hrest

/-- Compiling checks every step and expands them all. -/
theorem compileAnimation_eq_ok {name : String} {steps : List AuthoredStep} {compiled : Sequence}
    (h : compileAnimation name steps = .ok compiled) :
    (∀ step ∈ steps, step.check = .ok ()) ∧ steps ≠ [] ∧ compiled = expandSteps steps := by
  obtain ⟨u, hchecked, hrest⟩ := bind_eq_ok_iff.1 h
  by_cases hnil : steps = []
  · rw [if_pos hnil] at hrest
    cases hrest
  · rw [if_neg hnil] at hrest
    cases hrest
    exact ⟨check_of_checkSteps hchecked, hnil, rfl⟩

theorem playableSteps_of_compileAnimation {name : String} {steps : List AuthoredStep}
    {compiled : Sequence} (h : compileAnimation name steps = .ok compiled) :
    PlayableSteps compiled := by
  obtain ⟨hchecked, hnonempty, rfl⟩ := compileAnimation_eq_ok h
  constructor
  · -- the first step alone stands for a step
    intro hnil
    cases steps with
    | nil => exact hnonempty rfl
    | cons first rest =>
        have hfirst := AuthoredStep.playableSteps_expansion (hchecked first List.mem_cons_self)
        rw [expandSteps, List.flatMap_cons, List.append_eq_nil_iff] at hnil
        exact hfirst.nonempty hnil.1
  · intro step hstep
    obtain ⟨authored, hauthored, hexpanded⟩ := List.mem_flatMap.1 hstep
    exact (AuthoredStep.playableSteps_expansion (hchecked authored hauthored)).playable step hexpanded

/-! ## A whole set -/

/-- Expanding neither adds nor drops a link. -/
theorem link_mem_of_mem_expandSteps {target : String} {steps : List AuthoredStep}
    (h : AnimationStep.link target ∈ expandSteps steps) : AuthoredStep.link target ∈ steps := by
  obtain ⟨authored, hauthored, hexpanded⟩ := List.mem_flatMap.1 h
  cases authored with
  | frame index duration => cases List.mem_singleton.1 hexpanded
  | group frames duration =>
      obtain ⟨index, -, heq⟩ := List.mem_map.1 hexpanded
      cases heq
  | loop => cases List.mem_singleton.1 hexpanded
  | link other =>
      cases List.mem_singleton.1 hexpanded
      exact hauthored
  | unique choices duration => cases List.mem_singleton.1 hexpanded

/-- Only a link is looked up. -/
theorem checkLinks_rest {name : String} {isDefined : String → Bool} {start : Nat}
    {first : AuthoredStep} {rest : List AuthoredStep}
    (h : checkLinks name isDefined start (first :: rest) = .ok ()) :
    checkLinks name isDefined (start + 1) rest = .ok () ∧
      ∀ target, first = .link target → isDefined target = true := by
  cases first with
  | link other =>
      unfold checkLinks at h
      by_cases hdefined : isDefined other = true
      · rw [if_pos hdefined] at h
        refine ⟨h, ?_⟩
        rintro target heq
        cases heq
        exact hdefined
      · rw [if_neg hdefined] at h
        cases h
  | frame index duration => exact ⟨h, fun target heq => (nomatch heq)⟩
  | group frames duration => exact ⟨h, fun target heq => (nomatch heq)⟩
  | loop => exact ⟨h, fun target heq => (nomatch heq)⟩
  | unique choices duration => exact ⟨h, fun target heq => (nomatch heq)⟩

theorem isDefined_of_checkLinks {name : String} {isDefined : String → Bool} {start : Nat}
    {steps : List AuthoredStep} (h : checkLinks name isDefined start steps = .ok ())
    {target : String} (hlink : AuthoredStep.link target ∈ steps) : isDefined target = true := by
  induction steps generalizing start with
  | nil => cases hlink
  | cons first rest ih =>
      obtain ⟨hlater, hdefined⟩ := checkLinks_rest h
      rcases List.mem_cons.1 hlink with heq | hrest
      · exact hdefined target heq.symm
      · exact ih hlater hrest

theorem lt_of_checkFrames {name : String} {count : Nat} {steps : Sequence}
    (h : checkFrames name count steps = .ok ()) {step : AnimationStep} (hstep : step ∈ steps)
    {frame : UInt64} (hframe : frame ∈ step.frames) : frame.toNat < count := by
  unfold checkFrames at h
  cases hfind : (steps.flatMap AnimationStep.frames).find? fun frame => count ≤ frame.toNat with
  | some bad =>
      rw [hfind] at h
      cases h
  | none =>
      have hnone := List.find?_eq_none.1 hfind frame (List.mem_flatMap.2 ⟨step, hstep, hframe⟩)
      rw [decide_eq_true_iff] at hnone
      omega

/-- What holds of a set that was compiled whole. -/
structure SoundSet (animations : AnimationSet) (frameCount : Option Nat) : Prop where
  /-- Every animation can be played. -/
  playable : ∀ name steps, animations.get? name = some steps → PlayableSteps steps
  /-- Every link leads to an animation of the set. -/
  linked : ∀ name steps target, animations.get? name = some steps →
    AnimationStep.link target ∈ steps → ∃ next, animations.get? target = some next
  /-- Every frame exists, where the number of frames is known. -/
  framed : ∀ count, frameCount = some count → ∀ name steps, animations.get? name = some steps →
    ∀ step ∈ steps, ∀ frame ∈ step.frames, frame.toNat < count

/-- Each member of a set passed the checks of an animation, of its links and of its frames. -/
theorem compileMember_eq_ok {isDefined : String → Bool} {frameCount : Option Nat} {name : String}
    {steps : List AuthoredStep} {compiled : Sequence}
    (h : compileMember isDefined frameCount name steps = .ok compiled) :
    compileAnimation name steps = .ok compiled ∧ checkLinks name isDefined 0 steps = .ok () ∧
      ∀ count, frameCount = some count → checkFrames name count compiled = .ok () := by
  obtain ⟨c, hcompile, hlater⟩ := bind_eq_ok_iff.1 h
  obtain ⟨u, hlinks, hlast⟩ := bind_eq_ok_iff.1 hlater
  cases frameCount with
  | none =>
      cases hlast
      exact ⟨hcompile, hlinks, fun count hcount => by cases hcount⟩
  | some bound =>
      obtain ⟨v, hframes, hreturn⟩ := bind_eq_ok_iff.1 hlast
      cases hreturn
      refine ⟨hcompile, hlinks, ?_⟩
      intro count hcount
      cases hcount
      exact hframes

theorem sound_of_compileSet {authored : Table (List AuthoredStep)} {frameCount : Option Nat}
    {animations : AnimationSet} (h : compileSet authored frameCount = .ok animations) :
    SoundSet animations frameCount := by
  have hmember : ∀ name steps, animations.get? name = some steps →
      ∃ source, compileMember authored.contains frameCount name source = .ok steps := by
    intro name steps hsteps
    obtain ⟨source, -, hcompiled⟩ := Table.get?_of_mapM_eq_ok h hsteps
    exact ⟨source, hcompiled⟩
  -- a link is checked against the names as authored, and compiling keeps them
  have hnames : ∀ name, authored.contains name = true → animations.contains name = true := by
    intro name hname
    rw [Table.contains_iff, Table.names_of_mapM_eq_ok h, ← Table.contains_iff,
      Table.contains_eq_isSome_get?, Table.get?_sortByName, ← Table.contains_eq_isSome_get?]
    exact hname
  refine ⟨?_, ?_, ?_⟩
  · intro name steps hsteps
    obtain ⟨source, hcompiled⟩ := hmember name steps hsteps
    exact playableSteps_of_compileAnimation (compileMember_eq_ok hcompiled).1
  · intro name steps target hsteps hlink
    obtain ⟨source, hcompiled⟩ := hmember name steps hsteps
    obtain ⟨hanimation, hlinks, -⟩ := compileMember_eq_ok hcompiled
    obtain ⟨-, -, rfl⟩ := compileAnimation_eq_ok hanimation
    have hdefined := isDefined_of_checkLinks hlinks (link_mem_of_mem_expandSteps hlink)
    exact Table.exists_get?_of_contains (hnames target hdefined)
  · intro count hcount name steps hsteps step hstep frame hframe
    obtain ⟨source, hcompiled⟩ := hmember name steps hsteps
    obtain ⟨-, -, hframes⟩ := compileMember_eq_ok hcompiled
    exact lt_of_checkFrames (hframes count hcount) hstep hframe

end SpriteStage
