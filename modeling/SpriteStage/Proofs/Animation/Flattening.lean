import SpriteStage.Proofs.Animator.Compiled
import SpriteStage.Proofs.Checks
import SpriteStage.Proofs.Single.Bounds

/-!
# Flattening an animation

Compiling an animation checks its steps and flattens them: a group becomes a frame for each of its
indices, and every other step stays what it is. Which steps are acceptable, what is wrong with one
that is not, and what flat steps are is said here without the checks and without the expansion
(`AuthoredStep.Acceptable`, `AuthoredStep.Offends`, `Flattens`). Compiling accepts the lists of
acceptable steps and no others, and refuses a list for the first of its steps that offends
(`compiledExactly`).
-/

set_option autoImplicit false

namespace SpriteStage

/-! ## Durations -/

namespace FrameDuration

/-- A positive and finite count, or a range of whole numbers from one on. -/
def Valid : FrameDuration → Prop
  | fixed count => count.isFinite = true ∧ 0.0 < count
  | range least greatest => 1 ≤ least.toNat ∧ least.toNat ≤ greatest.toNat

/-- What is wrong with a duration. A range that starts at zero is refused for that, wherever it
ends. -/
inductive Faulty : FrameDuration → DurationFault → Prop where
  | notFinite {count : Float32} (h : count.isFinite = false) :
      Faulty (fixed count) (.notPositive count)
  | notPositive {count : Float32} (h : count ≤ 0.0) : Faulty (fixed count) (.notPositive count)
  | zeroMinimum (greatest : UInt32) : Faulty (range 0 greatest) .zeroMinimum
  | inverted {least greatest : UInt32} (hleast : 1 ≤ least.toNat)
      (h : greatest.toNat < least.toNat) : Faulty (range least greatest) (.inverted least greatest)

/-- A number that passes for a count is finite and above zero; an undefined one is not finite. -/
theorem valid_fixed_iff {count : Float32} :
    (fixed count).Valid ↔ ¬(count.isFinite = false ∨ count ≤ 0.0) := by
  constructor
  · rintro ⟨hfinite, hpositive⟩ (hinfinite | hle)
    · cases hfinite.symm.trans hinfinite
    · have hdefined := Single.isNaN_eq_false_of_isFinite hfinite
      exact (Single.not_le_iff_lt hdefined (by decide)).2 hpositive hle
  · intro h
    obtain ⟨hfinite, habove⟩ := not_or.1 h
    rw [Bool.not_eq_false] at hfinite
    exact ⟨hfinite, Single.zero_lt_of_not_le (Single.isNaN_eq_false_of_isFinite hfinite) habove⟩

theorem faulty_fixed_iff {count : Float32} {fault : DurationFault} :
    (fixed count).Faulty fault ↔
      (count.isFinite = false ∨ count ≤ 0.0) ∧ fault = .notPositive count := by
  constructor
  · rintro (h | h)
    · exact ⟨Or.inl h, rfl⟩
    · exact ⟨Or.inr h, rfl⟩
  · rintro ⟨h | h, rfl⟩
    · exact .notFinite h
    · exact .notPositive h

theorem valid_range_iff {least greatest : UInt32} :
    (range least greatest).Valid ↔ ¬ least = 0 ∧ ¬ greatest < least := by
  have hzero : least = 0 ↔ least.toNat = 0 := UInt32.toNat_inj.symm
  rw [hzero, UInt32.lt_iff_toNat_lt, Valid]
  omega

theorem faulty_range_iff {least greatest : UInt32} {fault : DurationFault} :
    (range least greatest).Faulty fault ↔
      least = 0 ∧ fault = .zeroMinimum ∨
        ¬ least = 0 ∧ greatest < least ∧ fault = .inverted least greatest := by
  have hzero : least = 0 ↔ least.toNat = 0 := UInt32.toNat_inj.symm
  rw [UInt32.lt_iff_toNat_lt]
  constructor
  · intro h
    cases h with
    | zeroMinimum => exact Or.inl ⟨rfl, rfl⟩
    | inverted hleast hinverted => exact Or.inr ⟨by rw [hzero]; omega, hinverted, rfl⟩
  · rintro (⟨rfl, rfl⟩ | ⟨hne, hinverted, rfl⟩)
    · exact .zeroMinimum greatest
    · rw [hzero] at hne
      exact .inverted (by omega) hinverted

theorem settles_check (d : FrameDuration) : Settles d.check (fun _ => d.Valid) d.Faulty := by
  cases d with
  | fixed count =>
      refine (Settles.refuse_if _ _ ()).congr ?_ ?_
      · intro _
        rw [valid_fixed_iff, and_iff_left rfl]
      · intro fault
        rw [faulty_fixed_iff]
  | range least greatest =>
      refine (Settles.refuse_or _ _ (Settles.refuse_if _ _ ())).congr ?_ ?_
      · intro _
        rw [valid_range_iff, and_iff_left rfl]
      · intro fault
        rw [faulty_range_iff]

end FrameDuration

/-! ## Steps -/

namespace AuthoredStep

/-- A step that can be played. A choice does not show what it showed last, so it has two different
frames to choose from. -/
def Acceptable : AuthoredStep → Prop
  | frame _ duration => duration.Valid
  | group frames duration => duration.Valid ∧ frames ≠ []
  | loop => True
  | link _ => True
  | unique choices duration => duration.Valid ∧ ∃ c ∈ choices, ∃ d ∈ choices, c ≠ d

/-- What is wrong with a step: its duration or, if that is usable, what it shows. -/
inductive Offends : AuthoredStep → StepDefect → Prop where
  | frame {index : UInt64} {duration : FrameDuration} {fault : DurationFault}
      (h : duration.Faulty fault) : Offends (frame index duration) (.duration fault)
  | group {frames : List UInt64} {duration : FrameDuration} {fault : DurationFault}
      (h : duration.Faulty fault) : Offends (group frames duration) (.duration fault)
  | unique {choices : List UInt64} {duration : FrameDuration} {fault : DurationFault}
      (h : duration.Faulty fault) : Offends (unique choices duration) (.duration fault)
  | emptyGroup {duration : FrameDuration} (h : duration.Valid) :
      Offends (group [] duration) .emptyGroup
  | sameChoices {choices : List UInt64} {duration : FrameDuration} (h : duration.Valid)
      (hsame : ∀ c ∈ choices, ∀ d ∈ choices, c = d) :
      Offends (unique choices duration) (.sameChoices choices)

/-- Choices are all the same if they are all like the first one. -/
theorem all_head_iff {choices : List UInt64} :
    (choices.all fun c => choices.head? = some c) = true ↔
      ∀ c ∈ choices, ∀ d ∈ choices, c = d := by
  rw [List.all_eq_true]
  constructor
  · intro h c hc d hd
    have hfirst : choices.head? = some c := of_decide_eq_true (h c hc)
    have hother : choices.head? = some d := of_decide_eq_true (h d hd)
    exact Option.some.inj (hfirst.symm.trans hother)
  · intro h c hc
    cases choices with
    | nil => cases hc
    | cons first rest => simp [h first List.mem_cons_self c hc]

theorem settles_check (step : AuthoredStep) :
    Settles step.check (fun _ => step.Acceptable) step.Offends := by
  cases step with
  | frame index duration =>
      refine (duration.settles_check.mapError StepDefect.duration).congr (fun _ => Iff.rfl) ?_
      intro defect
      constructor
      · rintro ⟨fault, hfault, rfl⟩
        exact .frame hfault
      · rintro ⟨⟩
        exact ⟨_, ‹_›, rfl⟩
  | group frames duration =>
      have hduration := duration.settles_check.mapError StepDefect.duration
      have hframes := Settles.refuse_if (frames = []) StepDefect.emptyGroup ()
      refine (hduration.bind fun _ _ => hframes).congr ?_ ?_
      · intro _
        simp [Acceptable]
      · intro defect
        constructor
        · rintro (⟨fault, hfault, rfl⟩ | ⟨-, hvalid, rfl, rfl⟩)
          · exact .group hfault
          · exact .emptyGroup hvalid
        · intro h
          cases h with
          | group hfault => exact Or.inl ⟨_, hfault, rfl⟩
          | emptyGroup hvalid => exact Or.inr ⟨(), hvalid, rfl, rfl⟩
  | loop =>
      refine (Settles.pure ()).congr (fun _ => iff_of_true rfl trivial) fun defect => ?_
      exact iff_of_false id (by rintro ⟨⟩)
  | link target =>
      refine (Settles.pure ()).congr (fun _ => iff_of_true rfl trivial) fun defect => ?_
      exact iff_of_false id (by rintro ⟨⟩)
  | unique choices duration =>
      have hduration := duration.settles_check.mapError StepDefect.duration
      have hchoices := Settles.refuse_if ((choices.all fun c => choices.head? = some c) = true)
        (StepDefect.sameChoices choices) ()
      refine (hduration.bind fun _ _ => hchoices).congr ?_ ?_
      · intro _
        simp only [all_head_iff, Classical.not_forall, exists_prop, and_true, exists_const]
        rfl
      · intro defect
        simp only [all_head_iff]
        constructor
        · rintro (⟨fault, hfault, rfl⟩ | ⟨-, hvalid, hsame, rfl⟩)
          · exact .unique hfault
          · exact .sameChoices hvalid hsame
        · intro h
          cases h with
          | unique hfault => exact Or.inl ⟨_, hfault, rfl⟩
          | sameChoices hvalid hsame => exact Or.inr ⟨(), hvalid, hsame, rfl⟩

end AuthoredStep

/-- The first step that offends, counted from `start`, and what is wrong with it. -/
def OffendsFirst (name : String) (start : Nat) (steps : List AuthoredStep) (e : AnimationError) :
    Prop :=
  FirstAt AuthoredStep.Acceptable
    (fun index step => ∃ defect, step.Offends defect ∧ e = .invalidStep name (start + index) defect)
    steps

theorem checkSteps_cons (name : String) (start : Nat) (step : AuthoredStep)
    (rest : List AuthoredStep) :
    checkSteps name start (step :: rest) =
      (step.check.mapError (.invalidStep name start) >>= fun _ =>
        checkSteps name (start + 1) rest) := by
  rw [checkSteps]
  cases step.check with
  | ok u => rfl
  | error defect => rfl

/-- The steps are checked one after the other. -/
theorem settles_checkSteps (name : String) (start : Nat) (steps : List AuthoredStep) :
    Settles (checkSteps name start steps) (fun _ => ∀ step ∈ steps, step.Acceptable)
      (OffendsFirst name start steps) := by
  induction steps generalizing start with
  | nil =>
      refine (Settles.pure ()).congr (fun _ => by simp) fun e => ?_
      exact iff_of_false id not_firstAt_nil
  | cons step rest ih =>
      rw [checkSteps_cons]
      have hstep := step.settles_check.mapError (AnimationError.invalidStep name start)
      refine (hstep.bind fun _ _ => ih (start + 1)).congr ?_ ?_
      · intro _
        simp
      · intro e
        rw [OffendsFirst, OffendsFirst, firstAt_cons]
        simp only [Nat.add_zero, Nat.add_assoc, Nat.add_comm 1]
        simp

/-! ## Flat steps -/

/-- Flat steps show what the authored ones say, in their order: a group shows its frames one by
one, all for its duration, and any other step is its own flat step. -/
inductive Flattens : List AuthoredStep → Sequence → Prop where
  | nil : Flattens [] []
  | frame {index : UInt64} {duration : FrameDuration} {rest : List AuthoredStep} {flat : Sequence}
      (h : Flattens rest flat) :
      Flattens (.frame index duration :: rest) (.frame index duration :: flat)
  | groupFrame {index : UInt64} {frames : List UInt64} {duration : FrameDuration}
      {rest : List AuthoredStep} {flat : Sequence}
      (h : Flattens (.group frames duration :: rest) flat) :
      Flattens (.group (index :: frames) duration :: rest) (.frame index duration :: flat)
  | groupEnd {duration : FrameDuration} {rest : List AuthoredStep} {flat : Sequence}
      (h : Flattens rest flat) : Flattens (.group [] duration :: rest) flat
  | loop {rest : List AuthoredStep} {flat : Sequence} (h : Flattens rest flat) :
      Flattens (.loop :: rest) (.loop :: flat)
  | link {target : String} {rest : List AuthoredStep} {flat : Sequence} (h : Flattens rest flat) :
      Flattens (.link target :: rest) (.link target :: flat)
  | unique {choices : List UInt64} {duration : FrameDuration} {rest : List AuthoredStep}
      {flat : Sequence} (h : Flattens rest flat) :
      Flattens (.unique choices duration :: rest) (.unique choices duration :: flat)

theorem expandSteps_cons (step : AuthoredStep) (rest : List AuthoredStep) :
    expandSteps (step :: rest) = step.expansion ++ expandSteps rest := List.flatMap_cons

theorem expandSteps_append (steps more : List AuthoredStep) :
    expandSteps (steps ++ more) = expandSteps steps ++ expandSteps more := List.flatMap_append

theorem flattens_expandSteps (steps : List AuthoredStep) : Flattens steps (expandSteps steps) := by
  induction steps with
  | nil => exact .nil
  | cons step rest ih =>
      rw [expandSteps_cons]
      cases step with
      | frame index duration => exact .frame ih
      | group frames duration =>
          -- the frames of the group come one by one
          induction frames with
          | nil => exact .groupEnd ih
          | cons index frames ihFrames => exact .groupFrame ihFrames
      | loop => exact .loop ih
      | link target => exact .link ih
      | unique choices duration => exact .unique ih

/-- Authored steps have one flattening. -/
theorem eq_expandSteps_of_flattens {steps : List AuthoredStep} {flat : Sequence}
    (h : Flattens steps flat) : flat = expandSteps steps := by
  induction h with
  | nil => rfl
  | frame h ih => rw [expandSteps_cons, ih]; rfl
  | groupFrame h ih => rw [ih, expandSteps_cons, expandSteps_cons]; rfl
  | groupEnd h ih => rw [expandSteps_cons, ih]; rfl
  | loop h ih => rw [expandSteps_cons, ih]; rfl
  | link h ih => rw [expandSteps_cons, ih]; rfl
  | unique h ih => rw [expandSteps_cons, ih]; rfl

/-! ## Compiling -/

theorem settles_compileAnimation (name : String) (steps : List AuthoredStep) :
    Settles (compileAnimation name steps)
      (fun flat => (steps ≠ [] ∧ ∀ step ∈ steps, step.Acceptable) ∧ flat = expandSteps steps)
      (fun e => (steps = [] ∧ e = .emptyAnimation name) ∨ OffendsFirst name 0 steps e) := by
  have hnonempty := Settles.refuse_if (steps = []) (AnimationError.emptyAnimation name)
    (expandSteps steps)
  refine ((settles_checkSteps name 0 steps).bind fun _ _ => hnonempty).congr ?_ ?_
  · intro flat
    simp [and_left_comm, and_assoc]
  · intro e
    constructor
    · rintro (h | ⟨-, -, h⟩)
      · exact Or.inr h
      · exact Or.inl h
    · rintro (⟨rfl, rfl⟩ | h)
      · exact Or.inr ⟨(), by simp, rfl, rfl⟩
      · exact Or.inl h

/-- What compiling the steps of one animation comes to. -/
structure CompiledExactly (name : String) (steps : List AuthoredStep) : Prop where
  /-- The steps are accepted if there are some and each of them can be played. -/
  accepted_iff : (∃ flat, compileAnimation name steps = .ok flat) ↔
    steps ≠ [] ∧ ∀ step ∈ steps, step.Acceptable
  /-- What comes out is the flattening of the steps, and it is not empty. -/
  flattens : ∀ flat, compileAnimation name steps = .ok flat → Flattens steps flat ∧ flat ≠ []
  /-- The steps have no other flattening. -/
  unique : ∀ flat other, compileAnimation name steps = .ok flat → Flattens steps other →
    other = flat
  /-- Steps that are accepted one list after the other are accepted as one list, and flattened
  each for itself. -/
  append : ∀ (other joined : String) (more : List AuthoredStep) (flat flatMore : Sequence),
    compileAnimation name steps = .ok flat → compileAnimation other more = .ok flatMore →
      compileAnimation joined (steps ++ more) = .ok (flat ++ flatMore)
  /-- Steps are refused if there are none, or for the first that offends, at its authored place. -/
  refused_iff : ∀ e, compileAnimation name steps = .error e ↔
    (steps = [] ∧ e = .emptyAnimation name) ∨
      FirstAt AuthoredStep.Acceptable
        (fun index step => ∃ defect, step.Offends defect ∧ e = .invalidStep name index defect) steps

/-- Compiling an animation accepts the steps that can be played, flattens them in the one way there
is, and refuses all others for the first that offends. -/
theorem compiledExactly (name : String) (steps : List AuthoredStep) :
    CompiledExactly name steps := by
  have hsettled := settles_compileAnimation name steps
  constructor
  · simp [hsettled.ok_iff]
  · intro flat h
    obtain ⟨-, rfl⟩ := (hsettled.ok_iff flat).1 h
    exact ⟨flattens_expandSteps steps, (playableSteps_of_compileAnimation h).nonempty⟩
  · intro flat other h hother
    obtain ⟨-, rfl⟩ := (hsettled.ok_iff flat).1 h
    exact eq_expandSteps_of_flattens hother
  · intro other joined more flat flatMore h hmore
    obtain ⟨⟨hnonempty, hsteps⟩, rfl⟩ := (hsettled.ok_iff flat).1 h
    obtain ⟨⟨-, hmoreSteps⟩, rfl⟩ := ((settles_compileAnimation other more).ok_iff flatMore).1 hmore
    rw [(settles_compileAnimation joined (steps ++ more)).ok_iff, expandSteps_append]
    refine ⟨⟨List.append_ne_nil_of_left_ne_nil hnonempty more, ?_⟩, rfl⟩
    intro step hstep
    rcases List.mem_append.1 hstep with hmem | hmem
    · exact hsteps step hmem
    · exact hmoreSteps step hmem
  · intro e
    rw [hsettled.error_iff, OffendsFirst]
    simp only [Nat.zero_add]

/-- A group is one authored step, however many frames it shows. -/
example : compileAnimation "blink" [.group [0, 1, 2] .single, .loop, .group [] .single] =
    .error (.invalidStep "blink" 2 .emptyGroup) := by rfl

end SpriteStage
