import SpriteStage.Proofs.Animation.Flattening
import SpriteStage.Proofs.ByteOrder

/-!
# Compiling a set

A set of animations is compiled whole or not at all. What each animation has to satisfy in the set
(`MemberFits`), and why one is refused (`MemberFault`), is said of the authored steps. A set is
accepted if all its animations fit; otherwise the least name that does not fit, by its bytes,
decides, in whatever order the animations come (`setCompiledExactly`).
-/

set_option autoImplicit false

namespace SpriteStage

/-! ## Links -/

/-- A link leads to one of the names; any other step leads nowhere. -/
def AuthoredStep.Linked (names : List String) (step : AuthoredStep) : Prop :=
  ∀ target, step = .link target → target ∈ names

/-- The first step, counted from `start`, that is a link to none of the names. -/
def LostFirst (names : List String) (name : String) (start : Nat) (steps : List AuthoredStep)
    (e : AnimationError) : Prop :=
  FirstAt (AuthoredStep.Linked names)
    (fun index step => ∃ target, step = .link target ∧ target ∉ names ∧
      e = .unknownLinkTarget name (start + index) target) steps

section Links

variable {authored : Table (List AuthoredStep)} {name : String} {start : Nat}

theorem checkLinks_of_linked {step : AuthoredStep} {rest : List AuthoredStep}
    (h : step.Linked authored.names) :
    checkLinks name authored.contains start (step :: rest) =
      checkLinks name authored.contains (start + 1) rest := by
  cases step with
  | link target => exact if_pos (Table.contains_iff.2 (h target rfl))
  | frame index duration => rfl
  | group frames duration => rfl
  | loop => rfl
  | unique choices duration => rfl

theorem checkLinks_of_not_mem {target : String} {rest : List AuthoredStep}
    (h : target ∉ authored.names) :
    checkLinks name authored.contains start (.link target :: rest) =
      .error (.unknownLinkTarget name start target) :=
  if_neg fun hcontains => h (Table.contains_iff.1 hcontains)

theorem settles_checkLinks (authored : Table (List AuthoredStep)) (name : String) (start : Nat)
    (steps : List AuthoredStep) :
    Settles (checkLinks name authored.contains start steps)
      (fun _ => ∀ step ∈ steps, step.Linked authored.names)
      (LostFirst authored.names name start steps) := by
  induction steps generalizing start with
  | nil =>
      refine (Settles.pure ()).congr (fun _ => by simp) fun e => ?_
      exact iff_of_false id not_firstAt_nil
  | cons step rest ih =>
      by_cases hlinked : step.Linked authored.names
      · rw [checkLinks_of_linked hlinked]
        refine (ih (start + 1)).congr ?_ ?_
        · intro _
          simp [hlinked]
        · intro e
          have hgood : ¬ ∃ target, step = .link target ∧ target ∉ authored.names ∧
              e = .unknownLinkTarget name (start + 0) target := by
            rintro ⟨target, hstep, habsent, -⟩
            exact habsent (hlinked target hstep)
          rw [LostFirst, LostFirst, firstAt_cons, or_iff_right hgood, and_iff_right hlinked]
          simp only [Nat.add_assoc, Nat.add_comm 1]
      · obtain ⟨target, rfl, habsent⟩ :
            ∃ target, step = .link target ∧ target ∉ authored.names := by
          simpa [AuthoredStep.Linked] using hlinked
        rw [checkLinks_of_not_mem habsent]
        constructor
        · intro _
          simp [hlinked]
        · intro e
          rw [LostFirst, firstAt_cons]
          simp [hlinked, habsent, eq_comm]

end Links

/-! ## Frames -/

/-- The frames that an authored step can show. -/
def AuthoredStep.frames : AuthoredStep → List UInt64
  | frame index _ => [index]
  | group frames _ => frames
  | loop => []
  | link _ => []
  | unique choices _ => choices

theorem AuthoredStep.flatMap_frames_expansion (step : AuthoredStep) :
    step.expansion.flatMap AnimationStep.frames = step.frames := by
  cases step with
  | frame index duration => rfl
  | group frames duration =>
      simp [expansion, AuthoredStep.frames, AnimationStep.frames, List.flatMap_map]
  | loop => rfl
  | link target => rfl
  | unique choices duration => simp [expansion, AuthoredStep.frames, AnimationStep.frames]

/-- Expanding steps keeps their frames and the order of these. -/
theorem flatMap_frames_expandSteps (steps : List AuthoredStep) :
    (expandSteps steps).flatMap AnimationStep.frames = steps.flatMap AuthoredStep.frames := by
  rw [expandSteps, List.flatMap_assoc]
  simp only [AuthoredStep.flatMap_frames_expansion]

/-- The first step that shows a frame which does not exist, and the first such frame of it. -/
def BeyondFirst (count : Nat) (name : String) (steps : List AuthoredStep) (e : AnimationError) :
    Prop :=
  FirstAt (fun step => ∀ frame ∈ step.frames, frame.toNat < count)
    (fun _ step => FirstAt (fun frame => frame.toNat < count)
      (fun _ frame => count ≤ frame.toNat ∧ e = .frameOutOfRange name frame count) step.frames)
    steps

theorem checkFrames_eq (name : String) (count : Nat) (flat : Sequence) :
    checkFrames name count flat =
      ((flat.flatMap AnimationStep.frames).find? fun frame => decide (count ≤ frame.toNat)).elim
        (.ok ()) fun frame => .error (.frameOutOfRange name frame count) := by
  rw [checkFrames]
  split
  · next h => rw [h, Option.elim_some]
  · next h => rw [h, Option.elim_none]

theorem settles_checkFrames (name : String) (count : Nat) (steps : List AuthoredStep) :
    Settles (checkFrames name count (expandSteps steps))
      (fun _ => ∀ step ∈ steps, ∀ frame ∈ step.frames, frame.toNat < count)
      (BeyondFirst count name steps) := by
  rw [checkFrames_eq, flatMap_frames_expandSteps]
  refine (Settles.refuse_first (fun frame : UInt64 => decide (count ≤ frame.toNat))
    (fun frame => AnimationError.frameOutOfRange name frame count) _).congr ?_ ?_
  · intro _
    simp only [decide_eq_false_iff_not, Nat.not_le, List.forall_mem_flatMap]
  · intro e
    rw [BeyondFirst, ← firstAt_flatMap]
    simp

/-! ## Members of a set -/

/-- What an animation has to satisfy in a set with the names and the number of frames. -/
structure MemberFits (names : List String) (frameCount : Option Nat) (name : String)
    (steps : List AuthoredStep) : Prop where
  /-- Its steps can be compiled. -/
  compiles : ∃ flat, compileAnimation name steps = .ok flat
  /-- Its links lead to animations of the set. -/
  linked : ∀ step ∈ steps, step.Linked names
  /-- Its frames exist, where their number is known. -/
  framed : ∀ count, frameCount = some count → ∀ step ∈ steps, ∀ frame ∈ step.frames,
    frame.toNat < count

/-- Why an animation of a set is refused: for its steps; if these can be compiled, for its links;
and if these all lead somewhere, for its frames. Each time it is the first step that decides. -/
inductive MemberFault (names : List String) (frameCount : Option Nat) (name : String)
    (steps : List AuthoredStep) : AnimationError → Prop where
  | compile {e : AnimationError} (h : compileAnimation name steps = .error e)
      (hfirst : steps = [] ∧ e = .emptyAnimation name ∨ OffendsFirst name 0 steps e) :
      MemberFault names frameCount name steps e
  | link {e : AnimationError} (hcompiles : ∃ flat, compileAnimation name steps = .ok flat)
      (hfirst : LostFirst names name 0 steps e) : MemberFault names frameCount name steps e
  | frame {e : AnimationError} {count : Nat}
      (hcompiles : ∃ flat, compileAnimation name steps = .ok flat)
      (hlinked : ∀ step ∈ steps, step.Linked names)
      (hcount : frameCount = some count) (hfirst : BeyondFirst count name steps e) :
      MemberFault names frameCount name steps e

variable {authored : Table (List AuthoredStep)} {frameCount : Option Nat} {name : String}
  {steps : List AuthoredStep}

/-- Frames are checked where their number is known. -/
theorem settles_checkRange (name : String) (frameCount : Option Nat) (steps : List AuthoredStep) :
    Settles (frameCount.elim (.ok ()) fun count => checkFrames name count (expandSteps steps))
      (fun _ => ∀ count, frameCount = some count →
        ∀ step ∈ steps, ∀ frame ∈ step.frames, frame.toNat < count)
      (fun e => ∃ count, frameCount = some count ∧ BeyondFirst count name steps e) := by
  cases frameCount with
  | none => exact (Settles.pure ()).congr (by simp) (by simp)
  | some count => exact (settles_checkFrames name count steps).congr (by simp) (by simp)

/-- A member is compiled; then its links are checked, and then its frames. -/
theorem compileMember_eq (isDefined : String → Bool) (frameCount : Option Nat) (name : String)
    (steps : List AuthoredStep) :
    compileMember isDefined frameCount name steps =
      (compileAnimation name steps >>= fun flat =>
        checkLinks name isDefined 0 steps >>= fun _ =>
          (frameCount.elim (.ok ()) fun count => checkFrames name count flat) >>= fun _ =>
            .ok flat) := by
  cases frameCount with
  | none => rfl
  | some count => rfl

/-- The checks of a member whose steps have been compiled. -/
theorem settles_compileMember_of_ok {flat : Sequence}
    (h : compileAnimation name steps = .ok flat) :
    Settles
      (checkLinks name authored.contains 0 steps >>= fun _ =>
        (frameCount.elim (.ok ()) fun count => checkFrames name count flat) >>= fun _ => .ok flat)
      (fun out => MemberFits authored.names frameCount name steps ∧ out = flat)
      (MemberFault authored.names frameCount name steps) := by
  obtain ⟨-, rfl⟩ := ((settles_compileAnimation name steps).ok_iff flat).1 h
  have hlinks := settles_checkLinks authored name 0 steps
  have hframes := settles_checkRange name frameCount steps
  refine (hlinks.bind fun _ _ => hframes.bind fun _ _ => Settles.pure (expandSteps steps)).congr
    ?_ ?_
  · intro out
    constructor
    · rintro ⟨-, hlinked, -, hframed, rfl⟩
      exact ⟨⟨⟨_, h⟩, hlinked, hframed⟩, rfl⟩
    · rintro ⟨hfits, rfl⟩
      exact ⟨(), hfits.linked, (), hfits.framed, rfl⟩
  · intro e
    constructor
    · rintro (hlost | ⟨-, hlinked, ⟨count, hcount, hbeyond⟩ | ⟨-, -, hnever⟩⟩)
      · exact .link ⟨_, h⟩ hlost
      · exact .frame ⟨_, h⟩ hlinked hcount hbeyond
      · exact hnever.elim
    · intro hfault
      cases hfault with
      | compile hrefused => cases h.symm.trans hrefused
      | link hcompiles hlost => exact Or.inl hlost
      | frame hcompiles hlinked hcount hbeyond =>
          exact Or.inr ⟨(), hlinked, Or.inl ⟨_, hcount, hbeyond⟩⟩

theorem settles_compileMember (authored : Table (List AuthoredStep)) (frameCount : Option Nat)
    (name : String) (steps : List AuthoredStep) :
    Settles (compileMember authored.contains frameCount name steps)
      (fun flat => MemberFits authored.names frameCount name steps ∧
        compileAnimation name steps = .ok flat)
      (MemberFault authored.names frameCount name steps) := by
  have hsteps := settles_compileAnimation name steps
  rw [compileMember_eq]
  refine (hsteps.bind fun flat hflat =>
    settles_compileMember_of_ok ((hsteps.ok_iff flat).2 hflat)).congr ?_ ?_
  · intro flat
    rw [hsteps.ok_iff]
    constructor
    · rintro ⟨out, hgood, hfits, rfl⟩
      exact ⟨hfits, hgood⟩
    · rintro ⟨hfits, hgood⟩
      exact ⟨flat, hgood, hfits, rfl⟩
  · intro e
    constructor
    · rintro (hbad | ⟨flat, -, hfault⟩)
      · exact .compile ((hsteps.error_iff e).2 hbad) hbad
      · exact hfault
    · intro hfault
      cases hfault with
      | compile h hbad => exact Or.inl hbad
      | link hcompiles hlost =>
          obtain ⟨flat, hflat⟩ := hcompiles
          exact Or.inr ⟨flat, (hsteps.ok_iff flat).1 hflat, .link ⟨flat, hflat⟩ hlost⟩
      | frame hcompiles hlinked hcount hbeyond =>
          obtain ⟨flat, hflat⟩ := hcompiles
          exact Or.inr ⟨flat, (hsteps.ok_iff flat).1 hflat,
            .frame ⟨flat, hflat⟩ hlinked hcount hbeyond⟩

/-- A member is compiled exactly if it fits. -/
theorem exists_compileMember_iff (authored : Table (List AuthoredStep)) (frameCount : Option Nat)
    (name : String) (steps : List AuthoredStep) :
    (∃ flat, compileMember authored.contains frameCount name steps = .ok flat) ↔
      MemberFits authored.names frameCount name steps := by
  simp only [(settles_compileMember authored frameCount name steps).ok_iff]
  constructor
  · rintro ⟨flat, hfits, -⟩
    exact hfits
  · intro hfits
    obtain ⟨flat, hflat⟩ := hfits.compiles
    exact ⟨flat, hfits, hflat⟩

/-- What is at fault does not fit. -/
theorem MemberFault.not_fits {e : AnimationError}
    (h : MemberFault authored.names frameCount name steps e) :
    ¬ MemberFits authored.names frameCount name steps := by
  rw [← exists_compileMember_iff]
  rintro ⟨flat, hflat⟩
  have herror := ((settles_compileMember authored frameCount name steps).error_iff e).2 h
  cases hflat.symm.trans herror

/-! ## The set -/

theorem compileSet_eq_ok_iff (authored : Table (List AuthoredStep)) (frameCount : Option Nat)
    (animations : AnimationSet) :
    compileSet authored frameCount = .ok animations ↔
      animations.names = authored.sortByName.names ∧
        ∀ name steps, authored.get? name = some steps →
          MemberFits authored.names frameCount name steps ∧
            ∃ flat, compileAnimation name steps = .ok flat ∧ animations.get? name = some flat := by
  rw [compileSet, Table.mapM_eq_ok_iff]
  simp only [Table.get?_sortByName, (settles_compileMember authored frameCount _ _).ok_iff,
    and_assoc, exists_and_left]

/-- The least name that does not fit decides, as names are checked in the order of their bytes. -/
theorem compileSet_eq_error_iff (authored : Table (List AuthoredStep)) (frameCount : Option Nat)
    (e : AnimationError) :
    compileSet authored frameCount = .error e ↔
      ∃ name steps, authored.get? name = some steps ∧
        MemberFault authored.names frameCount name steps e ∧
        ∀ other otherSteps, authored.get? other = some otherSteps → utf8 other < utf8 name →
          MemberFits authored.names frameCount other otherSteps := by
  have hasymm : ∀ a b : String × List AuthoredStep, a.1 < b.1 → ¬ b.1 < a.1 :=
    fun a b => String.lt_asymm
  rw [compileSet, Table.mapM_eq_error_iff,
    firstAt_iff_of_pairwise hasymm authored.pairwise_entries_sortByName]
  simp only [Prod.exists, Prod.forall, Table.mem_entries_iff, Table.get?_sortByName,
    (settles_compileMember authored frameCount _ _).error_iff, exists_compileMember_iff,
    utf8_lt_iff]

/-- What compiling a set of animations comes to. -/
structure SetCompiledExactly (authored : Table (List AuthoredStep)) (frameCount : Option Nat) :
    Prop where
  /-- The set is accepted if each of its animations fits. -/
  accepted_iff : (∃ animations, compileSet authored frameCount = .ok animations) ↔
    ∀ name steps, authored.get? name = some steps →
      MemberFits authored.names frameCount name steps
  /-- It then has the same names, each bound to its animation, compiled. -/
  bound : ∀ animations, compileSet authored frameCount = .ok animations →
    (∀ name, name ∈ animations.names ↔ name ∈ authored.names) ∧
      ∀ name steps, authored.get? name = some steps →
        ∃ flat, compileAnimation name steps = .ok flat ∧ animations.get? name = some flat
  /-- It is refused for the least of its names, by their bytes, that is at fault. -/
  refused_iff : ∀ e, compileSet authored frameCount = .error e ↔
    ∃ name steps, authored.get? name = some steps ∧
      MemberFault authored.names frameCount name steps e ∧
      ∀ other otherSteps, authored.get? other = some otherSteps → utf8 other < utf8 name →
        MemberFits authored.names frameCount other otherSteps
  /-- The order in which the animations come makes no difference. -/
  unordered : ∀ reordered : Table (List AuthoredStep), reordered.entries.Perm authored.entries →
    compileSet reordered frameCount = compileSet authored frameCount

/-- A set is compiled whole, or refused for the least name at fault, in whatever order it comes. -/
theorem setCompiledExactly (authored : Table (List AuthoredStep)) (frameCount : Option Nat) :
    SetCompiledExactly authored frameCount := by
  have hok := compileSet_eq_ok_iff authored frameCount
  have herror := compileSet_eq_error_iff authored frameCount
  constructor
  · constructor
    · rintro ⟨animations, h⟩ name steps hsteps
      exact (((hok animations).1 h).2 name steps hsteps).1
    · intro hfits
      cases h : compileSet authored frameCount with
      | ok animations => exact ⟨animations, rfl⟩
      | error e =>
          obtain ⟨name, steps, hsteps, hfault, -⟩ := (herror e).1 h
          exact absurd (hfits name steps hsteps) hfault.not_fits
  · intro animations h
    obtain ⟨hnames, hbound⟩ := (hok animations).1 h
    refine ⟨?_, fun name steps hsteps => (hbound name steps hsteps).2⟩
    intro name
    rw [hnames, Table.mem_names_iff, Table.get?_sortByName, ← Table.mem_names_iff]
  · exact herror
  · intro reordered hperm
    rw [compileSet, compileSet, Table.sortByName_eq_of_perm hperm, Table.contains_eq_of_perm hperm]

end SpriteStage
