/-!
# Exact checks

A check answers or fails. It is known exactly if there is one predicate for its answers and one for
its failures (`Settles`); checks that come one after the other are then known from their parts
(`Settles.bind`). A check that goes through a list fails for the first member that is at fault
(`FirstAt`), and in a list that is in order the first one is the least one
(`firstAt_iff_of_pairwise`).
-/

set_option autoImplicit false

namespace SpriteStage

/-! ## Answers and failures -/

/-- The check answers exactly what is good, and fails exactly with what is bad. -/
structure Settles {ε α : Type} (check : Except ε α) (good : α → Prop) (bad : ε → Prop) : Prop where
  /-- Its answers. -/
  ok_iff : ∀ a, check = .ok a ↔ good a
  /-- Its failures. -/
  error_iff : ∀ e, check = .error e ↔ bad e

namespace Settles

variable {ε δ α β : Type} {check : Except ε α} {good other : α → Prop} {bad worse : ε → Prop}

/-- Only what the predicates say matters. -/
theorem congr (h : Settles check good bad) (hgood : ∀ a, good a ↔ other a)
    (hbad : ∀ e, bad e ↔ worse e) : Settles check other worse :=
  ⟨fun a => (h.ok_iff a).trans (hgood a), fun e => (h.error_iff e).trans (hbad e)⟩

/-- A check that answers has no other answer, and no failure. -/
theorem of_ok {a : α} (h : Settles (.ok a : Except ε α) good bad) :
    (∀ b, good b ↔ b = a) ∧ ∀ e, ¬ bad e := by
  constructor
  · intro b
    rw [← h.ok_iff b, Except.ok.injEq, eq_comm]
  · intro e he
    cases (h.error_iff e).2 he

/-- A check that fails has no other failure, and no answer. -/
theorem of_error {e : ε} (h : Settles (.error e : Except ε α) good bad) :
    (∀ d, bad d ↔ d = e) ∧ ∀ a, ¬ good a := by
  constructor
  · intro d
    rw [← h.error_iff d, Except.error.injEq, eq_comm]
  · intro a ha
    cases (h.ok_iff a).2 ha

theorem pure (a : α) : Settles (.ok a : Except ε α) (fun b => b = a) (fun _ => False) := by
  constructor
  · intro b
    rw [Except.ok.injEq, eq_comm]
  · intro e
    simp

theorem fail (e : ε) : Settles (.error e : Except ε α) (fun _ => False) (fun d => d = e) := by
  constructor
  · intro a
    simp
  · intro d
    rw [Except.error.injEq, eq_comm]

/-- A condition that is refused before another check. -/
theorem refuse_or (p : Prop) [Decidable p] (e : ε) (h : Settles check good bad) :
    Settles (if p then .error e else check) (fun b => ¬ p ∧ good b)
      (fun d => p ∧ d = e ∨ ¬ p ∧ bad d) := by
  by_cases hp : p
  · rw [if_pos hp]
    exact (Settles.fail e).congr (by simp [hp]) (by simp [hp])
  · rw [if_neg hp]
    exact h.congr (by simp [hp]) (by simp [hp])

/-- A condition that is refused, and an answer otherwise. -/
theorem refuse_if (p : Prop) [Decidable p] (e : ε) (a : α) :
    Settles (if p then .error e else .ok a) (fun b => ¬ p ∧ b = a) (fun d => p ∧ d = e) :=
  (refuse_or p e (Settles.pure a)).congr (fun _ => Iff.rfl) (by simp)

/-- Failures are given another name. -/
theorem mapError (h : Settles check good bad) (f : ε → δ) :
    Settles (check.mapError f) good (fun d => ∃ e, bad e ∧ d = f e) := by
  cases check with
  | ok a =>
      obtain ⟨hgood, hbad⟩ := h.of_ok
      refine (Settles.pure a).congr (fun b => (hgood b).symm) fun d => ?_
      exact iff_of_false id fun ⟨e, he, _⟩ => hbad e he
  | error e =>
      obtain ⟨hbad, hgood⟩ := h.of_error
      refine (Settles.fail (f e)).congr (fun b => iff_of_false id (hgood b)) fun d => ?_
      simp [hbad]

/-- A second check comes after a first that has answered. -/
theorem bind (h : Settles check good bad) {next : α → Except ε β} {goodNext : α → β → Prop}
    {badNext : α → ε → Prop} (hnext : ∀ a, good a → Settles (next a) (goodNext a) (badNext a)) :
    Settles (check >>= next) (fun b => ∃ a, good a ∧ goodNext a b)
      (fun e => bad e ∨ ∃ a, good a ∧ badNext a e) := by
  cases check with
  | ok a =>
      obtain ⟨hgood, hbad⟩ := h.of_ok
      have hlater : Settles (next a) (goodNext a) (badNext a) := hnext a ((hgood a).2 rfl)
      exact hlater.congr (by simp [hgood]) (by simp [hgood, hbad])
  | error d =>
      obtain ⟨hbad, hgood⟩ := h.of_error
      exact (Settles.fail d).congr (by simp [hgood]) (by simp [hgood, hbad])

end Settles

/-! ## The first member at fault -/

section Lists

variable {α β : Type}

/-- A member is bad, at its place in the list, and all that come before it are good. -/
def FirstAt (good : α → Prop) (bad : Nat → α → Prop) (l : List α) : Prop :=
  ∃ before x after, l = before ++ x :: after ∧ (∀ y ∈ before, good y) ∧ bad before.length x

variable {good : α → Prop} {bad : Nat → α → Prop} {x : α} {l : List α}

theorem not_firstAt_nil : ¬ FirstAt good bad [] := by
  rintro ⟨before, x, after, h, -⟩
  exact absurd h.symm (List.append_ne_nil_of_right_ne_nil before (List.cons_ne_nil x after))

theorem firstAt_cons :
    FirstAt good bad (x :: l) ↔ bad 0 x ∨ good x ∧ FirstAt good (fun i => bad (i + 1)) l := by
  constructor
  · rintro ⟨before, y, after, h, hbefore, hbad⟩
    cases before with
    | nil =>
        cases h
        exact Or.inl hbad
    | cons first before =>
        cases h
        obtain ⟨hfirst, hrest⟩ := List.forall_mem_cons.1 hbefore
        exact Or.inr ⟨hfirst, before, y, after, rfl, hrest, hbad⟩
  · rintro (hbad | ⟨hgood, before, y, after, rfl, hbefore, hbad⟩)
    · exact ⟨[], x, l, rfl, by simp, hbad⟩
    · exact ⟨x :: before, y, after, rfl, List.forall_mem_cons.2 ⟨hgood, hbefore⟩, hbad⟩

/-- A list in order has as its first bad member the least bad one. -/
theorem firstAt_iff_of_pairwise {before : α → α → Prop} {isBad : α → Prop}
    (hasymm : ∀ a b, before a b → ¬ before b a) (h : l.Pairwise before) :
    FirstAt good (fun _ => isBad) l ↔
      ∃ a ∈ l, isBad a ∧ ∀ b ∈ l, before b a → good b := by
  constructor
  · rintro ⟨earlier, a, later, rfl, hearlier, hbad⟩
    refine ⟨a, by simp, hbad, ?_⟩
    intro b hb hba
    obtain ⟨-, hlater, -⟩ := List.pairwise_append.1 h
    rcases List.mem_append.1 hb with hmem | hmem
    · exact hearlier b hmem
    · -- neither the member itself nor a later one comes before it
      rcases List.mem_cons.1 hmem with rfl | hmem
      · exact absurd hba (hasymm _ _ hba)
      · exact absurd hba (hasymm _ _ ((List.pairwise_cons.1 hlater).1 b hmem))
  · rintro ⟨a, ha, hbad, hleast⟩
    obtain ⟨earlier, later, rfl⟩ := List.append_of_mem ha
    refine ⟨earlier, a, later, rfl, ?_, hbad⟩
    intro b hb
    obtain ⟨-, -, hcross⟩ := List.pairwise_append.1 h
    exact hleast b (List.mem_append_left _ hb) (hcross b hb a List.mem_cons_self)

/-- What comes first in one part of a list, or in the other part after a good one. -/
theorem firstAt_append {isBad : α → Prop} {m : List α} :
    FirstAt good (fun _ => isBad) (l ++ m) ↔
      FirstAt good (fun _ => isBad) l ∨ (∀ y ∈ l, good y) ∧ FirstAt good (fun _ => isBad) m := by
  induction l with
  | nil => simp [not_firstAt_nil]
  | cons a l ih =>
      rw [List.cons_append, firstAt_cons, ih, firstAt_cons, List.forall_mem_cons, and_or_left,
        or_assoc, and_assoc]

/-- The first bad one among the parts of members is in the first member that has one. -/
theorem firstAt_flatMap {isBad : β → Prop} {goodPart : β → Prop} {parts : α → List β} :
    FirstAt goodPart (fun _ => isBad) (l.flatMap parts) ↔
      FirstAt (fun a => ∀ b ∈ parts a, goodPart b)
        (fun _ a => FirstAt goodPart (fun _ => isBad) (parts a)) l := by
  induction l with
  | nil => simp [not_firstAt_nil]
  | cons a l ih => rw [List.flatMap_cons, firstAt_append, ih, firstAt_cons]

/-- A member that must not be there is looked for, and the first one is refused. -/
theorem Settles.refuse_first {ε : Type} (p : α → Bool) (f : α → ε) (l : List α) :
    Settles ((l.find? p).elim (.ok ()) fun a => .error (f a))
      (fun _ => ∀ a ∈ l, p a = false)
      (fun e => FirstAt (fun a => p a = false) (fun _ a => p a = true ∧ e = f a) l) := by
  induction l with
  | nil => exact (Settles.pure ()).congr (fun _ => by simp) fun _ => by simp [not_firstAt_nil]
  | cons a l ih =>
      simp only [firstAt_cons, List.forall_mem_cons]
      cases hp : p a with
      | true =>
          rw [List.find?_cons_of_pos hp, Option.elim_some]
          exact (Settles.fail (f a)).congr (by simp) (by simp)
      | false =>
          rw [List.find?_cons_of_neg (by simp [hp])]
          exact ih.congr (by simp) (by simp)

end Lists

end SpriteStage
