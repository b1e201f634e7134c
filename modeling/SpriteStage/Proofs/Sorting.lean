/-!
# Stable sorting

A list is the stable sort of another if it has the same members in order, and has kept every part of
the other that was in order already; so members of one rank stay as they are (`filter_eq`). Merge
sort by a rank gives that list.
-/

set_option autoImplicit false

namespace SpriteStage

variable {α : Type}

/-- The list `after` is `before`, sorted by `le`, where what is in order already stays as it is. -/
structure StablySorted (le : α → α → Prop) (before after : List α) : Prop where
  /-- Nothing is lost, and nothing is added. -/
  perm : after.Perm before
  /-- What comes first is not greater. -/
  ordered : after.Pairwise le
  /-- Members that were in order are not moved past each other. -/
  stable : ∀ kept : List α, kept.Sublist before → kept.Pairwise le → kept.Sublist after

namespace StablySorted

variable {le other : α → α → Prop} {before after : List α}

/-- Only how an order compares the members matters. -/
theorem congr (h : StablySorted le before after)
    (hsame : ∀ a ∈ before, ∀ b ∈ before, (le a b ↔ other a b)) :
    StablySorted other before after := by
  refine ⟨h.perm, ?_, ?_⟩
  · refine h.ordered.imp_of_mem ?_
    intro a b ha hb hab
    exact (hsame a (h.perm.mem_iff.1 ha) b (h.perm.mem_iff.1 hb)).1 hab
  · intro kept hsub hordered
    refine h.stable kept hsub (hordered.imp_of_mem ?_)
    intro a b ha hb hab
    exact (hsame a (hsub.subset ha) b (hsub.subset hb)).2 hab

/-- Members that are all in order with each other stay as they are. -/
theorem filter_eq (h : StablySorted le before after) {p : α → Bool}
    (hsame : ∀ a ∈ before, ∀ b ∈ before, p a = true → p b = true → le a b) :
    after.filter p = before.filter p := by
  have hordered : (before.filter p).Pairwise le := by
    refine List.pairwise_of_forall_mem_list ?_
    intro a ha b hb
    obtain ⟨hamem, hap⟩ := List.mem_filter.1 ha
    obtain ⟨hbmem, hbp⟩ := List.mem_filter.1 hb
    exact hsame a hamem b hbmem hap hbp
  have hsub : (before.filter p).Sublist (after.filter p) := by
    have hkept := (h.stable _ List.filter_sublist hordered).filter p
    simpa only [List.filter_filter, Bool.and_self] using hkept
  exact (hsub.eq_of_length (h.perm.filter p).length_eq.symm).symm

end StablySorted

/-- If whatever satisfies `p` comes first, the list is that part of it followed by the rest. -/
theorem filter_append_filter_not {p : α → Bool} {l : List α}
    (h : l.Pairwise fun a b => p b = true → p a = true) :
    l.filter p ++ l.filter (fun a => !p a) = l := by
  induction l with
  | nil => rfl
  | cons a l ih =>
      obtain ⟨hall, hrest⟩ := List.pairwise_cons.1 h
      cases hp : p a with
      | true => simp [hp, ih hrest]
      | false =>
          -- nothing after the first satisfies `p`
          have hnone : ∀ b ∈ l, p b = false := by
            intro b hb
            rw [← Bool.not_eq_true]
            intro hpb
            rw [hall b hb hpb] at hp
            cases hp
          have hfirst : l.filter p = [] := List.filter_eq_nil_iff.2 (by simpa using hnone)
          have hlast : (l.filter fun b => !p b) = l := List.filter_eq_self.2 (by simpa using hnone)
          simp [hp, hfirst, hlast]

/-- Merge sort by a rank is stable. -/
theorem stablySorted_mergeSort (rank : α → Int) (l : List α) :
    StablySorted (fun a b => rank a ≤ rank b) l
      (l.mergeSort fun a b => decide (rank a ≤ rank b)) := by
  have htrans : ∀ a b c : α, decide (rank a ≤ rank b) = true → decide (rank b ≤ rank c) = true →
      decide (rank a ≤ rank c) = true := by
    intro a b c hab hbc
    rw [decide_eq_true_iff] at hab hbc ⊢
    exact Int.le_trans hab hbc
  have htotal : ∀ a b : α, (decide (rank a ≤ rank b) || decide (rank b ≤ rank a)) = true := by
    intro a b
    rw [Bool.or_eq_true, decide_eq_true_iff, decide_eq_true_iff]
    exact Int.le_total _ _
  refine ⟨List.mergeSort_perm l _, ?_, ?_⟩
  · refine (List.pairwise_mergeSort htrans htotal l).imp ?_
    exact of_decide_eq_true
  · intro kept hsub hordered
    refine List.sublist_mergeSort htrans htotal (hordered.imp ?_) hsub
    exact decide_eq_true

end SpriteStage
