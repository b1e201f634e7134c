import SpriteStage.Random

/-!
# What is drawn

A draw lies where it was asked to lie, provided that there is room: a number between bounds that are
in order, and an index below a length that is not zero. Where one source comes from another by
draws, its record tells which draws those were (`drawn_after`).
-/

set_option autoImplicit false

namespace SpriteStage

/-- The source after a draw. -/
def Draw.rest (r : Random) : Draw → Random
  | range least greatest => (r.range least greatest).2
  | index length => (r.index length).2

namespace Random

variable {least greatest : UInt32}

/-- The number of values between two bounds that are in order. -/
theorem toNat_add_span (h : least ≤ greatest) :
    least.toNat + ((greatest - least).toNat + 1) = greatest.toNat + 1 := by
  have hle : least.toNat ≤ greatest.toNat := UInt32.le_iff_toNat_le.1 h
  have hdifference := UInt32.toNat_sub_of_le _ _ h
  omega

/-- What is drawn between two bounds is the sum of the least value and a remainder; the sum is a
word. -/
theorem toNat_range (r : Random) (h : least ≤ greatest) :
    (r.range least greatest).1.toNat =
      least.toNat + r.next.1.toNat % ((greatest - least).toNat + 1) := by
  have hspan := toNat_add_span h
  have hgreatest := greatest.toNat_lt
  have hrest : r.next.1.toNat % ((greatest - least).toNat + 1) < (greatest - least).toNat + 1 :=
    Nat.mod_lt _ (Nat.succ_pos _)
  show (least + UInt32.ofNat (r.next.1.toNat % ((greatest - least).toNat + 1))).toNat = _
  rw [UInt32.toNat_add, UInt32.toNat_ofNat_of_lt' (by show _ < 2 ^ 32; omega),
    Nat.mod_eq_of_lt (by omega)]

/-- A number that is drawn lies between the bounds. -/
theorem range_bounds (r : Random) (h : least ≤ greatest) :
    least.toNat ≤ (r.range least greatest).1.toNat ∧
      (r.range least greatest).1.toNat ≤ greatest.toNat := by
  have hspan := toNat_add_span h
  have hrest : r.next.1.toNat % ((greatest - least).toNat + 1) < (greatest - least).toNat + 1 :=
    Nat.mod_lt _ (Nat.succ_pos _)
  rw [r.toNat_range h]
  omega

/-- An index that is drawn lies below the length. -/
theorem index_lt (r : Random) {length : Nat} (h : 0 < length) : (r.index length).1 < length :=
  Nat.mod_lt _ h

/-! ## Draws one after the other -/

/-- The source after draws. -/
def after (r : Random) (draws : List Draw) : Random := draws.foldl Draw.rest r

@[simp] theorem after_nil (r : Random) : r.after [] = r := rfl

@[simp] theorem after_cons (r : Random) (d : Draw) (later : List Draw) :
    r.after (d :: later) = (d.rest r).after later := rfl

theorem after_append (r : Random) (first second : List Draw) :
    r.after (first ++ second) = (r.after first).after second :=
  List.foldl_append

theorem drawn_rest (r : Random) (d : Draw) : (d.rest r).drawn = d :: r.drawn := by
  cases d with
  | range least greatest => rfl
  | index length => rfl

/-- A source records all draws, in the order in which they are made. -/
theorem drawn_after (r : Random) (draws : List Draw) :
    (r.after draws).drawn = draws.reverse ++ r.drawn := by
  induction draws generalizing r with
  | nil => rfl
  | cons d later ih =>
      -- the first draw is entered first, and so it ends up behind the later ones
      rw [after_cons, ih, drawn_rest, List.reverse_cons, List.append_assoc, List.singleton_append]

/-- Permitted draws, and no others, lead from a source to another one. -/
def LeadsTo (r s : Random) : Prop :=
  ∃ draws : List Draw, (∀ d ∈ draws, d.Permitted) ∧ s = r.after draws

theorem LeadsTo.refl (r : Random) : r.LeadsTo r := ⟨[], by simp, rfl⟩

/-- A record of permitted draws stays one. -/
theorem LeadsTo.permitted {r s : Random} (h : r.LeadsTo s) (hr : ∀ d ∈ r.drawn, d.Permitted) :
    ∀ d ∈ s.drawn, d.Permitted := by
  obtain ⟨draws, hdraws, rfl⟩ := h
  intro d hd
  rw [drawn_after] at hd
  rcases List.mem_append.1 hd with hnew | hold
  · exact hdraws d (List.mem_reverse.1 hnew)
  · exact hr d hold

end Random

end SpriteStage
