import SpriteStage.Proofs.Single.Sum

/-!
# Adding nothing

There are two zeros, and either is nothing when it is added, except that negative zero plus zero is
zero. So a number that is not negative zero stays as it is (`add_of_isZero`), and a sum that starts
with one never comes to negative zero (`not_isMinusZero_add`): a sum whose units cancel is zero, and any
other is at least a unit away from it.
-/

set_option autoImplicit false

namespace SpriteStage.Single

open Float.Model (Format UnpackedFloat)
open Float.Model.UnpackedFloat

/-- The number is zero or negative zero. -/
def IsZero (x : Float32) : Prop := ∃ s, parts x = .zero s

/-- The number is negative zero. -/
def IsMinusZero (x : Float32) : Prop := parts x = .zero .negative

variable {x y : Float32}

theorem IsZero.isFinite (h : IsZero x) : x.isFinite = true := by
  obtain ⟨s, hs⟩ := h
  rw [isFinite_eq, hs]
  rfl

theorem IsZero.le_zero (h : IsZero x) : x ≤ 0.0 := by
  obtain ⟨s, hs⟩ := h
  refine (nonpos_iff_units (isNaN_eq_false_of_isFinite (IsZero.isFinite ⟨s, hs⟩))).mpr ?_
  exact Int.le_of_eq (by rw [hs, units_zero])

/-- A number between the zeros is one of them. -/
theorem isZero_of_le_of_le (hx : x ≤ 0.0) (hx' : 0.0 ≤ x) : IsZero x := by
  have hdefined := (isNaN_eq_false_of_le hx).1
  rw [nonpos_iff_units hdefined] at hx
  rw [nonneg_iff_units hdefined] at hx'
  have hunits : (units (parts x)).natAbs = 0 := by omega
  rw [natAbs_units] at hunits
  cases hp : parts x with
  | notANumber => exact absurd hp ((isNaN_eq_false_iff x).1 hdefined)
  | zero s => exact ⟨s, hp⟩
  | infinity s =>
      have hpos : 0 < digits (.infinity s) * 2 ^ scale (.infinity s) :=
        Nat.mul_pos (Nat.two_pow_pos 23) (Nat.two_pow_pos _)
      rw [hp] at hunits
      omega
  | finite s m e hm =>
      have hpos : 0 < digits (.finite s m e hm) * 2 ^ scale (.finite s m e hm) :=
        Nat.mul_pos hm (Nat.two_pow_pos _)
      rw [hp] at hunits
      omega

/-- Adding a zero leaves a number as it is, if it is not negative zero. -/
theorem add_of_isZero (hx : ¬ IsMinusZero x) (hy : IsZero y) : x + y = x := by
  obtain ⟨t, ht⟩ := hy
  have hsum : UnpackedFloat.add Format.binary32 (parts x) (.zero t) = parts x := by
    cases hp : parts x with
    | notANumber => rfl
    | infinity s => rfl
    | finite s m e hm => rfl
    | zero s =>
        cases s with
        | negative => exact absurd hp hx
        | positive => cases t <;> rfl
  rw [add_eq, ht, hsum, packed_parts]

/-- Taking a zero off a number that is not one leaves it as it is. -/
theorem sub_of_isZero (hx : ¬ IsZero x) (hy : IsZero y) : x - y = x := by
  obtain ⟨t, ht⟩ := hy
  have hneg : IsZero (-y) := ⟨-t, by rw [parts_neg, ht]; rfl⟩
  rw [sub_eq_add]
  exact add_of_isZero (fun hminus => hx ⟨_, hminus⟩) hneg

/-- What rounds a unit or more is not rounded to zero. -/
theorem IsRounding.units_ne_zero {s : Sign} {n : Nat} (h : IsRounding s n x) (hn : 0 < n) :
    units (parts x) ≠ 0 := by
  obtain ⟨r, hr, -, -, hunits⟩ := h.exists_digits
  have hpow := Nat.two_pow_pos (n.log2 - 23)
  have hlimit : 0 < limit := by
    rw [limit_eq 23 254 rfl]
    exact Nat.mul_pos (Nat.two_pow_pos _) (Nat.two_pow_pos _)
  have hle : 2 ^ (n.log2 - 23) ≤ n :=
    Nat.le_trans (Nat.pow_le_pow_right (by omega) (Nat.sub_le _ _)) (Nat.log2_self_le (by omega))
  have hquotient : 0 < n / 2 ^ (n.log2 - 23) := Nat.div_pos hle hpow
  have hdigits : 0 < r * 2 ^ (n.log2 - 23) := Nat.mul_pos (by omega) hpow
  have habs := natAbs_apply s (min (r * 2 ^ (n.log2 - 23)) limit)
  rw [← hunits] at habs
  omega

theorem Rounds.units_ne_zero {n : Int} (h : Rounds n x) (hn : n ≠ 0) : units (parts x) ≠ 0 := by
  rcases Int.lt_or_gt_of_ne hn with hneg | hpos
  · exact (h.neg hneg).units_ne_zero (by omega)
  · exact (h.pos hpos).units_ne_zero (by omega)

theorem not_isMinusZero_packed {u : UnpackedFloat} (hu : Encodable u) (h : u ≠ .zero .negative) :
    ¬ IsMinusZero (packed u) := by
  rw [IsMinusZero, parts_packed hu]
  exact h

/-- A mantissa that is normalized is never packed as negative zero: without digits it is zero. -/
theorem not_isMinusZero_normalize (m : Int) {e : Int} (he : -149 ≤ e) :
    ¬ IsMinusZero (packed (UnpackedFloat.normalize Format.binary32 m e .positive)) := by
  by_cases hm : m = 0
  · subst hm
    exact not_isMinusZero_packed (u := .zero .positive) trivial nofun
  · intro hminus
    have hpow : (2 : Int) ^ (e + 149).toNat ≠ 0 := Int.ne_of_gt (Int.pow_pos (by omega))
    refine (rounds_normalize m he .positive).units_ne_zero (Int.mul_ne_zero hm hpow) ?_
    rw [hminus, units_zero]

/-- A sum is negative zero only if it starts with one. -/
theorem not_isMinusZero_add (hx : ¬ IsMinusZero x) (y : Float32) : ¬ IsMinusZero (x + y) := by
  by_cases hy : IsZero y
  · rw [add_of_isZero hx hy]
    exact hx
  · rw [IsMinusZero] at hx
    have henx := encodable_parts x
    have heny := encodable_parts y
    rw [add_eq]
    cases hpx : parts x with
    | notANumber =>
        cases parts y <;> exact not_isMinusZero_packed (u := .notANumber) trivial nofun
    | infinity s =>
        cases hpy : parts y with
        | notANumber => exact not_isMinusZero_packed (u := .notANumber) trivial nofun
        | infinity t =>
            cases s <;> cases t <;> exact not_isMinusZero_packed trivial nofun
        | zero t => exact absurd ⟨t, hpy⟩ hy
        | finite t n f hn => exact not_isMinusZero_packed (u := .infinity s) trivial nofun
    | zero s =>
        cases hpy : parts y with
        | notANumber => exact not_isMinusZero_packed (u := .notANumber) trivial nofun
        | infinity t => exact not_isMinusZero_packed (u := .infinity t) trivial nofun
        | zero t => exact absurd ⟨t, hpy⟩ hy
        | finite t n f hn =>
            rw [hpy] at heny
            exact not_isMinusZero_packed heny nofun
    | finite s m e hm =>
        rw [hpx] at henx
        cases hpy : parts y with
        | notANumber => exact not_isMinusZero_packed (u := .notANumber) trivial nofun
        | infinity t => exact not_isMinusZero_packed (u := .infinity t) trivial nofun
        | zero t => exact absurd ⟨t, hpy⟩ hy
        | finite t n f hn =>
            rw [hpy] at heny
            have he := henx.2.1
            have hf := heny.2.1
            exact not_isMinusZero_normalize _ (by omega)

end SpriteStage.Single
