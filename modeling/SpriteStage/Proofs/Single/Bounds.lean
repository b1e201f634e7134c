import SpriteStage.Proofs.Single.Product

/-!
# Numbers that are bounded below

Rounding does not pass a number that can be represented (`IsRounding.natAbs_units_le`), so adding
what is not negative never leads below a finite number (`le_add_of_nonneg`). Time that is taken off
a countdown, or handed on from one frame to the next, thus never runs down to minus infinity, where
adding to it could be undefined.
-/

set_option autoImplicit false

namespace SpriteStage.Single

open Float.Model (Format UnpackedFloat)
open Float.Model.UnpackedFloat

/-- A number that is not below every finite number; it may be infinite. -/
def BoundedBelow (x : Float32) : Prop := ∃ y : Float32, y.isFinite = true ∧ y ≤ x

variable {x y z : Float32}

/-- Rounding does not pass a number that can be represented. -/
theorem IsRounding.natAbs_units_le {u : UnpackedFloat} (hu : Encodable u) {s : Sign} {n : Nat}
    (hle : n ≤ digits u * 2 ^ scale u) (h : IsRounding s n x) :
    (units (parts x)).natAbs ≤ digits u * 2 ^ scale u := by
  obtain ⟨r, -, hnext, hexact, hunits⟩ := h.exists_digits
  have hlog : n.log2 ≤ (digits u * 2 ^ scale u).log2 := by
    by_cases hn : n = 0
    · rw [hn]
      exact Nat.zero_le _
    · exact (Nat.le_log2 (by omega)).2 (Nat.le_trans (Nat.log2_self_le hn) hle)
  have hdvd : 2 ^ (n.log2 - 23) ∣ digits u * 2 ^ scale u :=
    Nat.dvd_trans (Nat.pow_dvd_pow 2 (Nat.sub_le_sub_right hlog 23)) (two_pow_dvd_of_encodable hu)
  have hround : r * 2 ^ (n.log2 - 23) ≤ digits u * 2 ^ scale u := by
    by_cases hkept : 2 ^ (n.log2 - 23) ∣ n
    · rw [hexact hkept, Nat.div_mul_cancel hkept]
      exact hle
    · -- the number that can be represented is a multiple, and `n` lies properly below it
      obtain ⟨q, hq⟩ := hdvd
      have hne : n ≠ 2 ^ (n.log2 - 23) * q := fun heq => hkept ⟨q, heq⟩
      have hbelow : n / 2 ^ (n.log2 - 23) < q := Nat.div_lt_of_lt_mul (by omega)
      rw [hq, Nat.mul_comm _ q]
      exact Nat.mul_le_mul_right _ (by omega)
  rw [hunits, natAbs_apply]
  exact Nat.le_trans (Nat.min_le_left _ _) hround

theorem level_bounds_of_isFinite (h : x.isFinite = true) :
    -(255 * 2 ^ 23) < level (parts x) ∧ level (parts x) < 255 * 2 ^ 23 := by
  have henc := encodable_parts x
  rcases zero_or_finite_of_isFinite h with ⟨s, hp⟩ | ⟨s, m, e, hm, hp⟩
  · rw [hp]
    cases s with
    | positive => decide
    | negative => decide
  · rw [hp] at henc ⊢
    exact natAbs_level_finite_lt henc

/-- What lies between finite numbers is finite. -/
theorem isFinite_of_le_of_le (hy : y.isFinite = true) (hz : z.isFinite = true) (hyx : y ≤ x)
    (hxz : x ≤ z) : x.isFinite = true := by
  obtain ⟨hyn, hxn⟩ := isNaN_eq_false_of_le hyx
  obtain ⟨-, hzn⟩ := isNaN_eq_false_of_le hxz
  rw [le_iff_level hyn hxn] at hyx
  rw [le_iff_level hxn hzn] at hxz
  have hlow := (level_bounds_of_isFinite hy).1
  have hhigh := (level_bounds_of_isFinite hz).2
  rw [isFinite_eq]
  cases hp : parts x with
  | notANumber => exact absurd hp ((isNaN_eq_false_iff x).1 hxn)
  | zero s => rfl
  | finite s m e hm => rfl
  | infinity s =>
      rw [hp] at hyx hxz
      cases s with
      | positive =>
          rw [show level (.infinity .positive) = 255 * 2 ^ 23 by decide] at hxz
          omega
      | negative =>
          rw [show level (.infinity .negative) = -(255 * 2 ^ 23) by decide] at hyx
          omega

theorem Unsigned.nonneg (h : Unsigned x) : 0.0 ≤ x :=
  (nonneg_iff_units h.defined).2 (units_nonneg_of_sign h.sign_eq)

/-- Adding what is not negative does not lead below a finite number. -/
theorem le_add_of_nonneg (hx : 0.0 ≤ x) (hy : y.isFinite = true) : y ≤ x + y := by
  obtain ⟨-, hxn⟩ := isNaN_eq_false_of_le hx
  have hx0 := (nonneg_iff_units hxn).1 hx
  have hyn := isNaN_eq_false_of_isFinite hy
  have hyabs := natAbs_units (parts y)
  by_cases hinf : ∃ s, parts x = .infinity s
  · -- infinity has no less magnitude than any number, and it is the positive one
    obtain ⟨s, hs⟩ := hinf
    have hlimit := magnitude_le_limit (encodable_parts y)
    rw [add_infinity hs hy, le_iff_units hyn hxn]
    have hxabs := natAbs_units (parts x)
    rw [hs] at hx0 hxabs ⊢
    change (units (.infinity s)).natAbs = 2 ^ 23 * 2 ^ 254 at hxabs
    rw [← limit_eq 23 254 rfl] at hxabs
    omega
  · have hxf : x.isFinite = true := by
      rw [isFinite_eq]
      cases hp : parts x with
      | notANumber => exact absurd hp ((isNaN_eq_false_iff x).1 hxn)
      | infinity s => exact absurd ⟨s, hp⟩ hinf
      | zero s => rfl
      | finite s m e hm => rfl
    have hround := rounds_add hxf hy
    rw [le_iff_units hyn hround.defined]
    rcases Int.lt_trichotomy (units (parts x) + units (parts y)) 0 with hneg | hzero | hpos
    · -- the sum is no further below zero than `y`, and so is its rounding
      have hsum := (hround.neg hneg).natAbs_units_le (encodable_parts y) (by omega)
      omega
    · obtain ⟨s, hs⟩ := hround.zero hzero
      rw [hs, units_zero]
      omega
    · have hsum := units_nonneg_of_sign (hround.pos hpos).sign_eq
      by_cases hy0 : 0 ≤ units (parts y)
      · have hle := (hround.pos hpos).le_units (encodable_parts y) (by omega)
        omega
      · omega

/-- A sum with what is not above zero is not above the first number. -/
theorem add_le_of_nonpos (hx : x.isFinite = true) (hx0 : 0.0 ≤ x) (hy : y.isFinite = true)
    (hy0 : y ≤ 0.0) : x + y ≤ x := by
  have hxn := isNaN_eq_false_of_isFinite hx
  rw [nonneg_iff_units hxn] at hx0
  rw [nonpos_iff_units (isNaN_eq_false_of_isFinite hy)] at hy0
  have hround := rounds_add hx hy
  have hunits := natAbs_units (parts x)
  rw [le_iff_units hround.defined hxn]
  rcases Int.lt_trichotomy (units (parts x) + units (parts y)) 0 with hneg | heq | hpos
  · have hsign := (hround.neg hneg).sign_eq
    have hbelow : units (parts (x + y)) ≤ 0 := by
      unfold units
      rw [hsign]
      exact Int.neg_nonpos_of_nonneg (Int.natCast_nonneg _)
    omega
  · obtain ⟨s, hs⟩ := hround.zero heq
    rw [hs, units_zero]
    exact hx0
  · have hle := (hround.pos hpos).natAbs_units_le (encodable_parts x) (by omega)
    omega

theorem BoundedBelow.defined (h : BoundedBelow x) : x.isNaN = false := by
  obtain ⟨y, -, hyx⟩ := h
  exact (isNaN_eq_false_of_le hyx).2

/-- Taking a finite number off what is not negative leaves what is bounded below. -/
theorem boundedBelow_sub (hx : 0.0 ≤ x) (hy : y.isFinite = true) : BoundedBelow (x - y) := by
  refine ⟨-y, isFinite_neg hy, ?_⟩
  rw [sub_eq_add]
  exact le_add_of_nonneg hx (isFinite_neg hy)

/-- What is bounded below and not above zero is finite, so adding to it keeps the bound. -/
theorem BoundedBelow.add (hy : BoundedBelow y) (hy0 : y ≤ 0.0) (hx : 0.0 ≤ x) :
    BoundedBelow (x + y) := by
  obtain ⟨w, hw, hwy⟩ := hy
  have hyf : y.isFinite = true := isFinite_of_le_of_le hw rfl hwy hy0
  exact ⟨y, hyf, le_add_of_nonneg hx hyf⟩

theorem le_of_lt (h : x < y) : x ≤ y := by
  rw [lt_iff_compare] at h
  rw [le_iff_compare, h]
  rfl

theorem zero_lt_of_not_le (hx : x.isNaN = false) (h : ¬ x ≤ 0.0) : 0.0 < x :=
  (not_le_iff_lt hx (by decide)).1 h

end SpriteStage.Single
