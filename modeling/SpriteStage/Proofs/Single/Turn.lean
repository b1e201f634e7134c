import SpriteStage.Motion.Angle
import SpriteStage.Proofs.Single.Magnitude
import SpriteStage.Proofs.Single.Overflow

/-!
# Remainders and turns

A remainder is no further from zero than the divisor, so it is finite if the dividend is
(`isFinite_truncatedRem`, `isFinite_euclideanRem`). The shortest turn from one angle to another is a
remainder of their difference. It is finite unless the difference overflows; infinity has no
remainder, and then the turn is undefined (`isFinite_shortestTurn`).
-/

set_option autoImplicit false

namespace SpriteStage.Single

open Float.Model (Format UnpackedFloat)
open Float.Model.UnpackedFloat

variable {x y current target : Float32}

/-! ## Magnitudes -/

theorem isFinite_abs (x : Float32) : x.abs.isFinite = x.isFinite := by
  rw [isFinite_eq, parts_abs, isFinite_eq]
  cases parts x <;> rfl

theorem units_abs (x : Float32) : units (parts x.abs) = ((units (parts x)).natAbs : Int) := by
  rw [natAbs_units, parts_abs]
  cases parts x <;> rfl

theorem unsigned_abs (hx : x.isNaN = false) : Unsigned x.abs := by
  rw [isNaN_eq_false_iff] at hx
  refine ⟨?_, ?_⟩
  · rw [isNaN_eq_false_iff, parts_abs]
    cases hp : parts x with
    | notANumber => exact absurd hp hx
    | infinity s => exact nofun
    | zero s => exact nofun
    | finite s m e hm => exact nofun
  · rw [parts_abs]
    cases parts x <;> rfl

theorem isNaN_abs (hx : x.isNaN = true) : x.abs.isNaN = true := by
  rw [isNaN_eq_true_iff] at hx ⊢
  rw [parts_abs, hx]
  rfl

/-- The larger of two magnitudes is finite exactly if both are. -/
theorem unsigned_larger (hx : Unsigned x) (hy : Unsigned y) :
    Unsigned (larger x y) ∧
      ((larger x y).isFinite = true ↔ x.isFinite = true ∧ y.isFinite = true) := by
  have hlarger : larger x y = if x < y then y else x := by
    unfold larger
    rw [hx.defined, hy.defined]
    rfl
  rw [hlarger]
  by_cases hlt : x < y
  · rw [if_pos hlt]
    refine ⟨hy, fun hfinite => ⟨?_, hfinite⟩, fun h => h.2⟩
    exact isFinite_of_le_of_le rfl hfinite hx.nonneg (le_of_lt hlt)
  · rw [if_neg hlt]
    refine ⟨hx, fun hfinite => ⟨hfinite, ?_⟩, fun h => h.1⟩
    refine isFinite_of_le_of_le rfl hfinite hy.nonneg ?_
    by_cases hle : y ≤ x
    · exact hle
    · exact absurd ((not_le_iff_lt hy.defined hx.defined).1 hle) hlt

/-! ## Turns -/

/-- A remainder of a finite number is finite and no further from zero than the divisor. -/
theorem isFinite_truncatedRem (hx : x.isFinite = true) (hy : y.isFinite = true)
    (hne : units (parts y) ≠ 0) :
    (truncatedRem x y).isFinite = true ∧
      (units (parts (truncatedRem x y))).natAbs ≤ (units (parts y)).natAbs := by
  have hylt := natAbs_units_lt_overflow hy
  rcases zero_or_finite_of_isFinite hy with ⟨t, hq⟩ | ⟨t, n, f, hn, hq⟩
  · exact absurd (by rw [hq, units_zero]) hne
  rcases zero_or_finite_of_isFinite hx with ⟨s, hp⟩ | ⟨s, m, e, hm, hp⟩
  · have hself : truncatedRem x y = x := by
      unfold truncatedRem
      rw [show x.toModel.unpack = _ from hp, show y.toModel.unpack = _ from hq]
    rw [hself, hp, units_zero]
    exact ⟨hx, Nat.zero_le _⟩
  · have hencx := encodable_parts x
    have hency := encodable_parts y
    have hunits := natAbs_units (parts y)
    rw [hp] at hencx
    rw [hq] at hency hunits
    have hlow : -149 ≤ min e f := by
      have he := hencx.2.1
      have hf := hency.2.1
      omega
    have hrem : truncatedRem x y =
        if h : 0 < (m <<< (e - min e f).toNat) % (n <<< (f - min e f).toNat) then
          ofParts (.finite s _ (min e f) h)
        else ofParts (.zero s) := by
      unfold truncatedRem
      rw [show x.toModel.unpack = _ from hp, show y.toModel.unpack = _ from hq]
    have hdivisor : n <<< (f - min e f).toNat * 2 ^ (min e f + 149).toNat =
        (units (parts y)).natAbs := by
      rw [Nat.shiftLeft_eq, Nat.mul_assoc, ← Nat.pow_add, hq, hunits]
      show _ = n * 2 ^ (f + 149).toNat
      congr 2
      omega
    have hless := Nat.mod_lt (m <<< (e - min e f).toNat)
      (show 0 < n <<< (f - min e f).toNat by
        rw [Nat.shiftLeft_eq]
        exact Nat.mul_pos hn (Nat.two_pow_pos _))
    generalize (m <<< (e - min e f).toNat) % (n <<< (f - min e f).toNat) = rest at hrem hless
    have hle := Nat.mul_le_mul_right (2 ^ (min e f + 149).toNat) (Nat.le_of_lt hless)
    rw [hdivisor] at hle
    by_cases hrest : 0 < rest
    · rw [hrem, dif_pos hrest]
      refine ⟨(isFinite_round_iff s hrest hlow).2 (Nat.lt_of_le_of_lt hle hylt), ?_⟩
      rw [natAbs_units (parts y)] at hle ⊢
      exact (isRounding_round s hrest hlow).natAbs_units_le (encodable_parts y) hle
    · rw [hrem, dif_neg hrest]
      refine ⟨isFinite_packed_zero s, ?_⟩
      have hzero : parts (ofParts (.zero s)) = .zero s := parts_packed (u := .zero s) trivial
      rw [hzero, units_zero]
      exact Nat.zero_le _

/-- A remainder that is not negative lies between zero and the divisor. -/
theorem isFinite_euclideanRem (hx : x.isFinite = true) (hy : y.isFinite = true)
    (hne : units (parts y) ≠ 0) :
    (euclideanRem x y).isFinite = true ∧ 0 ≤ units (parts (euclideanRem x y)) ∧
      units (parts (euclideanRem x y)) ≤ (units (parts y)).natAbs := by
  obtain ⟨hfinite, hle⟩ := isFinite_truncatedRem hx hy hne
  have hylt := natAbs_units_lt_overflow hy
  have hdefined := isNaN_eq_false_of_isFinite hfinite
  unfold euclideanRem
  dsimp only
  by_cases hneg : truncatedRem x y < 0.0
  · -- the divisor is added, and rounding the sum does not pass it
    have hyf : y.abs.isFinite = true := (isFinite_abs y).trans hy
    have hunits := units_abs y
    have hbelow : units (parts (truncatedRem x y)) < 0 :=
      Int.not_le.1 fun hle => (units_nonneg_iff hdefined).1 hle hneg
    have hsum := rounds_add hfinite hyf
    rw [if_pos hneg, isFinite_add_iff hfinite hyf]
    refine ⟨by omega, ?_⟩
    rcases Int.lt_or_eq_of_le (show 0 ≤ units (parts (truncatedRem x y)) + units (parts y.abs) by
      omega) with hpos | hzero
    · have hround := hsum.pos hpos
      have hnonneg := units_nonneg_of_sign hround.sign_eq
      have hbound := hround.natAbs_units_le (encodable_parts y) (by
        rw [← natAbs_units]
        omega)
      rw [← natAbs_units] at hbound
      omega
    · obtain ⟨s, hs⟩ := hsum.zero hzero.symm
      rw [hs, units_zero]
      omega
  · rw [if_neg hneg]
    have hnonneg := (units_nonneg_iff hdefined).2 hneg
    exact ⟨hfinite, hnonneg, by omega⟩

/-- The shortest turn is finite if the difference of the angles is; else it is undefined. -/
theorem isFinite_shortestTurn (hc : current.isFinite = true) (ht : target.isFinite = true) :
    if DifferenceFits target current then (shortestTurn pi current target).isFinite = true
    else (shortestTurn pi current target).isNaN = true := by
  have hround : (2.0 * pi).isFinite = true := by decide
  have hdifference := isFinite_sub_iff ht hc
  unfold shortestTurn
  dsimp only
  by_cases hfits : DifferenceFits target current
  · rw [if_pos hfits]
    obtain ⟨hfinite, hnonneg, hle⟩ := isFinite_euclideanRem (hdifference.2 hfits) hround
      (by decide)
    have hlt := natAbs_units_lt_overflow hround
    have hpositive : 0 ≤ units (parts (2.0 * pi)) := by decide
    show (if pi < euclideanRem (target - current) (2.0 * pi) then
      euclideanRem (target - current) (2.0 * pi) - 2.0 * pi
        else euclideanRem (target - current) (2.0 * pi)).isFinite = true
    by_cases hlong : pi < euclideanRem (target - current) (2.0 * pi)
    · rw [if_pos hlong, isFinite_sub_iff hfinite hround, DifferenceFits]
      omega
    · rw [if_neg hlong]
      exact hfinite
  · rw [if_neg hfits]
    -- the difference is infinite, and infinity has no remainder
    have hundefined : truncatedRem (target - current) (2.0 * pi) = ofParts .notANumber := by
      have hdefined := (rounds_sub ht hc).defined
      rw [isNaN_eq_false_iff] at hdefined
      rw [← hdifference, isFinite_eq] at hfits
      unfold truncatedRem
      cases hp : parts (target - current) with
      | notANumber => exact absurd hp hdefined
      | infinity s =>
          rw [show (target - current).toModel.unpack = _ from hp]
          rfl
      | zero s => exact absurd (by rw [hp]; rfl) hfits
      | finite s m e hm => exact absurd (by rw [hp]; rfl) hfits
    have hrem : euclideanRem (target - current) (2.0 * pi) = ofParts .notANumber := by
      unfold euclideanRem
      rw [hundefined]
      exact if_neg (by decide)
    show (if pi < euclideanRem (target - current) (2.0 * pi) then
      euclideanRem (target - current) (2.0 * pi) - 2.0 * pi
        else euclideanRem (target - current) (2.0 * pi)).isNaN = true
    rw [hrem, if_neg (by decide)]
    decide

end SpriteStage.Single
