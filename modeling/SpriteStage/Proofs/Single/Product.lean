import SpriteStage.Proofs.Single.Sum

/-!
# Products of positive numbers

A product of positive numbers may be rounded to zero or to infinity, but it is defined and has no
sign (`mul_positive`). Counts are positive too (`toFloat32_positive`), so a hold, which is a count
times the time of one unit, is never negative.
-/

set_option autoImplicit false

namespace SpriteStage.Single

open Float.Model (Format UnpackedFloat)
open Float.Model.UnpackedFloat

/-- A number above zero; it may be infinite. -/
structure Positive (x : Float32) : Prop where
  /-- The number is defined. -/
  defined : x.isNaN = false
  /-- It is above zero. -/
  units_pos : 0 < units (parts x)

/-- A number without a sign; it may be zero or infinite. -/
structure Unsigned (x : Float32) : Prop where
  /-- The number is defined. -/
  defined : x.isNaN = false
  /-- It has no sign. -/
  sign_eq : sign (parts x) = .positive

theorem positive_of_not_le {x : Float32} (hx : x.isNaN = false) (h : ¬ x ≤ 0.0) : Positive x := by
  rw [nonpos_iff_units hx, Int.not_le] at h
  exact ⟨hx, h⟩

theorem Unsigned.not_lt {x : Float32} (h : Unsigned x) : ¬ x < 0.0 :=
  (units_nonneg_iff h.defined).1 (units_nonneg_of_sign h.sign_eq)

theorem not_lt_of_not_le {x : Float32} (h : ¬ x ≤ 0.0) : ¬ x < 0.0 := by
  intro hlt
  rw [lt_iff_compare] at hlt
  rw [le_iff_compare, hlt] at h
  exact h rfl

/-- Digits of a product are shifted to the right only. -/
theorem le_target_mul {s t : Sign} {m n : Nat} {e f : Int} {hm : 0 < m} {hn : 0 < n}
    (hx : Encodable (.finite s m e hm)) (hy : Encodable (.finite t n f hn)) :
    e + f ≤ target (m * n) (e + f) := by
  obtain ⟨-, -, -, hleadx⟩ := hx
  obtain ⟨-, -, -, hleady⟩ := hy
  have hlog : 23 ≤ (m * n).log2 ∨ (e = -149 ∧ f = -149) := by
    have hne : m * n ≠ 0 := Nat.ne_of_gt (Nat.mul_pos hm hn)
    rcases hleadx with hfullx | hminx
    · refine Or.inl ((Nat.le_log2 hne).2 ?_)
      exact Nat.le_trans hfullx (Nat.le_mul_of_pos_right m hn)
    · rcases hleady with hfully | hminy
      · refine Or.inl ((Nat.le_log2 hne).2 ?_)
        exact Nat.le_trans hfully (Nat.le_mul_of_pos_left n hm)
      · exact Or.inr ⟨hminx, hminy⟩
  unfold target
  omega

/-- A positive number is infinite or has digits. -/
theorem Positive.parts_cases {x : Float32} (h : Positive x) :
    parts x = .infinity .positive ∨ ∃ m e hm, parts x = .finite .positive m e hm := by
  have hsign := sign_eq_of_units_pos h.units_pos
  have hpos := h.units_pos
  cases hp : parts x with
  | notANumber => exact absurd hp ((isNaN_eq_false_iff x).1 h.defined)
  | zero s =>
      rw [hp, units_zero] at hpos
      exact absurd hpos (Int.lt_irrefl 0)
  | infinity s =>
      rw [hp] at hsign
      change s = .positive at hsign
      rw [hsign]
      exact Or.inl rfl
  | finite s m e hm =>
      rw [hp] at hsign
      change s = .positive at hsign
      rw [hsign]
      exact Or.inr ⟨m, e, hm, rfl⟩

theorem mul_positive {x y : Float32} (hx : Positive x) (hy : Positive y)
    (hfinite : y.isFinite = true) : Unsigned (x * y) := by
  have hencx := encodable_parts x
  have hency := encodable_parts y
  rcases hy.parts_cases with hq | ⟨n, f, hn, hq⟩
  · rw [isFinite_eq, hq] at hfinite
    cases hfinite
  rw [hq] at hency
  rcases hx.parts_cases with hp | ⟨m, e, hm, hp⟩
  · have hprod : parts (x * y) = .infinity .positive := by
      rw [mul_eq, hp, hq]
      exact parts_packed trivial
    refine ⟨?_, by rw [hprod]; rfl⟩
    rw [isNaN_eq_false_iff, hprod]
    exact fun h => nomatch h
  · -- Rounding the digits of the product keeps the sign and leads to a number.
    rw [hp] at hencx
    have hmn : 0 < m * n := Nat.mul_pos hm hn
    have htarget := le_target_mul hencx hency
    obtain ⟨hle, hlead⟩ := rounded_bounds hmn htarget
    have hprod : x * y = packed (carried .positive
        (rounded (m * n) (target (m * n) (e + f) - (e + f)).toNat)
        (target (m * n) (e + f))) := by
      rw [mul_eq, hp, hq]
      exact congrArg packed (roundWithAccuracy_eq .positive hmn htarget)
    obtain ⟨hdefined, hsign, -⟩ :=
      units_packed_carried .positive hle (Int.le_max_right _ _) hlead
    rw [hprod]
    exact ⟨(isNaN_eq_false_iff _).2 hdefined, hsign⟩

/-- A count that is not zero is positive. -/
theorem toFloat32_positive {n : UInt32} (h : 0 < n.toNat) : Positive n.toFloat32 := by
  have hround := rounds_normalize (n.toNat : Int) (e := 0) (by omega) .positive
  have hpos : (0 : Int) < n.toNat * 2 ^ ((0 : Int) + 149).toNat :=
    Int.mul_pos (by omega) (Int.pow_pos (by omega))
  have hrounding := hround.pos hpos
  have hcast : ((n.toNat : Int) * 2 ^ ((0 : Int) + 149).toNat).toNat = n.toNat * 2 ^ 149 := by
    have hpow : (2 : Int) ^ ((0 : Int) + 149).toNat = ((2 ^ 149 : Nat) : Int) := by
      rw [Int.natCast_pow]
      rfl
    rw [hpow, ← Int.natCast_mul, Int.toNat_natCast]
  rw [hcast] at hrounding
  refine ⟨hrounding.defined, ?_⟩
  -- One unit is representable and not above the count.
  have hone : Encodable (.finite .positive 1 (-149) (by decide)) :=
    ⟨by omega, by omega, by omega, Or.inr rfl⟩
  have hle := hrounding.le_units hone (Nat.mul_pos h (Nat.two_pow_pos 149))
  exact Int.lt_of_lt_of_le Int.zero_lt_one hle

end SpriteStage.Single
