import SpriteStage.Proofs.Single.Product

/-!
# Magnitudes

A product with one or minus one is not rounded: the second mantissa only appends zeros, and these
are dropped again (`roundWithAccuracy_mul_two_pow`). So such a product has the magnitude of its
first factor, whatever that is (`abs_mul_unit`).
-/

set_option autoImplicit false

namespace SpriteStage.Single

open Float.Model (Format UnpackedFloat)
open Float.Model.UnpackedFloat

theorem abs_eq (x : Float32) : x.abs = packed (parts x).abs := rfl

theorem encodable_abs {u : UnpackedFloat} (h : Encodable u) : Encodable u.abs := by
  cases u with
  | notANumber => trivial
  | infinity s => trivial
  | zero s => trivial
  | finite s m e hm => exact h

theorem parts_abs (x : Float32) : parts x.abs = (parts x).abs :=
  parts_packed (encodable_abs (encodable_parts x))

/-- A magnitude is its own magnitude. -/
theorem abs_abs (x : Float32) : x.abs.abs = x.abs := by
  rw [abs_eq x.abs, parts_abs, abs_eq x]
  cases parts x <;> rfl

/-- Rounding a mantissa that fits drops the zeros that were appended to it. -/
theorem roundWithAccuracy_mul_two_pow {s : Sign} {m : Nat} {e : Int} {hm : 0 < m}
    (h : Encodable (.finite s m e hm)) (t : Sign) (n : Nat) :
    roundWithAccuracy Format.binary32 t (m * 2 ^ n) (e - n) .exact = .finite t m e hm := by
  obtain ⟨hlt, hlow, -, hlead⟩ := h
  -- the zeros raise the logarithm by as much as the exponent is lower, so the last digit kept is at `e`
  have htarget : target (m * 2 ^ n) (e - n) = e := by
    have hlog : m.log2 < 24 := (Nat.log2_lt (Nat.ne_of_gt hm)).2 hlt
    have hfull : 2 ^ 23 ≤ m → 23 ≤ m.log2 := (Nat.le_log2 (Nat.ne_of_gt hm)).2
    rw [target, log2_mul_two_pow hm]
    omega
  have hround : rounded (m * 2 ^ n) n = m := by
    rw [rounded_of_dvd (Nat.dvd_mul_left _ m), Nat.mul_div_cancel _ (Nat.two_pow_pos n)]
  have hshift : (e - (e - n)).toNat = n := by omega
  rw [roundWithAccuracy_eq t (Nat.mul_pos hm (Nat.two_pow_pos n)) (by omega), htarget, hshift,
    hround, carried, dif_neg (Nat.ne_of_gt hm), if_neg (Nat.ne_of_lt hlt)]

theorem mantissa_unit_pos : 0 < 2 ^ 23 := Nat.two_pow_pos 23

/-- The parts of one, or of minus one. -/
def unit (s : Sign) : UnpackedFloat := .finite s (2 ^ 23) (-23) mantissa_unit_pos

/-- The product with one or minus one fits as well as the first factor and has its magnitude. -/
theorem mul_unit {u : UnpackedFloat} (h : Encodable u) (s : Sign) :
    Encodable (UnpackedFloat.mul Format.binary32 u (unit s)) ∧
      (UnpackedFloat.mul Format.binary32 u (unit s)).abs = u.abs := by
  cases u with
  | notANumber => exact ⟨trivial, rfl⟩
  | infinity t => exact ⟨trivial, rfl⟩
  | zero t => exact ⟨trivial, rfl⟩
  | finite t m e hm =>
      have hproduct : UnpackedFloat.mul Format.binary32 (.finite t m e hm) (unit s) =
          .finite (t * s) m e hm :=
        roundWithAccuracy_mul_two_pow h (t * s) 23
      rw [hproduct]
      exact ⟨h, rfl⟩

/-- A product with one or minus one keeps the magnitude. -/
theorem abs_mul_unit (x : Float32) {y : Float32} {s : Sign} (h : parts y = unit s) :
    (x * y).abs = x.abs := by
  obtain ⟨hencodable, habs⟩ := mul_unit (encodable_parts x) s
  rw [abs_eq, mul_eq, h, parts_packed hencodable, habs, abs_eq]

theorem parts_one : parts 1.0 = unit .positive := by
  rw [parts_eq]
  rfl

theorem parts_neg_one : parts (-1.0) = unit .negative := by
  rw [parts_eq]
  rfl

end SpriteStage.Single
