import Mathlib.Algebra.Order.Floor.Ring
import Mathlib.Data.Rat.Floor
import Mathlib.Tactic.FieldSimp
import Mathlib.Tactic.Linarith
import Mathlib.Tactic.NormNum
import Mathlib.Tactic.Ring
import SpriteStage.Scalar

/-!
# Exact arithmetic

Curves and angles are formulas over any scalar, and the rational numbers are scalars too. Read over
them, a formula is computed without any rounding, and its laws are those of arithmetic. The
remainder of a division is the one between zero and the size of the divisor (`euclideanRem_nonneg`,
`euclideanRem_lt`), and it differs from the dividend by whole multiples of the divisor
(`euclideanRem_eq`).
-/

set_option autoImplicit false

namespace SpriteStage.Scalar

instance : Scalar ℚ where
  decideLT _ _ := inferInstance
  euclideanRem x y := x - |y| * ⌊x / |y|⌋
  magnitude x := |x|

theorem euclideanRem_eq (x : ℚ) {y : ℚ} (hy : 0 < y) : euclideanRem x y = x - y * ⌊x / y⌋ := by
  show x - |y| * ⌊x / |y|⌋ = _
  rw [abs_of_pos hy]

theorem euclideanRem_nonneg (x : ℚ) {y : ℚ} (hy : 0 < y) : 0 ≤ euclideanRem x y := by
  have hfloor : (⌊x / y⌋ : ℚ) * y ≤ x := (le_div_iff₀ hy).1 (Int.floor_le _)
  rw [euclideanRem_eq x hy]
  linarith

theorem euclideanRem_lt (x : ℚ) {y : ℚ} (hy : 0 < y) : euclideanRem x y < y := by
  have hfloor : x < ((⌊x / y⌋ : ℚ) + 1) * y := (div_lt_iff₀ hy).1 (Int.lt_floor_add_one _)
  rw [euclideanRem_eq x hy]
  linarith

/-! ## Powers -/

@[simp] theorem square_eq (x : ℚ) : square x = x ^ 2 := (sq x).symm

@[simp] theorem cube_eq (x : ℚ) : cube x = x ^ 3 := by
  simp only [cube, square_eq]
  ring

@[simp] theorem fourth_eq (x : ℚ) : fourth x = x ^ 4 := by
  simp only [fourth, square_eq]
  ring

@[simp] theorem fifth_eq (x : ℚ) : fifth x = x ^ 5 := by
  simp only [fifth, fourth_eq]
  ring

end SpriteStage.Scalar
