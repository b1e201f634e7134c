import SpriteStage.Proofs.Single.Encoding

/-!
# The order of numbers

The parts of a number that is defined give two whole numbers. Its `level` is its place among all
numbers, as the bits without the sign have it; its `units` is its distance from zero, counted in
steps of the least positive number, where infinity is what would follow the greatest number. Both
grow together (`units_le_units_iff`), and the order of the numbers is the order of either
(`le_iff_level`, `le_iff_units`). The rank of the bits, by which events are sorted, refines it
(`le_of_rank_le`).
-/

set_option autoImplicit false

namespace SpriteStage.Single

open Float.Model (Format UnpackedFloat)
open Float.Model.UnpackedFloat

/-- The sign of a number. -/
def sign : UnpackedFloat → Sign
  | .notANumber => .positive
  | .infinity s | .zero s | .finite s _ _ _ => s

/-- How often the least unit is doubled to give the last digit of the number. -/
def scale : UnpackedFloat → Nat
  | .finite _ _ e _ => (e + 149).toNat
  | .infinity _ => 254
  | _ => 0

/-- The digits of the number as a whole number; infinity has those of the number after the
greatest. -/
def digits : UnpackedFloat → Nat
  | .finite _ m _ _ => m
  | .infinity _ => 2 ^ 23
  | _ => 0

/-- The place of a number among all numbers; both zeros have place zero. -/
def level (u : UnpackedFloat) : Int := (sign u).apply ((scale u * 2 ^ 23 + digits u : Nat) : Int)

/-- A number in steps of the least positive one. -/
def units (u : UnpackedFloat) : Int := (sign u).apply ((digits u * 2 ^ scale u : Nat) : Int)

theorem digits_lt {u : UnpackedFloat} (h : Encodable u) : digits u < 2 ^ 24 := by
  cases u with
  | finite s m e hpos => exact h.1
  | infinity s => show 2 ^ 23 < 2 ^ 24; omega
  | notANumber => show 0 < 2 ^ 24; omega
  | zero s => show 0 < 2 ^ 24; omega

theorem leading_or_scale_eq_zero {u : UnpackedFloat} (h : Encodable u) :
    2 ^ 23 ≤ digits u ∨ scale u = 0 := by
  cases u with
  | finite s m e hpos =>
      obtain ⟨-, -, -, hlead⟩ := h
      rcases hlead with hfull | hmin
      · exact Or.inl hfull
      · refine Or.inr ?_
        show (e + 149).toNat = 0
        omega
  | infinity s => exact Or.inl (Nat.le_refl _)
  | notANumber => exact Or.inr rfl
  | zero s => exact Or.inr rfl

/-! ## Levels and units grow together -/

/-- Of two numbers without signs, the one with the higher scale is the further from zero. -/
theorem units_lt_of_scale_lt {u v : UnpackedFloat} (hu : Encodable u) (hv : Encodable v)
    (h : scale u < scale v) : digits u * 2 ^ scale u < digits v * 2 ^ scale v := by
  have hfull : 2 ^ 23 ≤ digits v := (leading_or_scale_eq_zero hv).resolve_right (by omega)
  calc
    digits u * 2 ^ scale u < 2 ^ 24 * 2 ^ scale u :=
      Nat.mul_lt_mul_of_pos_right (digits_lt hu) (Nat.two_pow_pos _)
    _ = 2 ^ 23 * 2 ^ (scale u + 1) := by rw [Nat.pow_succ]; omega
    _ ≤ digits v * 2 ^ scale v :=
      Nat.mul_le_mul hfull (Nat.pow_le_pow_right (by omega) (by omega))

/-- Without signs, levels and units have the same order. -/
theorem magnitude_lt_iff {u v : UnpackedFloat} (hu : Encodable u) (hv : Encodable v) :
    digits u * 2 ^ scale u < digits v * 2 ^ scale v ↔
      scale u * 2 ^ 23 + digits u < scale v * 2 ^ 23 + digits v := by
  have hdu := digits_lt hu
  have hdv := digits_lt hv
  have hlu := leading_or_scale_eq_zero hu
  have hlv := leading_or_scale_eq_zero hv
  -- The scale decides, and among numbers of one scale the digits do.
  rcases Nat.lt_trichotomy (scale u) (scale v) with hlt | heq | hgt
  · have h := units_lt_of_scale_lt hu hv hlt
    constructor
    · intro
      omega
    · intro
      exact h
  · rw [heq, Nat.mul_lt_mul_right (Nat.two_pow_pos _)]
    omega
  · have h := units_lt_of_scale_lt hv hu hgt
    constructor
    · intro
      omega
    · intro
      omega

theorem magnitude_eq_zero_iff {u : UnpackedFloat} (hu : Encodable u) :
    digits u * 2 ^ scale u = 0 ↔ scale u * 2 ^ 23 + digits u = 0 := by
  rcases leading_or_scale_eq_zero hu with hfull | h0
  · have hpos := Nat.mul_pos (show 0 < digits u by omega) (Nat.two_pow_pos (scale u))
    omega
  · rw [h0]
    omega

theorem apply_lt_apply_iff {s t : Sign} {a b c d : Nat} (hab : a < b ↔ c < d)
    (hba : b < a ↔ d < c) (ha : a = 0 ↔ c = 0) (hb : b = 0 ↔ d = 0) :
    s.apply (a : Int) < t.apply (b : Int) ↔ s.apply (c : Int) < t.apply (d : Int) := by
  cases s <;> cases t <;> simp only [Sign.apply] <;> omega

theorem units_lt_units_iff {u v : UnpackedFloat} (hu : Encodable u) (hv : Encodable v) :
    units u < units v ↔ level u < level v :=
  apply_lt_apply_iff (magnitude_lt_iff hu hv) (magnitude_lt_iff hv hu)
    (magnitude_eq_zero_iff hu) (magnitude_eq_zero_iff hv)

theorem units_le_units_iff {u v : UnpackedFloat} (hu : Encodable u) (hv : Encodable v) :
    units u ≤ units v ↔ level u ≤ level v := by
  have h := units_lt_units_iff hv hu
  omega

/-! ## Comparing -/

theorem some_lt_eq {a b : Int} (h : a < b) : some Ordering.lt = some (compare a b) := by
  rw [Int.compare_eq_lt.2 h]

theorem some_gt_eq {a b : Int} (h : b < a) : some Ordering.gt = some (compare a b) := by
  rw [Int.compare_eq_gt.2 h]

/-- A finite number lies between the infinities. -/
theorem natAbs_level_finite_lt {s : Sign} {m : Nat} {e : Int} {hm : 0 < m}
    (h : Encodable (.finite s m e hm)) :
    -(255 * 2 ^ 23) < level (.finite s m e hm) ∧ level (.finite s m e hm) < 255 * 2 ^ 23 := by
  obtain ⟨h1, h2, h3, h4⟩ := h
  have hplace : (e + 149).toNat * 2 ^ 23 + m < 255 * 2 ^ 23 := by omega
  cases s with
  | positive =>
      refine ⟨?_, Int.ofNat_lt.2 hplace⟩
      show -(255 * 2 ^ 23) < (((e + 149).toNat * 2 ^ 23 + m : Nat) : Int)
      omega
  | negative =>
      refine ⟨Int.neg_lt_neg (Int.ofNat_lt.2 hplace), ?_⟩
      show -(((e + 149).toNat * 2 ^ 23 + m : Nat) : Int) < 255 * 2 ^ 23
      omega

theorem level_positive_pos {m : Nat} {e : Int} {hm : 0 < m} :
    0 < level (.finite .positive m e hm) := by
  show 0 < (((e + 149).toNat * 2 ^ 23 + m : Nat) : Int)
  omega

theorem level_negative_neg {m : Nat} {e : Int} {hm : 0 < m} :
    level (.finite .negative m e hm) < 0 := by
  show -(((e + 149).toNat * 2 ^ 23 + m : Nat) : Int) < 0
  omega

/-- Comparing exponents first and mantissas then is comparing levels. -/
theorem then_compare_eq {e f : Int} {m n : Nat} {hm : 0 < m} {hn : 0 < n}
    (hu : Encodable (.finite .positive m e hm)) (hv : Encodable (.finite .positive n f hn)) :
    (compare e f).then (compare m n) =
      compare (((e + 149).toNat * 2 ^ 23 + m : Nat) : Int)
        (((f + 149).toNat * 2 ^ 23 + n : Nat) : Int) := by
  obtain ⟨h1, h2, h3, h4⟩ := hu
  obtain ⟨k1, k2, k3, k4⟩ := hv
  rcases Int.lt_trichotomy e f with hlt | heq | hgt
  · rw [Int.compare_eq_lt.2 hlt, Int.compare_eq_lt.2 (by omega)]
    rfl
  · subst heq
    rw [Int.compare_eq_eq.2 rfl, Ordering.eq_then]
    rcases Nat.lt_trichotomy m n with hlt | heq | hgt
    · rw [Nat.compare_eq_lt.2 hlt, Int.compare_eq_lt.2 (by omega)]
    · rw [Nat.compare_eq_eq.2 heq, Int.compare_eq_eq.2 (by omega)]
    · rw [Nat.compare_eq_gt.2 hgt, Int.compare_eq_gt.2 (by omega)]
  · rw [Int.compare_eq_gt.2 hgt, Int.compare_eq_gt.2 (by omega)]
    rfl

theorem swap_compare_eq (a b : Int) : (compare a b).swap = compare (-a) (-b) := by
  rcases Int.lt_trichotomy a b with hlt | heq | hgt
  · rw [Int.compare_eq_lt.2 hlt, Int.compare_eq_gt.2 (by omega)]
    rfl
  · rw [Int.compare_eq_eq.2 heq, Int.compare_eq_eq.2 (by omega)]
    rfl
  · rw [Int.compare_eq_gt.2 hgt, Int.compare_eq_lt.2 (by omega)]
    rfl

/-- Numbers that are defined compare as their levels do. -/
theorem compare_eq {u v : UnpackedFloat} (hu : Encodable u) (hv : Encodable v)
    (hnu : u ≠ .notANumber) (hnv : v ≠ .notANumber) :
    u.compare v = some (compare (level u) (level v)) := by
  cases u with
  | notANumber => exact absurd rfl hnu
  | infinity s =>
      cases v with
      | notANumber => exact absurd rfl hnv
      | infinity t => cases s <;> cases t <;> rfl
      | zero t => cases s <;> cases t <;> rfl
      | finite t n f hn =>
          obtain ⟨hlo, hhi⟩ := natAbs_level_finite_lt hv
          cases s with
          | positive => exact some_gt_eq hhi
          | negative => exact some_lt_eq hlo
  | zero s =>
      cases v with
      | notANumber => exact absurd rfl hnv
      | infinity t => cases s <;> cases t <;> rfl
      | zero t => cases s <;> cases t <;> rfl
      | finite t n f hn =>
          have hz : level (.zero s) = 0 := by cases s <;> rfl
          rw [hz]
          cases t with
          | positive => exact some_lt_eq level_positive_pos
          | negative => exact some_gt_eq level_negative_neg
  | finite s m e hm =>
      cases v with
      | notANumber => exact absurd rfl hnv
      | infinity t =>
          obtain ⟨hlo, hhi⟩ := natAbs_level_finite_lt hu
          cases t with
          | positive => exact some_lt_eq hhi
          | negative => exact some_gt_eq hlo
      | zero t =>
          have hz : level (.zero t) = 0 := by cases t <;> rfl
          rw [hz]
          cases s with
          | positive => exact some_gt_eq level_positive_pos
          | negative => exact some_lt_eq level_negative_neg
      | finite t n f hn =>
          -- Under one sign the exponents and mantissas decide, swapped if the sign is negative.
          cases s with
          | positive =>
              cases t with
              | positive => exact congrArg some (then_compare_eq hu hv)
              | negative => exact some_gt_eq (Int.lt_trans level_negative_neg level_positive_pos)
          | negative =>
              cases t with
              | positive => exact some_lt_eq (Int.lt_trans level_negative_neg level_positive_pos)
              | negative =>
                  show some ((compare e f).then (compare m n)).swap = _
                  rw [@then_compare_eq e f m n hm hn hu hv, swap_compare_eq]
                  rfl

/-! ## The order of single-precision numbers -/

theorem isNaN_eq_true_iff (x : Float32) : x.isNaN = true ↔ parts x = .notANumber := by
  show (parts x).isNaN = true ↔ _
  cases parts x with
  | notANumber => exact ⟨fun _ => rfl, fun _ => rfl⟩
  | infinity s => exact ⟨fun h => absurd h Bool.false_ne_true, fun h => nomatch h⟩
  | zero s => exact ⟨fun h => absurd h Bool.false_ne_true, fun h => nomatch h⟩
  | finite s m e hm => exact ⟨fun h => absurd h Bool.false_ne_true, fun h => nomatch h⟩

theorem isNaN_eq_false_iff (x : Float32) : x.isNaN = false ↔ parts x ≠ .notANumber := by
  rw [← Bool.not_eq_true, isNaN_eq_true_iff]

theorem le_iff_compare (x y : Float32) :
    x ≤ y ↔ ((parts x).compare (parts y)).any (·.isLE) = true := by
  show decide (UnpackedFloat.le (parts x) (parts y) = true) = true ↔ _
  rw [decide_eq_true_iff]
  rfl

theorem lt_iff_compare (x y : Float32) :
    x < y ↔ (parts x).compare (parts y) = some .lt := by
  show decide (UnpackedFloat.lt (parts x) (parts y) = true) = true ↔ _
  simp [UnpackedFloat.lt]

theorem compare_notANumber (u : UnpackedFloat) : u.compare .notANumber = none := by
  cases u with
  | notANumber => rfl
  | infinity s => cases s <;> rfl
  | zero s => rfl
  | finite s m e hm => cases s <;> rfl

/-- Only numbers that are defined are in order. -/
theorem isNaN_eq_false_of_le {x y : Float32} (h : x ≤ y) :
    x.isNaN = false ∧ y.isNaN = false := by
  rw [isNaN_eq_false_iff, isNaN_eq_false_iff]
  rw [le_iff_compare] at h
  constructor
  · intro hx
    rw [hx] at h
    exact absurd h Bool.false_ne_true
  · intro hy
    rw [hy, compare_notANumber] at h
    exact absurd h Bool.false_ne_true

theorem le_iff_level {x y : Float32} (hx : x.isNaN = false) (hy : y.isNaN = false) :
    x ≤ y ↔ level (parts x) ≤ level (parts y) := by
  rw [isNaN_eq_false_iff] at hx hy
  rw [le_iff_compare, compare_eq (encodable_parts x) (encodable_parts y) hx hy, Option.any_some]
  exact Int.isLE_compare

theorem lt_iff_level {x y : Float32} (hx : x.isNaN = false) (hy : y.isNaN = false) :
    x < y ↔ level (parts x) < level (parts y) := by
  rw [isNaN_eq_false_iff] at hx hy
  rw [lt_iff_compare, compare_eq (encodable_parts x) (encodable_parts y) hx hy,
    Option.some.injEq]
  exact Int.compare_eq_lt

theorem le_iff_units {x y : Float32} (hx : x.isNaN = false) (hy : y.isNaN = false) :
    x ≤ y ↔ units (parts x) ≤ units (parts y) := by
  rw [le_iff_level hx hy, units_le_units_iff (encodable_parts x) (encodable_parts y)]

theorem lt_iff_units {x y : Float32} (hx : x.isNaN = false) (hy : y.isNaN = false) :
    x < y ↔ units (parts x) < units (parts y) := by
  rw [lt_iff_level hx hy, units_lt_units_iff (encodable_parts x) (encodable_parts y)]

theorem units_parts_zero : units (parts (0.0 : Float32)) = 0 := by decide

theorem nonneg_iff_units {x : Float32} (hx : x.isNaN = false) : 0.0 ≤ x ↔ 0 ≤ units (parts x) := by
  rw [le_iff_units (by decide) hx, units_parts_zero]

theorem nonpos_iff_units {x : Float32} (hx : x.isNaN = false) : x ≤ 0.0 ↔ units (parts x) ≤ 0 := by
  rw [le_iff_units hx (by decide), units_parts_zero]

theorem pos_iff_units {x : Float32} (hx : x.isNaN = false) : 0.0 < x ↔ 0 < units (parts x) := by
  rw [lt_iff_units (by decide) hx, units_parts_zero]

theorem units_nonneg_iff {x : Float32} (hx : x.isNaN = false) : 0 ≤ units (parts x) ↔ ¬ x < 0.0 := by
  rw [lt_iff_units hx (by decide), units_parts_zero]
  omega

theorem not_le_iff_lt {x y : Float32} (hx : x.isNaN = false) (hy : y.isNaN = false) :
    ¬ x ≤ y ↔ y < x := by
  rw [le_iff_level hx hy, lt_iff_level hy hx]
  omega

theorem le_refl {x : Float32} (hx : x.isNaN = false) : x ≤ x :=
  (le_iff_level hx hx).2 (Int.le_refl _)

theorem le_trans {x y z : Float32} (hxy : x ≤ y) (hyz : y ≤ z) : x ≤ z := by
  obtain ⟨hx, hy⟩ := isNaN_eq_false_of_le hxy
  obtain ⟨-, hz⟩ := isNaN_eq_false_of_le hyz
  rw [le_iff_level hx hy] at hxy
  rw [le_iff_level hy hz] at hyz
  rw [le_iff_level hx hz]
  exact Int.le_trans hxy hyz

/-! ## Finite numbers -/

theorem isFinite_eq (x : Float32) : x.isFinite = (parts x).isFinite := rfl

theorem isNaN_eq_false_of_isFinite {x : Float32} (h : x.isFinite = true) : x.isNaN = false := by
  rw [isNaN_eq_false_iff]
  intro hn
  rw [isFinite_eq, hn] at h
  exact absurd h Bool.false_ne_true

/-! ## The rank of the bits -/

/-- The word of a number that is defined, in terms of its sign and its place. -/
theorem toNat_toBits {u : UnpackedFloat} (h : Encodable u) (hn : u ≠ .notANumber) :
    (packed u).toBits.toNat = signBit (sign u) + (scale u * 2 ^ 23 + digits u) := by
  cases u with
  | notANumber => exact absurd rfl hn
  | infinity s => cases s <;> rfl
  | zero s => cases s <;> rfl
  | finite s m e hm => rw [toNat_toBits_finite s m e hm h, Nat.add_assoc]; rfl

theorem place_lt {u : UnpackedFloat} (h : Encodable u) :
    scale u * 2 ^ 23 + digits u < 2 ^ 31 := by
  have hd := digits_lt h
  cases u with
  | finite s m e hm =>
      obtain ⟨h1, h2, h3, h4⟩ := h
      show (e + 149).toNat * 2 ^ 23 + m < 2 ^ 31
      omega
  | infinity s => show 254 * 2 ^ 23 + 2 ^ 23 < 2 ^ 31; decide
  | notANumber => show 0 * 2 ^ 23 + 0 < 2 ^ 31; decide
  | zero s => show 0 * 2 ^ 23 + 0 < 2 ^ 31; decide

theorem level_nonneg_of_sign {u : UnpackedFloat} (h : sign u = .positive) : 0 ≤ level u := by
  unfold level
  rw [h]
  exact Int.natCast_nonneg _

theorem level_nonpos_of_sign {u : UnpackedFloat} (h : sign u = .negative) : level u ≤ 0 := by
  unfold level
  rw [h]
  exact Int.neg_nonpos_of_nonneg (Int.natCast_nonneg _)

/-- The rank of a word without the sign bit is its level. -/
theorem rank_of_positive {x : Float32} (hx : x.isNaN = false) (hs : sign (parts x) = .positive) :
    rank x = level (parts x) := by
  have henc := encodable_parts x
  have hword := toNat_toBits henc ((isNaN_eq_false_iff x).1 hx)
  have hlt := place_lt henc
  rw [packed_parts, hs] at hword
  unfold rank rankOfBits level
  rw [hword, hs]
  generalize scale (parts x) * 2 ^ 23 + digits (parts x) = n at hlt
  show (if ((0 + n : Nat) : Int) < 0x80000000 then ((0 + n : Nat) : Int)
    else 0x7fffffff - ((0 + n : Nat) : Int)) = (n : Int)
  rw [if_pos (by omega)]
  omega

/-- With the sign bit, the rank comes one before the level, so negative zero has a rank of its
own. -/
theorem rank_of_negative {x : Float32} (hx : x.isNaN = false) (hs : sign (parts x) = .negative) :
    rank x = level (parts x) - 1 := by
  have henc := encodable_parts x
  have hword := toNat_toBits henc ((isNaN_eq_false_iff x).1 hx)
  rw [packed_parts, hs] at hword
  unfold rank rankOfBits level
  rw [hword, hs]
  generalize scale (parts x) * 2 ^ 23 + digits (parts x) = n
  show (if ((2 ^ 31 + n : Nat) : Int) < 0x80000000 then ((2 ^ 31 + n : Nat) : Int)
    else 0x7fffffff - ((2 ^ 31 + n : Nat) : Int)) = -(n : Int) - 1
  rw [if_neg (by omega)]
  omega

/-- Numbers whose bits are in order are in order. -/
theorem le_of_rank_le {x y : Float32} (hx : x.isNaN = false) (hy : y.isNaN = false)
    (h : rank x ≤ rank y) : x ≤ y := by
  rw [le_iff_level hx hy]
  cases hsx : sign (parts x) with
  | positive =>
      have hx0 := level_nonneg_of_sign hsx
      cases hsy : sign (parts y) with
      | positive =>
          rw [rank_of_positive hx hsx, rank_of_positive hy hsy] at h
          exact h
      | negative =>
          have hy0 := level_nonpos_of_sign hsy
          rw [rank_of_positive hx hsx, rank_of_negative hy hsy] at h
          omega
  | negative =>
      have hx0 := level_nonpos_of_sign hsx
      cases hsy : sign (parts y) with
      | positive => exact Int.le_trans hx0 (level_nonneg_of_sign hsy)
      | negative =>
          rw [rank_of_negative hx hsx, rank_of_negative hy hsy] at h
          omega

theorem eq_of_apply_eq {s t : Sign} {a b : Nat} (h : s.apply (a : Int) = t.apply (b : Int))
    (hne : s.apply (a : Int) ≠ 0) : s = t ∧ a = b := by
  cases s <;> cases t <;> simp only [Sign.apply] at h hne
  · exact ⟨rfl, by omega⟩
  · omega
  · omega
  · exact ⟨rfl, by omega⟩

/-- A number other than zero is known by its level. -/
theorem eq_of_level_eq {x y : Float32} (hx : x.isNaN = false) (hy : y.isNaN = false)
    (h : level (parts x) = level (parts y)) (hne : level (parts x) ≠ 0) : x = y := by
  have hwx := toNat_toBits (encodable_parts x) ((isNaN_eq_false_iff x).1 hx)
  have hwy := toNat_toBits (encodable_parts y) ((isNaN_eq_false_iff y).1 hy)
  obtain ⟨hsign, hplace⟩ := eq_of_apply_eq h hne
  rw [packed_parts] at hwx hwy
  apply toBits_injective
  rw [hwx, hwy, hsign, hplace]

end SpriteStage.Single
