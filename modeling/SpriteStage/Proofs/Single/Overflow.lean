import SpriteStage.Proofs.Single.Bounds
import SpriteStage.Proofs.Single.Whole
import SpriteStage.Proofs.Single.Zero

/-!
# Where results become infinite

A result is infinite exactly if the exact value is at least `overflow` units, which is halfway from
the greatest number to the one that would follow it. Whether that is so can be read off the digits
before any is dropped: a mantissa of 24 digits becomes one digit longer by rounding only if all of
them are set and the digit after them is set too (`two_pow_le_roundedMantissa_iff`). So each
operation on finite numbers has a threshold in terms of the units of its operands
(`isFinite_add_iff`, `isFinite_mul_iff`, `isFinite_div_iff`).
-/

set_option autoImplicit false

namespace SpriteStage.Single

open Float.Model (Format UnpackedFloat totalExponent)
open Float.Model.UnpackedFloat

/-! ## The digit after a mantissa -/

/-- A mantissa together with the digit after it. -/
def doubled (a : ExtendedMantissa) : Nat := 2 * a.mantissa + a.roundBit.toNat

theorem doubled_shiftRightOne (a : ExtendedMantissa) : doubled a.shiftRightOne = doubled a / 2 := by
  obtain ⟨m, r, s⟩ := a
  have hlast : (m % 2 != 0).toNat = m % 2 := by
    rcases Nat.mod_two_eq_zero_or_one m with h | h <;> rw [h] <;> rfl
  show 2 * (m / 2) + (m % 2 != 0).toNat = (2 * m + r.toNat) / 2
  have hr : r.toNat ≤ 1 := Bool.toNat_le r
  omega

theorem doubled_shiftRight (a : ExtendedMantissa) (n : Nat) :
    doubled (a >>> n) = doubled a / 2 ^ n := by
  induction n with
  | zero => rw [shiftRight_zero, Nat.pow_zero, Nat.div_one]
  | succ n ih =>
      rw [shiftRight_succ, doubled_shiftRightOne, ih, Nat.div_div_eq_div_mul, Nat.pow_succ]

/-- A fraction is rounded to one digit more only if its digits and the next one are all set. What
comes after that does not matter, since such a mantissa is odd. -/
theorem two_pow_le_roundedMantissa_iff {a : ExtendedMantissa} (h : a.mantissa < 2 ^ 24) :
    2 ^ 24 ≤ a.roundedMantissa ↔ 2 ^ 25 - 1 ≤ doubled a := by
  obtain ⟨m, r, s⟩ := a
  cases r <;> cases s <;>
    simp only [ExtendedMantissa.roundedMantissa, ExtendedMantissa.accuracy,
      Accuracy.roundToNearestEven, doubled, Bool.toNat_true, Bool.toNat_false] <;> omega

/-- The digit after the whole part of a fraction says whether the rest is half of the denominator. -/
theorem doubled_fraction (num : Nat) {den : Nat} (hden : 0 < den) :
    doubled (ExtendedMantissa.ofMantissaAndAccuracy (num / den)
      (accuracyOfFraction (num % den) den)) = 2 * num / den := by
  have hsplit : 2 * num = 2 * (num % den) + den * (2 * (num / den)) := by
    have := Nat.mod_add_div num den
    rw [Nat.mul_left_comm]
    omega
  have hrest := Nat.mod_lt num hden
  rw [hsplit, Nat.add_mul_div_left _ _ hden]
  generalize num / den = q
  unfold accuracyOfFraction
  by_cases hzero : num % den = 0
  · rw [if_pos hzero, hzero, Nat.mul_zero, Nat.zero_div, Nat.zero_add]
    rfl
  · rw [if_neg hzero]
    rcases Nat.lt_trichotomy (2 * (num % den)) den with hlt | heq | hgt
    · rw [Nat.compare_eq_lt.2 hlt, Nat.div_eq_of_lt hlt, Nat.zero_add]
      rfl
    · rw [Nat.compare_eq_eq.2 heq, heq, Nat.div_self hden, Nat.add_comm]
      rfl
    · have hone : 2 * (num % den) / den = 1 := by
        rw [Nat.div_eq_iff hden]
        omega
      rw [Nat.compare_eq_gt.2 hgt, hone, Nat.add_comm]
      rfl

/-! ## Rounding a fraction -/

/-- The units from which on a result is infinite. -/
def overflow : Nat := (2 ^ 25 - 1) * 2 ^ 252

theorem overflow_eq (a b : Nat) (h : a + b = 252) : overflow = (2 ^ 25 - 1) * 2 ^ a * 2 ^ b := by
  rw [Nat.mul_assoc, ← Nat.pow_add, h]
  rfl

theorem overflow_pos : 0 < overflow := Nat.mul_pos (by decide) (Nat.two_pow_pos 252)

theorem overflow_lt_limit : overflow < limit := by
  rw [limit_eq 25 252 rfl]
  exact Nat.mul_lt_mul_of_pos_right (by decide) (Nat.two_pow_pos 252)

/-- A finite number has fewer units than make a result infinite. -/
theorem natAbs_units_lt_overflow {x : Float32} (h : x.isFinite = true) :
    (units (parts x)).natAbs < overflow := by
  have henc := encodable_parts x
  rcases zero_or_finite_of_isFinite h with ⟨s, hp⟩ | ⟨s, m, e, hm, hp⟩
  · rw [hp, units_zero]
    exact overflow_pos
  · rw [hp] at henc
    obtain ⟨hlt, -, hhigh, -⟩ := henc
    have hpow : 2 ^ (e + 149).toNat ≤ 2 ^ 253 := Nat.pow_le_pow_right (by omega) (by omega)
    rw [hp, natAbs_units]
    show m * 2 ^ (e + 149).toNat < overflow
    calc
      m * 2 ^ (e + 149).toNat ≤ (2 ^ 24 - 1) * 2 ^ 253 := Nat.mul_le_mul (by omega) hpow
      _ < overflow := by
        rw [overflow_eq 0 252 rfl, Nat.pow_succ 2 252, Nat.mul_comm (2 ^ 252), ← Nat.mul_assoc]
        exact Nat.mul_lt_mul_of_pos_right (by decide) (Nat.two_pow_pos 252)

theorem isFinite_iff_units_lt {x : Float32} (hx : x.isNaN = false) :
    x.isFinite = true ↔ (units (parts x)).natAbs < limit :=
  ⟨fun h => Nat.lt_trans (natAbs_units_lt_overflow h) overflow_lt_limit,
    isFinite_of_natAbs_units_lt hx⟩

/-- The digits that are kept of a fraction come to infinity exactly if the fraction does. The greatest
exponent of a number is 104, and only there does it matter how the fraction is rounded. -/
theorem kept_lt_limit_iff {num den r : Nat} {e t : Int} (hden : 0 < den)
    (ht : target (num / den) e = t) (hm : 0 < num / den ∨ t = -149) (he : e ≤ t) (hle : r ≤ 2 ^ 24)
    (hlead : 2 ^ 23 ≤ r ∨ t = -149)
    (hfull : 2 ^ 24 ≤ r ↔ (2 ^ 25 - 1) * (den * 2 ^ (t - e).toNat) ≤ 2 * num) {i j : Nat}
    (hij : (i : Int) + 104 = j + e) :
    r * 2 ^ (t + 149).toNat < limit ↔ 2 * num * 2 ^ i < (2 ^ 25 - 1) * den * 2 ^ j := by
  unfold target at ht
  rcases Int.lt_trichotomy t 104 with hlt | heq | hgt
  · -- below the greatest exponent the fraction is less than a power of two that is no infinity
    have hnum : num < den * 2 ^ ((num / den).log2 + 1) := by
      rw [Nat.mul_comm, ← Nat.div_lt_iff_lt_mul hden]
      exact Nat.lt_log2_self
    refine iff_of_true ?_ ?_
    · calc
        r * 2 ^ (t + 149).toNat ≤ 2 ^ 24 * 2 ^ 252 :=
          Nat.mul_le_mul hle (Nat.pow_le_pow_right (by omega) (by omega))
        _ < limit := by
          rw [limit_eq 25 252 rfl]
          exact Nat.mul_lt_mul_of_pos_right (by decide) (Nat.two_pow_pos 252)
    · calc
        2 * num * 2 ^ i < 2 * (den * 2 ^ ((num / den).log2 + 1)) * 2 ^ i :=
          Nat.mul_lt_mul_of_pos_right (by omega) (Nat.two_pow_pos i)
        _ = den * 2 ^ ((num / den).log2 + 1 + (1 + i)) := by
          rw [Nat.pow_add 2 (_ + 1), Nat.pow_add 2 1, Nat.pow_one]
          ac_rfl
        _ ≤ den * 2 ^ (24 + j) :=
          Nat.mul_le_mul_left den (Nat.pow_le_pow_right (by omega) (by omega))
        _ ≤ (2 ^ 25 - 1) * den * 2 ^ j := by
          rw [Nat.pow_add, ← Nat.mul_assoc, Nat.mul_comm den]
          exact Nat.mul_le_mul_right _ (Nat.mul_le_mul_right den (by decide))
  · -- at the greatest exponent it is infinity if it is rounded to a digit more
    have hcancel : (2 ^ 25 - 1) * den * 2 ^ j =
        (2 ^ 25 - 1) * (den * 2 ^ (t - e).toNat) * 2 ^ i := by
      rw [show j = (t - e).toNat + i by omega, Nat.pow_add]
      ac_rfl
    rw [hcancel, Nat.mul_lt_mul_right (Nat.two_pow_pos i), ← Nat.not_le, ← Nat.not_le, ← hfull,
      limit_eq 24 253 rfl, heq]
    exact not_congr (Nat.mul_le_mul_right_iff (Nat.two_pow_pos 253))
  · -- above it there is no number
    have hne : num / den ≠ 0 := by omega
    have hnum : den * 2 ^ (num / den).log2 ≤ num :=
      Nat.le_trans (Nat.mul_le_mul_left den (Nat.log2_self_le hne)) (Nat.mul_div_le num den)
    refine iff_of_false (Nat.not_lt.2 ?_) (Nat.not_lt.2 ?_)
    · rw [limit_eq 23 254 rfl]
      exact Nat.mul_le_mul (by omega) (Nat.pow_le_pow_right (by omega) (by omega))
    · calc
        (2 ^ 25 - 1) * den * 2 ^ j ≤ 2 ^ 25 * den * 2 ^ j :=
          Nat.mul_le_mul_right _ (Nat.mul_le_mul_right den (by decide))
        _ = den * 2 ^ (25 + j) := by
          rw [Nat.pow_add, Nat.mul_comm _ den, Nat.mul_assoc]
        _ ≤ den * 2 ^ ((num / den).log2 + 1 + i) :=
          Nat.mul_le_mul_left den (Nat.pow_le_pow_right (by omega) (by omega))
        _ = 2 * (den * 2 ^ (num / den).log2) * 2 ^ i := by
          rw [Nat.pow_add, Nat.pow_succ]
          ac_rfl
        _ ≤ 2 * num * 2 ^ i := Nat.mul_le_mul_right _ (by omega)

/-- Rounding a fraction is defined and keeps the sign. It is finite exactly if the fraction is less
than 24 digits that are all set, and half of the last of them, at the greatest exponent. -/
theorem isFinite_roundWithAccuracy (s : Sign) (num : Nat) {den : Nat} {e : Int} (hden : 0 < den)
    (he : e ≤ target (num / den) e) (hm : 0 < num / den ∨ target (num / den) e = -149) {x : Float32}
    (hx : x = packed (roundWithAccuracy Format.binary32 s (num / den) e
      (accuracyOfFraction (num % den) den))) {i j : Nat} (hij : (i : Int) + 104 = j + e) :
    x.isNaN = false ∧ sign (parts x) = s ∧
      (x.isFinite = true ↔ 2 * num * 2 ^ i < (2 ^ 25 - 1) * den * 2 ^ j) := by
  obtain ⟨hle, hlead⟩ := roundedFrom_bounds (accuracyOfFraction (num % den) den) he hm
  have hmin : -149 ≤ target (num / den) e := Int.le_max_right _ _
  obtain ⟨hdefined, hsign, hunits⟩ := units_packed_carried s hle hmin hlead
  rw [← roundWithAccuracy_eq_carried s _ he hm, ← hx] at hdefined hsign hunits
  have hnan := (isNaN_eq_false_iff x).2 hdefined
  refine ⟨hnan, hsign, ?_⟩
  have hcapped : ∀ n : Nat, min n limit < limit ↔ n < limit := fun n => by omega
  rw [isFinite_iff_units_lt hnan, hunits, natAbs_apply, hcapped]
  refine kept_lt_limit_iff hden rfl hm he hle hlead ?_ hij
  have hkept := div_two_pow_lt he
  rw [← mantissa_ofMantissaAndAccuracy (num / den) (accuracyOfFraction (num % den) den),
    ← mantissa_shiftRight, mantissa_ofMantissaAndAccuracy] at hkept
  unfold roundedFrom
  rw [two_pow_le_roundedMantissa_iff hkept, doubled_shiftRight, doubled_fraction num hden,
    Nat.div_div_eq_div_mul, Nat.le_div_iff_mul_le (Nat.mul_pos hden (Nat.two_pow_pos _))]

/-- A whole mantissa is a fraction with the denominator one. -/
theorem isFinite_roundWithAccuracy_exact (s : Sign) {m : Nat} {e : Int} (hm : 0 < m)
    (he : e ≤ target m e) {i j : Nat} (hij : (i : Int) + 104 = j + e) :
    (packed (roundWithAccuracy Format.binary32 s m e .exact)).isFinite = true ↔
      2 * m * 2 ^ i < (2 ^ 25 - 1) * 2 ^ j := by
  have hfraction := isFinite_roundWithAccuracy s m (e := e) Nat.one_pos (by rwa [Nat.div_one])
    (Or.inl (by rwa [Nat.div_one])) rfl hij
  rw [Nat.div_one, Nat.mod_one, Nat.mul_one] at hfraction
  exact hfraction.2.2

theorem isFinite_round_iff (s : Sign) {m : Nat} {e : Int} (hm : 0 < m) (hlow : -149 ≤ e) :
    (packed (UnpackedFloat.round Format.binary32 s m e)).isFinite = true ↔
      m * 2 ^ (e + 149).toNat < overflow := by
  obtain ⟨n, hlow', htarget, hround⟩ := exists_round_eq s hm hlow
  have hpos : 0 < m * 2 ^ n := Nat.mul_pos hm (Nat.two_pow_pos n)
  rw [hround, isFinite_roundWithAccuracy_exact s hpos htarget (i := (e - n + 149).toNat) (j := 253)
    (by omega), Nat.mul_assoc 2, mul_two_pow_units hlow', overflow]
  omega

/-! ## Operations -/

section

variable {x y : Float32}

theorem isFinite_packed_zero (s : Sign) : (packed (.zero s)).isFinite = true := by
  rw [isFinite_eq, parts_packed (u := .zero s) trivial]
  rfl

theorem isFinite_normalize_iff (m : Int) {e : Int} (hlow : -149 ≤ e) (s : Sign) :
    (packed (UnpackedFloat.normalize Format.binary32 m e s)).isFinite = true ↔
      (m * 2 ^ (e + 149).toNat).natAbs < overflow := by
  rw [Int.natAbs_mul, Int.natAbs_pow]
  unfold UnpackedFloat.normalize
  rcases Int.lt_trichotomy m 0 with hlt | heq | hgt
  · rw [Int.compare_eq_lt.2 hlt, ← Int.natAbs_neg m]
    have hnat : (-m).natAbs = (-m).toNat := by omega
    rw [hnat]
    exact isFinite_round_iff .negative (by omega) hlow
  · subst heq
    rw [Int.compare_eq_eq.2 rfl]
    refine iff_of_true ?_ ?_
    · exact isFinite_packed_zero s
    · rw [Int.natAbs_zero, Nat.zero_mul]
      exact overflow_pos
  · rw [Int.compare_eq_gt.2 hgt]
    have hnat : m.natAbs = m.toNat := by omega
    rw [hnat]
    exact isFinite_round_iff .positive (by omega) hlow

/-- A sum of finite numbers is finite exactly if the exact sum is less than `overflow`. -/
theorem isFinite_add_iff (hx : x.isFinite = true) (hy : y.isFinite = true) :
    (x + y).isFinite = true ↔ (units (parts x) + units (parts y)).natAbs < overflow := by
  have hxlt := natAbs_units_lt_overflow hx
  have hylt := natAbs_units_lt_overflow hy
  rcases zero_or_finite_of_isFinite hx with ⟨s, hp⟩ | ⟨s, m, e, hm, hp⟩
  · rw [hp, units_zero, Int.zero_add]
    rcases zero_or_finite_of_isFinite hy with ⟨t, hq⟩ | ⟨t, n, f, hn, hq⟩
    · obtain ⟨u, hu⟩ := add_zeros s t
      refine iff_of_true ?_ hylt
      rw [add_eq, hp, hq, hu]
      exact isFinite_packed_zero u
    · rw [add_eq_right hp hq]
      exact iff_of_true hy hylt
  · rcases zero_or_finite_of_isFinite hy with ⟨t, hq⟩ | ⟨t, n, f, hn, hq⟩
    · rw [add_eq_left hp hq, hq, units_zero, Int.add_zero]
      exact iff_of_true hx hxlt
    · obtain ⟨k, sum, hk, hunits, hsum⟩ := exists_add_eq_normalize hp hq
      rw [hsum, ← hunits]
      exact isFinite_normalize_iff sum hk .positive

/-- The exact difference of two numbers does not overflow. -/
def DifferenceFits (x y : Float32) : Prop := (units (parts x) - units (parts y)).natAbs < overflow

instance (x y : Float32) : Decidable (DifferenceFits x y) := inferInstanceAs (Decidable (_ < _))

theorem isFinite_sub_iff (hx : x.isFinite = true) (hy : y.isFinite = true) :
    (x - y).isFinite = true ↔ DifferenceFits x y := by
  rw [sub_eq_add, isFinite_add_iff hx (isFinite_neg hy), parts_neg, units_neg,
    ← Int.sub_eq_add_neg, DifferenceFits]

/-- The exact product of two numbers does not overflow. -/
def ProductFits (x y : Float32) : Prop :=
  (units (parts x)).natAbs * (units (parts y)).natAbs < overflow * wholeUnit

instance (x y : Float32) : Decidable (ProductFits x y) := inferInstanceAs (Decidable (_ < _))

/-- A product of finite numbers is finite exactly if the exact product is less than `overflow`. -/
theorem isFinite_mul_iff (hx : x.isFinite = true) (hy : y.isFinite = true) :
    (x * y).isFinite = true ↔ ProductFits x y := by
  have hpos : 0 < overflow * wholeUnit := Nat.mul_pos overflow_pos wholeUnit_pos
  have hencx := encodable_parts x
  have hency := encodable_parts y
  rcases zero_or_finite_of_isFinite hx with ⟨s, hp⟩ | ⟨s, m, e, hm, hp⟩
  · obtain ⟨u, hu⟩ := exists_parts_mul_eq_zero hx hy (Or.inl hp)
    rw [ProductFits, hp, units_zero, Int.natAbs_zero, Nat.zero_mul]
    exact iff_of_true (IsZero.isFinite ⟨u, hu⟩) hpos
  rcases zero_or_finite_of_isFinite hy with ⟨t, hq⟩ | ⟨t, n, f, hn, hq⟩
  · obtain ⟨u, hu⟩ := exists_parts_mul_eq_zero hx hy (Or.inr hq)
    rw [ProductFits, hq, units_zero, Int.natAbs_zero, Nat.mul_zero]
    exact iff_of_true (IsZero.isFinite ⟨u, hu⟩) hpos
  rw [hp] at hencx
  rw [hq] at hency
  have hlowx := hencx.2.1
  have hlowy := hency.2.1
  have hround := isFinite_roundWithAccuracy_exact (s * t) (Nat.mul_pos hm hn)
    (le_target_mul hencx hency) (i := (e + 149).toNat + (f + 149).toNat) (j := 402) (by omega)
  have hunits : (units (parts x)).natAbs * (units (parts y)).natAbs =
      m * n * 2 ^ ((e + 149).toNat + (f + 149).toNat) := by
    rw [natAbs_units, natAbs_units, hp, hq, Nat.pow_add]
    show m * 2 ^ (e + 149).toNat * (n * 2 ^ (f + 149).toNat) = _
    ac_rfl
  rw [ProductFits, hunits, mul_eq, hp, hq]
  refine hround.trans ?_
  rw [Nat.mul_assoc 2, overflow, wholeUnit]
  omega

theorem div_eq (x y : Float32) :
    x / y = packed (UnpackedFloat.div Format.binary32 (parts x) (parts y)) := rfl

theorem isNaN_div_of_isNaN (hx : x.isNaN = true) (y : Float32) : (x / y).isNaN = true := by
  rw [isNaN_eq_true_iff] at hx ⊢
  have hquotient : UnpackedFloat.div Format.binary32 .notANumber (parts y) = .notANumber := by
    cases parts y <;> rfl
  rw [div_eq, hx, hquotient]
  exact parts_packed trivial

/-- A quotient is computed with so many zeros after the first mantissa that enough digits of it are
known. -/
theorem div_eq_fraction {s t : Sign} {m n : Nat} {e f : Int} {hm : 0 < m} {hn : 0 < n}
    (hx : parts x = .finite s m e hm) (hy : parts y = .finite t n f hn) :
    ∃ k : Nat, e - f - k ≤ target (m * 2 ^ k / n) (e - f - k) ∧
      (0 < m * 2 ^ k / n ∨ target (m * 2 ^ k / n) (e - f - k) = -149) ∧
        x / y = packed (roundWithAccuracy Format.binary32 (s / t) (m * 2 ^ k / n) (e - f - k)
          (accuracyOfFraction (m * 2 ^ k % n) n)) := by
  have hexp : Format.binary32.targetExponent (totalExponent m e - totalExponent n f) =
      max ((m.log2 : Int) + 1 + e - (n.log2 + 1 + f) - 24) (-149) := rfl
  generalize hk : (e - f - min (e - f) (max ((m.log2 : Int) + 1 + e - (n.log2 + 1 + f) - 24)
    (-149))).toNat = k
  have hmin : min (e - f) (max ((m.log2 : Int) + 1 + e - (n.log2 + 1 + f) - 24) (-149)) =
      e - f - k := by omega
  have hlogm := (Nat.log2_eq_iff (Nat.ne_of_gt hm)).1 rfl
  have hlogn := (Nat.log2_eq_iff (Nat.ne_of_gt hn)).1 rfl
  refine ⟨k, ?_, ?_, ?_⟩
  · -- the quotient has about as many digits as the first mantissa has more than the second
    have hlog : m.log2 + k ≤ (m * 2 ^ k / n).log2 + n.log2 + 1 := by
      by_cases hfew : m.log2 + k ≤ n.log2
      · omega
      · have hle : 2 ^ (m.log2 + k - (n.log2 + 1)) ≤ m * 2 ^ k / n := by
          rw [Nat.le_div_iff_mul_le hn]
          calc
            2 ^ (m.log2 + k - (n.log2 + 1)) * n ≤
                2 ^ (m.log2 + k - (n.log2 + 1)) * 2 ^ (n.log2 + 1) :=
              Nat.mul_le_mul_left _ (Nat.le_of_lt hlogn.2)
            _ = 2 ^ m.log2 * 2 ^ k := by
              rw [← Nat.pow_add, ← Nat.pow_add]
              congr 1
              omega
            _ ≤ m * 2 ^ k := Nat.mul_le_mul_right _ hlogm.1
        have hne : m * 2 ^ k / n ≠ 0 := by
          have := Nat.two_pow_pos (m.log2 + k - (n.log2 + 1))
          omega
        have := (Nat.le_log2 hne).2 hle
        omega
    unfold target
    omega
  · -- without any digit it is less than one at an exponent that is not above the least
    by_cases hzero : m * 2 ^ k / n = 0
    · refine Or.inr ?_
      have hless : m * 2 ^ k < n := by
        rcases Nat.div_eq_zero_iff.1 hzero with h | h
        · omega
        · exact h
      have hlt : 2 ^ (m.log2 + k) < 2 ^ (n.log2 + 1) := by
        rw [Nat.pow_add]
        exact Nat.lt_of_le_of_lt (Nat.mul_le_mul_right _ hlogm.1) (Nat.lt_trans hless hlogn.2)
      have hle := (Nat.pow_lt_pow_iff_right (by decide)).1 hlt
      rw [hzero, target, show Nat.log2 0 = 0 by decide]
      omega
    · exact Or.inl (Nat.pos_of_ne_zero hzero)
  · rw [div_eq, hx, hy]
    unfold UnpackedFloat.div divCore
    dsimp only
    rw [hexp, hmin, Nat.shiftLeft_eq, show (e - f - (e - f - k)).toNat = k by omega]

/-- The exact quotient of two numbers does not overflow. -/
def QuotientFits (x y : Float32) : Prop :=
  (units (parts x)).natAbs * wholeUnit < overflow * (units (parts y)).natAbs

instance (x y : Float32) : Decidable (QuotientFits x y) := inferInstanceAs (Decidable (_ < _))

/-- A quotient of finite numbers is finite exactly if the exact quotient is less than `overflow`. -/
theorem isFinite_div_iff (hx : x.isFinite = true) (hy : y.isFinite = true)
    (hne : units (parts y) ≠ 0) :
    (x / y).isNaN = false ∧ sign (parts (x / y)) = sign (parts x) / sign (parts y) ∧
      ((x / y).isFinite = true ↔ QuotientFits x y) := by
  rcases zero_or_finite_of_isFinite hy with ⟨t, hq⟩ | ⟨t, n, f, hn, hq⟩
  · exact absurd (by rw [hq, units_zero]) hne
  have hency := encodable_parts y
  rw [hq] at hency
  have hlowy := hency.2.1
  rcases zero_or_finite_of_isFinite hx with ⟨s, hp⟩ | ⟨s, m, e, hm, hp⟩
  · have hzero : parts (x / y) = .zero (s / t) := by
      rw [div_eq, hp, hq]
      exact parts_packed trivial
    have hfinite := IsZero.isFinite ⟨_, hzero⟩
    refine ⟨isNaN_eq_false_of_isFinite hfinite, by rw [hzero, hp, hq]; rfl, ?_⟩
    refine iff_of_true hfinite ?_
    rw [QuotientFits, hp, units_zero, Int.natAbs_zero, Nat.zero_mul]
    exact Nat.mul_pos overflow_pos (by omega)
  · have hencx := encodable_parts x
    rw [hp] at hencx
    have hlowx := hencx.2.1
    obtain ⟨k, he, hdigits, hquotient⟩ := div_eq_fraction hp hq
    obtain ⟨hnan, hsign, hfinite⟩ := isFinite_roundWithAccuracy (s / t) (m * 2 ^ k) hn he hdigits
      hquotient (i := (e + 149).toNat) (j := (f + 149).toNat + k + 104) (by omega)
    have hux : (units (parts x)).natAbs = m * 2 ^ (e + 149).toNat := by rw [hp, natAbs_units]; rfl
    have huy : (units (parts y)).natAbs = n * 2 ^ (f + 149).toNat := by rw [hq, natAbs_units]; rfl
    refine ⟨hnan, by rw [hsign, hp, hq]; rfl, ?_⟩
    -- the zeros after the first mantissa are on both sides
    have hleft : 2 * (m * 2 ^ k) * 2 ^ (e + 149).toNat = 2 * (m * 2 ^ (e + 149).toNat) * 2 ^ k := by
      ac_rfl
    have hright : (2 ^ 25 - 1) * n * 2 ^ ((f + 149).toNat + k + 104) =
        (2 ^ 25 - 1) * (n * 2 ^ (f + 149).toNat) * 2 ^ 104 * 2 ^ k := by
      rw [Nat.pow_add, Nat.pow_add]
      ac_rfl
    rw [QuotientFits, hfinite, hleft, hright, Nat.mul_lt_mul_right (Nat.two_pow_pos k), hux, huy, overflow,
      wholeUnit]
    omega

theorem Unsigned.infinite_or_isFinite (h : Unsigned x) :
    parts x = .infinity .positive ∨ x.isFinite = true := by
  obtain ⟨hdefined, hsign⟩ := h
  rw [isFinite_eq]
  cases hp : parts x with
  | notANumber => exact absurd hp ((isNaN_eq_false_iff x).1 hdefined)
  | zero s => exact Or.inr rfl
  | finite s m e hm => exact Or.inr rfl
  | infinity s =>
      rw [hp] at hsign
      exact Or.inl (congrArg _ hsign)

theorem isFinite_infinity {s : Sign} (h : parts x = .infinity s) : x.isFinite = false := by
  rw [isFinite_eq, h]
  rfl

/-- A quotient by a finite number above zero has no sign if the dividend has none; it is finite
exactly if the dividend is and the exact quotient is less than `overflow`. -/
theorem Unsigned.div (hx : Unsigned x) (hy : Positive y) (hfinite : y.isFinite = true) :
    Unsigned (x / y) ∧
      ((x / y).isFinite = true ↔ x.isFinite = true ∧ QuotientFits x y) := by
  have hsigny := sign_eq_of_units_pos hy.units_pos
  rcases hx.infinite_or_isFinite with hp | hxf
  · rcases hy.parts_cases with hq | ⟨n, f, hn, hq⟩
    · rw [isFinite_infinity hq] at hfinite
      cases hfinite
    · have hquotient : parts (x / y) = .infinity .positive := by
        rw [div_eq, hp, hq]
        exact parts_packed trivial
      refine ⟨⟨?_, by rw [hquotient]; rfl⟩, ?_⟩
      · rw [isNaN_eq_false_iff, hquotient]
        exact fun h => nomatch h
      · rw [isFinite_infinity hquotient, isFinite_infinity hp]
        simp
  · obtain ⟨hnan, hsign, hiff⟩ := isFinite_div_iff hxf hfinite (Int.ne_of_gt hy.units_pos)
    refine ⟨⟨hnan, by rw [hsign, hx.sign_eq, hsigny]; rfl⟩, ?_⟩
    rw [hiff, hxf]
    simp

end

end SpriteStage.Single
