import SpriteStage.Proofs.Single.Sum

/-!
# Whole numbers

Durations and times are often whole numbers, and arithmetic on whole numbers is exact as long as the
result is at most `2 ^ 24` (`IsWhole.add`, `IsWhole.sub`, `IsWhole.mul`, `isWhole_toFloat32`). So
two sums of the same whole numbers in another order are equal, which is what makes it possible to
split a tick.
-/

set_option autoImplicit false

namespace SpriteStage.Single

open Float.Model (Format UnpackedFloat)
open Float.Model.UnpackedFloat

/-- The units of the number one. -/
def wholeUnit : Nat := 2 ^ 149

/-- A finite number with the value of an integer. -/
structure IsWhole (x : Float32) (n : Int) : Prop where
  /-- The number is finite. -/
  finite : x.isFinite = true
  /-- It is so many units. -/
  units_eq : units (parts x) = n * wholeUnit

theorem IsWhole.not_infinite {x : Float32} {n : Int} (h : IsWhole x n) : ¬ x.isFinite = false := by
  rw [h.finite]
  exact Bool.noConfusion

theorem wholeUnit_pos : 0 < wholeUnit := Nat.two_pow_pos 149

theorem wholeUnit_eq (a b : Nat) (h : a + b = 149) : wholeUnit = 2 ^ a * 2 ^ b := by
  rw [← Nat.pow_add, h]
  rfl

theorem apply_mul_wholeUnit (s : Sign) (n : Nat) :
    s.apply (n : Int) * wholeUnit = s.apply ((n * wholeUnit : Nat) : Int) := by
  rw [apply_mul, Int.natCast_mul]

theorem mul_wholeUnit_inj {m n : Int} (h : m * wholeUnit = n * wholeUnit) : m = n := by
  have hne : (wholeUnit : Int) ≠ 0 := by
    have := wholeUnit_pos
    omega
  exact Int.eq_of_mul_eq_mul_right hne h

/-- Digits at a negative exponent are a whole number if those after the point are zero. -/
theorem mul_two_pow_eq_iff {m n k l : Nat} (h : k + l = 149) :
    m * 2 ^ l = n * wholeUnit ↔ m % 2 ^ k = 0 ∧ m / 2 ^ k = n := by
  rw [wholeUnit_eq k l h, ← Nat.mul_assoc, Nat.mul_right_cancel_iff (Nat.two_pow_pos l)]
  constructor
  · intro hm
    rw [hm, Nat.mul_mod_left, Nat.mul_div_cancel _ (Nat.two_pow_pos k)]
    exact ⟨rfl, rfl⟩
  · rintro ⟨hmod, rfl⟩
    exact (Nat.div_mul_cancel (Nat.dvd_of_mod_eq_zero hmod)).symm

/-- The same for digits with a sign. -/
theorem apply_mul_two_pow_eq_iff {m k l : Nat} (h : k + l = 149) (s : Sign) (n : Int) :
    s.apply ((m * 2 ^ l : Nat) : Int) = n * wholeUnit ↔
      m % 2 ^ k = 0 ∧ s.apply ((m / 2 ^ k : Nat) : Int) = n := by
  constructor
  · intro hn
    have habs := congrArg Int.natAbs hn
    rw [natAbs_apply, Int.natAbs_mul, Int.natAbs_natCast] at habs
    have hmod := ((mul_two_pow_eq_iff h).1 habs).1
    refine ⟨hmod, ?_⟩
    rw [(mul_two_pow_eq_iff h).2 ⟨hmod, rfl⟩, ← apply_mul_wholeUnit] at hn
    exact mul_wholeUnit_inj hn
  · rintro ⟨hmod, rfl⟩
    rw [(mul_two_pow_eq_iff h).2 ⟨hmod, rfl⟩, ← apply_mul_wholeUnit]

/-- The integer that a number is said to be is its value. -/
theorem toInt?_eq_some_iff (x : Float32) (n : Int) : toInt? x = some n ↔ IsWhole x n := by
  have henc := encodable_parts x
  have hwhole : IsWhole x n ↔ (parts x).isFinite = true ∧ units (parts x) = n * wholeUnit :=
    ⟨fun h => ⟨h.finite, h.units_eq⟩, fun h => ⟨h.1, h.2⟩⟩
  rw [hwhole]
  have hparts : x.toModel.unpack = parts x := rfl
  unfold toInt?
  rw [hparts]
  cases hp : parts x with
  | notANumber => exact ⟨fun h => (nomatch h), fun h => absurd h.1 Bool.false_ne_true⟩
  | infinity s => exact ⟨fun h => (nomatch h), fun h => absurd h.1 Bool.false_ne_true⟩
  | zero s =>
      rw [units_zero]
      constructor
      · intro h
        cases h
        exact ⟨rfl, (Int.zero_mul _).symm⟩
      · rintro ⟨-, h⟩
        exact congrArg some (mul_wholeUnit_inj ((Int.zero_mul _).trans h))
  | finite s m e hm =>
      rw [hp] at henc
      obtain ⟨h1, h2, h3, h4⟩ := henc
      have hfin : (UnpackedFloat.finite s m e hm).isFinite = true := rfl
      refine Iff.trans ?_ (and_iff_right hfin).symm
      show (if 0 ≤ e then some (s.apply ((m <<< e.toNat : Nat) : Int))
        else if m % (1 <<< (-e).toNat) = 0 then some (s.apply ((m / (1 <<< (-e).toNat) : Nat) : Int))
        else none) = some n ↔ s.apply ((m * 2 ^ (e + 149).toNat : Nat) : Int) = n * wholeUnit
      rw [Nat.shiftLeft_eq, Nat.shiftLeft_eq, Nat.one_mul]
      by_cases h0 : 0 ≤ e
      · -- The digits all stand before the point.
        have hshift : m * 2 ^ (e + 149).toNat = m * 2 ^ e.toNat * wholeUnit := by
          rw [show (e + 149).toNat = e.toNat + 149 by omega, Nat.pow_add, ← Nat.mul_assoc]
          rfl
        rw [if_pos h0, hshift, Option.some.injEq, ← apply_mul_wholeUnit]
        exact ⟨fun h => congrArg (· * (wholeUnit : Int)) h, mul_wholeUnit_inj⟩
      · rw [if_neg h0, apply_mul_two_pow_eq_iff (k := (-e).toNat) (by omega)]
        by_cases hmod : m % 2 ^ (-e).toNat = 0
        · rw [if_pos hmod, Option.some.injEq, and_iff_right hmod]
        · rw [if_neg hmod]
          exact ⟨fun h => (nomatch h), fun h => absurd h.1 hmod⟩

/-! ## Exact operations -/

theorem two_pow_dvd_mul_wholeUnit {n : Nat} (hn : n ≤ 2 ^ 24) :
    2 ^ ((n * wholeUnit).log2 - 23) ∣ n * wholeUnit := by
  by_cases h0 : n = 0
  · rw [h0, Nat.zero_mul]
    exact Nat.dvd_zero _
  · unfold wholeUnit
    rw [log2_mul_two_pow (Nat.pos_of_ne_zero h0)]
    by_cases hlt : n < 2 ^ 24
    · have hlog := (Nat.log2_lt h0).2 hlt
      exact Nat.dvd_trans (Nat.pow_dvd_pow 2 (by omega)) (Nat.dvd_mul_left _ _)
    · have heq : n = 2 ^ 24 := by omega
      rw [heq, Nat.log2_two_pow, ← Nat.pow_add]
      exact Nat.pow_dvd_pow 2 (by omega)

theorem mul_wholeUnit_lt_limit {n : Nat} (hn : n ≤ 2 ^ 24) : n * wholeUnit < limit := by
  rw [limit_eq 128 149 rfl]
  refine Nat.mul_lt_mul_of_pos_right (Nat.lt_of_le_of_lt hn ?_) (Nat.two_pow_pos _)
  exact Nat.pow_lt_pow_right (by omega) (by omega)

/-- A rounded integer is that integer, unless it has more than 24 digits. -/
theorem Rounds.isWhole {n : Int} {x : Float32} (h : Rounds (n * wholeUnit) x)
    (hn : n.natAbs ≤ 2 ^ 24) : IsWhole x n := by
  have habs : (n * wholeUnit).natAbs = n.natAbs * wholeUnit := by
    rw [Int.natAbs_mul, Int.natAbs_natCast]
  have hlt := mul_wholeUnit_lt_limit hn
  have hunits : units (parts x) = n * wholeUnit := by
    refine h.units_eq ?_ ?_
    · rw [habs]
      exact two_pow_dvd_mul_wholeUnit hn
    · rw [habs]
      exact hlt
  refine ⟨isFinite_of_natAbs_units_lt h.defined ?_, hunits⟩
  rw [hunits, habs]
  exact hlt

theorem IsWhole.add {x y : Float32} {m n : Int} (hx : IsWhole x m) (hy : IsWhole y n)
    (h : (m + n).natAbs ≤ 2 ^ 24) : IsWhole (x + y) (m + n) := by
  have hround := rounds_add hx.finite hy.finite
  rw [hx.units_eq, hy.units_eq, ← Int.add_mul] at hround
  exact hround.isWhole h

theorem IsWhole.sub {x y : Float32} {m n : Int} (hx : IsWhole x m) (hy : IsWhole y n)
    (h : (m - n).natAbs ≤ 2 ^ 24) : IsWhole (x - y) (m - n) := by
  have hround := rounds_sub hx.finite hy.finite
  rw [hx.units_eq, hy.units_eq, ← Int.sub_mul] at hround
  exact hround.isWhole h

theorem isWhole_zero_iff {x : Float32} {s : Sign} (h : parts x = .zero s) (n : Int) :
    IsWhole x n ↔ n = 0 := by
  have hunits : units (parts x) = 0 * wholeUnit := by rw [h, units_zero, Int.zero_mul]
  constructor
  · intro hx
    exact mul_wholeUnit_inj (hx.units_eq.symm.trans hunits)
  · rintro rfl
    refine ⟨?_, hunits⟩
    rw [isFinite_eq, h]
    rfl

/-- The digits of a whole number that is not zero are set from the first on, and few of them are
after the point. -/
theorem IsWhole.le_exponent {x : Float32} {n : Int} (hx : IsWhole x n) {s : Sign} {m : Nat} {e : Int}
    {hm : 0 < m} (hp : parts x = .finite s m e hm) : -23 ≤ e ∧ 2 ^ 23 ≤ m := by
  have henc := encodable_parts x
  have hnat := natAbs_units (parts x)
  rw [hx.units_eq, Int.natAbs_mul, Int.natAbs_natCast, hp] at hnat
  rw [hp] at henc
  obtain ⟨h1, h2, h3, h4⟩ := henc
  change n.natAbs * wholeUnit = m * 2 ^ (e + 149).toNat at hnat
  have hpos : 0 < n.natAbs * wholeUnit := by
    rw [hnat]
    exact Nat.mul_pos hm (Nat.two_pow_pos _)
  have hle : wholeUnit ≤ m * 2 ^ (e + 149).toNat := by
    rw [← hnat]
    exact Nat.le_mul_of_pos_left _ (Nat.pos_of_mul_pos_right hpos)
  have hlow : -23 ≤ e := by
    refine Int.not_lt.1 fun hlt => Nat.not_lt.2 hle ?_
    calc
      m * 2 ^ (e + 149).toNat < 2 ^ 24 * 2 ^ (e + 149).toNat :=
        Nat.mul_lt_mul_of_pos_right h1 (Nat.two_pow_pos _)
      _ ≤ 2 ^ 24 * 2 ^ 125 := Nat.mul_le_mul_left _ (Nat.pow_le_pow_right (by omega) (by omega))
      _ = wholeUnit := (wholeUnit_eq 24 125 rfl).symm
  exact ⟨hlow, h4.resolve_right (by omega)⟩

theorem apply_mul_apply (s t : Sign) (a b : Int) : s.apply a * t.apply b = (s * t).apply (a * b) := by
  cases s <;> cases t
  · exact Int.neg_mul_neg a b
  · exact Int.neg_mul a b
  · exact Int.mul_neg a b
  · rfl

/-- The value of a product of digits, of which each has the value of a whole number. -/
theorem apply_mul_digits {s t : Sign} {a b : Nat} {e f m n : Int}
    (hx : s.apply ((a * 2 ^ (e + 149).toNat : Nat) : Int) = m * wholeUnit)
    (hy : t.apply ((b * 2 ^ (f + 149).toNat : Nat) : Int) = n * wholeUnit) (he : -23 ≤ e)
    (hf : -23 ≤ f) :
    (s * t).apply ((a * b * 2 ^ (e + f + 149).toNat : Nat) : Int) = m * n * wholeUnit := by
  -- Both sides are multiplied by one more whole unit, which the two factors have.
  refine mul_wholeUnit_inj ?_
  have hexp : a * b * 2 ^ (e + f + 149).toNat * wholeUnit =
      a * 2 ^ (e + 149).toNat * (b * 2 ^ (f + 149).toNat) := by
    unfold wholeUnit
    rw [Nat.mul_assoc, ← Nat.pow_add, Nat.mul_mul_mul_comm, ← Nat.pow_add]
    congr 2
    omega
  calc
    (s * t).apply ((a * b * 2 ^ (e + f + 149).toNat : Nat) : Int) * wholeUnit
        = (m * wholeUnit) * (n * wholeUnit) := by
          rw [apply_mul_wholeUnit, hexp, Int.natCast_mul (a * _), ← apply_mul_apply, hx, hy]
    _ = m * n * wholeUnit * wholeUnit := by
          rw [Int.mul_assoc, Int.mul_assoc, Int.mul_left_comm (wholeUnit : Int), Int.mul_assoc]

/-- A product with a zero is a zero. -/
theorem exists_parts_mul_eq_zero {x y : Float32} {s : Sign} (hx : x.isFinite = true)
    (hy : y.isFinite = true) (h : parts x = .zero s ∨ parts y = .zero s) :
    ∃ u, parts (x * y) = .zero u := by
  rcases zero_or_finite_of_isFinite hx with ⟨t, hp⟩ | ⟨t, a, e, ha, hp⟩
  · rcases zero_or_finite_of_isFinite hy with ⟨u, hq⟩ | ⟨u, b, f, hb, hq⟩
    · refine ⟨t * u, ?_⟩
      rw [mul_eq, hp, hq]
      exact parts_packed trivial
    · refine ⟨t * u, ?_⟩
      rw [mul_eq, hp, hq]
      exact parts_packed trivial
  · rcases h with h | h
    · rw [hp] at h
      cases h
    · refine ⟨t * s, ?_⟩
      rw [mul_eq, hp, h]
      exact parts_packed trivial

/-- The product of whole numbers is computed from all digits of both. -/
theorem IsWhole.mul {x y : Float32} {m n : Int} (hx : IsWhole x m) (hy : IsWhole y n)
    (h : (m * n).natAbs ≤ 2 ^ 24) : IsWhole (x * y) (m * n) := by
  rcases zero_or_finite_of_isFinite hx.finite with ⟨s, hp⟩ | ⟨s, a, e, ha, hp⟩
  · obtain ⟨u, hu⟩ := exists_parts_mul_eq_zero hx.finite hy.finite (Or.inl hp)
    rw [isWhole_zero_iff hu, (isWhole_zero_iff hp m).1 hx, Int.zero_mul]
  rcases zero_or_finite_of_isFinite hy.finite with ⟨t, hq⟩ | ⟨t, b, f, hb, hq⟩
  · obtain ⟨u, hu⟩ := exists_parts_mul_eq_zero hx.finite hy.finite (Or.inr hq)
    rw [isWhole_zero_iff hu, (isWhole_zero_iff hq n).1 hy, Int.mul_zero]
  obtain ⟨he, hafull⟩ := hx.le_exponent hp
  obtain ⟨hf, hbfull⟩ := hy.le_exponent hq
  have hab : 0 < a * b := Nat.mul_pos ha hb
  have hlog : 46 ≤ (a * b).log2 := by
    rw [Nat.le_log2 (by omega)]
    show 2 ^ 23 * 2 ^ 23 ≤ a * b
    exact Nat.mul_le_mul hafull hbfull
  have hround : IsRounding (s * t) (a * b * 2 ^ (e + f + 149).toNat) (x * y) := by
    rw [mul_eq, hp, hq]
    refine isRounding_roundWithAccuracy (s * t) hab (by omega) ?_
    unfold target
    omega
  have hxu := hx.units_eq
  have hyu := hy.units_eq
  rw [hp] at hxu
  rw [hq] at hyu
  have hrounds := hround.rounds (Nat.mul_pos hab (Nat.two_pow_pos _))
  have hvalue : (s * t).apply ((a * b * 2 ^ (e + f + 149).toNat : Nat) : Int) =
      m * n * wholeUnit := apply_mul_digits hxu hyu he hf
  rw [hvalue] at hrounds
  exact hrounds.isWhole h

theorem isWhole_toFloat32 {n : UInt32} (h : n.toNat ≤ 2 ^ 24) :
    IsWhole n.toFloat32 (n.toNat : Int) := by
  have hround := rounds_normalize (n.toNat : Int) (e := 0) (by omega) .positive
  refine Rounds.isWhole ?_ (by omega)
  have hpow : ((wholeUnit : Nat) : Int) = 2 ^ ((0 : Int) + 149).toNat := by
    unfold wholeUnit
    rw [Int.natCast_pow]
    rfl
  rw [hpow]
  exact hround

/-! ## Comparing -/

theorem IsWhole.defined {x : Float32} {n : Int} (h : IsWhole x n) : x.isNaN = false :=
  isNaN_eq_false_of_isFinite h.finite

theorem IsWhole.le_iff {x y : Float32} {m n : Int} (hx : IsWhole x m) (hy : IsWhole y n) :
    x ≤ y ↔ m ≤ n := by
  have hpos : (0 : Int) < wholeUnit := by
    have := wholeUnit_pos
    omega
  rw [le_iff_units hx.defined hy.defined, hx.units_eq, hy.units_eq]
  exact Int.mul_le_mul_right hpos

theorem IsWhole.lt_iff {x y : Float32} {m n : Int} (hx : IsWhole x m) (hy : IsWhole y n) :
    x < y ↔ m < n := by
  rw [← not_le_iff_lt hy.defined hx.defined, hy.le_iff hx]
  omega

theorem isWhole_zero : IsWhole 0.0 0 := (toInt?_eq_some_iff 0.0 0).1 rfl

/-- A whole number other than zero has one representation. -/
theorem IsWhole.eq_of_ne_zero {x y : Float32} {n : Int} (hx : IsWhole x n) (hy : IsWhole y n)
    (hn : n ≠ 0) : x = y := by
  have hunits : units (parts x) = units (parts y) := hx.units_eq.trans hy.units_eq.symm
  have hxy := units_le_units_iff (encodable_parts x) (encodable_parts y)
  have hyx := units_le_units_iff (encodable_parts y) (encodable_parts x)
  have hlevel : level (parts x) = level (parts y) := by omega
  refine eq_of_level_eq hx.defined hy.defined hlevel fun h0 => hn ?_
  have hzero : level (parts (0.0 : Float32)) = 0 := by decide
  have hle := (le_iff_level hx.defined (show (0.0 : Float32).isNaN = false from rfl)).2 (by omega)
  have hge := (le_iff_level (show (0.0 : Float32).isNaN = false from rfl) hx.defined).2 (by omega)
  rw [hx.le_iff isWhole_zero] at hle
  rw [isWhole_zero.le_iff hx] at hge
  omega

end SpriteStage.Single
