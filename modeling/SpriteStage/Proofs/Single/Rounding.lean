import SpriteStage.Proofs.Single.Order

/-!
# Rounding

What an operation computes is the exact result with all but 24 of its digits dropped, to nearest.
`IsRounding` says what is used of that, for a result that is a whole number of units: the sign is
kept, a number that needs no more than 24 digits is kept as it is (`IsRounding.units_eq`), and no
representable number is jumped over (`IsRounding.le_units`).
-/

set_option autoImplicit false

namespace SpriteStage.Single

open Float.Model (Format UnpackedFloat totalExponent)
open Float.Model.UnpackedFloat

/-! ## Shifting a mantissa -/

/-- A mantissa without its last `n` digits, rounded to nearest. -/
def rounded (m n : Nat) : Nat :=
  (ExtendedMantissa.ofMantissaAndAccuracy m .exact >>> n).roundedMantissa

/-- A mantissa of some accuracy without its last `n` digits, rounded to nearest. -/
def roundedFrom (accuracy : Accuracy) (m n : Nat) : Nat :=
  (ExtendedMantissa.ofMantissaAndAccuracy m accuracy >>> n).roundedMantissa

theorem shiftRight_zero (a : ExtendedMantissa) : a >>> (0 : Nat) = a := rfl

theorem shiftRight_succ (a : ExtendedMantissa) (n : Nat) :
    a >>> (n + 1) = (a >>> n).shiftRightOne := rfl

theorem mantissa_shiftRight (a : ExtendedMantissa) (n : Nat) :
    (a >>> n).mantissa = a.mantissa / 2 ^ n := by
  induction n with
  | zero => rw [shiftRight_zero, Nat.pow_zero, Nat.div_one]
  | succ n ih =>
      rw [shiftRight_succ]
      show (a >>> n).mantissa / 2 = _
      rw [ih, Nat.pow_succ, Nat.div_div_eq_div_mul]

theorem shiftRight_exact (m n : Nat) :
    ExtendedMantissa.ofMantissaAndAccuracy (m * 2 ^ n) .exact >>> n =
      ExtendedMantissa.ofMantissaAndAccuracy m .exact := by
  induction n generalizing m with
  | zero => rw [shiftRight_zero, Nat.pow_zero, Nat.mul_one]
  | succ n ih =>
      have hassoc : m * 2 ^ (n + 1) = m * 2 * 2 ^ n := by
        rw [Nat.pow_succ, Nat.mul_comm (2 ^ n) 2, Nat.mul_assoc]
      rw [shiftRight_succ, hassoc, ih]
      simp [ExtendedMantissa.shiftRightOne, ExtendedMantissa.ofMantissaAndAccuracy]

theorem le_roundedMantissa (a : ExtendedMantissa) : a.mantissa ≤ a.roundedMantissa := by
  obtain ⟨m, r, s⟩ := a
  cases r <;> cases s <;>
    simp only [ExtendedMantissa.roundedMantissa, ExtendedMantissa.accuracy,
      Accuracy.roundToNearestEven] <;> omega

theorem roundedMantissa_le (a : ExtendedMantissa) : a.roundedMantissa ≤ a.mantissa + 1 := by
  obtain ⟨m, r, s⟩ := a
  cases r <;> cases s <;>
    simp only [ExtendedMantissa.roundedMantissa, ExtendedMantissa.accuracy,
      Accuracy.roundToNearestEven] <;> omega

theorem mantissa_ofMantissaAndAccuracy (m : Nat) (accuracy : Accuracy) :
    (ExtendedMantissa.ofMantissaAndAccuracy m accuracy).mantissa = m := by
  cases accuracy with
  | exact => rfl
  | inexact half => cases half <;> rfl

theorem div_le_roundedFrom (accuracy : Accuracy) (m n : Nat) :
    m / 2 ^ n ≤ roundedFrom accuracy m n := by
  have h := le_roundedMantissa (ExtendedMantissa.ofMantissaAndAccuracy m accuracy >>> n)
  rw [mantissa_shiftRight, mantissa_ofMantissaAndAccuracy] at h
  exact h

theorem roundedFrom_le (accuracy : Accuracy) (m n : Nat) :
    roundedFrom accuracy m n ≤ m / 2 ^ n + 1 := by
  have h := roundedMantissa_le (ExtendedMantissa.ofMantissaAndAccuracy m accuracy >>> n)
  rw [mantissa_shiftRight, mantissa_ofMantissaAndAccuracy] at h
  exact h

theorem div_le_rounded (m n : Nat) : m / 2 ^ n ≤ rounded m n := div_le_roundedFrom .exact m n

theorem rounded_le (m n : Nat) : rounded m n ≤ m / 2 ^ n + 1 := roundedFrom_le .exact m n

theorem rounded_of_dvd {m n : Nat} (h : 2 ^ n ∣ m) : rounded m n = m / 2 ^ n := by
  obtain ⟨k, rfl⟩ := h
  rw [Nat.mul_comm, Nat.mul_div_cancel _ (Nat.two_pow_pos n)]
  unfold rounded
  rw [shiftRight_exact]
  rfl

/-! ## Rounding to 24 digits -/

/-- The exponent of the last digit that is kept. -/
def target (m : Nat) (e : Int) : Int := max (m.log2 + e - 23) (-149)

theorem targetExponent_eq (m : Nat) (e : Int) :
    Format.binary32.targetExponent (totalExponent m e) = target m e := by
  show max ((m.log2 : Int) + 1 + e - 24) (-149) = max ((m.log2 : Int) + e - 23) (-149)
  omega

/-- The parts of a rounded mantissa; a digit too many goes to the exponent. -/
def carried (s : Sign) (r : Nat) (t : Int) : UnpackedFloat :=
  if h : r = 0 then .zero s
  else if r = 2 ^ 24 then .finite s (2 ^ 23) (t + 1) (by decide)
  else .finite s r t (Nat.pos_of_ne_zero h)

theorem log2_mul_two_pow {m : Nat} (hm : 0 < m) (n : Nat) : (m * 2 ^ n).log2 = m.log2 + n := by
  have hne : m * 2 ^ n ≠ 0 := Nat.ne_of_gt (Nat.mul_pos hm (Nat.two_pow_pos n))
  have hlog := (Nat.log2_eq_iff (Nat.ne_of_gt hm)).1 rfl
  refine (Nat.log2_eq_iff hne).2 ⟨?_, ?_⟩
  · rw [Nat.pow_add]
    exact Nat.mul_le_mul_right _ hlog.1
  · rw [show m.log2 + n + 1 = m.log2 + 1 + n by omega, Nat.pow_add]
    exact Nat.mul_lt_mul_of_pos_right hlog.2 (Nat.two_pow_pos n)

/-- What is left of the digits at the target exponent is less than 24 digits can hold. -/
theorem div_two_pow_lt {m : Nat} {e : Int} (he : e ≤ target m e) :
    m / 2 ^ (target m e - e).toNat < 2 ^ 24 := by
  rw [Nat.div_lt_iff_lt_mul (Nat.two_pow_pos _), ← Nat.pow_add]
  refine Nat.lt_of_lt_of_le Nat.lt_log2_self (Nat.pow_le_pow_right (by omega) ?_)
  unfold target at *
  omega

/-- The mantissa keeps 24 digits, of which the first is set unless the exponent is the least. -/
theorem roundedFrom_bounds (accuracy : Accuracy) {m : Nat} {e : Int} (he : e ≤ target m e)
    (hm : 0 < m ∨ target m e = -149) :
    roundedFrom accuracy m (target m e - e).toNat ≤ 2 ^ 24 ∧
      (2 ^ 23 ≤ roundedFrom accuracy m (target m e - e).toNat ∨ target m e = -149) := by
  have hlo := div_le_roundedFrom accuracy m (target m e - e).toNat
  have hhi := roundedFrom_le accuracy m (target m e - e).toNat
  -- `n` digits are dropped, which leaves 24, or fewer at the least exponent.
  have hq := div_two_pow_lt he
  generalize hn : (target m e - e).toNat = n at *
  refine ⟨by omega, ?_⟩
  by_cases hmin : target m e = -149
  · exact Or.inr hmin
  · have hne : m ≠ 0 := Nat.ne_of_gt (hm.resolve_right hmin)
    refine Or.inl (Nat.le_trans ?_ hlo)
    rw [Nat.le_div_iff_mul_le (Nat.two_pow_pos n), ← Nat.pow_add]
    refine Nat.le_trans (Nat.pow_le_pow_right (by omega) ?_) (Nat.log2_self_le hne)
    unfold target at hn hmin he
    omega

theorem rounded_bounds {m : Nat} {e : Int} (hm : 0 < m) (he : e ≤ target m e) :
    rounded m (target m e - e).toNat ≤ 2 ^ 24 ∧
      (2 ^ 23 ≤ rounded m (target m e - e).toNat ∨ target m e = -149) :=
  roundedFrom_bounds .exact he (Or.inl hm)

theorem shiftToExponent_eq (accuracy : Accuracy) (m : Nat) (e t : Int) :
    shiftToExponent m e accuracy t =
      (ExtendedMantissa.ofMantissaAndAccuracy m accuracy >>> (t - e).toNat,
        e + (t - e).toNat) := rfl

theorem shift_eq (accuracy : Accuracy) {m : Nat} {e : Int} (he : e ≤ target m e) :
    shiftToTargetExponent Format.binary32 m e accuracy =
      (ExtendedMantissa.ofMantissaAndAccuracy m accuracy >>> (target m e - e).toNat,
        target m e) := by
  unfold shiftToTargetExponent
  rw [targetExponent_eq, shiftToExponent_eq,
    show e + ((target m e - e).toNat : Int) = target m e by omega]

/-- A rounded mantissa is shifted again when it has one digit too many, and only then. -/
theorem shift_rounded_eq {r : Nat} {t : Int} (hr : r ≤ 2 ^ 24) (ht : -149 ≤ t) :
    shiftToTargetExponent Format.binary32 r t .exact =
      if r = 2 ^ 24 then (ExtendedMantissa.ofMantissaAndAccuracy (2 ^ 23) .exact, t + 1)
      else (ExtendedMantissa.ofMantissaAndAccuracy r .exact, t) := by
  unfold shiftToTargetExponent
  rw [targetExponent_eq]
  by_cases hfull : r = 2 ^ 24
  · have htarget : target r t = t + 1 := by
      rw [hfull]
      unfold target
      rw [Nat.log2_two_pow]
      omega
    rw [if_pos hfull, htarget, hfull, shiftToExponent_eq,
      show (t + 1 - t).toNat = 1 by omega]
    rfl
  · have hlog : r.log2 ≤ 23 := by
      by_cases h0 : r = 0
      · rw [h0]
        decide
      · have := (Nat.log2_lt h0).2 (show r < 2 ^ 24 by omega)
        omega
    have htarget : target r t ≤ t := by
      unfold target
      omega
    rw [if_neg hfull, shiftToExponent_eq, show (target r t - t).toNat = 0 by omega,
      shiftRight_zero]
    show (_, t + 0) = (_, t)
    rw [Int.add_zero]

/-- The parts of a mantissa that is left after shifting. -/
def finish (s : Sign) (p : ExtendedMantissa × Int) : UnpackedFloat :=
  if h : p.1.mantissa = 0 then .zero s else .finite s p.1.mantissa p.2 (Nat.pos_of_ne_zero h)

/-- Rounding drops digits down to the target exponent; the accuracy tells of those that were dropped
before. -/
theorem roundWithAccuracy_eq_carried (s : Sign) (accuracy : Accuracy) {m : Nat} {e : Int}
    (he : e ≤ target m e) (hm : 0 < m ∨ target m e = -149) :
    roundWithAccuracy Format.binary32 s m e accuracy =
      carried s (roundedFrom accuracy m (target m e - e).toNat) (target m e) := by
  obtain ⟨hle, -⟩ := roundedFrom_bounds accuracy he hm
  have hmin : -149 ≤ target m e := Int.le_max_right _ _
  show finish s (shiftToTargetExponent Format.binary32
    (shiftToTargetExponent Format.binary32 m e accuracy).1.roundedMantissa
    (shiftToTargetExponent Format.binary32 m e accuracy).2 .exact) = _
  rw [shift_eq accuracy he]
  show finish s (shiftToTargetExponent Format.binary32
    (roundedFrom accuracy m (target m e - e).toNat) (target m e) .exact) = _
  rw [shift_rounded_eq hle hmin]
  generalize roundedFrom accuracy m (target m e - e).toNat = r
  generalize target m e = t
  unfold carried
  by_cases hfull : r = 2 ^ 24
  · subst hfull
    rfl
  · rw [if_neg hfull]
    show (if h : r = 0 then _ else _) = _
    by_cases h0 : r = 0
    · rw [dif_pos h0, dif_pos h0]
    · rw [dif_neg h0, dif_neg h0, if_neg hfull]
      rfl

theorem roundWithAccuracy_eq (s : Sign) {m : Nat} {e : Int} (hm : 0 < m) (he : e ≤ target m e) :
    roundWithAccuracy Format.binary32 s m e .exact =
      carried s (rounded m (target m e - e).toNat) (target m e) :=
  roundWithAccuracy_eq_carried s .exact he (Or.inl hm)

/-! ## Packing a rounded number -/

/-- The units of what would follow the greatest number; infinity counts as so many. -/
def limit : Nat := 2 ^ 277

theorem limit_eq (a b : Nat) (h : a + b = 277) : limit = 2 ^ a * 2 ^ b := by
  rw [← Nat.pow_add, h]
  rfl

/-- What has a greater exponent than any number is packed as infinity. -/
theorem packed_overflow (s : Sign) {m : Nat} {e : Int} (hm : 0 < m) (he : 105 ≤ e) :
    packed (.finite s m e hm) = packed (.infinity s) := by
  apply toBits_injective
  show (UnpackedFloat.pack Format.binary32 (.finite s m e hm)).toNat =
    (UnpackedFloat.pack Format.binary32 (.infinity s)).toNat
  unfold UnpackedFloat.pack
  dsimp only
  rw [if_pos]
  show 2 ^ 8 ≤ (e + 127 + 23).toNat + 1
  omega

/-- A number is a rounding of `n` units under a sign: the digits that it keeps are those of `n`, or
one more at the end, and if no digit of `n` is lost they are those of `n`. -/
structure IsRounding (s : Sign) (n : Nat) (x : Float32) : Prop where
  /-- The number is defined. -/
  defined : x.isNaN = false
  /-- The sign is kept. -/
  sign_eq : sign (parts x) = s
  /-- The digits that are kept. -/
  exists_digits : ∃ r, n / 2 ^ (n.log2 - 23) ≤ r ∧ r ≤ n / 2 ^ (n.log2 - 23) + 1 ∧
    (2 ^ (n.log2 - 23) ∣ n → r = n / 2 ^ (n.log2 - 23)) ∧
      units (parts x) = s.apply ((min (r * 2 ^ (n.log2 - 23)) limit : Nat) : Int)

/-- A mantissa of 24 digits is packed with its value, or as infinity. -/
theorem units_packed_finite (s : Sign) {m : Nat} {e : Int} (hm : 0 < m) (hlt : m < 2 ^ 24)
    (he : -149 ≤ e) (hlead : 2 ^ 23 ≤ m ∨ e = -149) :
    parts (packed (.finite s m e hm)) ≠ .notANumber ∧ sign (parts (packed (.finite s m e hm))) = s ∧
      units (parts (packed (.finite s m e hm))) =
        s.apply ((min (m * 2 ^ (e + 149).toNat) limit : Nat) : Int) := by
  by_cases hbig : 104 < e
  · -- The exponent is too large for a word, and the value is at least that of infinity.
    have hinf : parts (packed (.infinity s)) = .infinity s := parts_packed trivial
    have hlimit : units (.infinity s) = s.apply (limit : Int) := by
      rw [limit_eq 23 254 rfl]
      rfl
    have hle : limit ≤ m * 2 ^ (e + 149).toNat := by
      rw [limit_eq 23 254 rfl]
      exact Nat.mul_le_mul (hlead.resolve_right (by omega))
        (Nat.pow_le_pow_right (by omega) (by omega))
    rw [packed_overflow s hm (by omega), hinf, hlimit, Nat.min_eq_right hle]
    exact ⟨fun h => (nomatch h), rfl, rfl⟩
  · have henc : Encodable (.finite s m e hm) := ⟨hlt, he, by omega, hlead⟩
    have hle : m * 2 ^ (e + 149).toNat ≤ limit := by
      rw [limit_eq 24 253 rfl]
      exact Nat.mul_le_mul (Nat.le_of_lt hlt) (Nat.pow_le_pow_right (by omega) (by omega))
    rw [parts_packed henc, Nat.min_eq_left hle]
    exact ⟨fun h => (nomatch h), rfl, rfl⟩

/-- The parts of a rounded mantissa hold its value, or infinity. -/
theorem units_packed_carried (s : Sign) {r : Nat} {t : Int} (hr : r ≤ 2 ^ 24) (ht : -149 ≤ t)
    (hlead : 2 ^ 23 ≤ r ∨ t = -149) :
    parts (packed (carried s r t)) ≠ .notANumber ∧ sign (parts (packed (carried s r t))) = s ∧
      units (parts (packed (carried s r t))) =
        s.apply ((min (r * 2 ^ (t + 149).toNat) limit : Nat) : Int) := by
  unfold carried
  by_cases h0 : r = 0
  · have hz : parts (packed (.zero s)) = .zero s := parts_packed trivial
    rw [dif_pos h0, hz, h0, Nat.zero_mul, Nat.zero_min]
    refine ⟨fun h => (nomatch h), rfl, ?_⟩
    show s.apply (((0 : Nat) * 2 ^ 0 : Nat) : Int) = _
    rw [Nat.zero_mul]
  rw [dif_neg h0]
  by_cases hfull : r = 2 ^ 24
  · -- The digit too many went to the exponent, which keeps the value.
    have hshift : 2 ^ 24 * 2 ^ (t + 149).toNat = 2 ^ 23 * 2 ^ (t + 1 + 149).toNat := by
      rw [show (t + 1 + 149).toNat = (t + 149).toNat + 1 by omega, Nat.pow_succ]
      omega
    rw [if_pos hfull, hfull, hshift]
    exact units_packed_finite s (by decide) (by omega) (by omega) (Or.inl (Nat.le_refl _))
  · rw [if_neg hfull]
    exact units_packed_finite s (Nat.pos_of_ne_zero h0) (by omega) ht hlead

/-- The digits that the target exponent drops from `n` units are those past the first 24. -/
theorem target_add_eq {m : Nat} {e : Int} (hm : 0 < m) (he : -149 ≤ e) :
    (target m e + 149).toNat = (m * 2 ^ (e + 149).toNat).log2 - 23 := by
  rw [log2_mul_two_pow hm]
  unfold target
  omega

theorem isRounding_roundWithAccuracy (s : Sign) {m : Nat} {e : Int} (hm : 0 < m)
    (hlow : -149 ≤ e) (he : e ≤ target m e) :
    IsRounding s (m * 2 ^ (e + 149).toNat)
      (packed (roundWithAccuracy Format.binary32 s m e .exact)) := by
  obtain ⟨hle, hlead⟩ := rounded_bounds hm he
  obtain ⟨hdef, hsign, hunits⟩ := units_packed_carried s hle (Int.le_max_right _ _) hlead
  have hdrop := target_add_eq hm hlow
  rw [roundWithAccuracy_eq s hm he]
  -- Of the units, the digits that are dropped are the `k` dropped ones and those of the least unit.
  generalize hk : (target m e - e).toNat = k at *
  have hsplit : (m * 2 ^ (e + 149).toNat).log2 - 23 = k + (e + 149).toNat := by omega
  have hdiv : m * 2 ^ (e + 149).toNat / 2 ^ (k + (e + 149).toNat) = m / 2 ^ k := by
    rw [Nat.pow_add, Nat.mul_div_mul_right _ _ (Nat.two_pow_pos _)]
  refine ⟨(isNaN_eq_false_iff _).2 hdef, hsign, rounded m k, ?_, ?_, ?_, ?_⟩
  · rw [hsplit, hdiv]
    exact div_le_rounded m k
  · rw [hsplit, hdiv]
    exact rounded_le m k
  · rw [hsplit, hdiv]
    intro hdvd
    rw [Nat.pow_add] at hdvd
    exact rounded_of_dvd (Nat.dvd_of_mul_dvd_mul_right (Nat.two_pow_pos _) hdvd)
  · rw [← hdrop]
    exact hunits

/-- To be rounded, a mantissa gets zeros at its end until its last digit is not above the one that is
kept; that does not lead below the least unit. -/
theorem exists_round_eq (s : Sign) {m : Nat} {e : Int} (hm : 0 < m) (hlow : -149 ≤ e) :
    ∃ n : Nat, -149 ≤ e - n ∧ e - n ≤ target (m * 2 ^ n) (e - n) ∧
      UnpackedFloat.round Format.binary32 s m e =
        roundWithAccuracy Format.binary32 s (m * 2 ^ n) (e - n) .exact := by
  have hmin : -149 ≤ target m e := Int.le_max_right _ _
  have htarget : target (m * 2 ^ (e - target m e).toNat) (e - (e - target m e).toNat) =
      target m e := by
    unfold target
    rw [log2_mul_two_pow hm]
    omega
  refine ⟨(e - target m e).toNat, by omega, by omega, ?_⟩
  unfold UnpackedFloat.round
  rw [targetExponent_eq]
  show roundWithAccuracy Format.binary32 s (m <<< (e - target m e).toNat)
    (e - (e - target m e).toNat) .exact = _
  rw [Nat.shiftLeft_eq]

/-- A mantissa with zeros at its end stands for the same units. -/
theorem mul_two_pow_units {m n : Nat} {e : Int} (hlow : -149 ≤ e - n) :
    m * 2 ^ n * 2 ^ (e - n + 149).toNat = m * 2 ^ (e + 149).toNat := by
  rw [Nat.mul_assoc, ← Nat.pow_add]
  congr 2
  omega

theorem isRounding_round (s : Sign) {m : Nat} {e : Int} (hm : 0 < m) (hlow : -149 ≤ e) :
    IsRounding s (m * 2 ^ (e + 149).toNat) (packed (UnpackedFloat.round Format.binary32 s m e)) := by
  obtain ⟨n, hlow', htarget, hround⟩ := exists_round_eq s hm hlow
  have hpos : 0 < m * 2 ^ n := Nat.mul_pos hm (Nat.two_pow_pos n)
  rw [hround, ← mul_two_pow_units hlow']
  exact isRounding_roundWithAccuracy s hpos hlow' htarget

/-! ## What a rounding keeps -/

theorem IsRounding.units_eq {s : Sign} {n : Nat} {x : Float32} (h : IsRounding s n x)
    (hdvd : 2 ^ (n.log2 - 23) ∣ n) (hlt : n < limit) : units (parts x) = s.apply (n : Int) := by
  obtain ⟨r, -, -, hr, hunits⟩ := h.exists_digits
  rw [hunits, hr hdvd, Nat.div_mul_cancel hdvd, Nat.min_eq_left (Nat.le_of_lt hlt)]

/-- The last digits of a number that has a mantissa of 24 digits are zero. -/
theorem two_pow_dvd_of_encodable {u : UnpackedFloat} (h : Encodable u) :
    2 ^ ((digits u * 2 ^ scale u).log2 - 23) ∣ digits u * 2 ^ scale u := by
  have hd := digits_lt h
  by_cases h0 : digits u = 0
  · rw [h0, Nat.zero_mul]
    exact Nat.dvd_zero _
  · have hlog := (Nat.log2_lt h0).2 hd
    rw [log2_mul_two_pow (Nat.pos_of_ne_zero h0)]
    exact Nat.dvd_trans (Nat.pow_dvd_pow 2 (by omega)) (Nat.dvd_mul_left _ _)

/-- Rounding does not go below a representable number that is not above the exact value. -/
theorem le_of_encodable_le {u : UnpackedFloat} (hu : Encodable u) {n : Nat}
    (h : digits u * 2 ^ scale u ≤ n) :
    digits u * 2 ^ scale u ≤ n / 2 ^ (n.log2 - 23) * 2 ^ (n.log2 - 23) := by
  have hd := digits_lt hu
  generalize hk : n.log2 - 23 = k
  by_cases hscale : k ≤ scale u
  · -- No digit of the representable number is dropped.
    have hdvd : 2 ^ k ∣ digits u * 2 ^ scale u :=
      Nat.dvd_trans (Nat.pow_dvd_pow 2 hscale) (Nat.dvd_mul_left _ _)
    calc
      digits u * 2 ^ scale u = digits u * 2 ^ scale u / 2 ^ k * 2 ^ k :=
        (Nat.div_mul_cancel hdvd).symm
      _ ≤ n / 2 ^ k * 2 ^ k := Nat.mul_le_mul_right _ (Nat.div_le_div_right h)
  · -- The representable number has fewer digits than what is kept.
    have hn : n ≠ 0 := by
      intro h0
      subst h0
      have : Nat.log2 0 = 0 := by decide
      omega
    have hlog := (Nat.log2_eq_iff hn).1 rfl
    calc
      digits u * 2 ^ scale u ≤ 2 ^ 24 * 2 ^ scale u := Nat.mul_le_mul_right _ (by omega)
      _ = 2 ^ (24 + scale u) := (Nat.pow_add 2 24 _).symm
      _ ≤ 2 ^ (23 + k) := Nat.pow_le_pow_right (by omega) (by omega)
      _ = 2 ^ 23 * 2 ^ k := Nat.pow_add 2 23 k
      _ ≤ n / 2 ^ k * 2 ^ k := by
        refine Nat.mul_le_mul_right _ ?_
        rw [Nat.le_div_iff_mul_le (Nat.two_pow_pos k), ← Nat.pow_add]
        exact Nat.le_trans (Nat.pow_le_pow_right (by omega) (by omega)) hlog.1

/-- What is representable counts no more units than infinity does. -/
theorem magnitude_le_limit {u : UnpackedFloat} (h : Encodable u) : digits u * 2 ^ scale u ≤ limit := by
  cases u with
  | notANumber => exact Nat.zero_le _
  | zero s => exact Nat.zero_le _
  | infinity s =>
      rw [limit_eq 23 254 rfl]
      exact Nat.le_refl _
  | finite s m e hm =>
      obtain ⟨h1, h2, h3, h4⟩ := h
      rw [limit_eq 24 253 rfl]
      refine Nat.mul_le_mul (Nat.le_of_lt h1) (Nat.pow_le_pow_right (by omega) ?_)
      show (e + 149).toNat ≤ 253
      omega

theorem IsRounding.le_units {u : UnpackedFloat} (hu : Encodable u) {n : Nat}
    (hle : digits u * 2 ^ scale u ≤ n) {x : Float32} (h : IsRounding .positive n x) :
    ((digits u * 2 ^ scale u : Nat) : Int) ≤ units (parts x) := by
  obtain ⟨r, hr, -, -, hunits⟩ := h.exists_digits
  have hkept := le_of_encodable_le hu hle
  have hround := Nat.mul_le_mul_right (2 ^ (n.log2 - 23)) hr
  have hlimit := magnitude_le_limit hu
  rw [hunits]
  exact Int.ofNat_le.2 (Nat.le_min.2 ⟨Nat.le_trans hkept hround, hlimit⟩)

end SpriteStage.Single
