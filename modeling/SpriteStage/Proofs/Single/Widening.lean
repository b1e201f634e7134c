import SpriteStage.Proofs.Single.Magnitude
import SpriteStage.Proofs.Single.Whole

/-!
# Single-precision numbers in double precision

JSON holds its numbers in double precision. What is rounded there and back is rounded from the same
value, however it is written as a mantissa and an exponent (`round_mul_two_pow`), and a
single-precision number has room in a double-precision word. So a number comes back from double
precision as it was (`ofDouble_toDouble`), and so does a whole number that was written as an integer
(`ofDouble_toFloat`).
-/

set_option autoImplicit false

namespace SpriteStage.Single

open Float.Model (Format UnpackedFloat totalExponent)
open Float.Model.UnpackedFloat

/-! ## Rounding a value -/

theorem shiftRight_add (a : ExtendedMantissa) (m n : Nat) : a >>> (m + n) = (a >>> m) >>> n := by
  induction n with
  | zero => rfl
  | succ n ih => rw [← Nat.add_assoc, shiftRight_succ, ih, shiftRight_succ]

/-- A mantissa at the exponent `e`, brought to the exponent `t`: zeros are appended, or digits are
dropped. -/
def aligned (m : Nat) (e t : Int) : ExtendedMantissa :=
  ExtendedMantissa.ofMantissaAndAccuracy (m * 2 ^ (e - t).toNat) .exact >>> (t - e).toNat

/-- Zeros at the end of the mantissa are the same as a higher exponent. -/
theorem aligned_mul_two_pow (m : Nat) (e t : Int) (n : Nat) :
    aligned (m * 2 ^ n) (e - n) t = aligned m e t := by
  unfold aligned
  by_cases hlow : e ≤ t
  · -- the zeros are the first digits to be dropped
    have hdrop : (t - (e - n)).toNat = n + (t - e).toNat := by omega
    rw [show (e - n - t).toNat = 0 by omega, show (e - t).toNat = 0 by omega, Nat.pow_zero,
      Nat.mul_one, Nat.mul_one, hdrop, shiftRight_add, shiftRight_exact]
  · by_cases hkept : t ≤ e - n
    · -- no digit is dropped, and fewer zeros are appended
      have hexp : (e - t).toNat = n + (e - n - t).toNat := by omega
      rw [show (t - (e - n)).toNat = 0 by omega, show (t - e).toNat = 0 by omega, Nat.mul_assoc,
        ← Nat.pow_add, ← hexp]
    · -- some of the zeros are dropped
      have hexp : n = (e - t).toNat + (t - (e - n)).toNat := by omega
      have hzeros : m * 2 ^ n = m * 2 ^ (e - t).toNat * 2 ^ (t - (e - n)).toNat := by
        rw [Nat.mul_assoc, ← Nat.pow_add, ← hexp]
      rw [show (e - n - t).toNat = 0 by omega, show (t - e).toNat = 0 by omega, Nat.pow_zero,
        Nat.mul_one, hzeros, shiftRight_exact]
      rfl

theorem totalExponent_mul_two_pow {m : Nat} (hm : 0 < m) (e : Int) (n : Nat) :
    totalExponent (m * 2 ^ n) (e - n) = totalExponent m e := by
  unfold totalExponent
  rw [log2_mul_two_pow hm]
  omega

/-- The parts of what is left of a mantissa at an exponent, when it has been rounded once. -/
def settle (spec : Format) (s : Sign) (a : ExtendedMantissa) (t : Int) : UnpackedFloat :=
  finish s (shiftToTargetExponent spec a.roundedMantissa t .exact)

/-- Rounding brings a mantissa to the exponent of the last digit that is kept. -/
theorem round_eq {spec : Format} (s : Sign) {m : Nat} (hm : 0 < m) {e t : Int}
    (ht : spec.targetExponent (totalExponent m e) = t) :
    UnpackedFloat.round spec s m e = settle spec s (aligned m e t) t := by
  have hshift : shiftToTargetExponent spec (m * 2 ^ (e - t).toNat) (e - (e - t).toNat) .exact =
      (aligned m e t, t) := by
    unfold shiftToTargetExponent
    rw [totalExponent_mul_two_pow hm, ht, shiftToExponent_eq]
    have hdrop : (t - (e - (e - t).toNat)).toNat = (t - e).toNat := by omega
    have hexp : e - (e - t).toNat + ((t - e).toNat : Int) = t := by omega
    rw [hdrop, hexp]
    rfl
  unfold UnpackedFloat.round
  rw [ht]
  show finish s (shiftToTargetExponent spec
    (shiftToTargetExponent spec (m <<< (e - t).toNat) (e - (e - t).toNat) .exact).1.roundedMantissa
    (shiftToTargetExponent spec (m <<< (e - t).toNat) (e - (e - t).toNat) .exact).2 .exact) = _
  rw [Nat.shiftLeft_eq, hshift]
  rfl

/-- What a number is rounded to depends on its value only. -/
theorem round_mul_two_pow (spec : Format) (s : Sign) {m : Nat} (hm : 0 < m) (e : Int) (n : Nat) :
    UnpackedFloat.round spec s (m * 2 ^ n) (e - n) = UnpackedFloat.round spec s m e := by
  have hmn : 0 < m * 2 ^ n := Nat.mul_pos hm (Nat.two_pow_pos n)
  have htarget : spec.targetExponent (totalExponent (m * 2 ^ n) (e - n)) =
      spec.targetExponent (totalExponent m e) := by
    rw [totalExponent_mul_two_pow hm]
  rw [round_eq s hmn htarget, round_eq s hm rfl, aligned_mul_two_pow]

/-- A number whose last digit is the last one that is kept stays as it is. -/
theorem round_of_target {spec : Format} (s : Sign) {m : Nat} (hm : 0 < m) {e : Int}
    (ht : spec.targetExponent (totalExponent m e) = e) :
    UnpackedFloat.round spec s m e = .finite s m e hm := by
  have haligned : aligned m e e = ExtendedMantissa.ofMantissaAndAccuracy m .exact := by
    unfold aligned
    rw [Int.sub_self, Int.toNat_zero, Nat.pow_zero, Nat.mul_one, shiftRight_zero]
  have hround : (ExtendedMantissa.ofMantissaAndAccuracy m .exact).roundedMantissa = m := rfl
  have hshift : shiftToTargetExponent spec m e .exact =
      (ExtendedMantissa.ofMantissaAndAccuracy m .exact, e) := by
    unfold shiftToTargetExponent
    rw [ht, shiftToExponent_eq, Int.sub_self, Int.toNat_zero, shiftRight_zero]
    show (_, e + 0) = (_, e)
    rw [Int.add_zero]
  rw [round_eq s hm ht, haligned, settle, hround, hshift]
  exact dif_neg (Nat.ne_of_gt hm)

/-! ## Double-precision words -/

theorem unpackSign_packComponents (spec : Format) (s : Sign) (e : BitVec spec.exponentBits)
    (m : BitVec spec.mantissaBitsWithoutImplicit) :
    unpackSign (packComponents spec s e m) = s.toBitVec := by
  unfold unpackSign packComponents
  ext i hi
  obtain rfl : i = 0 := by omega
  simp [BitVec.getLsbD_append, BitVec.getElem_append]

theorem ofBitVec_toBitVec (s : Sign) : Sign.ofBitVec s.toBitVec = s := by
  cases s <;> rfl

/-- A word whose exponent field is neither the first nor the last has a leading digit that is not
written. -/
theorem unpack_double {b : BitVec Format.binary64.numBits} {s : Sign}
    {exponent : BitVec Format.binary64.exponentBits}
    {mantissa : BitVec Format.binary64.mantissaBitsWithoutImplicit}
    (hsign : unpackSign b = s.toBitVec) (hexponent : unpackExponent b = exponent)
    (hmantissa : unpackMantissa b = mantissa) (hnotLast : exponent ≠ -1#11)
    (hnotFirst : exponent ≠ 0#11) {m : Nat} {e : Int} (hm : 0 < m)
    (hm' : 2 ^ 52 + mantissa.toNat = m) (he : (exponent.toNat : Int) - 1075 = e) :
    UnpackedFloat.unpack Format.binary64 b = .finite s m e hm := by
  subst hexponent hmantissa
  unfold UnpackedFloat.unpack
  dsimp only
  rw [hsign, ofBitVec_toBitVec, if_neg hnotLast, if_neg hnotFirst]
  refine finite_eq_finite ?_ ?_
  · rw [BitVec.toNat_append, ← Nat.shiftLeft_add_eq_or_of_lt (BitVec.isLt _), ← hm']
    rfl
  · rw [← he]
    rfl

/-- A mantissa of 53 digits, of which the first is set, comes back from the word that it is packed
into. -/
theorem unpack_pack_double (s : Sign) {m : Nat} {e : Int} (hm : 0 < m) (hlead : 2 ^ 52 ≤ m)
    (hlt : m < 2 ^ 53) (hlow : -1074 ≤ e) (hhigh : e ≤ 971) :
    UnpackedFloat.unpack Format.binary64 (UnpackedFloat.pack Format.binary64 (.finite s m e hm)) =
      .finite s m e hm := by
  have hlog : m.log2 = 52 := (Nat.log2_eq_iff (Nat.ne_of_gt hm)).2 ⟨hlead, hlt⟩
  have hpack : UnpackedFloat.pack Format.binary64 (.finite s m e hm) =
      packComponents Format.binary64 s (BitVec.ofNat 11 (e + 1075).toNat) (BitVec.ofNat 52 m) := by
    have hbias : (e + ((Format.binary64.exponentBias : Nat) : Int) +
        ((Format.binary64.mantissaBitsWithoutImplicit : Nat) : Int)).toNat = (e + 1075).toNat := by
      show (e + 1023 + 52).toNat = _
      omega
    unfold UnpackedFloat.pack
    dsimp only
    rw [hbias, if_neg (by show ¬ 2 ^ 11 ≤ (e + 1075).toNat + 1; omega), if_pos (by rw [hlog]; rfl)]
  have hexp : (BitVec.ofNat 11 (e + 1075).toNat).toNat = (e + 1075).toNat := by
    rw [BitVec.toNat_ofNat]
    omega
  rw [hpack]
  refine unpack_double (unpackSign_packComponents _ s _ _) unpackExponent_packComponents
    unpackMantissa_packComponents ?_ ?_ hm ?_ ?_
  · -- the exponent field is not that of infinity
    intro h
    have hbits := congrArg BitVec.toNat h
    rw [hexp] at hbits
    have hlast : (-1#11 : BitVec 11).toNat = 2047 := rfl
    omega
  · -- nor that of the numbers without a leading digit
    intro h
    have hbits := congrArg BitVec.toNat h
    rw [hexp] at hbits
    have hfirst : (0#11 : BitVec 11).toNat = 0 := rfl
    omega
  · show 2 ^ 52 + (BitVec.ofNat 52 m).toNat = m
    rw [BitVec.toNat_ofNat]
    omega
  · show ((BitVec.ofNat 11 (e + 1075).toNat).toNat : Int) - 1075 = e
    rw [hexp]
    omega

/-! ## There and back -/

/-- The parts of a double-precision number. -/
abbrev doubleParts (x : Float) : UnpackedFloat := x.toModel.unpack

theorem targetExponent_double (m : Nat) (e : Int) :
    Format.binary64.targetExponent (totalExponent m e) = max (m.log2 + e - 52) (-1074) := by
  show max ((m.log2 : Int) + 1 + e - 53) (-1074) = max ((m.log2 : Int) + e - 52) (-1074)
  omega

/-- In double precision the mantissa has zeros at its end, so that its first digit is set. -/
theorem doubleParts_packed {s : Sign} {m : Nat} {e : Int} {hm : 0 < m}
    (h : Encodable (.finite s m e hm)) :
    ∃ (n : Nat) (hn : 0 < m * 2 ^ n),
      doubleParts ⟨Float.Model.pack (UnpackedFloat.round Format.binary64 s m e)⟩ =
        .finite s (m * 2 ^ n) (e - n) hn := by
  obtain ⟨hlt, hlow, hhigh, -⟩ := h
  have hlog : m.log2 < 24 := (Nat.log2_lt (Nat.ne_of_gt hm)).2 hlt
  refine ⟨52 - m.log2, Nat.mul_pos hm (Nat.two_pow_pos _), ?_⟩
  generalize hn : 52 - m.log2 = n
  have hpos : 0 < m * 2 ^ n := Nat.mul_pos hm (Nat.two_pow_pos n)
  have hfull : (m * 2 ^ n).log2 = 52 := by
    rw [log2_mul_two_pow hm]
    omega
  have hround : UnpackedFloat.round Format.binary64 s m e = .finite s (m * 2 ^ n) (e - n) hpos := by
    rw [← round_mul_two_pow Format.binary64 s hm e n]
    refine round_of_target s hpos ?_
    rw [targetExponent_double, hfull]
    omega
  obtain ⟨hlead, hbound⟩ := (Nat.log2_eq_iff (Nat.ne_of_gt hpos)).1 hfull
  rw [hround]
  exact unpack_pack_double s hpos hlead hbound (by omega) (by omega)

/-- What a number in double precision is rounded to, if its value is that of a single-precision
number. -/
theorem ofDouble_of_doubleParts {x : Float32} {s : Sign} {m : Nat} {e : Int} {hm : 0 < m}
    (hx : parts x = .finite s m e hm) {y : Float} {n : Nat} {hn : 0 < m * 2 ^ n}
    (hy : doubleParts y = .finite s (m * 2 ^ n) (e - n) hn) : ofDouble y = x := by
  have henc := encodable_parts x
  rw [hx] at henc
  obtain ⟨hlt, hlow, -, hlead⟩ := henc
  have htarget : target m e = e := by
    have hlog : m.log2 < 24 := (Nat.log2_lt (Nat.ne_of_gt hm)).2 hlt
    have hfull : 2 ^ 23 ≤ m → 23 ≤ m.log2 := (Nat.le_log2 (Nat.ne_of_gt hm)).2
    unfold target
    omega
  calc
    ofDouble y = packed (UnpackedFloat.round Format.binary32 s (m * 2 ^ n) (e - n)) := by
        unfold ofDouble
        rw [show y.toModel.unpack = _ from hy]
        rfl
    _ = packed (UnpackedFloat.round Format.binary32 s m e) := by rw [round_mul_two_pow _ s hm]
    _ = packed (.finite s m e hm) := by
        rw [round_of_target s hm ((targetExponent_eq m e).trans htarget)]
    _ = x := by rw [← hx, packed_parts]

/-- A number comes back from double precision as it was. -/
theorem ofDouble_toDouble (x : Float32) : ofDouble (toDouble x) = x := by
  have henc := encodable_parts x
  cases hp : parts x with
  | finite s m e hm =>
      rw [hp] at henc
      obtain ⟨n, hn, hdouble⟩ := doubleParts_packed henc
      have hparts : doubleParts (toDouble x) = .finite s (m * 2 ^ n) (e - n) hn := by
        unfold toDouble
        rw [show x.toModel.unpack = _ from hp]
        exact hdouble
      exact ofDouble_of_doubleParts hp hparts
  | notANumber =>
      rw [← packed_parts x, hp]
      decide +kernel
  | infinity s =>
      rw [← packed_parts x, hp]
      cases s <;> decide +kernel
  | zero s =>
      rw [← packed_parts x, hp]
      cases s <;> decide +kernel

/-- The digits of a positive whole number, and of what it is as an integer. -/
theorem IsWhole.exists_digits {x : Float32} {n : Nat} (hx : IsWhole x (n : Int)) (hn : 0 < n) :
    ∃ m e, ∃ hm : 0 < m, parts x = .finite .positive m e hm ∧
      m * 2 ^ (e + 149).toNat = n * wholeUnit := by
  have hpos : 0 < n * wholeUnit := Nat.mul_pos hn wholeUnit_pos
  have hunits : units (parts x) = ((n * wholeUnit : Nat) : Int) := by
    rw [hx.units_eq, Int.natCast_mul]
  have hsign : sign (parts x) = .positive := sign_eq_of_units_pos (by omega)
  rcases zero_or_finite_of_isFinite hx.finite with ⟨s, hp⟩ | ⟨s, m, e, hm, hp⟩
  · rw [hp, units_zero] at hunits
    omega
  · rw [hp] at hsign hunits
    obtain rfl : s = .positive := hsign
    exact ⟨m, e, hm, hp, Int.ofNat.inj hunits⟩

/-- A positive whole number is the same in double precision, whether it comes from an integer or
from a single-precision number. -/
theorem toFloat_eq_toDouble {x : Float32} {n : UInt64} (hx : IsWhole x (n.toNat : Int))
    (hn : 0 < n.toNat) : n.toFloat = toDouble x := by
  obtain ⟨m, e, hm, hp, hdigits⟩ := hx.exists_digits hn
  have hinteger : n.toFloat =
      ⟨Float.Model.pack (UnpackedFloat.round Format.binary64 .positive n.toNat 0)⟩ := by
    show (⟨Float.Model.pack (UnpackedFloat.normalize Format.binary64 (n.toNat : Int) 0 .positive)⟩ :
      Float) = _
    unfold UnpackedFloat.normalize
    rw [Int.compare_eq_gt.2 (by omega)]
    rfl
  have hsame : UnpackedFloat.round Format.binary64 .positive n.toNat 0 =
      UnpackedFloat.round Format.binary64 .positive m e := by
    by_cases h0 : 0 ≤ e
    · -- the digits all stand before the point
      have hshift : n.toNat = m * 2 ^ e.toNat := by
        refine Nat.eq_of_mul_eq_mul_right wholeUnit_pos (hdigits.symm.trans ?_)
        rw [show (e + 149).toNat = e.toNat + 149 by omega, Nat.pow_add, ← Nat.mul_assoc]
        rfl
      have hround := round_mul_two_pow Format.binary64 .positive hm e e.toNat
      rw [← hshift, show e - e.toNat = 0 by omega] at hround
      exact hround
    · -- those after the point are zero
      have hshift : m = n.toNat * 2 ^ (-e).toNat := by
        refine Nat.eq_of_mul_eq_mul_right (Nat.two_pow_pos (e + 149).toNat) (hdigits.trans ?_)
        rw [wholeUnit_eq (-e).toNat (e + 149).toNat (by have := hx.le_exponent hp; omega),
          Nat.mul_assoc]
      have hround := round_mul_two_pow Format.binary64 .positive hn 0 (-e).toNat
      rw [← hshift, show (0 : Int) - (-e).toNat = e by omega] at hround
      exact hround.symm
  rw [hinteger, hsame]
  unfold toDouble
  rw [show x.toModel.unpack = _ from hp]
  rfl

/-- A positive whole number comes back from the integer that it is. -/
theorem ofDouble_toFloat {x : Float32} {n : UInt64} (hx : IsWhole x (n.toNat : Int))
    (hn : 0 < n.toNat) : ofDouble n.toFloat = x := by
  rw [toFloat_eq_toDouble hx hn, ofDouble_toDouble]

/-- A finite number that is no integer has digits after the point, so there are few before it. -/
theorem units_lt_of_toInt?_eq_none {x : Float32} (hfinite : x.isFinite = true)
    (h : toInt? x = none) : units (parts x) < 2 ^ 24 * wholeUnit := by
  have henc := encodable_parts x
  rcases zero_or_finite_of_isFinite hfinite with ⟨s, hp⟩ | ⟨s, m, e, hm, hp⟩
  · have hpos := wholeUnit_pos
    rw [hp, units_zero]
    omega
  · rw [hp] at henc
    obtain ⟨hlt, -⟩ := henc
    have hneg : ¬ 0 ≤ e := by
      intro h0
      unfold toInt? at h
      rw [show x.toModel.unpack = _ from hp] at h
      dsimp only at h
      rw [if_pos h0] at h
      cases h
    have hscale : (e + 149).toNat ≤ 149 := by omega
    have hnat : (units (parts x)).natAbs < 2 ^ 24 * wholeUnit := by
      rw [natAbs_units, hp]
      calc
        m * 2 ^ (e + 149).toNat < 2 ^ 24 * 2 ^ (e + 149).toNat :=
          Nat.mul_lt_mul_of_pos_right hlt (Nat.two_pow_pos _)
        _ ≤ 2 ^ 24 * wholeUnit :=
          Nat.mul_le_mul_left _ (Nat.pow_le_pow_right (by omega) hscale)
    have hcast : ((2 ^ 24 * wholeUnit : Nat) : Int) = 2 ^ 24 * (wholeUnit : Int) := by
      rw [Int.natCast_mul]
      rfl
    omega

end SpriteStage.Single
