import SpriteStage.Json.Value
import SpriteStage.Proofs.Single.Widening

/-!
# JSON numbers in single precision

A JSON text holds natural numbers, negative integers and finite double-precision numbers
(`Json.Number.Proper`). Rounding never makes a defined number undefined, in either precision
(`unpack_pack_ne_notANumber`). So a number of a text is defined in single precision
(`isNaN_ofDouble_toDouble`), and every defined single-precision number, infinity included, is what
some number of a text is rounded to (`exists_proper`).
-/

set_option autoImplicit false

namespace SpriteStage

open Float.Model (Format UnpackedFloat)
open Float.Model.UnpackedFloat

/-- The numbers that a JSON text can hold. -/
inductive Json.Number.Proper : Json.Number → Prop where
  | natural (n : UInt64) : Proper (.natural n)
  | negative (n : UInt64) (positive : 0 < n.toNat) (bounded : n.toNat ≤ 2 ^ 63) :
      Proper (.negative n)
  | real (x : Float) (finite : x.isFinite = true) : Proper (.real x)

namespace Single

/-! ## Defined numbers stay defined -/

/-- A word whose exponent field is not the last one stands for a number. -/
theorem unpack_packComponents_ne_notANumber {spec : Format} {s : Sign}
    {e : BitVec spec.exponentBits} {m : BitVec spec.mantissaBitsWithoutImplicit}
    (he : e.toNat + 1 < 2 ^ spec.exponentBits) :
    UnpackedFloat.unpack spec (packComponents spec s e m) ≠ .notANumber := by
  have hlast : e ≠ -1#_ := by
    rintro rfl
    simp [BitVec.neg_one_eq_allOnes] at he
    omega
  unfold UnpackedFloat.unpack
  dsimp only
  rw [unpackExponent_packComponents, if_neg hlast]
  by_cases hfirst : e = 0#_
  · rw [if_pos hfirst]
    by_cases hm : unpackMantissa (packComponents spec s e m) = 0#_
    · rw [dif_pos hm]
      nofun
    · rw [dif_neg hm]
      nofun
  · rw [if_neg hfirst]
    nofun

/-- The infinities have an empty mantissa, which the undefined number has not. -/
theorem unpack_packedInfinity_ne_notANumber {spec : Format} {s : Sign} :
    UnpackedFloat.unpack spec (packedInfinity spec s) ≠ .notANumber := by
  unfold UnpackedFloat.unpack
  simp [packedInfinity]

/-- A number is still defined after it was written as a word. -/
theorem unpack_pack_ne_notANumber {spec : Format} {u : UnpackedFloat} (h : u ≠ .notANumber) :
    UnpackedFloat.unpack spec (UnpackedFloat.pack spec u) ≠ .notANumber := by
  have hzero : (0#_ : BitVec spec.exponentBits).toNat + 1 < 2 ^ spec.exponentBits := by
    rw [BitVec.toNat_zero]
    exact Nat.one_lt_two_pow (Nat.ne_of_gt spec.he)
  cases u with
  | notANumber => exact absurd rfl h
  | infinity s => exact unpack_packedInfinity_ne_notANumber
  | zero s => exact unpack_packComponents_ne_notANumber hzero
  | finite s m e hm =>
      unfold UnpackedFloat.pack
      dsimp only
      split
      · exact unpack_packedInfinity_ne_notANumber
      · next hsmall =>
        split
        · -- the exponent is too small to be the last one
          refine unpack_packComponents_ne_notANumber ?_
          rw [BitVec.toNat_ofNat, Nat.mod_eq_of_lt (by omega)]
          omega
        · exact unpack_packComponents_ne_notANumber hzero

theorem finish_ne_notANumber (s : Sign) (p : ExtendedMantissa × Int) :
    finish s p ≠ .notANumber := by
  by_cases hzero : p.1.mantissa = 0
  · rw [finish, dif_pos hzero]
    nofun
  · rw [finish, dif_neg hzero]
    nofun

theorem round_ne_notANumber (spec : Format) (s : Sign) {m : Nat} (hm : 0 < m) (e : Int) :
    UnpackedFloat.round spec s m e ≠ .notANumber := by
  rw [round_eq s hm rfl]
  exact finish_ne_notANumber s _

theorem normalize_ne_notANumber (spec : Format) (m e : Int) (s : Sign) :
    UnpackedFloat.normalize spec m e s ≠ .notANumber := by
  unfold UnpackedFloat.normalize
  split
  · next hlt => exact round_ne_notANumber spec _ (by have := Int.compare_eq_lt.1 hlt; omega) e
  · nofun
  · next hgt => exact round_ne_notANumber spec _ (by have := Int.compare_eq_gt.1 hgt; omega) e

/-- What a defined double-precision number is rounded to is defined. -/
theorem isNaN_ofDouble {x : Float} (h : doubleParts x ≠ .notANumber) :
    (ofDouble x).isNaN = false := by
  rw [isNaN_eq_false_iff]
  change parts (ofParts (doubleParts x)) ≠ .notANumber
  cases hx : doubleParts x with
  | notANumber => exact absurd hx h
  | infinity s => exact unpack_pack_ne_notANumber (u := .infinity s) nofun
  | zero s => exact unpack_pack_ne_notANumber (u := .zero s) nofun
  | finite s m e hm => exact unpack_pack_ne_notANumber (round_ne_notANumber _ s hm e)

theorem doubleParts_toFloat (n : UInt64) : doubleParts n.toFloat ≠ .notANumber :=
  unpack_pack_ne_notANumber (normalize_ne_notANumber _ _ _ _)

theorem doubleParts_neg {x : Float} (h : doubleParts x ≠ .notANumber) :
    doubleParts (-x) ≠ .notANumber := by
  refine unpack_pack_ne_notANumber ?_
  change (doubleParts x).neg ≠ .notANumber
  cases hx : doubleParts x with
  | notANumber => exact absurd hx h
  | infinity s => nofun
  | zero s => nofun
  | finite s m e hm => nofun

/-- A number of a JSON text is defined in single precision. -/
theorem isNaN_ofDouble_toDouble {n : Json.Number} (h : n.Proper) :
    (ofDouble n.toDouble).isNaN = false := by
  refine isNaN_ofDouble ?_
  cases h with
  | natural n => exact doubleParts_toFloat n
  | negative n positive bounded => exact doubleParts_neg (doubleParts_toFloat n)
  | real x finite =>
      intro hx
      have hfinite : (doubleParts x).isFinite = true := finite
      rw [show doubleParts x = .notANumber from hx] at hfinite
      cases hfinite

/-! ## Every defined number is that of a text -/

/-- A finite number is finite in double precision. -/
theorem isFinite_toDouble {x : Float32} (h : x.isFinite = true) : (toDouble x).isFinite = true := by
  show (doubleParts (toDouble x)).isFinite = true
  rcases zero_or_finite_of_isFinite h with ⟨s, hp⟩ | ⟨s, m, e, hm, hp⟩
  · have hdouble : toDouble x = toDoubleParts (.zero s) := congrArg toDoubleParts hp
    rw [hdouble]
    cases s <;> decide +kernel
  · have henc := encodable_parts x
    rw [hp] at henc
    obtain ⟨n, hn, hparts⟩ := doubleParts_packed henc
    have hdouble : toDouble x = toDoubleParts (.finite s m e hm) := congrArg toDoubleParts hp
    rw [hdouble]
    exact congrArg UnpackedFloat.isFinite hparts

/-- Every defined number is what a number of a JSON text is rounded to; a number that is too great
becomes infinite. -/
theorem exists_proper {x : Float32} (h : x.isNaN = false) :
    ∃ n : Json.Number, n.Proper ∧ ofDouble n.toDouble = x := by
  by_cases hfinite : x.isFinite = true
  · exact ⟨.real (toDouble x), .real _ (isFinite_toDouble hfinite), ofDouble_toDouble x⟩
  · rw [isNaN_eq_false_iff] at h
    rw [← packed_parts x]
    cases hp : parts x with
    | notANumber => exact absurd hp h
    | infinity s =>
        cases s with
        | positive => exact ⟨.real 1e39, .real _ (by decide +kernel), by decide +kernel⟩
        | negative => exact ⟨.real (-1e39), .real _ (by decide +kernel), by decide +kernel⟩
    | zero s => exact absurd (by rw [isFinite_eq, hp]; rfl) hfinite
    | finite s m e hm => exact absurd (by rw [isFinite_eq, hp]; rfl) hfinite

end Single

end SpriteStage
