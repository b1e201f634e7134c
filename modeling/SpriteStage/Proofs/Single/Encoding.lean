import Mathlib.Algebra.Group.Int.Defs
import Mathlib.Algebra.Group.Nat.Defs
import SpriteStage.Single

/-!
# Bit patterns and the order of numbers

A single-precision number is a word of 32 bits, and its operations work on the parts of the word: a
sign, a mantissa and an exponent. This module reads the parts off the bits (`parts_eq`) and shows
that packing and unpacking undo each other (`packed_parts`, `parts_packed`), so that a statement
about a number is one about its parts, and parts that fit a word are those of a number.
-/

set_option autoImplicit false

namespace SpriteStage.Single

open Float.Model (Format UnpackedFloat)
open Float.Model.UnpackedFloat

/-- The parts of a number. -/
abbrev parts (x : Float32) : UnpackedFloat := x.toModel.unpack

/-- The number that parts are packed into, without any rounding of the mantissa. -/
abbrev packed (u : UnpackedFloat) : Float32 := ⟨.pack u⟩

theorem add_eq (x y : Float32) :
    x + y = packed (UnpackedFloat.add Format.binary32 (parts x) (parts y)) := rfl

theorem sub_eq (x y : Float32) :
    x - y = packed (UnpackedFloat.sub Format.binary32 (parts x) (parts y)) := rfl

theorem mul_eq (x y : Float32) :
    x * y = packed (UnpackedFloat.mul Format.binary32 (parts x) (parts y)) := rfl

/-! ## The fields of a word -/

/-- The sign of a word of bits. -/
def signOfBits (n : Nat) : Sign := if n < 2 ^ 31 then .positive else .negative

/-- The bit of a sign, at its place in the word. -/
def signBit : Sign → Nat
  | .positive => 0
  | .negative => 2 ^ 31

/-- The parts that a word of bits stands for. -/
def partsOfBits (n : Nat) : UnpackedFloat :=
  if n / 2 ^ 23 % 2 ^ 8 = 255 then
    if n % 2 ^ 23 = 0 then .infinity (signOfBits n) else .notANumber
  else if n / 2 ^ 23 % 2 ^ 8 = 0 then
    if h : n % 2 ^ 23 = 0 then .zero (signOfBits n)
    else .finite (signOfBits n) (n % 2 ^ 23) (-149) (Nat.pos_of_ne_zero h)
  else
    .finite (signOfBits n) (2 ^ 23 + n % 2 ^ 23) (((n / 2 ^ 23 % 2 ^ 8 : Nat) : Int) - 150) (by omega)

theorem toNat_unpackMantissa (b : BitVec 32) :
    (@unpackMantissa Format.binary32 b).toNat = b.toNat % 2 ^ 23 := by
  simp [unpackMantissa]

theorem toNat_unpackExponent (b : BitVec 32) :
    (@unpackExponent Format.binary32 b).toNat = b.toNat / 2 ^ 23 % 2 ^ 8 := by
  simp [unpackExponent, Nat.shiftRight_eq_div_pow]

theorem toNat_unpackSign (b : BitVec 32) :
    (@unpackSign Format.binary32 b).toNat = b.toNat / 2 ^ 31 := by
  have hb := b.isLt
  show (b.extractLsb 31 31).toNat = b.toNat / 2 ^ 31
  rw [BitVec.extractLsb_toNat, Nat.shiftRight_eq_div_pow]
  omega

theorem ofBitVec_unpackSign (b : BitVec 32) :
    Sign.ofBitVec (@unpackSign Format.binary32 b) = signOfBits b.toNat := by
  have h := toNat_unpackSign b
  have hb := b.isLt
  unfold Sign.ofBitVec signOfBits
  by_cases hlt : b.toNat < 2 ^ 31
  · have h0 : @unpackSign Format.binary32 b = 0#1 := by
      apply BitVec.eq_of_toNat_eq
      rw [h]
      simp
      omega
    rw [if_pos h0, if_pos hlt]
  · have h1 : @unpackSign Format.binary32 b ≠ 0#1 := by
      intro h0
      rw [h0] at h
      simp at h
      omega
    rw [if_neg h1, if_neg hlt]

theorem finite_eq_finite {s : Sign} {m n : Nat} {e f : Int} {hm : 0 < m} {hn : 0 < n} (hmn : m = n)
    (hef : e = f) : UnpackedFloat.finite s m e hm = .finite s n f hn := by
  subst hmn
  subst hef
  rfl

/-- Unpacking reads the three fields of the word. -/
theorem unpack_eq (b : BitVec 32) :
    UnpackedFloat.unpack Format.binary32 b = partsOfBits b.toNat := by
  have he := toNat_unpackExponent b
  have hm := toNat_unpackMantissa b
  have hlast : @unpackExponent Format.binary32 b = -1#_ ↔
      b.toNat / 2 ^ 23 % 2 ^ 8 = 255 := by
    rw [← he, ← BitVec.toNat_inj]
    simp
  have hfirst : @unpackExponent Format.binary32 b = 0#_ ↔
      b.toNat / 2 ^ 23 % 2 ^ 8 = 0 := by
    rw [← he, ← BitVec.toNat_inj]
    simp
  have hnone : @unpackMantissa Format.binary32 b = 0#_ ↔ b.toNat % 2 ^ 23 = 0 := by
    rw [← hm, ← BitVec.toNat_inj]
    simp
  -- Both sides ask the same of the fields, one of the fields as words and one of their values.
  unfold UnpackedFloat.unpack partsOfBits
  dsimp only
  rw [ofBitVec_unpackSign]
  by_cases h1 : b.toNat / 2 ^ 23 % 2 ^ 8 = 255
  · rw [if_pos (hlast.2 h1), if_pos h1]
    by_cases h2 : b.toNat % 2 ^ 23 = 0
    · rw [if_pos (hnone.2 h2), if_pos h2]
    · rw [if_neg (fun h => h2 (hnone.1 h)), if_neg h2]
  · rw [if_neg (fun h => h1 (hlast.1 h)), if_neg h1]
    by_cases h2 : b.toNat / 2 ^ 23 % 2 ^ 8 = 0
    · rw [if_pos (hfirst.2 h2), if_pos h2]
      by_cases h3 : b.toNat % 2 ^ 23 = 0
      · rw [dif_pos (hnone.2 h3), dif_pos h3]
      · rw [dif_neg (fun h => h3 (hnone.1 h)), dif_neg h3]
        refine finite_eq_finite hm ?_
        rw [he, h2]
        rfl
    · rw [if_neg (fun h => h2 (hfirst.1 h)), if_neg h2]
      refine finite_eq_finite ?_ ?_
      · rw [BitVec.toNat_append, ← Nat.shiftLeft_add_eq_or_of_lt (BitVec.isLt _), hm]
        rfl
      · rw [he]
        rfl

theorem parts_eq (x : Float32) : parts x = partsOfBits x.toBits.toNat :=
  unpack_eq x.toBits.toBitVec

theorem fields_eq (b e m : Nat) :
    (b * 256 + e) * 8388608 + m = b * 2147483648 + e * 8388608 + m := by
  omega

/-- The word of three fields. -/
theorem toNat_packComponents (s : Sign) (e m : Nat) (he : e < 2 ^ 8) (hm : m < 2 ^ 23) :
    (packComponents Format.binary32 s (BitVec.ofNat 8 e) (BitVec.ofNat 23 m)).toNat =
      signBit s + e * 2 ^ 23 + m := by
  have hs : s.toBitVec.toNat * 2 ^ 31 = signBit s := by cases s <;> rfl
  show (s.toBitVec ++ BitVec.ofNat 8 e ++ BitVec.ofNat 23 m).toNat = _
  rw [BitVec.toNat_append, ← Nat.shiftLeft_add_eq_or_of_lt (BitVec.isLt _), BitVec.toNat_append,
    ← Nat.shiftLeft_add_eq_or_of_lt (BitVec.isLt _), BitVec.toNat_ofNat, BitVec.toNat_ofNat,
    Nat.mod_eq_of_lt he, Nat.mod_eq_of_lt hm, ← hs, Nat.shiftLeft_eq, Nat.shiftLeft_eq]
  exact fields_eq s.toBitVec.toNat e m

/-! ## Packing and unpacking -/

/-- Parts that a word can hold as they are: the mantissa has 24 digits, with its first digit set
unless the exponent is the least one. -/
def Encodable : UnpackedFloat → Prop
  | .finite _ m e _ => m < 2 ^ 24 ∧ -149 ≤ e ∧ e ≤ 104 ∧ (2 ^ 23 ≤ m ∨ e = -149)
  | _ => True

/-- What a word can stand for, and what it is without its sign. -/
theorem partsOfBits_cases (n : Nat) :
    (partsOfBits n = .infinity (signOfBits n) ∧ n % 2 ^ 31 = 255 * 2 ^ 23) ∨
      (partsOfBits n = .notANumber ∧ n / 2 ^ 23 % 2 ^ 8 = 255 ∧ n % 2 ^ 23 ≠ 0) ∨
      (partsOfBits n = .zero (signOfBits n) ∧ n % 2 ^ 31 = 0) ∨
      ∃ m e hm, partsOfBits n = .finite (signOfBits n) m e hm ∧
        Encodable (.finite (signOfBits n) m e hm) ∧ n % 2 ^ 31 = (e + 149).toNat * 2 ^ 23 + m := by
  unfold partsOfBits
  by_cases hlast : n / 2 ^ 23 % 2 ^ 8 = 255
  · rw [if_pos hlast]
    by_cases hnone : n % 2 ^ 23 = 0
    · rw [if_pos hnone]
      exact Or.inl ⟨rfl, by omega⟩
    · rw [if_neg hnone]
      exact Or.inr (Or.inl ⟨rfl, hlast, hnone⟩)
  · rw [if_neg hlast]
    by_cases hfirst : n / 2 ^ 23 % 2 ^ 8 = 0
    · rw [if_pos hfirst]
      by_cases hnone : n % 2 ^ 23 = 0
      · rw [dif_pos hnone]
        exact Or.inr (Or.inr (Or.inl ⟨rfl, by omega⟩))
      · rw [dif_neg hnone]
        refine Or.inr (Or.inr (Or.inr ⟨_, _, _, rfl, ⟨?_, ?_, ?_, Or.inr rfl⟩, ?_⟩)) <;> omega
    · rw [if_neg hfirst]
      refine Or.inr (Or.inr (Or.inr ⟨_, _, _, rfl, ⟨?_, ?_, ?_, Or.inl ?_⟩, ?_⟩)) <;> omega

theorem encodable_partsOfBits (n : Nat) : Encodable (partsOfBits n) := by
  rcases partsOfBits_cases n with ⟨h, -⟩ | ⟨h, -⟩ | ⟨h, -⟩ | ⟨m, e, hm, h, henc, -⟩
  · rw [h]
    trivial
  · rw [h]
    trivial
  · rw [h]
    trivial
  · rw [h]
    exact henc

/-- Unpacked parts are encodable. -/
theorem encodable_parts (x : Float32) : Encodable (parts x) := by
  rw [parts_eq]
  exact encodable_partsOfBits _

/-- The word of a finite number. -/
theorem toNat_toBits_finite (s : Sign) (m : Nat) (e : Int) (hpos : 0 < m)
    (h : Encodable (.finite s m e hpos)) :
    (packed (.finite s m e hpos)).toBits.toNat = signBit s + (e + 149).toNat * 2 ^ 23 + m := by
  obtain ⟨hm, hlo, hhi, hlead⟩ := h
  show (UnpackedFloat.pack Format.binary32 (.finite s m e hpos)).toNat = _
  have hb : (e + ((Format.binary32.exponentBias : Nat) : Int) +
      ((Format.binary32.mantissaBitsWithoutImplicit : Nat) : Int)).toNat = (e + 150).toNat := by
    show (e + 127 + 23).toNat = _
    omega
  unfold UnpackedFloat.pack
  dsimp only
  rw [hb]
  rw [if_neg (by show ¬ 2 ^ 8 ≤ (e + 150).toNat + 1; omega)]
  -- The first digit is not written if it is set; if it is not, the exponent field is zero.
  by_cases hfull : 2 ^ 23 ≤ m
  · have hlog : m.log2 = 23 := (Nat.log2_eq_iff (by omega)).2 ⟨hfull, hm⟩
    rw [if_pos (by rw [hlog]; rfl)]
    have hmod : BitVec.ofNat 23 m = BitVec.ofNat 23 (m % 2 ^ 23) := by
      apply BitVec.eq_of_toNat_eq
      simp
    show (packComponents Format.binary32 s (BitVec.ofNat 8 _) (BitVec.ofNat 23 m)).toNat = _
    rw [hmod, toNat_packComponents s _ _ (by omega) (by omega)]
    omega
  · have hlog : m.log2 < 23 := (Nat.log2_lt (by omega)).2 (by omega)
    rw [if_neg (by show ¬ m.log2 + 1 = 24; omega)]
    show (packComponents Format.binary32 s (BitVec.ofNat 8 0) (BitVec.ofNat 23 m)).toNat = _
    rw [toNat_packComponents s _ _ (by omega) (by omega)]
    omega

theorem toNat_toBits_infinity (s : Sign) :
    (packed (.infinity s)).toBits.toNat = signBit s + 255 * 2 ^ 23 := by
  cases s <;> rfl

theorem toNat_toBits_zero (s : Sign) : (packed (.zero s)).toBits.toNat = signBit s := by
  cases s <;> rfl

theorem signOfBits_signBit_add (s : Sign) {n : Nat} (hn : n < 2 ^ 31) :
    signOfBits (signBit s + n) = s := by
  cases s with
  | positive => exact if_pos (by show 0 + n < 2 ^ 31; omega)
  | negative => exact if_neg (by show ¬ 2 ^ 31 + n < 2 ^ 31; omega)

theorem signBit_mod (s : Sign) : signBit s % 2 ^ 31 = 0 := by
  cases s <;> rfl

/-- Encodable parts come back from the word that they are packed into. -/
theorem parts_packed {u : UnpackedFloat} (h : Encodable u) : parts (packed u) = u := by
  rw [parts_eq]
  cases u with
  | infinity s => cases s <;> rfl
  | notANumber => rfl
  | zero s => cases s <;> rfl
  | finite s m e hpos =>
      rw [toNat_toBits_finite s m e hpos h]
      obtain ⟨hm, hlo, hhi, hlead⟩ := h
      have hs := signOfBits_signBit_add s (n := (e + 149).toNat * 2 ^ 23 + m) (by omega)
      rw [← Nat.add_assoc] at hs
      -- Of the bit of the sign only its place matters, which is past both other fields.
      have hbit := signBit_mod s
      generalize signBit s = b at hs hbit
      unfold partsOfBits
      rw [hs, if_neg (by omega)]
      by_cases hfull : 2 ^ 23 ≤ m
      · rw [if_neg (by omega)]
        exact finite_eq_finite (by omega) (by omega)
      · rw [if_pos (by omega), dif_neg (by omega)]
        exact finite_eq_finite (by omega) (by omega)

theorem toBits_injective {x y : Float32} (h : x.toBits.toNat = y.toBits.toNat) : x = y := by
  obtain ⟨⟨a, ha⟩⟩ := x
  obtain ⟨⟨b, hb⟩⟩ := y
  have hab : a = b := UInt32.toNat_inj.1 h
  subst hab
  rfl

/-- The bits of the undefined number. -/
theorem toNat_toBits_of_parts_eq_notANumber {x : Float32} (h : parts x = .notANumber) :
    x.toBits.toNat = 0x7fc00000 := by
  rw [parts_eq] at h
  have hfields : x.toBits.toNat / 2 ^ 23 % 2 ^ 8 = 255 ∧ x.toBits.toNat % 2 ^ 23 ≠ 0 := by
    rcases partsOfBits_cases x.toBits.toNat with ⟨hp, -⟩ | ⟨-, hp⟩ | ⟨hp, -⟩ | ⟨m, e, hm, hp, -⟩
    · exact nomatch hp.symm.trans h
    · exact hp
    · exact nomatch hp.symm.trans h
    · exact nomatch hp.symm.trans h
  obtain ⟨⟨a, ha⟩⟩ := x
  change a.toNat / 2 ^ 23 % 2 ^ 8 = 255 ∧ a.toNat % 2 ^ 23 ≠ 0 at hfields
  have hlast : @unpackExponent Format.binary32 a.toBitVec = -1#_ := by
    apply BitVec.eq_of_toNat_eq
    rw [toNat_unpackExponent]
    exact hfields.1
  have hsome : @unpackMantissa Format.binary32 a.toBitVec ≠ 0#_ := by
    intro hnone
    apply hfields.2
    have hm := toNat_unpackMantissa a.toBitVec
    rw [hnone] at hm
    exact hm.symm
  show a.toBitVec.toNat = _
  rw [ha.eq_packedNaN hlast hsome]
  rfl

theorem signBit_signOfBits {n : Nat} (h : n < 2 ^ 32) : signBit (signOfBits n) + n % 2 ^ 31 = n := by
  unfold signOfBits
  by_cases hlt : n < 2 ^ 31
  · rw [if_pos hlt]
    show 0 + n % 2 ^ 31 = n
    omega
  · rw [if_neg hlt]
    show 2 ^ 31 + n % 2 ^ 31 = n
    omega

/-- Unpacking a number and packing its parts changes nothing. -/
theorem packed_parts (x : Float32) : packed (parts x) = x := by
  apply toBits_injective
  have hword := signBit_signOfBits (show x.toBits.toNat < 2 ^ 32 from x.toBits.toNat_lt)
  have hparts := parts_eq x
  rcases partsOfBits_cases x.toBits.toNat with ⟨hp, hn⟩ | ⟨hp, -⟩ | ⟨hp, hn⟩ | ⟨m, e, hm, hp, henc, hn⟩
  · rw [hparts, hp, toNat_toBits_infinity, ← hn, hword]
  · rw [hp] at hparts
    rw [toNat_toBits_of_parts_eq_notANumber hparts, hparts]
    rfl
  · rw [hparts, hp, toNat_toBits_zero]
    omega
  · rw [hparts, hp, toNat_toBits_finite _ _ _ _ henc, Nat.add_assoc, ← hn, hword]

end SpriteStage.Single
