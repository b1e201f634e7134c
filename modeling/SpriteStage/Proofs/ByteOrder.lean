import Mathlib.Algebra.Group.Nat.Defs

/-!
# Names in the order of their bytes

Names are sorted by their code points. The bytes of their encoded form give the same order
(`utf8_lt_iff`): a character with a greater code point has a greater first byte, or the same first
byte and later ones that are greater, and none of two different characters is the beginning of the
other (`LessWithin`).
-/

set_option autoImplicit false

namespace SpriteStage

/-- The bytes of a text. -/
def utf8 (s : String) : List UInt8 := s.toUTF8.data.toList

theorem utf8_eq_flatMap (s : String) : utf8 s = s.toList.flatMap String.utf8EncodeChar := by
  rw [utf8, String.toUTF8_eq_toByteArray, ← String.utf8Encode_toList, List.utf8Encode,
    List.data_toByteArray, List.toList_toArray]

/-! ## Bytes that differ -/

/-- The first difference is within both lists, so it decides whatever follows. -/
inductive LessWithin : List UInt8 → List UInt8 → Prop where
  | here {a b : UInt8} {l m : List UInt8} (h : a < b) : LessWithin (a :: l) (b :: m)
  | later {a : UInt8} {l m : List UInt8} (h : LessWithin l m) : LessWithin (a :: l) (a :: m)

theorem LessWithin.append_lt_append {l m : List UInt8} (h : LessWithin l m)
    (after other : List UInt8) : l ++ after < m ++ other := by
  induction h with
  | here h => exact List.cons_lt_cons_iff.2 (Or.inl h)
  | later h ih => exact List.cons_lt_cons_iff.2 (Or.inr ⟨rfl, ih⟩)

/-- Bytes that do not overflow are in the order of their numbers. -/
theorem ofNat_lt_ofNat {a b : Nat} (hb : b < 256) (h : a < b) : UInt8.ofNat a < UInt8.ofNat b := by
  rw [UInt8.lt_iff_toNat_lt, UInt8.toNat_ofNat', UInt8.toNat_ofNat']
  omega

/-! ## Characters -/

/-- The last `n` bytes of a code point have six bits each, the highest first. -/
def trailing : Nat → Nat → List UInt8
  | 0, _ => []
  | n + 1, v => UInt8.ofNat (v / 64 ^ n % 64 + 128) :: trailing n v

/-- How many bytes of a code point follow its first one. -/
def trailingCount (v : Nat) : Nat :=
  if v ≤ 127 then 0 else if v ≤ 2047 then 1 else if v ≤ 65535 then 2 else 3

/-- The first byte tells how many follow, and has the bits that are left. -/
def leading (v : Nat) : Nat :=
  if v ≤ 127 then v else if v ≤ 2047 then 192 + v / 64
  else if v ≤ 65535 then 224 + v / 4096 else 240 + v / 262144

theorem val_lt (c : Char) : c.val.toNat < 1114112 := by
  rcases c.valid with h | ⟨-, h⟩
  · exact Nat.lt_trans h (by decide)
  · exact h

theorem utf8EncodeChar_eq (c : Char) :
    String.utf8EncodeChar c =
      UInt8.ofNat (leading c.val.toNat) :: trailing (trailingCount c.val.toNat) c.val.toNat := by
  have hbound := val_lt c
  unfold String.utf8EncodeChar leading trailingCount
  generalize c.val.toNat = v at hbound
  dsimp only
  split
  · rfl
  · split
    · have hhigh : v / 64 % 32 + 192 = 192 + v / 64 := by omega
      rw [hhigh]
      simp [trailing]
    · split
      · have hhigh : v / 4096 % 16 + 224 = 224 + v / 4096 := by omega
        rw [hhigh]
        simp [trailing]
      · have hhigh : v / 262144 % 8 + 240 = 240 + v / 262144 := by omega
        rw [hhigh]
        simp [trailing]

theorem leading_lt {v : Nat} (h : v < 1114112) : leading v < 256 := by
  grind [leading]

theorem trailing_less {n v w : Nat} (h : v % 64 ^ n < w % 64 ^ n) :
    LessWithin (trailing n v) (trailing n w) := by
  induction n with
  | zero =>
      rw [Nat.pow_zero, Nat.mod_one, Nat.mod_one] at h
      omega
  | succ n ih =>
      rw [Nat.mod_pow_succ, Nat.mod_pow_succ] at h
      rcases Nat.lt_trichotomy (v / 64 ^ n % 64) (w / 64 ^ n % 64) with hlt | heq | hgt
      · exact .here (ofNat_lt_ofNat (by omega) (by omega))
      · rw [trailing, trailing, heq]
        rw [heq] at h
        exact .later (ih (by omega))
      · -- a greater digit outweighs all that come after it
        have hmore := Nat.mul_le_mul_left (64 ^ n) (Nat.succ_le_of_lt hgt)
        have hless : w % 64 ^ n < 64 ^ n := Nat.mod_lt _ (Nat.pow_pos (by decide))
        rw [Nat.mul_succ] at hmore
        omega

/-- A greater code point has a greater first byte, or the same with more in the bytes after it. -/
theorem leading_lt_or {v w : Nat} (h : v < w) :
    leading v < leading w ∨ leading v = leading w ∧ trailingCount v = trailingCount w ∧
      v % 64 ^ trailingCount v < w % 64 ^ trailingCount w := by
  grind [leading, trailingCount]

theorem utf8EncodeChar_less {c d : Char} (h : c < d) :
    LessWithin (String.utf8EncodeChar c) (String.utf8EncodeChar d) := by
  have hlt : c.val.toNat < d.val.toNat := UInt32.lt_iff_toNat_lt.1 (Char.lt_def.1 h)
  rw [utf8EncodeChar_eq, utf8EncodeChar_eq]
  rcases leading_lt_or hlt with hfirst | ⟨hfirst, hcount, hrest⟩
  · exact .here (ofNat_lt_ofNat (leading_lt (val_lt d)) hfirst)
  · rw [hfirst, hcount]
    rw [hcount] at hrest
    exact .later (trailing_less hrest)

/-! ## Texts -/

theorem utf8_lt_utf8 {s t : String} (h : s < t) : utf8 s < utf8 t := by
  have hchars : s.toList < t.toList := h
  rw [utf8_eq_flatMap, utf8_eq_flatMap]
  generalize s.toList = l at hchars
  generalize t.toList = m at hchars
  induction l generalizing m with
  | nil =>
      cases m with
      | nil => exact absurd hchars (List.lt_irrefl _)
      | cons d m =>
          rw [List.flatMap_cons, utf8EncodeChar_eq]
          exact List.nil_lt_cons _ _
  | cons c l ih =>
      cases m with
      | nil => cases hchars
      | cons d m =>
          rw [List.flatMap_cons, List.flatMap_cons]
          rcases List.cons_lt_cons_iff.1 hchars with hlt | ⟨rfl, hrest⟩
          · exact (utf8EncodeChar_less hlt).append_lt_append _ _
          · exact List.append_left_lt (ih m hrest)

/-- Sorting by bytes is sorting by code points. -/
theorem utf8_lt_iff {s t : String} : utf8 s < utf8 t ↔ s < t := by
  constructor
  · intro h
    apply Classical.byContradiction
    intro hnot
    by_cases hlt : t < s
    · exact List.lt_asymm h (utf8_lt_utf8 hlt)
    · rw [String.le_antisymm (String.not_lt.1 hlt) (String.not_lt.1 hnot)] at h
      exact List.lt_irrefl _ h
  · exact utf8_lt_utf8

end SpriteStage
