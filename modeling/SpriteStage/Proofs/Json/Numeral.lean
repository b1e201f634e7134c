import SpriteStage.Proofs.Json.Literal
import SpriteStage.Json.Reader

/-!
# Numbers as they are written

The digits of a natural number are a literal of their own, and the literal stands for the number
(`scan_numeral`, `toNumber?_numeral`). A number in single precision may be written with a sign, a
point and an exponent, but never with a blank (`isBlank_of_mem_singleText`).
-/

set_option autoImplicit false

namespace SpriteStage

open Decimal (numeral)

namespace Decimal

/-- The characters with which numbers are written. -/
def IsNumeric (c : Char) : Prop := c.isDigit = true ∨ c ∈ ['-', '+', '.', 'e']

instance (c : Char) : Decidable (IsNumeric c) := inferInstanceAs (Decidable (_ ∨ _))

theorem IsNumeric.ne {c d : Char} (h : IsNumeric c) (hd : ¬ IsNumeric d) : c ≠ d := by
  rintro rfl
  exact hd h

theorem IsNumeric.isBlank {c : Char} (h : IsNumeric c) : Json.isBlank c = false := by
  have hspace : c ≠ ' ' := h.ne (by decide)
  have htab : c ≠ '\t' := h.ne (by decide)
  have hline : c ≠ '\n' := h.ne (by decide)
  have hreturn : c ≠ '\r' := h.ne (by decide)
  simp [Json.isBlank, hspace, htab, hline, hreturn]

end Decimal

namespace Json.Literal

variable {rest : List Char} {n : Nat}

theorem isDigit_of_mem_numeral {c : Char} (h : c ∈ numeral n) : c.isDigit = true :=
  Nat.isDigit_of_mem_toDigits (by decide) (by decide) h

/-- The digits of `n` as numbers. -/
def digitsOf (n : Nat) : List Nat := (numeral n).map digitValue

theorem scanDigits_numeral (n : Nat) : scanDigits (numeral n) = (digitsOf n, []) := by
  have hdigits : ∀ c ∈ numeral n, c.isDigit = true := fun c h => isDigit_of_mem_numeral h
  have htake : (numeral n ++ []).takeWhile Char.isDigit = numeral n ++ [] :=
    List.takeWhile_append_of_pos hdigits
  have hdrop : (numeral n ++ []).dropWhile Char.isDigit = [] :=
    List.dropWhile_append_of_pos hdigits
  rw [List.append_nil] at htake hdrop
  rw [scanDigits, htake, hdrop, digitsOf]

theorem ofDigits_digitsOf (n : Nat) : ofDigits (digitsOf n) = n := by
  rw [ofDigits, digitsOf, List.foldl_map]
  exact Nat.ofDigitChars_ten_toDigits

theorem digitsOf_of_lt (h : n < 10) : digitsOf n = [n] := by
  rw [digitsOf, numeral, Nat.toDigits_of_lt_base h]
  exact congrArg (· :: []) (Nat.toNat_digitChar_sub_48_of_lt_ten h)

theorem digitsOf_of_le (h : 10 ≤ n) : digitsOf n = digitsOf (n / 10) ++ [n % 10] := by
  have hlast : digitValue (n % 10).digitChar = n % 10 :=
    Nat.toNat_digitChar_sub_48_of_lt_ten (Nat.mod_lt n (by decide))
  rw [digitsOf, numeral, Nat.toDigits_eq_if (by decide), if_neg (by omega), List.map_append]
  simp only [digitsOf, numeral, List.map_cons, List.map_nil, hlast]

/-- A positive number does not start with the digit zero. -/
theorem exists_digitsOf_eq_cons (n : Nat) (h : 0 < n) : ∃ d ds, digitsOf n = d :: ds ∧ d ≠ 0 := by
  induction n using Nat.strongRecOn with
  | ind n ih =>
      by_cases hlt : n < 10
      · exact ⟨n, [], digitsOf_of_lt hlt, by omega⟩
      · obtain ⟨d, ds, hdigits, hd⟩ := ih (n / 10) (by omega) (by omega)
        refine ⟨d, ds ++ [n % 10], ?_, hd⟩
        rw [digitsOf_of_le (by omega), hdigits, List.cons_append]

theorem leading_digitsOf (n : Nat) : Leading (digitsOf n) := by
  cases n with
  | zero => exact Leading.single 0
  | succ n =>
      obtain ⟨d, ds, hdigits, hd⟩ := exists_digitsOf_eq_cons (n + 1) (Nat.succ_pos n)
      exact hdigits ▸ Leading.several hd ds

theorem scan_of_isDigit {c : Char} (h : c.isDigit = true) (cs : List Char) :
    scan (c :: cs) = scanUnsigned false (c :: cs) := by
  refine scan_of_ne ?_ cs
  rintro rfl
  exact absurd h (by decide)

/-- A literal starts with a sign or a digit. -/
theorem head_of_scan {cs tail : List Char} {l : Literal} (h : scan cs = some (l, tail)) :
    ∃ c t, cs = c :: t ∧ Decimal.IsNumeric c := by
  cases cs with
  | nil => cases h
  | cons c t =>
      refine ⟨c, t, rfl, ?_⟩
      by_cases hminus : c = '-'
      · exact Or.inr (List.mem_cons.2 (Or.inl hminus))
      · rw [scan_of_ne hminus] at h
        obtain ⟨-, -, -, hleading, -⟩ := scanUnsigned_eq_some_iff.1 h
        cases hdigit : c.isDigit with
        | true => exact Or.inl hdigit
        | false =>
            simp only [scanDigits, List.takeWhile_cons, hdigit] at hleading
            cases hleading

/-- The digits of a number are split off as a literal. -/
theorem scan_numeral (n : Nat) (h : Closed rest) :
    scan (numeral n ++ rest) = some (⟨false, digitsOf n, none, none⟩, rest) := by
  have hunsigned : scanUnsigned false (numeral n) = some (⟨false, digitsOf n, none, none⟩, []) := by
    rw [scanUnsigned_eq_some_iff, scanDigits_numeral]
    exact ⟨none, none, [], leading_digitsOf n, rfl, rfl, rfl⟩
  have halone : scan (numeral n) = some (⟨false, digitsOf n, none, none⟩, []) := by
    rw [← hunsigned]
    match hnumeral : numeral n with
    | [] => exact absurd hnumeral Nat.toDigits_ne_nil
    | c :: cs =>
        refine scan_of_isDigit (isDigit_of_mem_numeral (n := n) ?_) cs
        rw [hnumeral]
        exact List.mem_cons_self
  exact local_scan.append halone h

/-- The literal stands for the number. -/
theorem toNumber?_digitsOf (h : n < UInt64.size) :
    (⟨false, digitsOf n, none, none⟩ : Literal).toNumber? = some (.natural n.toUInt64) := by
  simp [toNumber?, ofDigits_digitsOf, h]

end Json.Literal

namespace Decimal

theorem isNumeric_of_mem_numeral {c : Char} {n : Nat} (h : c ∈ numeral n) : IsNumeric c :=
  Or.inl (Json.Literal.isDigit_of_mem_numeral h)

theorem isNumeric_of_mem_writePlain {pointed : Bool} {digits : List Char} {place : Int} {c : Char}
    (hdigits : ∀ d ∈ digits, IsNumeric d) (h : c ∈ writePlain pointed digits place) :
    IsNumeric c := by
  have hzero : IsNumeric '0' := Or.inl rfl
  have hpoint : IsNumeric '.' := Or.inr (by decide)
  simp only [writePlain] at h
  split at h
  · -- a whole number: zeros follow the digits, and perhaps a point
    simp only [List.mem_append, List.mem_replicate] at h
    rcases h with (h | ⟨-, rfl⟩) | h
    · exact hdigits c h
    · exact hzero
    · cases pointed with
      | false => cases h
      | true =>
          simp only [if_true, List.mem_cons, List.not_mem_nil, or_false] at h
          rcases h with rfl | rfl
          · exact hpoint
          · exact hzero
  split at h
  · -- the point stands among the digits
    simp only [List.mem_append, List.mem_cons] at h
    rcases h with h | rfl | h
    · exact hdigits c (List.mem_of_mem_take h)
    · exact hpoint
    · exact hdigits c (List.mem_of_mem_drop h)
  · -- the point stands before the digits
    simp only [List.mem_append, List.mem_cons, List.mem_replicate] at h
    rcases h with (rfl | rfl | ⟨-, rfl⟩) | h
    · exact hzero
    · exact hpoint
    · exact hzero
    · exact hdigits c h

theorem isNumeric_of_mem_writeScientific {digits : List Char} {exponent : Int} {c : Char}
    (hdigits : ∀ d ∈ digits, IsNumeric d) (h : c ∈ writeScientific digits exponent) :
    IsNumeric c := by
  simp only [writeScientific, List.mem_append, List.mem_cons] at h
  rcases h with (h | h) | rfl | h | h
  · exact hdigits c (List.mem_of_mem_take h)
  · split at h
    · cases h
    · rcases List.mem_cons.1 h with rfl | h
      · exact Or.inr (by decide)
      · exact hdigits c (List.mem_of_mem_drop h)
  · exact Or.inr (by decide)
  · subst h
    split <;> exact Or.inr (by decide)
  · exact isNumeric_of_mem_numeral h

theorem Layout.isNumeric_of_mem_write {layout : Layout} {b : Binary} {c : Char}
    (h : c ∈ layout.write b) : IsNumeric c := by
  simp only [Layout.write, List.mem_append] at h
  rcases h with h | h
  · split at h
    · cases List.mem_singleton.1 h
      exact Or.inr (by decide)
    · cases h
  · -- whether an exponent is written does not matter
    have hform : ∀ (isPlain pointed : Bool) (place exponent : Int) (n : Nat),
        c ∈ (if isPlain = true then writePlain pointed (numeral n) place
          else writeScientific (numeral n) exponent) → IsNumeric c := by
      intro isPlain pointed place exponent n h
      cases isPlain with
      | true => exact isNumeric_of_mem_writePlain (fun d => isNumeric_of_mem_numeral) h
      | false => exact isNumeric_of_mem_writeScientific (fun d => isNumeric_of_mem_numeral) h
    exact hform _ _ _ _ _ h

theorem isBlank_of_mem_singleText {x : Float32} {c : Char} (h : c ∈ singleText x) :
    Json.isBlank c = false := by
  simp only [singleText] at h
  split at h
  · exact (Layout.isNumeric_of_mem_write h).isBlank
  · have hword : ∀ c ∈ "null".toList, Json.isBlank c = false := by simp [Json.isBlank]
    exact hword c h

end Decimal

end SpriteStage
