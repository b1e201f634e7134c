import SpriteStage.Json.Quoted

/-!
# Quoted strings come back

Each character is written as one piece inside quotes, and the piece is decoded as that character. So
a string that is written in quotes is scanned up to the closing quote, whatever follows it, and
decoded as itself (`exists_scan_escape`).
-/

set_option autoImplicit false

namespace SpriteStage.Json.Quoted

variable {rest tail : List Char} {pieces : List Piece}

/-- The digits with which a control character is written give its code point. -/
theorem hexUnit?_hexDigit : ∀ n < 0x20,
    hexUnit? '0' '0' (hexDigit (n / 16)) (hexDigit (n % 16)) = some n := by
  decide

theorem scan_unit {a b c d : Char} {n : Nat} (hunit : hexUnit? a b c d = some n)
    (h : scan rest = some (pieces, tail)) :
    scan ('\\' :: 'u' :: a :: b :: c :: d :: rest) = some (.unit n :: pieces, tail) := by
  simp [scan, hunit, h]

theorem scan_short {e c : Char} (he : e ≠ 'u') (hshort : shortEscape? e = some c)
    (h : scan rest = some (pieces, tail)) :
    scan ('\\' :: e :: rest) = some (.char c :: pieces, tail) := by
  simp [scan, he, hshort, h]

theorem scan_plain {c : Char} (hquote : c ≠ '"') (hslash : c ≠ '\\') (hcontrol : ¬ c.toNat < 0x20)
    (h : scan rest = some (pieces, tail)) :
    scan (c :: rest) = some (.char c :: pieces, tail) := by
  simp [scan, hslash, hcontrol, h]

/-- A piece that is decoded as a character. -/
def Piece.Gives (p : Piece) (c : Char) : Prop :=
  ∀ pieces, decode (p :: pieces) = (decode pieces).map (c :: ·)

theorem gives_char (c : Char) : (Piece.char c).Gives c := fun _ => rfl

/-- The units of control characters are no halves of a pair. -/
theorem gives_unit {c : Char} (h : c.toNat < 0x20) : (Piece.unit c.toNat).Gives c := by
  intro pieces
  have hhigh : isHighHalf c.toNat = false := by
    simp [isHighHalf]
    omega
  have hlow : isLowHalf c.toNat = false := by
    simp [isLowHalf]
    omega
  rw [decode.eq_def]
  simp [hhigh, hlow, Char.ofNat_toNat]

/-- A character is written as one piece, which gives it back. -/
theorem exists_piece (c : Char) (h : scan rest = some (pieces, tail)) :
    ∃ p : Piece, scan (escape c ++ rest) = some (p :: pieces, tail) ∧ p.Gives c := by
  -- the letter after the backslash is not the one that announces digits
  have hshort : ∀ e d : Char, e ≠ 'u' → shortEscape? e = some d → escape d = ['\\', e] →
      ∃ p : Piece, scan (escape d ++ rest) = some (p :: pieces, tail) ∧ p.Gives d := by
    intro e d he hd hescape
    rw [hescape]
    exact ⟨.char d, scan_short he hd h, gives_char d⟩
  by_cases hquote : c = '"'
  · exact hquote ▸ hshort '"' '"' (by decide) rfl rfl
  by_cases hslash : c = '\\'
  · exact hslash ▸ hshort '\\' '\\' (by decide) rfl rfl
  by_cases hb : c = '\x08'
  · exact hb ▸ hshort 'b' '\x08' (by decide) rfl rfl
  by_cases hf : c = '\x0c'
  · exact hf ▸ hshort 'f' '\x0c' (by decide) rfl rfl
  by_cases hn : c = '\n'
  · exact hn ▸ hshort 'n' '\n' (by decide) rfl rfl
  by_cases hr : c = '\r'
  · exact hr ▸ hshort 'r' '\r' (by decide) rfl rfl
  by_cases ht : c = '\t'
  · exact ht ▸ hshort 't' '\t' (by decide) rfl rfl
  -- no short escape: a unit of two digits if it is a control character, else the character itself
  by_cases hcontrol : c.toNat < 0x20
  · refine ⟨.unit c.toNat, ?_, gives_unit hcontrol⟩
    have hunit := scan_unit (hexUnit?_hexDigit c.toNat hcontrol) h
    simpa [escape, hquote, hslash, hb, hf, hn, hr, ht, hcontrol] using hunit
  · refine ⟨.char c, ?_, gives_char c⟩
    have hplain := scan_plain hquote hslash hcontrol h
    simpa [escape, hquote, hslash, hb, hf, hn, hr, ht, hcontrol] using hplain

/-- The inside of a quoted string is scanned up to the quote that ends it, and decoded as the
string. -/
theorem exists_scan_escape (cs rest : List Char) :
    ∃ pieces, scan (cs.flatMap escape ++ '"' :: rest) = some (pieces, rest) ∧
      decode pieces = some cs := by
  induction cs with
  | nil => exact ⟨[], by simp [scan], rfl⟩
  | cons c cs ih =>
      obtain ⟨pieces, hscan, hdecode⟩ := ih
      obtain ⟨p, hpiece, hgives⟩ := exists_piece c hscan
      refine ⟨p :: pieces, ?_, ?_⟩
      · rw [List.flatMap_cons, List.append_assoc]
        exact hpiece
      · rw [hgives, hdecode]
        rfl

end SpriteStage.Json.Quoted
