import SpriteStage.Json.Literal
import SpriteStage.Decimal.Layout

/-!
# Literals inside a text

Inside a text, a literal is followed by a comma or by a closing bracket. None of these belongs to a
number, so a literal is split off the text as if it stood alone (`local_scan`). The digits of a
natural number are split off as a literal whose value is that number (`scan_numeral`).
-/

set_option autoImplicit false

namespace SpriteStage.Json

/-- Nothing follows, or something that ends a value: a comma or a closing bracket. -/
def Closed : List Char → Prop
  | [] => True
  | c :: _ => c = ',' ∨ c = ']' ∨ c = '}'

namespace Literal

variable {α : Type} {cs tail rest : List Char}

/-- A scanner that does not look past the end of a value. -/
structure Local (scan : List Char → Option (α × List Char)) : Prop where
  /-- What is left is an end of the text. -/
  suffix : ∀ {cs tail : List Char} {a : α}, scan cs = some (a, tail) → tail <:+ cs
  /-- What follows the value is left over. -/
  append : ∀ {cs tail rest : List Char} {a : α}, scan cs = some (a, tail) → Closed rest →
    scan (cs ++ rest) = some (a, tail ++ rest)

/-- A scanner that takes nothing. -/
theorem local_absent : Local fun cs : List Char => some ((none : Option α), cs) := by
  constructor
  · intro cs tail a h
    cases h
    exact List.suffix_refl _
  · intro cs tail rest a h _
    cases h
    rfl

/-- A scanner may look at the first character and leave the rest to another scanner, which is given
that character or is not. -/
theorem Local.of_head {scan : List Char → Option (α × List Char)}
    (hnil : ∀ {a : α} {tail rest : List Char}, scan [] = some (a, tail) → Closed rest →
      tail = [] ∧ scan rest = some (a, rest))
    (hcons : ∀ c, ∃ f, Local f ∧ ((∀ cs, scan (c :: cs) = f cs) ∨
      ∀ cs, scan (c :: cs) = f (c :: cs))) : Local scan := by
  constructor
  · intro cs tail a h
    cases cs with
    | nil =>
        -- nothing follows, which is a way to go on where a value ends
        have hend : Closed [] := trivial
        obtain ⟨rfl, -⟩ := hnil h hend
        exact List.suffix_refl _
    | cons c cs =>
        obtain ⟨f, hlocal, htaken | hleft⟩ := hcons c
        · rw [htaken] at h
          exact (hlocal.suffix h).trans (List.suffix_cons _ _)
        · rw [hleft] at h
          exact hlocal.suffix h
  · intro cs tail rest a h hrest
    cases cs with
    | nil =>
        obtain ⟨rfl, hscan⟩ := hnil h hrest
        exact hscan
    | cons c cs =>
        obtain ⟨f, hlocal, htaken | hleft⟩ := hcons c
        · rw [htaken] at h
          rw [List.cons_append, htaken]
          exact hlocal.append h hrest
        · rw [hleft] at h
          rw [List.cons_append, hleft]
          exact hlocal.append h hrest

/-! ## Digits -/

theorem takeWhile_of_closed (h : Closed rest) :
    rest.takeWhile Char.isDigit = [] ∧ rest.dropWhile Char.isDigit = rest := by
  cases rest with
  | nil => exact ⟨rfl, rfl⟩
  | cons c rest =>
      have hdigit : c.isDigit = false := by
        rcases h with rfl | rfl | rfl <;> decide
      simp [hdigit]

/-- The digits of a text do not go on where the value ends. -/
theorem scanDigits_append (cs : List Char) (h : Closed rest) :
    scanDigits (cs ++ rest) = ((scanDigits cs).1, (scanDigits cs).2 ++ rest) := by
  obtain ⟨htake, hdrop⟩ := takeWhile_of_closed h
  induction cs with
  | nil => simp [scanDigits, htake, hdrop]
  | cons c cs ih =>
      simp only [scanDigits, List.cons_append, List.takeWhile_cons, List.dropWhile_cons] at ih ⊢
      cases c.isDigit with
      | true => simpa using ih
      | false => simp

theorem scanDigits_suffix (cs : List Char) : (scanDigits cs).2 <:+ cs := List.dropWhile_suffix _

/-! ## The parts of a literal -/

/-- Splits digits off a text, of which there has to be one, and makes something of them. -/
def scanSome (make : List Nat → α) (cs : List Char) : Option (α × List Char) :=
  match scanDigits cs with
  | ([], _) => none
  | (digits, rest) => some (make digits, rest)

theorem local_scanSome (make : List Nat → α) : Local (scanSome make) := by
  have hcases : ∀ {cs tail : List Char} {a : α}, scanSome make cs = some (a, tail) ↔
      (scanDigits cs).1 ≠ [] ∧ make (scanDigits cs).1 = a ∧ (scanDigits cs).2 = tail := by
    intro cs tail a
    simp only [scanSome]
    rcases scanDigits cs with ⟨digits, left⟩
    cases digits with
    | nil => simp
    | cons d ds => simp
  constructor
  · intro cs tail a h
    obtain ⟨-, -, rfl⟩ := hcases.1 h
    exact scanDigits_suffix cs
  · intro cs tail rest a h hrest
    obtain ⟨hsome, hmake, htail⟩ := hcases.1 h
    rw [hcases, scanDigits_append cs hrest]
    exact ⟨hsome, hmake, by rw [htail]⟩

theorem scanFraction_of_ne {c : Char} (h : c ≠ '.') (cs : List Char) :
    scanFraction (c :: cs) = some (none, c :: cs) := by
  rw [scanFraction.eq_def]
  split
  · next heq =>
      cases heq
      exact absurd rfl h
  · rfl

/-- Where a value ends, no point and no exponent comes next. -/
theorem scan_of_closed (h : Closed rest) :
    scanFraction rest = some (none, rest) ∧ scanExponent rest = some (none, rest) := by
  cases rest with
  | nil => exact ⟨rfl, rfl⟩
  | cons c rest => rcases h with rfl | rfl | rfl <;> exact ⟨rfl, rfl⟩

theorem local_scanFraction : Local scanFraction := by
  refine Local.of_head (fun h hrest => ?_) fun c => ?_
  · cases h
    exact ⟨rfl, (scan_of_closed hrest).1⟩
  · by_cases hpoint : c = '.'
    · subst hpoint
      exact ⟨scanSome some, local_scanSome some, Or.inl fun _ => rfl⟩
    · exact ⟨_, local_absent, Or.inr (scanFraction_of_ne hpoint)⟩

/-- What the digits of an exponent stand for. -/
def power (negative : Bool) (digits : List Nat) : Option Int :=
  some (if negative then -ofDigits digits else ofDigits digits)

/-- Splits off the sign and the digits of an exponent. -/
def scanSigned : List Char → Option (Option Int × List Char)
  | '+' :: r => scanPower false r
  | '-' :: r => scanPower true r
  | r => scanPower false r

theorem scanSigned_of_ne {c : Char} (hplus : c ≠ '+') (hminus : c ≠ '-') (cs : List Char) :
    scanSigned (c :: cs) = scanSome (power false) (c :: cs) := by
  rw [scanSigned.eq_def]
  split
  · next heq =>
      cases heq
      exact absurd rfl hplus
  · next heq =>
      cases heq
      exact absurd rfl hminus
  · rfl

theorem local_scanSigned : Local scanSigned := by
  refine Local.of_head (fun h => by cases h) fun c => ?_
  by_cases hplus : c = '+'
  · subst hplus
    exact ⟨scanSome (power false), local_scanSome _, Or.inl fun _ => rfl⟩
  by_cases hminus : c = '-'
  · subst hminus
    exact ⟨scanSome (power true), local_scanSome _, Or.inl fun _ => rfl⟩
  · exact ⟨scanSome (power false), local_scanSome _, Or.inr (scanSigned_of_ne hplus hminus)⟩

theorem scanExponent_cons (c : Char) (cs : List Char) :
    scanExponent (c :: cs) = if c = 'e' ∨ c = 'E' then scanSigned cs else some (none, c :: cs) := by
  rfl

theorem local_scanExponent : Local scanExponent := by
  refine Local.of_head (fun h hrest => ?_) fun c => ?_
  · cases h
    exact ⟨rfl, (scan_of_closed hrest).2⟩
  · by_cases hmark : c = 'e' ∨ c = 'E'
    · exact ⟨scanSigned, local_scanSigned, Or.inl fun cs => by rw [scanExponent_cons, if_pos hmark]⟩
    · exact ⟨_, local_absent, Or.inr fun cs => by rw [scanExponent_cons, if_neg hmark]⟩

/-! ## Whole literals -/

/-- Digits that may stand before a point: there is one, and of several the first is not zero. -/
inductive Leading : List Nat → Prop where
  /-- A single digit. -/
  | single (d : Nat) : Leading [d]
  /-- Several digits. -/
  | several {d : Nat} (h : d ≠ 0) (ds : List Nat) : Leading (d :: ds)

/-- A literal is split off part by part. -/
theorem scanUnsigned_eq_some_iff {minus : Bool} {l : Literal} :
    scanUnsigned minus cs = some (l, tail) ↔
      ∃ fraction exponent after,
        Leading (scanDigits cs).1 ∧ scanFraction (scanDigits cs).2 = some (fraction, after) ∧
          scanExponent after = some (exponent, tail) ∧
          l = ⟨minus, (scanDigits cs).1, fraction, exponent⟩ := by
  have hparts : ∀ (whole : List Nat) (left : List Char),
      ((scanFraction left).bind fun p => (scanExponent p.2).bind fun q =>
        some ((⟨minus, whole, p.1, q.1⟩ : Literal), q.2)) = some (l, tail) ↔
      ∃ fraction exponent after, scanFraction left = some (fraction, after) ∧
        scanExponent after = some (exponent, tail) ∧ l = ⟨minus, whole, fraction, exponent⟩ := by
    intro whole left
    constructor
    · intro h
      obtain ⟨⟨fraction, after⟩, hfraction, h⟩ := Option.bind_eq_some_iff.1 h
      obtain ⟨⟨exponent, left⟩, hexponent, h⟩ := Option.bind_eq_some_iff.1 h
      cases h
      exact ⟨fraction, exponent, after, hfraction, hexponent, rfl⟩
    · rintro ⟨fraction, exponent, after, hfraction, hexponent, rfl⟩
      simp [hfraction, hexponent]
  -- the digits before the point decide whether the parts are looked at
  simp only [scanUnsigned]
  rcases scanDigits cs with ⟨whole, left⟩
  cases whole with
  | nil =>
      refine iff_of_false (fun h => by cases h) ?_
      rintro ⟨-, -, -, hleading, -⟩
      cases hleading
  | cons d ds =>
      cases d with
      | succ n =>
          simp only [Leading.several (Nat.succ_ne_zero n) ds, true_and]
          exact hparts ((n + 1) :: ds) left
      | zero =>
          cases ds with
          | nil =>
              simp only [Leading.single 0, true_and]
              exact hparts [0] left
          | cons e ds =>
              refine iff_of_false (fun h => by cases h) ?_
              rintro ⟨-, -, -, hleading, -⟩
              cases hleading with
              | several h => exact h rfl

theorem local_scanUnsigned (minus : Bool) : Local (scanUnsigned minus) := by
  constructor
  · intro cs tail l h
    obtain ⟨fraction, exponent, after, -, hfraction, hexponent, -⟩ := scanUnsigned_eq_some_iff.1 h
    exact (local_scanExponent.suffix hexponent).trans
      ((local_scanFraction.suffix hfraction).trans (scanDigits_suffix cs))
  · intro cs tail rest l h hrest
    obtain ⟨fraction, exponent, after, hleading, hfraction, hexponent, rfl⟩ :=
      scanUnsigned_eq_some_iff.1 h
    rw [scanUnsigned_eq_some_iff, scanDigits_append cs hrest]
    exact ⟨fraction, exponent, after ++ rest, hleading, local_scanFraction.append hfraction hrest,
      local_scanExponent.append hexponent hrest, rfl⟩

theorem scan_of_ne {c : Char} (h : c ≠ '-') (cs : List Char) :
    scan (c :: cs) = scanUnsigned false (c :: cs) := by
  rw [scan.eq_def]
  split
  · next heq =>
      cases heq
      exact absurd rfl h
  · rfl

/-- A literal inside a text is split off as if the text ended with the value. -/
theorem local_scan : Local scan := by
  refine Local.of_head (fun h => by cases h) fun c => ?_
  by_cases hminus : c = '-'
  · subst hminus
    exact ⟨scanUnsigned true, local_scanUnsigned true, Or.inl fun _ => rfl⟩
  · exact ⟨scanUnsigned false, local_scanUnsigned false, Or.inr (scan_of_ne hminus)⟩

end Literal

end SpriteStage.Json
