import SpriteStage.Coordinate
import SpriteStage.Proofs.Single.Order

/-!
# The total order of coordinates

Undefined coordinates have a place in the order of depth as well: those with the sign bit come before
every number, those without it after every number. `TotalLE` states the order by the numbers, the
signs and the bits of undefined coordinates; the rank by which actors are sorted is that order
(`rank_le_rank_iff`).
-/

set_option autoImplicit false

namespace SpriteStage.Coordinate

open Float.Model (UnpackedFloat)
open Single (parts partsOfBits signOfBits level sign scale digits)

/-- The sign bit is set. -/
def IsNegative (c : Coordinate) : Prop := 2 ^ 31 ≤ c.bits.toNat

instance (c : Coordinate) : Decidable c.IsNegative := inferInstanceAs (Decidable (_ ≤ _))

/-- The bits besides the sign bit, as a number. -/
def payload (c : Coordinate) : Nat := c.bits.toNat % 2 ^ 31

/-- One coordinate does not come after another in the total order. Numbers stand in their order, with
negative zero before zero. Undefined coordinates with the sign bit come first, the greater the bits
the sooner, and those without it come last, the greater the bits the later. -/
def TotalLE (c d : Coordinate) : Prop :=
  match c.isUndefined, d.isUndefined with
  | false, false => c.value ≤ d.value ∧ (d.IsNegative → c.IsNegative)
  | true, false => c.IsNegative
  | false, true => ¬ d.IsNegative
  | true, true =>
    (c.IsNegative ∧ ¬ d.IsNegative) ∨
      (c.IsNegative ∧ d.IsNegative ∧ d.payload ≤ c.payload) ∨
        (¬ c.IsNegative ∧ ¬ d.IsNegative ∧ c.payload ≤ d.payload)

/-- The bits besides the sign bit, with the sign. -/
def signed (c : Coordinate) : Int := if c.IsNegative then -(c.payload : Int) else c.payload

variable {c d : Coordinate}

/-- The parts of the number of a coordinate are read off its bits. -/
theorem parts_value (c : Coordinate) : parts c.value = partsOfBits c.bits.toNat := by
  have hvalue : c.value = Single.packed (UnpackedFloat.unpack .binary32 c.bits.toBitVec) := rfl
  rw [hvalue, Single.unpack_eq]
  exact Single.parts_packed (Single.encodable_partsOfBits _)

/-- A coordinate is undefined if its bits go beyond those of infinity. -/
theorem isUndefined_iff (c : Coordinate) : c.isUndefined = true ↔ 255 * 2 ^ 23 < c.payload := by
  have hundefined : c.isUndefined = true ↔ partsOfBits c.bits.toNat = .notANumber := by
    rw [← parts_value]
    exact Single.isNaN_eq_true_iff c.value
  rw [hundefined, payload]
  rcases Single.partsOfBits_cases c.bits.toNat with
    ⟨hp, hn⟩ | ⟨hp, hlast, hsome⟩ | ⟨hp, hn⟩ | ⟨m, e, hm, hp, ⟨hlt, hleast, hgreatest, hlead⟩, hn⟩
  · rw [hp]
    exact iff_of_false (fun h => by cases h) (by omega)
  · rw [hp]
    exact iff_of_true rfl (by omega)
  · rw [hp]
    exact iff_of_false (fun h => by cases h) (by omega)
  · rw [hp]
    exact iff_of_false (fun h => by cases h) (by omega)

/-- The place of a number among all numbers is what its bits are without the sign bit. -/
theorem level_value (h : c.isUndefined = false) : level (parts c.value) = c.signed := by
  have hdefined : ¬ 255 * 2 ^ 23 < c.payload := by
    rw [← isUndefined_iff, h]
    exact Bool.false_ne_true
  have hplace : sign (partsOfBits c.bits.toNat) = signOfBits c.bits.toNat ∧
      scale (partsOfBits c.bits.toNat) * 2 ^ 23 + digits (partsOfBits c.bits.toNat) = c.payload := by
    rw [payload] at hdefined ⊢
    rcases Single.partsOfBits_cases c.bits.toNat with
      ⟨hp, hn⟩ | ⟨-, hlast, hsome⟩ | ⟨hp, hn⟩ | ⟨m, e, hm, hp, -, hn⟩
    · rw [hp, hn]
      have hsum : 254 * 2 ^ 23 + 2 ^ 23 = 255 * 2 ^ 23 := by decide
      exact ⟨rfl, hsum⟩
    · omega
    · rw [hp, hn]
      have hsum : 0 * 2 ^ 23 + 0 = 0 := by decide
      exact ⟨rfl, hsum⟩
    · rw [hp, hn]
      exact ⟨rfl, rfl⟩
  rw [parts_value, level, hplace.1, hplace.2, signed, signOfBits]
  by_cases hsign : c.IsNegative
  · rw [if_pos hsign, if_neg (by rw [IsNegative] at hsign; omega)]
    rfl
  · rw [if_neg hsign, if_pos (by rw [IsNegative] at hsign; omega)]
    rfl

/-- The order of the numbers, told from the bits. -/
theorem value_le_value_iff (hc : c.isUndefined = false) (hd : d.isUndefined = false) :
    c.value ≤ d.value ↔ c.signed ≤ d.signed := by
  rw [Single.le_iff_level hc hd, level_value hc, level_value hd]

/-- With the sign bit, the rank comes one before, so negative zero has a rank of its own. -/
theorem rank_eq (c : Coordinate) : c.rank = if c.IsNegative then c.signed - 1 else c.signed := by
  have hlt : c.bits.toNat < 2 ^ 32 := c.bits.toNat_lt
  unfold rank Single.rankOfBits signed payload
  dsimp only
  by_cases hsign : c.IsNegative
  · rw [if_pos hsign, if_pos hsign]
    rw [IsNegative] at hsign
    rw [if_neg (by omega)]
    omega
  · rw [if_neg hsign, if_neg hsign]
    rw [IsNegative] at hsign
    rw [if_pos (by omega)]
    omega

/-- Ranks are compared by the signs, and with the same sign by the bits besides. -/
theorem rank_le_rank_iff_payload (c d : Coordinate) : c.rank ≤ d.rank ↔
    (c.IsNegative ∧ ¬ d.IsNegative) ∨
      (c.IsNegative ∧ d.IsNegative ∧ d.payload ≤ c.payload) ∨
        (¬ c.IsNegative ∧ ¬ d.IsNegative ∧ c.payload ≤ d.payload) := by
  rw [rank_eq, rank_eq, signed, signed]
  by_cases hc : c.IsNegative
  · by_cases hd : d.IsNegative
    · simp only [hc, hd, if_true, not_true, true_and, false_and, or_false, false_or]
      omega
    · simp only [hc, hd, if_true, if_false, not_false_iff, and_self, true_or, iff_true]
      omega
  · by_cases hd : d.IsNegative
    · simp only [hc, hd, if_true, if_false, not_true, false_and, and_false, or_self, iff_false]
      omega
    · simp only [hc, hd, if_false, not_false_iff, true_and, false_and, and_false, false_or]
      omega

/-- Numbers are in their order, and of two with one place the negative one is first. -/
theorem rank_le_rank_iff_signed (c d : Coordinate) :
    c.rank ≤ d.rank ↔ c.signed ≤ d.signed ∧ (d.IsNegative → c.IsNegative) := by
  rw [rank_eq, rank_eq, signed, signed]
  by_cases hc : c.IsNegative
  · simp only [hc, if_true, implies_true, and_true]
    split <;> omega
  · by_cases hd : d.IsNegative
    · simp only [hc, hd, if_true, if_false, true_implies, and_false, iff_false]
      omega
    · simp only [hc, hd, if_false, false_implies, and_true]

/-- The ranks of coordinates are in the total order. -/
theorem rank_le_rank_iff (c d : Coordinate) : c.rank ≤ d.rank ↔ c.TotalLE d := by
  have hnumber : ∀ e : Coordinate, e.isUndefined = false → e.payload ≤ 255 * 2 ^ 23 := by
    intro e he
    have hbits := e.isUndefined_iff
    rw [he] at hbits
    simpa using hbits
  rw [TotalLE]
  cases hc : c.isUndefined with
  | false =>
      have hcp := hnumber c hc
      cases hd : d.isUndefined with
      | false =>
          simp only [value_le_value_iff hc hd]
          exact rank_le_rank_iff_signed c d
      | true =>
          have hlt : c.payload < d.payload := Nat.lt_of_le_of_lt hcp (d.isUndefined_iff.1 hd)
          simp only [rank_le_rank_iff_payload]
          grind
  | true =>
      have hcp := c.isUndefined_iff.1 hc
      cases hd : d.isUndefined with
      | false =>
          have hlt : d.payload < c.payload := Nat.lt_of_le_of_lt (hnumber d hd) hcp
          simp only [rank_le_rank_iff_payload]
          grind
      | true => exact rank_le_rank_iff_payload c d

end SpriteStage.Coordinate
