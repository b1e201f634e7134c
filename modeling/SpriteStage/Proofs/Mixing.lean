import Mathlib.Algebra.Group.Nat.Defs
import Mathlib.Data.Set.Function
import Mathlib.Logic.Function.Iterate
import SpriteStage.Proofs.Random

/-!
# The states of a random source

A draw mixes the state in three layers. Each layer adds a shift of the word to the word, without
carries. Doing a layer twice is one layer with twice the shift (`layer_layer`), so a layer that is
repeated often enough shifts everything out and changes nothing. That undoes it
(`bijective_layer`): the step permutes the words, and the words other than zero among themselves
(`bijOn_step`). Zero would be mixed into zero for ever, but no source comes to it.

The new state is also the word that is drawn, so that every word other than zero is drawn from some
state. What the missing zero costs is told by `exists_range_iff` and `exists_index_iff`: of all
ranges only that of all words lacks a value, and of all indices below `2 ^ 32` only the index zero
can be missing, where the length is `2 ^ 32` or more.
-/

set_option autoImplicit false

namespace SpriteStage.Random

/-! ## Layers -/

section Layers

variable {w : Nat} {shift : BitVec w → BitVec w}

/-- Adds to a word, without carries, what `shift` makes of it. -/
def layer (shift : BitVec w → BitVec w) (x : BitVec w) : BitVec w := x ^^^ shift x

/-- A sum without carries is shifted term by term. -/
def Linear (shift : BitVec w → BitVec w) : Prop := ∀ x y, shift (x ^^^ y) = shift x ^^^ shift y

theorem Linear.iterate (h : Linear shift) (n : Nat) : Linear shift^[n] := by
  induction n with
  | zero => exact fun _ _ => rfl
  | succ n ih =>
      intro x y
      rw [Function.iterate_succ_apply', Function.iterate_succ_apply', Function.iterate_succ_apply',
        ih, h]

/-- Twice a layer is one layer that shifts twice: what is shifted once is added twice. -/
theorem layer_layer (h : Linear shift) (x : BitVec w) :
    layer shift (layer shift x) = layer (shift ∘ shift) x := by
  calc layer shift (layer shift x)
      = (x ^^^ shift x) ^^^ (shift x ^^^ shift (shift x)) := congrArg _ (h x (shift x))
    _ = x ^^^ ((shift x ^^^ shift x) ^^^ shift (shift x)) := by
        rw [BitVec.xor_assoc, BitVec.xor_assoc]
    _ = layer (shift ∘ shift) x := by rw [BitVec.xor_self, BitVec.zero_xor]; rfl

theorem iterate_layer (h : Linear shift) (n : Nat) :
    (layer shift)^[2 ^ n] = layer shift^[2 ^ n] := by
  induction n with
  | zero => rfl
  | succ n ih =>
      -- half of the rounds are one layer, which is then done twice
      funext x
      rw [Nat.pow_succ, Nat.mul_two, Function.iterate_add, Function.iterate_add, ih]
      exact layer_layer (h.iterate _) x

/-- A layer can be undone if its shift, repeated, leaves nothing. -/
theorem bijective_layer (h : Linear shift) {n : Nat} (hout : ∀ x, shift^[2 ^ n] x = 0) :
    Function.Bijective (layer shift) := by
  have hid : (layer shift)^[2 ^ n] = id := by
    rw [iterate_layer h]
    funext x
    rw [layer, hout]
    exact BitVec.xor_zero
  -- all rounds but one are the inverse, from either side
  obtain ⟨rounds, hrounds⟩ := Nat.exists_eq_succ_of_ne_zero (Nat.two_pow_pos n).ne'
  rw [hrounds] at hid
  constructor
  · refine Function.Injective.of_comp (f := (layer shift)^[rounds]) ?_
    rw [← Function.iterate_succ, hid]
    exact Function.injective_id
  · refine Function.Surjective.of_comp (g := (layer shift)^[rounds]) ?_
    rw [← Function.iterate_succ', hid]
    exact Function.surjective_id

theorem iterate_shiftLeft (k n : Nat) (x : BitVec w) :
    (fun x : BitVec w => x <<< k)^[n] x = x <<< (n * k) := by
  induction n generalizing x with
  | zero => simp
  | succ n ih =>
      rw [Function.iterate_succ_apply, ih, ← BitVec.shiftLeft_add, Nat.succ_mul, Nat.add_comm]

theorem iterate_shiftRight (k n : Nat) (x : BitVec w) :
    (fun x : BitVec w => x >>> k)^[n] x = x >>> (n * k) := by
  induction n generalizing x with
  | zero => simp
  | succ n ih =>
      rw [Function.iterate_succ_apply, ih, ← BitVec.shiftRight_add, Nat.succ_mul, Nat.add_comm]

/-- Enough shifts by one digit or more leave nothing of a word. -/
theorem le_two_pow_mul {k : Nat} (hk : 0 < k) : w ≤ 2 ^ w * k :=
  Nat.le_trans Nat.lt_two_pow_self.le (Nat.le_mul_of_pos_right _ hk)

theorem bijective_layer_shiftLeft {k : Nat} (hk : 0 < k) :
    Function.Bijective (layer fun x : BitVec w => x <<< k) := by
  refine bijective_layer (fun x y => BitVec.shiftLeft_xor_distrib x y k) (n := w) ?_
  intro x
  rw [iterate_shiftLeft]
  exact BitVec.shiftLeft_eq_zero (le_two_pow_mul hk)

theorem bijective_layer_shiftRight {k : Nat} (hk : 0 < k) :
    Function.Bijective (layer fun x : BitVec w => x >>> k) := by
  refine bijective_layer (fun x y => BitVec.ushiftRight_xor_distrib x y k) (n := w) ?_
  intro x
  rw [iterate_shiftRight]
  exact BitVec.ushiftRight_eq_zero (le_two_pow_mul hk)

end Layers

/-! ## The step -/

/-- The step is three layers. -/
theorem toBitVec_step (x : UInt32) :
    (step x).toBitVec =
      layer (· <<< 5) (layer (· >>> 17) (layer (· <<< 13) x.toBitVec)) := rfl

theorem bijective_toBitVec : Function.Bijective UInt32.toBitVec :=
  ⟨fun _ _ => UInt32.toBitVec_inj.1, fun x => ⟨.ofBitVec x, rfl⟩⟩

theorem bijective_step : Function.Bijective step := by
  have hlayers : UInt32.toBitVec ∘ step =
      layer (· <<< 5) ∘ layer (· >>> 17) ∘ layer (· <<< 13) ∘ UInt32.toBitVec :=
    funext toBitVec_step
  rw [← bijective_toBitVec.of_comp_iff' step, hlayers]
  exact (bijective_layer_shiftLeft (by decide)).comp <|
    (bijective_layer_shiftRight (by decide)).comp <|
      (bijective_layer_shiftLeft (by decide)).comp bijective_toBitVec

theorem step_zero : step 0 = 0 := rfl

/-- Zero is mixed into zero, and so nothing else is. -/
theorem bijOn_step : Set.BijOn step {x | x ≠ 0} {x | x ≠ 0} :=
  (Set.bijOn_singleton.2 step_zero).compl bijective_step

theorem step_ne_zero {x : UInt32} (h : x ≠ 0) : step x ≠ 0 := bijOn_step.mapsTo h

theorem state_rest (r : Random) (d : Draw) : (d.rest r).state = step r.state := by
  cases d with
  | range least greatest => rfl
  | index length => rfl

theorem state_after_ne_zero {r : Random} (h : r.state ≠ 0) (draws : List Draw) :
    (r.after draws).state ≠ 0 := by
  induction draws generalizing r with
  | nil => exact h
  | cons d draws ih =>
      refine ih ?_
      rw [state_rest]
      exact step_ne_zero h

theorem state_ofSeed_ne_zero (seed : UInt32) : (ofSeed seed).state ≠ 0 := by
  show (if seed = 0 then 1 else seed) ≠ 0
  split
  · decide
  · assumption

/-! ## What can be drawn -/

/-- From the states other than zero, the words other than zero are drawn. -/
theorem exists_next_iff {P : UInt32 → Prop} :
    (∃ r : Random, r.state ≠ 0 ∧ P r.next.1) ↔ ∃ x, x ≠ 0 ∧ P x := by
  constructor
  · rintro ⟨r, hstate, hnext⟩
    exact ⟨_, step_ne_zero hstate, hnext⟩
  · rintro ⟨x, hx, hP⟩
    obtain ⟨state, hstate, rfl⟩ := bijOn_step.surjOn hx
    exact ⟨{ state := state }, hstate, hP⟩

/-- A remainder is that of a word other than zero unless it is too large for a word, or it is zero
and its divisor is too large. -/
theorem exists_mod_eq_iff {span n : Nat} (hspan : 0 < span) :
    (∃ x : UInt32, x ≠ 0 ∧ x.toNat % span = n) ↔
      n < span ∧ n < 2 ^ 32 ∧ (n = 0 → span < 2 ^ 32) := by
  have hzero : ∀ x : UInt32, x ≠ 0 ↔ 0 < x.toNat := fun x => by
    rw [Nat.pos_iff_ne_zero]
    exact not_congr UInt32.toNat_inj.symm
  constructor
  · rintro ⟨x, hx, rfl⟩
    have hpos := (hzero x).1 hx
    have hword := x.toNat_lt
    refine ⟨Nat.mod_lt _ hspan, Nat.lt_of_le_of_lt (Nat.mod_le _ _) hword, ?_⟩
    intro hdvd
    exact Nat.lt_of_le_of_lt (Nat.le_of_dvd hpos (Nat.dvd_of_mod_eq_zero hdvd)) hword
  · rintro ⟨hn, hword, hdivisor⟩
    by_cases hn0 : n = 0
    · -- the divisor itself has no remainder
      have htoNat := UInt32.toNat_ofNat_of_lt' (hdivisor hn0)
      refine ⟨UInt32.ofNat span, (hzero _).2 ?_, ?_⟩
      · rwa [htoNat]
      · rw [htoNat, Nat.mod_self, hn0]
    · have htoNat := UInt32.toNat_ofNat_of_lt' hword
      refine ⟨UInt32.ofNat n, (hzero _).2 ?_, ?_⟩
      · rw [htoNat]
        exact Nat.pos_of_ne_zero hn0
      · rw [htoNat, Nat.mod_eq_of_lt hn]

/-- Every index below the length is drawn from some state, as far as words reach. -/
theorem exists_index_iff {length i : Nat} (h : 0 < length) :
    (∃ r : Random, r.state ≠ 0 ∧ (r.index length).1 = i) ↔
      i < length ∧ i < 2 ^ 32 ∧ (i = 0 → length < 2 ^ 32) :=
  (exists_next_iff (P := fun x => x.toNat % length = i)).trans (exists_mod_eq_iff h)

/-- Drawing between two bounds is exact: no word that it goes through wraps. -/
structure RangeExact (least greatest : UInt32) : Prop where
  /-- The number of values, in words of 64 bits. -/
  span : least.toNat + ((greatest - least).toUInt64 + 1).toNat = greatest.toNat + 1
  /-- What is drawn is the sum of the least value and a remainder of 64 bits. -/
  sum : ∀ r : Random, (r.range least greatest).1.toNat =
    least.toNat + (r.next.1.toUInt64 % ((greatest - least).toUInt64 + 1)).toNat
  /-- What is drawn lies between the bounds. -/
  bounds : ∀ r : Random, least ≤ (r.range least greatest).1 ∧ (r.range least greatest).1 ≤ greatest

/-- The number of values is a word of 64 bits, even that of all words of 32. -/
theorem toNat_span (least greatest : UInt32) :
    ((greatest - least).toUInt64 + 1).toNat = (greatest - least).toNat + 1 := by
  have hword := (greatest - least).toNat_lt
  rw [UInt64.toNat_add, UInt32.toNat_toUInt64]
  exact Nat.mod_eq_of_lt (by show _ + 1 < _; omega)

theorem rangeExact {least greatest : UInt32} (h : least ≤ greatest) :
    RangeExact least greatest := by
  refine ⟨by rw [toNat_span, toNat_add_span h], ?_, ?_⟩
  · intro r
    rw [r.toNat_range h, UInt64.toNat_mod, toNat_span, UInt32.toNat_toUInt64]
  · intro r
    rw [UInt32.le_iff_toNat_le, UInt32.le_iff_toNat_le]
    exact r.range_bounds h

/-- Every number between the bounds is drawn from some state, except for zero in the range of all
words. -/
theorem exists_range_iff {least greatest n : UInt32} (h : least ≤ greatest) :
    (∃ r : Random, r.state ≠ 0 ∧ (r.range least greatest).1 = n) ↔
      least ≤ n ∧ n ≤ greatest ∧ (n = 0 → greatest ≠ 0xFFFFFFFF) := by
  have hspan := toNat_add_span h
  -- a number is drawn if its distance from the least one is the remainder of a word
  have hremainders :=
    (exists_next_iff (P := fun x => x.toNat % ((greatest - least).toNat + 1) =
      n.toNat - least.toNat)).trans (exists_mod_eq_iff (Nat.succ_pos _))
  have hzero : n = 0 ↔ n.toNat = 0 := UInt32.toNat_inj.symm
  have hall : greatest = 0xFFFFFFFF ↔ greatest.toNat = 2 ^ 32 - 1 := UInt32.toNat_inj.symm
  have hn := n.toNat_lt
  have hgreatest := greatest.toNat_lt
  rw [UInt32.le_iff_toNat_le, UInt32.le_iff_toNat_le, hzero, Ne, hall]
  constructor
  · rintro ⟨r, hstate, rfl⟩
    have hnumber := r.toNat_range h
    have hreached := hremainders.1 ⟨r, hstate, by omega⟩
    omega
  · rintro ⟨hleast, hle, hmissing⟩
    obtain ⟨r, hstate, hrest⟩ := hremainders.2 (by omega)
    refine ⟨r, hstate, UInt32.toNat_inj.1 ?_⟩
    rw [r.toNat_range h]
    omega

/-- A source never comes to zero, whatever its seed, its name and its draws are. Its step permutes
the other states. Draws are exact and lie where they were asked to lie; and every number of a range
that durations may have, and every index below a length that is a word, is drawn from some state. -/
theorem never_stuck_and_covering :
    (∀ (seed : UInt32) (draws : List Draw), ((ofSeed seed).after draws).state ≠ 0) ∧
      (∀ (seed : UInt32) (name : String) (draws : List Draw),
        ((forActor seed name).after draws).state ≠ 0) ∧
      Set.BijOn step {x | x ≠ 0} {x | x ≠ 0} ∧
      (∀ least greatest : UInt32, least ≤ greatest → RangeExact least greatest) ∧
      (∀ (r : Random) (length : Nat), 0 < length → (r.index length).1 < length) ∧
      (∀ least greatest : UInt32, 1 ≤ least → least ≤ greatest → ∀ n, least ≤ n → n ≤ greatest →
        ∃ r : Random, r.state ≠ 0 ∧ (r.range least greatest).1 = n) ∧
      ∀ length : Nat, 0 < length → length < 2 ^ 32 → ∀ i < length,
        ∃ r : Random, r.state ≠ 0 ∧ (r.index length).1 = i := by
  refine ⟨fun seed => state_after_ne_zero (state_ofSeed_ne_zero seed),
    fun seed name => state_after_ne_zero (state_ofSeed_ne_zero (seed ^^^ hash name)), bijOn_step,
    fun least greatest => rangeExact, fun r length => r.index_lt, ?_, ?_⟩
  · intro least greatest hone hle n hleast hgreatest
    refine (exists_range_iff hle).2 ⟨hleast, hgreatest, ?_⟩
    -- a range that starts at one or later does not ask for zero
    rintro rfl
    exact absurd (UInt32.le_trans hone hleast) (by decide)
  · intro length hpos hlength i hi
    exact (exists_index_iff hpos).2 ⟨hi, by omega, fun _ => hlength⟩

/-- Every word but zero, as a range, and the greatest word, as a length: the remainder zero is there
that of the last word alone. -/
theorem covering_greatestWord :
    ((0 : UInt32) ≤ 0xFFFFFFFF ∧ RangeExact 0 0xFFFFFFFF) ∧
      ((1 : UInt32) ≤ 1 ∧ (1 : UInt32) ≤ 0xFFFFFFFF ∧
        ∃ r : Random, r.state ≠ 0 ∧ (r.range 1 0xFFFFFFFF).1 = 1) ∧
      0 < 2 ^ 32 - 1 ∧ 2 ^ 32 - 1 < 2 ^ 32 ∧
        ((ofSeed 0).index (2 ^ 32 - 1)).1 < 2 ^ 32 - 1 ∧
        ∃ r : Random, r.state ≠ 0 ∧ (r.index (2 ^ 32 - 1)).1 = 0 := by
  obtain ⟨-, -, -, hexact, hindex, hrange, hindices⟩ := never_stuck_and_covering
  refine ⟨⟨by decide, hexact _ _ (by decide)⟩, ⟨by decide, by decide, ?_⟩, by decide, by decide,
    hindex _ _ (by decide), ?_⟩
  · exact hrange 1 0xFFFFFFFF (by decide) (by decide) 1 (by decide) (by decide)
  · exact hindices (2 ^ 32 - 1) (by decide) (by decide) 0 (by decide)

end SpriteStage.Random
