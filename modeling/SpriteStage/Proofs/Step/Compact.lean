import SpriteStage.Proofs.Animator.Compiled
import SpriteStage.Proofs.Single.Widening
import SpriteStage.Step.Compact

/-!
# Compact steps come back

What a step is written as is read back as the step, as long as its duration is one that passes its
check and its count is at most `2 ^ 63` (`ofJson_toJson_iff`). Bounds of ranges and frame indices
are natural numbers on both sides. A fixed count goes through double precision, as the integer that
it is or as it stands, and is the same afterwards; but integers have 64 bits and a sign, so that a
count that is greater than the greatest of them is written as that one.
-/

set_option autoImplicit false

namespace SpriteStage

open Json (Value)

namespace FrameDuration

/-- The greatest fixed count that comes back from its compact form. -/
def greatestCount : Float32 := 9223372036854775808.0

/-- The duration that comes back from the compact form: a greater count is cut down. -/
def kept : FrameDuration → FrameDuration
  | .fixed count => .fixed (if count ≤ greatestCount then count else greatestCount)
  | .range least greatest => .range least greatest

theorem isWhole_greatestCount : Single.IsWhole greatestCount (2 ^ 63) :=
  (Single.toInt?_eq_some_iff greatestCount (2 ^ 63)).1 (by decide +kernel)

/-- A duration comes back as it was if its count is not too great. -/
theorem kept_eq_self_iff (d : FrameDuration) :
    d.kept = d ↔ ∀ count, d = .fixed count → count ≤ greatestCount := by
  cases d with
  | range least greatest => simp [kept]
  | fixed count =>
      have hself : greatestCount ≤ greatestCount := Single.le_refl isWhole_greatestCount.defined
      by_cases hle : count ≤ greatestCount
      · simp [kept, hle]
      · have hne : greatestCount ≠ count := by
          rintro rfl
          exact hle hself
        simp [kept, hle, hne]

/-! ## Counts -/

theorem check_fixed {count : Float32} (hfinite : count.isFinite = true) (hpos : ¬ count ≤ 0.0) :
    (fixed count).check = .ok () := by
  have hgood : ¬(count.isFinite = false ∨ count ≤ 0.0) := by simp [hfinite, hpos]
  unfold check
  exact if_neg hgood

/-- A count with digits after the point is not too great. -/
theorem le_greatestCount_of_toInt?_eq_none {count : Float32} (hfinite : count.isFinite = true)
    (h : Single.toInt? count = none) : count ≤ greatestCount := by
  have hlt := Single.units_lt_of_toInt?_eq_none hfinite h
  have hpos := Single.wholeUnit_pos
  rw [Single.le_iff_units (Single.isNaN_eq_false_of_isFinite hfinite) isWhole_greatestCount.defined,
    isWhole_greatestCount.units_eq]
  omega

/-- A positive whole count comes back from the integer that it is written as, or from the greatest
integer. -/
theorem ofDouble_toDouble_ofInt {count : Float32} {n : Int} (hcount : Single.IsWhole count n)
    (hpos : 0 < n) :
    Single.ofDouble (Json.Number.ofInt n).toDouble =
      if count ≤ greatestCount then count else greatestCount := by
  have hle := hcount.le_iff isWhole_greatestCount
  have hnatural : Json.Number.ofInt n = .natural (UInt64.ofNat (min n.toNat (2 ^ 63 - 1))) := by
    unfold Json.Number.ofInt
    rw [if_pos (Int.le_of_lt hpos)]
    rfl
  rw [hnatural]
  by_cases hsmall : n < 2 ^ 63
  · -- the integer is not clamped
    have hmin : min n.toNat (2 ^ 63 - 1) = n.toNat := by omega
    have hword : ((UInt64.ofNat n.toNat).toNat : Int) = n := by
      rw [UInt64.toNat_ofNat', Nat.mod_eq_of_lt (by omega)]
      omega
    rw [hmin, if_pos (hle.2 (by omega))]
    refine Single.ofDouble_toFloat ?_ (by omega)
    rw [hword]
    exact hcount
  · have hmin : min n.toNat (2 ^ 63 - 1) = 2 ^ 63 - 1 := by omega
    have hclamped : Single.ofDouble (UInt64.ofNat (2 ^ 63 - 1)).toFloat = greatestCount := by
      decide +kernel
    rw [hmin]
    refine Eq.trans hclamped ?_
    by_cases heq : n = 2 ^ 63
    · rw [if_pos (hle.2 (by omega))]
      subst heq
      exact isWhole_greatestCount.eq_of_ne_zero hcount (by decide)
    · rw [if_neg fun hcontra => heq (by have := hle.1 hcontra; omega)]

theorem ofJson_toJson_fixed {count : Float32} (hfinite : count.isFinite = true)
    (hpos : ¬ count ≤ 0.0) :
    ofJson (some (fixed count).toJson) = .ok (fixed count).kept := by
  have hread : ∀ n : Json.Number,
      ofJson (some (.number n)) = .ok (fixed (Single.ofDouble n.toDouble)) := fun _ => rfl
  cases hint : Single.toInt? count with
  | some n =>
      have hcount := (Single.toInt?_eq_some_iff count n).1 hint
      -- a count that passes its check is positive, so the integer is written without a sign
      have hn : 0 < n := by
        rw [hcount.le_iff Single.isWhole_zero] at hpos
        omega
      have hwritten : (fixed count).toJson = .number (.ofInt n) := by simp only [toJson, hint]
      rw [hwritten, hread, ofDouble_toDouble_ofInt hcount hn]
      rfl
  | none =>
      have hwritten : (fixed count).toJson = .number (.real (Single.toDouble count)) := by
        simp only [toJson, hint, hfinite, if_true]
      have hsmall := le_greatestCount_of_toInt?_eq_none hfinite hint
      have hdouble : Single.ofDouble (Json.Number.real (Single.toDouble count)).toDouble = count :=
        Single.ofDouble_toDouble count
      rw [hwritten, hread, hdouble, kept, if_pos hsmall]

/-! ## Ranges -/

theorem word?_ofNatural_toUInt64 (n : UInt32) : (Value.ofNatural n.toUInt64).word? = some n := by
  have hlt : n.toUInt64.toNat < UInt32.size := by
    rw [UInt32.toNat_toUInt64]
    exact n.toNat_lt
  unfold Value.word?
  rw [Json.Value.natural?_ofNatural, Option.bind_some, if_pos hlt, UInt32.toNat_toUInt64,
    UInt32.ofNat_toNat]

/-- A duration that passes its check comes back, but for a count that is too great. -/
theorem ofJson_toJson {d : FrameDuration} (h : d.check = .ok ()) :
    ofJson (some d.toJson) = .ok d.kept := by
  cases d with
  | range least greatest =>
      unfold toJson ofJson
      dsimp only
      rw [word?_ofNatural_toUInt64, word?_ofNatural_toUInt64]
      rfl
  | fixed count =>
      obtain ⟨hfinite, hpos⟩ := not_or.1 (fixed_of_check h)
      exact ofJson_toJson_fixed (by simpa using hfinite) hpos

end FrameDuration

namespace AuthoredStep

/-- The duration of the step, if it has one. -/
def duration? : AuthoredStep → Option FrameDuration
  | .frame _ duration => some duration
  | .group _ duration => some duration
  | .unique _ duration => some duration
  | .loop => none
  | .link _ => none

/-- The step that comes back from the compact form. -/
def kept : AuthoredStep → AuthoredStep
  | .frame index duration => .frame index duration.kept
  | .group frames duration => .group frames duration.kept
  | .unique choices duration => .unique choices duration.kept
  | .loop => .loop
  | .link target => .link target

theorem kept_eq_self_iff (s : AuthoredStep) :
    s.kept = s ↔
      ∀ count, s.duration? = some (.fixed count) → count ≤ FrameDuration.greatestCount := by
  cases s with
  | frame index duration => simpa [kept, duration?] using duration.kept_eq_self_iff
  | group frames duration => simpa [kept, duration?] using duration.kept_eq_self_iff
  | unique choices duration => simpa [kept, duration?] using duration.kept_eq_self_iff
  | loop => simp [kept, duration?]
  | link target => simp [kept, duration?]

theorem frameIndices_map_ofNatural (frames : List UInt64) :
    frameIndices (frames.map .ofNatural) = .ok frames := by
  induction frames with
  | nil => rfl
  | cons index frames ih =>
      rw [List.map_cons]
      unfold frameIndices
      rw [ih]
      rfl

/-- The step that is read from what a step is written as. -/
theorem ofJson_toJson_kept {s : AuthoredStep}
    (h : ∀ duration, s.duration? = some duration → duration.check = .ok ()) :
    ofJson s.toJson = .ok s.kept := by
  cases s with
  | loop => rfl
  | link target => rfl
  | frame index duration =>
      have hduration := FrameDuration.ofJson_toJson (h duration rfl)
      show (do return frame index (← FrameDuration.ofJson (some duration.toJson))) = _
      rw [hduration]
      rfl
  | group frames duration =>
      have hduration := FrameDuration.ofJson_toJson (h duration rfl)
      show (do
        let frames ← frameIndices (frames.map .ofNatural)
        return group frames (← FrameDuration.ofJson (some duration.toJson))) = _
      rw [frameIndices_map_ofNatural, hduration]
      rfl
  | unique choices duration =>
      have hduration := FrameDuration.ofJson_toJson (h duration rfl)
      show (do
        let choices ← frameIndices (choices.map .ofNatural)
        return unique choices (← FrameDuration.ofJson (some duration.toJson))) = _
      rw [frameIndices_map_ofNatural, hduration]
      rfl

/-- A step whose duration passes its check, if it has one, is read back from its compact form,
whatever its frames, its target and its bounds are: as it was, if it has no fixed count of more than
`2 ^ 63`, and otherwise with that count. -/
theorem ofJson_toJson_iff {s : AuthoredStep}
    (h : ∀ duration, s.duration? = some duration → duration.check = .ok ()) :
    ofJson s.toJson = .ok s.kept ∧
      (ofJson s.toJson = .ok s ↔
        ∀ count, s.duration? = some (.fixed count) → count ≤ FrameDuration.greatestCount) := by
  have hkept := ofJson_toJson_kept h
  refine ⟨hkept, ?_⟩
  rw [hkept, ← kept_eq_self_iff]
  constructor
  · intro heq
    exact Except.ok.inj heq
  · intro heq
    exact congrArg Except.ok heq

/-- A step with a count that is not whole and the greatest frame index. -/
def twinkleStep : AuthoredStep := .unique [7, 18446744073709551615] (.fixed 0.1)

theorem ofJson_toJson_twinkleStep :
    (∀ duration, twinkleStep.duration? = some duration → duration.check = .ok ()) ∧
      ofJson twinkleStep.toJson = .ok twinkleStep := by
  have hchecked : ∀ duration, twinkleStep.duration? = some duration → duration.check = .ok () := by
    intro duration hduration
    cases hduration
    exact FrameDuration.check_fixed (by decide +kernel) (by decide +kernel)
  refine ⟨hchecked, (ofJson_toJson_iff hchecked).2.2 ?_⟩
  intro count hcount
  cases hcount
  decide +kernel

/-- A step with the least count of more than `2 ^ 63`. -/
def longStep : AuthoredStep := .frame 0 (.fixed 9223373136366403584.0)

/-- Its count is accepted, and does not come back. -/
theorem not_ofJson_toJson_longStep :
    (∀ duration, longStep.duration? = some duration → duration.check = .ok ()) ∧
      ofJson longStep.toJson ≠ .ok longStep := by
  have hchecked : ∀ duration, longStep.duration? = some duration → duration.check = .ok () := by
    intro duration hduration
    cases hduration
    exact FrameDuration.check_fixed (by decide +kernel) (by decide +kernel)
  refine ⟨hchecked, ?_⟩
  rw [ofJson_toJson_kept hchecked]
  intro heq
  have hle := (kept_eq_self_iff longStep).1 (Except.ok.inj heq) _ rfl
  exact absurd hle (by decide +kernel)

end AuthoredStep

end SpriteStage
