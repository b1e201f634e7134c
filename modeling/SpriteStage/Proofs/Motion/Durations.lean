import SpriteStage.Proofs.Coordinate
import SpriteStage.Proofs.Motion.Landing
import SpriteStage.Proofs.Single.Turn

/-!
# Durations of motions

A motion is accepted if the time that it is given is finite and not negative, or if its speed is
finite and above zero. At a speed, its duration is the quotient of the way and the speed, and nothing
is asked of that: it is finite exactly if neither the way nor the quotient overflows (`MoveTimed`).
The way of a rotation does not overflow, but if the difference of the angles does, no turn is known,
and the duration is undefined (`TurnTimed`). A motion whose duration is not finite does not end as
long as the sum of the times is finite.
-/

set_option autoImplicit false

namespace SpriteStage

open Single (DifferenceFits QuotientFits Unsigned Positive)

/-! ## Ways -/

/-- Both coordinates are finite. -/
def Point.IsFinite (p : Point Coordinate) : Prop :=
  p.x.value.isFinite = true ∧ p.y.value.isFinite = true

instance (p : Point Coordinate) : Decidable p.IsFinite := inferInstanceAs (Decidable (_ ∧ _))

theorem Coordinate.value_ofSingle (x : Float32) : (Coordinate.ofSingle x).value = x := by
  have hparts : Single.parts (Coordinate.ofSingle x).value = Single.parts x := by
    rw [Coordinate.parts_value, Single.parts_eq]
    rfl
  rw [← Single.packed_parts (Coordinate.ofSingle x).value, hparts, Single.packed_parts]

/-- The difference of finite coordinates is that of their numbers. -/
theorem Coordinate.value_sub {c d : Coordinate} (hc : c.value.isFinite = true)
    (hd : d.value.isFinite = true) : (c - d).value = c.value - d.value := by
  have hoperands : [c, d].find? Coordinate.isUndefined = none := by
    have hcn : c.isUndefined = false := Single.isNaN_eq_false_of_isFinite hc
    have hdn : d.isUndefined = false := Single.isNaN_eq_false_of_isFinite hd
    simp [hcn, hdn]
  show (Coordinate.outcome [c, d] (c.value - d.value)).value = _
  unfold Coordinate.outcome
  rw [hoperands, (Single.rounds_sub hc hd).defined]
  exact Coordinate.value_ofSingle _

/-- The longer way is finite if neither axis overflows. -/
theorem Motions.unsigned_longerWay {origin target : Point Coordinate} (ho : origin.IsFinite)
    (ht : target.IsFinite) :
    Unsigned (longerWay (target - origin)) ∧ ((longerWay (target - origin)).isFinite = true ↔
      DifferenceFits target.x.value origin.x.value ∧
        DifferenceFits target.y.value origin.y.value) := by
  have hlonger : longerWay (target - origin) =
      Single.larger (target.x.value - origin.x.value).abs (target.y.value - origin.y.value).abs := by
    rw [← Coordinate.value_sub ht.1 ho.1, ← Coordinate.value_sub ht.2 ho.2]
    rfl
  have hx := Single.unsigned_abs (Single.rounds_sub ht.1 ho.1).defined
  have hy := Single.unsigned_abs (Single.rounds_sub ht.2 ho.2).defined
  obtain ⟨hunsigned, hfinite⟩ := Single.unsigned_larger hx hy
  rw [hlonger]
  refine ⟨hunsigned, hfinite.trans ?_⟩
  rw [Single.isFinite_abs, Single.isFinite_abs, Single.isFinite_sub_iff ht.1 ho.1,
    Single.isFinite_sub_iff ht.2 ho.2]

/-! ## Timings -/

namespace Timing

theorem duration_of_check {time : Float32} {u : Unit} (h : (duration time).check = .ok u) :
    time.isFinite = true ∧ 0.0 ≤ time := by
  by_cases hgood : time.isFinite = true ∧ 0.0 ≤ time
  · exact hgood
  · have hbad : (duration time).check = .error (.duration time) := if_neg hgood
    cases hbad.symm.trans h

theorem speed_of_check {rate : Float32} {u : Unit} (h : (speed rate).check = .ok u) :
    rate.isFinite = true ∧ Positive rate := by
  by_cases hgood : rate.isFinite = true ∧ 0.0 < rate
  · have hdefined := Single.isNaN_eq_false_of_isFinite hgood.1
    exact ⟨hgood.1, hdefined, (Single.pos_iff_units hdefined).1 hgood.2⟩
  · have hbad : (speed rate).check = .error (.speed rate) := if_neg hgood
    cases hbad.symm.trans h

end Timing

/-- A motion whose duration is undefined or infinite has not ended while the sum is finite. -/
theorem Tween.not_ends_of_not_isFinite {V : Type} {t : Tween V} (h : t.duration.isFinite = false)
    (h0 : ¬ t.duration < 0.0) {times : List Float32}
    (htimes : ∀ c ∈ sums t.current times, c.isFinite = true) : ¬ t.Ends times := by
  rintro ⟨c, hc, hle⟩
  have hdefined := (Single.isNaN_eq_false_of_le hle).1
  have hnonneg := (Single.nonneg_iff_units hdefined).2 ((Single.units_nonneg_iff hdefined).2 h0)
  have hfinite := Single.isFinite_of_le_of_le rfl (htimes c hc) hnonneg hle
  rw [h] at hfinite
  cases hfinite

/-! ## Durations -/

/-- The duration of a motion of the position. -/
structure MoveTimed (origin target : Point Coordinate) (timing : Timing Float32)
    (t : Tween (Point Coordinate)) : Prop where
  /-- It is a number and not negative. -/
  nonneg : 0.0 ≤ t.duration
  /-- If it is given, it is finite. -/
  given : ∀ time, timing = .duration time → t.duration.isFinite = true
  /-- At a speed, it is finite exactly if neither the way nor the quotient overflows. -/
  found : ∀ rate, timing = .speed rate → (t.duration.isFinite = true ↔
    (DifferenceFits target.x.value origin.x.value ∧ DifferenceFits target.y.value origin.y.value) ∧
      QuotientFits (Motions.longerWay (target - origin)) rate)
  /-- If it is not finite, the motion does not end. -/
  endless : t.duration.isFinite = false →
    ∀ times, (∀ c ∈ sums t.current times, c.isFinite = true) → ¬ t.Ends times

/-- The duration of a rotation. -/
structure TurnTimed (current target : Float32) (timing : Timing Float32) (t : Tween Float32) :
    Prop where
  /-- If it is given, it is finite and not negative. -/
  given : ∀ time, timing = .duration time → 0.0 ≤ t.duration ∧ t.duration.isFinite = true
  /-- At a speed, it is a number and not negative unless the difference of the angles overflows, and
  finite exactly if the quotient does not overflow. -/
  found : ∀ rate, timing = .speed rate → DifferenceFits target current → 0.0 ≤ t.duration ∧
    (t.duration.isFinite = true ↔ QuotientFits (shortestTurn Single.pi current target).abs rate)
  /-- If the difference of the angles overflows, it is undefined. -/
  undefined : ∀ rate, timing = .speed rate → ¬ DifferenceFits target current →
    t.duration.isNaN = true
  /-- If it is not finite, the motion does not end. -/
  endless : t.duration.isFinite = false →
    ∀ times, (∀ c ∈ sums t.current times, c.isFinite = true) → ¬ t.Ends times

namespace Motions

variable {m : Motions} {origin target : Point Coordinate} {current angle : Float32}
  {options : MoveOptions}

theorem check_of_startMove (h : (m.startMove origin target options).result = .ok ()) :
    options.timing.check = .ok () := by
  cases hcheck : options.timing.check with
  | ok u => rfl
  | error fault =>
      rw [startMove_of_error hcheck] at h
      cases h

theorem check_of_startRotate (h : (m.startRotate current angle options).result = .ok ()) :
    options.timing.check = .ok () := by
  cases hcheck : options.timing.check with
  | ok u => rfl
  | error fault =>
      rw [startRotate_of_error hcheck] at h
      cases h

/-- An accepted motion of the position has a duration that is not negative; it may be infinite. -/
theorem moveTimed_of_ok (ho : origin.IsFinite) (ht : target.IsFinite)
    (hok : (m.startMove origin target options).result = .ok ()) :
    (m.startMove origin target options).state.position = some (m.moveFrom origin target options) ∧
      MoveTimed origin target options.timing (m.moveFrom origin target options) := by
  have hcheck := check_of_startMove hok
  refine ⟨by rw [startMove_of_ok hcheck]; rfl, ?_⟩
  have hduration : (m.moveFrom origin target options).duration =
      options.timing.span (longerWay (target - origin)) := rfl
  obtain ⟨hway, hwayfinite⟩ := unsigned_longerWay ho ht
  cases htiming : options.timing with
  | duration time =>
      rw [htiming] at hcheck hduration
      change _ = time at hduration
      obtain ⟨hfinite, hnonneg⟩ := Timing.duration_of_check hcheck
      rw [← hduration] at hfinite hnonneg
      refine ⟨hnonneg, fun _ _ => hfinite, nofun, fun hinfinite => ?_⟩
      rw [hfinite] at hinfinite
      cases hinfinite
  | speed rate =>
      rw [htiming] at hcheck hduration
      change _ = longerWay (target - origin) / rate at hduration
      obtain ⟨hfinite, hpositive⟩ := Timing.speed_of_check hcheck
      obtain ⟨hunsigned, hiff⟩ := hway.div hpositive hfinite
      rw [← hduration] at hunsigned hiff
      refine ⟨hunsigned.nonneg, nofun, ?_, ?_⟩
      · intro other hother
        cases hother
        rw [hiff, hwayfinite]
      · intro hinfinite times htimes
        exact Tween.not_ends_of_not_isFinite hinfinite hunsigned.not_lt htimes

/-- An accepted rotation has a duration that is not negative; it may be infinite or undefined. -/
theorem turnTimed_of_ok (hc : current.isFinite = true) (ha : angle.isFinite = true)
    (hok : (m.startRotate current angle options).result = .ok ()) :
    (m.startRotate current angle options).state.rotation = some (m.turnFrom current angle options) ∧
      TurnTimed current angle options.timing (m.turnFrom current angle options) := by
  have hcheck := check_of_startRotate hok
  refine ⟨by rw [startRotate_of_ok hcheck]; rfl, ?_⟩
  have hduration : (m.turnFrom current angle options).duration =
      options.timing.span (shortestTurn Single.pi current angle).abs := rfl
  have hturn := Single.isFinite_shortestTurn hc ha
  cases htiming : options.timing with
  | duration time =>
      rw [htiming] at hcheck hduration
      change _ = time at hduration
      obtain ⟨hfinite, hnonneg⟩ := Timing.duration_of_check hcheck
      rw [← hduration] at hfinite hnonneg
      refine ⟨fun _ _ => ⟨hnonneg, hfinite⟩, nofun, nofun, fun hinfinite => ?_⟩
      rw [hfinite] at hinfinite
      cases hinfinite
  | speed rate =>
      rw [htiming] at hcheck hduration
      change _ = (shortestTurn Single.pi current angle).abs / rate at hduration
      obtain ⟨hfinite, hpositive⟩ := Timing.speed_of_check hcheck
      by_cases hfits : DifferenceFits angle current
      · rw [if_pos hfits] at hturn
        have hway := Single.unsigned_abs (Single.isNaN_eq_false_of_isFinite hturn)
        obtain ⟨hunsigned, hiff⟩ := hway.div hpositive hfinite
        rw [Single.isFinite_abs, hturn, ← hduration] at hiff
        rw [← hduration] at hunsigned
        refine ⟨nofun, ?_, fun _ _ hnot => absurd hfits hnot, ?_⟩
        · intro other hother _
          cases hother
          exact ⟨hunsigned.nonneg, by simpa using hiff⟩
        · intro hinfinite times htimes
          exact Tween.not_ends_of_not_isFinite hinfinite hunsigned.not_lt htimes
      · rw [if_neg hfits] at hturn
        have hundefined := Single.isNaN_div_of_isNaN (Single.isNaN_abs hturn) rate
        rw [← hduration] at hundefined
        refine ⟨nofun, fun _ _ h => absurd h hfits,
          fun _ _ _ => hundefined, ?_⟩
        intro _ times _
        rintro ⟨c, -, hle⟩
        rw [(Single.isNaN_eq_false_of_le hle).1] at hundefined
        cases hundefined

end Motions

end SpriteStage
