import SpriteStage.Proofs.Actor.Channels
import SpriteStage.Proofs.Rational

/-!
# The shorter side of the circle

Many turns lead from one angle to another; any two of them differ by whole turns. In exact
arithmetic the turn of a rotation is the shortest of them (`shortest_shortestTurn`): it is at most
half a turn to either side, and where both sides are as long, it is the positive one. So the time
that a rotation takes at some speed is bounded, whatever the angles are (`rotation_shortest`).
-/

set_option autoImplicit false

namespace SpriteStage

universe u

/-! ## Turns between two angles -/

/-- A turn leads from one angle to another if it misses it by whole turns only. -/
def Leads (halfTurn current target turn : ℚ) : Prop :=
  ∃ k : ℤ, target - current - turn = k * (2 * halfTurn)

/-- The shortest turn from one angle to another. -/
structure Shortest (halfTurn current target turn : ℚ) : Prop where
  /-- It leads from the one to the other. -/
  leads : Leads halfTurn current target turn
  /-- It is more than half a turn back. -/
  lower : -halfTurn < turn
  /-- It is at most half a turn. -/
  upper : turn ≤ halfTurn
  /-- No turn that leads from the one to the other is shorter. -/
  least : ∀ other, Leads halfTurn current target other → |turn| ≤ |other|

section Turns

variable {halfTurn current target turn other : ℚ}

/-- Two turns between the same angles differ by whole turns. -/
theorem Leads.eq_add (h : Leads halfTurn current target turn)
    (hother : Leads halfTurn current target other) :
    ∃ k : ℤ, other = turn + k * (2 * halfTurn) := by
  obtain ⟨i, hi⟩ := h
  obtain ⟨j, hj⟩ := hother
  refine ⟨i - j, ?_⟩
  push_cast
  linarith

/-- A turn of at most half a turn does not get shorter by whole turns. -/
theorem abs_le_abs_add (hlower : -halfTurn < turn) (hupper : turn ≤ halfTurn) (k : ℤ) :
    |turn| ≤ |turn + k * (2 * halfTurn)| := by
  have hhalf : 0 ≤ 2 * halfTurn := by linarith
  have habs : |turn| ≤ halfTurn := abs_le.2 ⟨hlower.le, hupper⟩
  rcases lt_trichotomy k 0 with hk | rfl | hk
  · -- backwards it ends at least half a turn below zero
    have hstep : (k : ℚ) ≤ -1 := by exact_mod_cast Int.le_sub_one_of_lt hk
    have hback := mul_le_mul_of_nonneg_right hstep hhalf
    exact habs.trans (le_abs.2 (.inr (by linarith)))
  · simp
  · have hstep : (1 : ℚ) ≤ k := by exact_mod_cast hk
    have hforth := mul_le_mul_of_nonneg_right hstep hhalf
    exact habs.trans (le_abs.2 (.inl (by linarith)))

theorem Shortest.of_leads (h : Leads halfTurn current target turn) (hlower : -halfTurn < turn)
    (hupper : turn ≤ halfTurn) : Shortest halfTurn current target turn := by
  refine ⟨h, hlower, hupper, fun other hother => ?_⟩
  obtain ⟨k, rfl⟩ := h.eq_add hother
  exact abs_le_abs_add hlower hupper k

theorem Shortest.abs_turn_le (h : Shortest halfTurn current target turn) : |turn| ≤ halfTurn :=
  abs_le.2 ⟨h.lower.le, h.upper⟩

end Turns

/-- The remainder of the difference by a whole turn is shortened by another one if it is more than
half a turn. -/
theorem shortestTurn_eq (halfTurn current target : ℚ) :
    shortestTurn halfTurn current target =
      if halfTurn < Scalar.euclideanRem (target - current) (2 * halfTurn) then
        Scalar.euclideanRem (target - current) (2 * halfTurn) - 2 * halfTurn
      else Scalar.euclideanRem (target - current) (2 * halfTurn) := by
  norm_num [shortestTurn]

theorem shortest_shortestTurn {halfTurn : ℚ} (hhalf : 0 < halfTurn) (current target : ℚ) :
    Shortest halfTurn current target (shortestTurn halfTurn current target) := by
  have hwhole : 0 < 2 * halfTurn := by linarith
  have heq := Scalar.euclideanRem_eq (target - current) hwhole
  have hnonneg := Scalar.euclideanRem_nonneg (target - current) hwhole
  have hlt := Scalar.euclideanRem_lt (target - current) hwhole
  rw [shortestTurn_eq]
  split
  · next hmore =>
    refine .of_leads ⟨⌊(target - current) / (2 * halfTurn)⌋ + 1, ?_⟩ (by linarith) (by linarith)
    push_cast
    linarith
  · next hmore =>
    refine .of_leads ⟨⌊(target - current) / (2 * halfTurn)⌋, ?_⟩ (by linarith) (not_lt.1 hmore)
    linarith

/-! ## Rotations -/

/-- How far a rotation turns, and how long it takes. -/
structure Rotation (α : Type u) where
  /-- The turn. -/
  turn : α
  /-- The time. -/
  time : α

/-- The rotation from one angle to another, over any scalar. -/
def rotation {α : Type u} [Scalar α] (halfTurn current target : α) (timing : Timing α) :
    Rotation α :=
  let turn := shortestTurn halfTurn current target
  { turn := turn, time := timing.span (Scalar.magnitude turn) }

/-- On single-precision numbers this is the rotation that an accepted start installs. -/
theorem startRotate_rotation (m : Motions) (current target : Float32) {options : MoveOptions}
    (h : options.timing.check = .ok ()) :
    ((m.startRotate current target options).state.rotation.map fun t =>
      Rotation.mk t.delta t.duration) = some (rotation Single.pi current target options.timing) := by
  rw [Motions.startRotate_of_ok h]
  rfl

/-- A rotation takes the shortest turn, and at a given speed no more time than half a turn takes;
the formulas are those of the rotations that accepted starts install. -/
theorem rotation_shortest {halfTurn rate : ℚ} (hhalf : 0 < halfTurn) (hrate : 0 < rate)
    (current target : ℚ) :
    (∀ (m : Motions) (a b : Float32) (options : MoveOptions), options.timing.check = .ok () →
      ((m.startRotate a b options).state.rotation.map fun t => Rotation.mk t.delta t.duration) =
        some (rotation Single.pi a b options.timing)) ∧
    (∀ timing, Shortest halfTurn current target (rotation halfTurn current target timing).turn) ∧
    (rotation halfTurn current target (.speed rate)).time =
      |(rotation halfTurn current target (.speed rate)).turn| / rate ∧
    (rotation halfTurn current target (.speed rate)).time ≤ halfTurn / rate := by
  have hshortest := shortest_shortestTurn hhalf current target
  refine ⟨fun m a b _ hcheck => startRotate_rotation m a b hcheck, fun _ => hshortest, rfl, ?_⟩
  exact div_le_div_of_nonneg_right hshortest.abs_turn_le hrate.le

/-- Half a turn back is taken as half a turn forth. -/
theorem rotation_shortest_halfTurn :
    (0 : ℚ) < 22 / 7 ∧ (0 : ℚ) < 1 / 2 ∧
      Shortest (22 / 7) 0 (-(22 / 7))
        (rotation (22 / 7) 0 (-(22 / 7)) (.speed (1 / 2))).turn ∧
      (rotation (22 / 7 : ℚ) 0 (-(22 / 7)) (.speed (1 / 2))).turn = 22 / 7 ∧
      (rotation (22 / 7 : ℚ) 0 (-(22 / 7)) (.speed (1 / 2))).time ≤ 22 / 7 / (1 / 2) := by
  have hhalf : (0 : ℚ) < 22 / 7 := by norm_num
  have hrate : (0 : ℚ) < 1 / 2 := by norm_num
  obtain ⟨-, hshortest, -, htime⟩ := rotation_shortest hhalf hrate 0 (-(22 / 7))
  refine ⟨hhalf, hrate, hshortest _, ?_, htime⟩
  show shortestTurn (22 / 7 : ℚ) 0 (-(22 / 7)) = 22 / 7
  rw [shortestTurn_eq]
  norm_num [Scalar.euclideanRem_eq]

end SpriteStage
