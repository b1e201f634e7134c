import Mathlib.Order.Monotone.Basic
import SpriteStage.Easing.Basic
import SpriteStage.Proofs.Rational

/-!
# Families of curves

The curves that need no more than the four operations come in families of three: one is slow at the
start, one at the end, and one at both ends. Read in exact arithmetic, the first of a family gives
the other two: the second is the first one turned by half a turn (`mirrored`), and the third is made
of both halves at half size (`joined`). So what is known of the first is known of all three: that it
goes from zero to one, that it stays between them, that it never goes back. Only the third curve of
the back family is made of other halves, which overshoot further (`curve_both_back`).
-/

set_option autoImplicit false

namespace SpriteStage

universe u

/-! ## Turning and joining a curve -/

/-- A curve turned by half a turn: the end comes first. -/
def mirrored (f : ℚ → ℚ) (u : ℚ) : ℚ := 1 - f (1 - u)

/-- A curve at half size, and after it the same turned by half a turn. -/
def joined (f : ℚ → ℚ) (u : ℚ) : ℚ := if u < 1 / 2 then f (2 * u) / 2 else 1 - f (2 - 2 * u) / 2

/-- A curve from zero to one. -/
structure Spans (f : ℚ → ℚ) : Prop where
  /-- It starts at zero. -/
  zero : f 0 = 0
  /-- It ends at one. -/
  one : f 1 = 1

/-- A curve from zero to one that stays between them. -/
structure UnitCurve (f : ℚ → ℚ) : Prop extends Spans f where
  /-- It does not go below zero. -/
  nonneg : ∀ u, 0 ≤ u → u ≤ 1 → 0 ≤ f u
  /-- It does not go above one. -/
  le_one : ∀ u, 0 ≤ u → u ≤ 1 → f u ≤ 1

section Turning

variable {f : ℚ → ℚ}

theorem Spans.mirrored (h : Spans f) : Spans (mirrored f) := by
  constructor <;> simp [SpriteStage.mirrored, h.zero, h.one]

theorem Spans.joined (h : Spans f) : Spans (joined f) := by
  constructor <;> norm_num [SpriteStage.joined, h.zero]

theorem UnitCurve.mirrored (h : UnitCurve f) : UnitCurve (mirrored f) := by
  refine ⟨h.toSpans.mirrored, fun u h0 h1 => ?_, fun u h0 h1 => ?_⟩
  · have := h.le_one (1 - u) (by linarith) (by linarith)
    simp only [SpriteStage.mirrored]
    linarith
  · have := h.nonneg (1 - u) (by linarith) (by linarith)
    simp only [SpriteStage.mirrored]
    linarith

theorem UnitCurve.joined (h : UnitCurve f) : UnitCurve (joined f) := by
  refine ⟨h.toSpans.joined, fun u h0 h1 => ?_, fun u h0 h1 => ?_⟩ <;>
    simp only [SpriteStage.joined] <;> split
  · have := h.nonneg (2 * u) (by linarith) (by linarith)
    linarith
  · have := h.le_one (2 - 2 * u) (by linarith) (by linarith)
    linarith
  · have := h.le_one (2 * u) (by linarith) (by linarith)
    linarith
  · have := h.nonneg (2 - 2 * u) (by linarith) (by linarith)
    linarith

/-- A curve that never goes back on the unit interval. -/
def Rising (f : ℚ → ℚ) : Prop := ∀ u v, 0 ≤ u → u ≤ v → v ≤ 1 → f u ≤ f v

theorem Rising.mirrored (h : Rising f) : Rising (mirrored f) := by
  intro u v h0 huv h1
  have := h (1 - v) (1 - u) (by linarith) (by linarith) (by linarith)
  simp only [SpriteStage.mirrored]
  linarith

theorem Rising.joined (h : Rising f) (hunit : UnitCurve f) : Rising (joined f) := by
  intro u v h0 huv h1
  simp only [SpriteStage.joined]
  split
  · next hu =>
    split
    · -- both are in the first half
      have := h (2 * u) (2 * v) (by linarith) (by linarith) (by linarith)
      linarith
    · -- the first half ends where the second one starts
      have := hunit.le_one (2 * u) (by linarith) (by linarith)
      have := hunit.le_one (2 - 2 * v) (by linarith) (by linarith)
      linarith
  · next hu =>
    rw [if_neg (by linarith)]
    have := h (2 - 2 * v) (2 - 2 * u) (by linarith) (by linarith) (by linarith)
    linarith

end Turning

/-! ## The curves of a family -/

namespace Easing

/-- The degrees of the power curves. -/
inductive Power where
  | quad
  | cubic
  | quart
  | quint
deriving DecidableEq

/-- The exponent. -/
def Power.degree : Power → ℕ
  | quad => 2
  | cubic => 3
  | quart => 4
  | quint => 5

/-- The families of curves that need no more than the four operations. -/
inductive Family where
  | power (p : Power)
  | back
  | bounce
deriving DecidableEq

/-- Where a curve is slow. -/
inductive SlowEnd where
  | start
  | finish
  | both
deriving DecidableEq

namespace Family

/-- The easing of a family that is slow at a given end. -/
def easing : Family → SlowEnd → Easing
  | power .quad, .start => quadIn
  | power .quad, .finish => quadOut
  | power .quad, .both => quadInOut
  | power .cubic, .start => cubicIn
  | power .cubic, .finish => cubicOut
  | power .cubic, .both => cubicInOut
  | power .quart, .start => quartIn
  | power .quart, .finish => quartOut
  | power .quart, .both => quartInOut
  | power .quint, .start => quintIn
  | power .quint, .finish => quintOut
  | power .quint, .both => quintInOut
  | back, .start => backIn
  | back, .finish => backOut
  | back, .both => backInOut
  | bounce, .start => bounceIn
  | bounce, .finish => bounceOut
  | bounce, .both => bounceInOut

/-- The formula of that easing, over any scalar. -/
def curve {α : Type u} [Scalar α] : Family → SlowEnd → α → α
  | power .quad, .start => Curve.quadIn
  | power .quad, .finish => Curve.quadOut
  | power .quad, .both => Curve.quadInOut
  | power .cubic, .start => Curve.cubicIn
  | power .cubic, .finish => Curve.cubicOut
  | power .cubic, .both => Curve.cubicInOut
  | power .quart, .start => Curve.quartIn
  | power .quart, .finish => Curve.quartOut
  | power .quart, .both => Curve.quartInOut
  | power .quint, .start => Curve.quintIn
  | power .quint, .finish => Curve.quintOut
  | power .quint, .both => Curve.quintInOut
  | back, .start => Curve.backIn
  | back, .finish => Curve.backOut
  | back, .both => Curve.backInOut
  | bounce, .start => Curve.bounceIn
  | bounce, .finish => Curve.bounceOut
  | bounce, .both => Curve.bounceInOut

/-- A part of the time, with the times outside a motion counted as its nearest end. -/
def clampUnit {α : Type u} [Scalar α] (x : α) : α :=
  let raised := if x < 0.0 then 0.0 else x
  if 1.0 < raised then 1.0 else raised

/-- The progress under an easing of a family, over any scalar. -/
def progress {α : Type u} [Scalar α] (f : Family) (v : SlowEnd) (x : α) : α :=
  f.curve v (clampUnit x)

/-- On single-precision numbers this is the progress of the easing. -/
theorem progress_easing (f : Family) (v : SlowEnd) (x : Float32) :
    (f.easing v).progress x = f.progress v x := by
  cases f with
  | power p => cases p <;> cases v <;> rfl
  | back => cases v <;> rfl
  | bounce => cases v <;> rfl

/-! ## Exact arithmetic -/

theorem curve_start_power (p : Power) : (power p).curve .start = fun u : ℚ => u ^ p.degree := by
  funext u
  cases p with
  | quad => simp only [curve, Curve.quadIn, Power.degree]; ring
  | cubic => simp only [curve, Curve.cubicIn, Power.degree]; ring
  | quart => simp only [curve, Curve.quartIn, Scalar.fourth_eq, Power.degree]
  | quint => simp only [curve, Curve.quintIn, Scalar.fifth_eq, Power.degree]

/-- The curve that is slow at the end is the one that is slow at the start, turned. -/
theorem curve_finish (f : Family) : f.curve .finish = mirrored (f.curve .start) := by
  funext u
  cases f with
  | power p =>
      rw [curve_start_power]
      cases p <;>
        norm_num [curve, mirrored, Power.degree, Curve.quadOut, Curve.cubicOut, Curve.quartOut,
          Curve.quintOut]
      ring
  | back =>
      norm_num [curve, mirrored, Curve.backIn, Curve.backOut, Curve.overshoot]
      ring
  | bounce => norm_num [curve, mirrored, Curve.bounceIn]

/-- The curve that is slow at both ends is made of two halves, except in the back family. -/
theorem curve_both {f : Family} (hf : f ≠ .back) : f.curve .both = joined (f.curve .start) := by
  funext u
  cases f with
  | power p =>
      rw [curve_start_power]
      cases p <;>
        norm_num [curve, joined, Power.degree, Curve.quadInOut, Curve.cubicInOut, Curve.quartInOut,
          Curve.quintInOut] <;>
        refine if_congr Iff.rfl ?_ ?_ <;> ring
  | back => exact absurd rfl hf
  | bounce =>
      norm_num [curve, joined, Curve.bounceIn, Curve.bounceInOut]
      refine if_congr Iff.rfl rfl ?_
      rw [show 1 - (2 - 2 * u) = 2 * u - 1 by ring]
      ring

/-- A cubic that draws back before it starts, by a given amount. -/
def drawnBack (amount u : ℚ) : ℚ := (amount + 1) * u ^ 3 - amount * u ^ 2

theorem curve_start_back : back.curve .start = drawnBack Curve.overshoot := by
  funext u
  norm_num [curve, Curve.backIn, drawnBack]
  ring

/-- In the back family the halves are not those of the curve that is slow at the start: they
overshoot further. -/
theorem curve_both_back : back.curve .both = joined (drawnBack (Curve.overshoot * (61 / 40))) := by
  funext u
  norm_num [curve, joined, Curve.backInOut, drawnBack]
  refine if_congr Iff.rfl ?_ ?_ <;> ring

/-! ### The unit interval -/

theorem degree_ne_zero (p : Power) : p.degree ≠ 0 := by
  cases p <;> decide

theorem unitCurve_pow {n : ℕ} (hn : n ≠ 0) : UnitCurve fun u : ℚ => u ^ n where
  zero := zero_pow hn
  one := one_pow n
  nonneg _ h0 _ := pow_nonneg h0 n
  le_one _ h0 h1 := pow_le_one₀ h0 h1

theorem rising_pow (n : ℕ) : Rising fun u : ℚ => u ^ n :=
  fun _ _ h0 huv _ => pow_le_pow_left₀ h0 huv n

/-- A parabola of the bounce stays between zero and one as long as it is within its reach. -/
theorem arc_bounds {c r v : ℚ} (hc : 0 ≤ c) (hr : 121 / 16 * (r * r) + c ≤ 1) (hlo : -r ≤ v)
    (hhi : v ≤ r) : 0 ≤ 121 / 16 * v * v + c ∧ 121 / 16 * v * v + c ≤ 1 := by
  have hsquare : v * v ≤ r * r := by nlinarith
  constructor
  · nlinarith [mul_self_nonneg v]
  · linarith

theorem bounceOut_bounds {u : ℚ} (h0 : 0 ≤ u) (h1 : u ≤ 1) :
    0 ≤ Curve.bounceOut u ∧ Curve.bounceOut u ≤ 1 := by
  norm_num [Curve.bounceOut]
  -- the first parabola is at its lowest at zero, each other one in the middle of its piece
  split_ifs with hfirst hsecond hthird
  · simpa using arc_bounds (c := 0) (r := 4 / 11) le_rfl (by norm_num) (by linarith) hfirst.le
  · exact arc_bounds (r := 2 / 11) (by norm_num) (by norm_num) (by linarith) (by linarith)
  · exact arc_bounds (r := 1 / 11) (by norm_num) (by norm_num) (by linarith) (by linarith)
  · exact arc_bounds (r := 1 / 22) (by norm_num) (by norm_num) (by linarith) (by linarith)

theorem unitCurve_bounceOut : UnitCurve Curve.bounceOut where
  zero := by norm_num [Curve.bounceOut]
  one := by norm_num [Curve.bounceOut]
  nonneg _ h0 h1 := (bounceOut_bounds h0 h1).1
  le_one _ h0 h1 := (bounceOut_bounds h0 h1).2

theorem spans_drawnBack (amount : ℚ) : Spans (drawnBack amount) := by
  constructor <;> simp [drawnBack]

/-- Outside the back family, no curve leaves the unit interval. -/
theorem unitCurve {f : Family} (hf : f ≠ .back) (v : SlowEnd) : UnitCurve (f.curve v) := by
  have hstart : UnitCurve (f.curve .start) := by
    cases f with
    | power p =>
        rw [curve_start_power]
        exact unitCurve_pow (degree_ne_zero p)
    | back => exact absurd rfl hf
    | bounce =>
        have hin : bounce.curve .start = mirrored Curve.bounceOut := by
          funext u
          norm_num [curve, mirrored, Curve.bounceIn]
        rw [hin]
        exact unitCurve_bounceOut.mirrored
  cases v with
  | start => exact hstart
  | finish => rw [curve_finish]; exact hstart.mirrored
  | both => rw [curve_both hf]; exact hstart.joined

theorem spans (f : Family) (v : SlowEnd) : Spans (f.curve v) := by
  by_cases hf : f = .back
  · subst hf
    have hstart : Spans (back.curve .start) := curve_start_back ▸ spans_drawnBack _
    cases v with
    | start => exact hstart
    | finish => rw [curve_finish]; exact hstart.mirrored
    | both => rw [curve_both_back]; exact (spans_drawnBack _).joined
  · exact (unitCurve hf v).toSpans

/-- The power curves never go back. -/
theorem rising (p : Power) (v : SlowEnd) : Rising ((power p).curve v) := by
  have hback : power p ≠ .back := nofun
  have hstart : Rising ((power p).curve .start) := curve_start_power p ▸ rising_pow p.degree
  cases v with
  | start => exact hstart
  | finish => rw [curve_finish]; exact hstart.mirrored
  | both => rw [curve_both hback]; exact hstart.joined (unitCurve hback .start)

/-! ### Progress -/

theorem clampUnit_eq (u : ℚ) : clampUnit u = min 1 (max 0 u) := by
  norm_num [clampUnit]
  grind

theorem clampUnit_nonneg (u : ℚ) : 0 ≤ clampUnit u := by
  simp [clampUnit_eq]

theorem clampUnit_le_one (u : ℚ) : clampUnit u ≤ 1 := by
  simp [clampUnit_eq]

theorem clampUnit_mono {u w : ℚ} (h : u ≤ w) : clampUnit u ≤ clampUnit w := by
  rw [clampUnit_eq, clampUnit_eq]
  exact min_le_min_left 1 (max_le_max_left 0 h)

theorem clampUnit_one_sub (u : ℚ) : clampUnit (1 - u) = 1 - clampUnit u := by
  rw [clampUnit_eq, clampUnit_eq]
  grind

theorem clampUnit_lt_half {u : ℚ} : clampUnit u < 1 / 2 ↔ u < 1 / 2 := by
  rw [clampUnit_eq]
  grind

theorem clampUnit_two_mul {u : ℚ} (h : u ≤ 1 / 2) : clampUnit (2 * u) = 2 * clampUnit u := by
  rw [clampUnit_eq, clampUnit_eq]
  grind

theorem clampUnit_two_sub {u : ℚ} (h : 1 / 2 ≤ u) :
    clampUnit (2 - 2 * u) = 2 - 2 * clampUnit u := by
  have hdouble : (2 : ℚ) - 2 * u = 2 * (1 - u) := by ring
  rw [hdouble, clampUnit_two_mul (by linarith), clampUnit_one_sub]
  ring

/-- Within the unit interval the progress is the curve itself. -/
theorem progress_eq_curve (f : Family) (v : SlowEnd) {u : ℚ} (h0 : 0 ≤ u) (h1 : u ≤ 1) :
    f.progress v u = f.curve v u := by
  rw [progress, clampUnit_eq, max_eq_right h0, min_eq_right h1]

theorem progress_both {f : Family} (hf : f ≠ .back) (u : ℚ) : f.progress .both u =
    if u < 1 / 2 then f.progress .start (2 * u) / 2 else 1 - f.progress .start (2 - 2 * u) / 2 := by
  rw [progress, curve_both hf]
  simp only [joined, clampUnit_lt_half, progress]
  split
  · next hu => rw [clampUnit_two_mul hu.le]
  · next hu => rw [clampUnit_two_sub (not_lt.1 hu)]

/-- What the progress under the three easings of a family obeys, for every part of the time. -/
structure Consistent (f : Family) : Prop where
  /-- Each starts at zero. -/
  zero : ∀ v, f.progress v (0 : ℚ) = 0
  /-- Each ends at one. -/
  one : ∀ v, f.progress v (1 : ℚ) = 1
  /-- The one that is slow at the end is the one that is slow at the start, turned. -/
  turned : ∀ u : ℚ, f.progress .finish u = 1 - f.progress .start (1 - u)
  /-- Outside the back family, each stays between zero and one. -/
  bounds : f ≠ .back → ∀ (v : SlowEnd) (u : ℚ), 0 ≤ f.progress v u ∧ f.progress v u ≤ 1
  /-- Outside the back family, the one that is slow at both ends is made of halves. -/
  halves : f ≠ .back → ∀ u : ℚ, f.progress .both u =
    if u < 1 / 2 then f.progress .start (2 * u) / 2 else 1 - f.progress .start (2 - 2 * u) / 2
  /-- The progress under a power curve never goes back. -/
  rising : ∀ p, f = .power p → ∀ v, Monotone fun u : ℚ => f.progress v u

/-- The easings of a family are consistent: on single-precision numbers their progress is given by
the formulas of the family, and in exact arithmetic these formulas obey its laws. -/
theorem easing_consistent (f : Family) :
    (∀ (v : SlowEnd) (x : Float32), (f.easing v).progress x = f.progress v x) ∧ f.Consistent := by
  refine ⟨progress_easing f, ?_, ?_, ?_, ?_, progress_both, ?_⟩
  · intro v
    rw [progress_eq_curve f v le_rfl zero_le_one]
    exact (spans f v).zero
  · intro v
    rw [progress_eq_curve f v zero_le_one le_rfl]
    exact (spans f v).one
  · intro u
    rw [progress, curve_finish, mirrored, ← clampUnit_one_sub, progress]
  · intro hf v u
    have hunit := unitCurve hf v
    exact ⟨hunit.nonneg _ (clampUnit_nonneg u) (clampUnit_le_one u),
      hunit.le_one _ (clampUnit_nonneg u) (clampUnit_le_one u)⟩
  · rintro p rfl v u w huw
    exact Family.rising p v _ _ (clampUnit_nonneg u) (clampUnit_mono huw) (clampUnit_le_one w)

end Family

end Easing

end SpriteStage
