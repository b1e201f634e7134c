import SpriteStage.Proofs.Actor.Channels

/-!
# Motions land once

A motion adds up the times of the ticks. As long as the sum is less than its duration, a tick writes
the eased value at that time; the first tick whose sum is not less writes the target as it was given
and empties the channel, and from then on nothing is written. A motion of the position is signalled
by that one tick. So there are never more signals than motions that were started, whatever is
started, stopped or written in between (`lands_once`).
-/

set_option autoImplicit false

namespace SpriteStage

/-! ## The clock of a motion -/

/-- The sums of a time and the first of further times, the first two, and so on. -/
def sums (start : Float32) : List Float32 → List Float32
  | [] => []
  | elapsed :: rest => (start + elapsed) :: sums (start + elapsed) rest

/-- The sum of a time and all further times, added one after the other. -/
def total (start : Float32) (times : List Float32) : Float32 := times.foldl (· + ·) start

namespace Tween

variable {V : Type}

/-- The motion at another time. -/
def atTime (t : Tween V) (time : Float32) : Tween V := { t with current := time }

/-- The motion ends in one of the ticks. -/
def Ends (t : Tween V) (times : List Float32) : Prop := ∃ c ∈ sums t.current times, t.duration ≤ c

instance (t : Tween V) (times : List Float32) : Decidable (t.Ends times) :=
  inferInstanceAs (Decidable (∃ c ∈ sums t.current times, t.duration ≤ c))

/-- What is left of a motion after ticks. -/
def pass (motion : Option (Tween V)) (times : List Float32) : Option (Tween V) :=
  times.foldl (fun motion elapsed => (motion.map (·.advance elapsed)).bind unfinished?) motion

theorem ends_nil (t : Tween V) : ¬ t.Ends [] := by
  rintro ⟨c, hc, -⟩
  cases hc

theorem ends_cons (t : Tween V) (elapsed : Float32) (rest : List Float32) :
    t.Ends (elapsed :: rest) ↔
      t.duration ≤ t.current + elapsed ∨ (t.advance elapsed).Ends rest := by
  simp only [Ends, sums, List.mem_cons, exists_eq_or_imp]
  rfl

theorem unfinished?_of_le {t : Tween V} (h : t.duration ≤ t.current) : t.unfinished? = none := by
  unfold unfinished? isDone
  rw [decide_eq_true h]
  rfl

theorem unfinished?_of_not_le {t : Tween V} (h : ¬ t.duration ≤ t.current) :
    t.unfinished? = some t := by
  unfold unfinished? isDone
  rw [decide_eq_false h]
  rfl

theorem value_of_le [Add V] [HMul V Float32 V] {t : Tween V} (h : t.duration ≤ t.current) :
    t.value = t.target := by
  unfold value isDone
  rw [decide_eq_true h]
  rfl

theorem value_of_not_le [Add V] [HMul V Float32 V] {t : Tween V} (h : ¬ t.duration ≤ t.current) :
    t.value = t.between := by
  unfold value isDone
  rw [decide_eq_false h]
  rfl

theorem pass_none (times : List Float32) : pass (none : Option (Tween V)) times = none := by
  induction times with
  | nil => rfl
  | cons elapsed rest ih => exact ih

theorem pass_of_ends {t : Tween V} {times : List Float32} (h : t.Ends times) :
    pass (some t) times = none := by
  induction times generalizing t with
  | nil => exact absurd h t.ends_nil
  | cons elapsed rest ih =>
      show pass (t.advance elapsed).unfinished? rest = none
      by_cases hdone : t.duration ≤ t.current + elapsed
      · rw [unfinished?_of_le hdone, pass_none]
      · rw [unfinished?_of_not_le hdone]
        exact ih (((t.ends_cons elapsed rest).1 h).resolve_left hdone)

theorem pass_of_not_ends {t : Tween V} {times : List Float32} (h : ¬ t.Ends times) :
    pass (some t) times = some (t.atTime (total t.current times)) := by
  induction times generalizing t with
  | nil => rfl
  | cons elapsed rest ih =>
      rw [ends_cons, not_or] at h
      show pass (t.advance elapsed).unfinished? rest = _
      rw [unfinished?_of_not_le h.1]
      exact ih h.2

end Tween

/-- What a tick does on the channel of a motion that has gone through earlier ticks. -/
structure Lands {V : Type} [Add V] [HMul V Float32 V] (t : Tween V) (times : List Float32)
    (elapsed : Float32) (before after : V) (left : Option (Tween V)) : Prop where
  /-- As long as the sum of the times is less than the duration, the value is the eased one. -/
  onTheWay : ¬ t.Ends times → ¬ t.duration ≤ total t.current times + elapsed →
    after = t.easing.apply (total t.current times + elapsed) t.origin t.delta t.duration ∧
      left = some (t.atTime (total t.current times + elapsed))
  /-- In the first tick in which it is not, the value is the target, and the channel is empty. -/
  landing : ¬ t.Ends times → t.duration ≤ total t.current times + elapsed →
    after = t.target ∧ left = none
  /-- From then on, no value is written. -/
  landed : t.Ends times → after = before ∧ left = none

theorem Tween.lands {V : Type} [Add V] [HMul V Float32 V] (t : Tween V) (times : List Float32)
    (elapsed : Float32) (before : V) :
    Lands t times elapsed before
      (((pass (some t) times).map (·.advance elapsed)).elim before value)
      (((pass (some t) times).map (·.advance elapsed)).bind unfinished?) := by
  refine ⟨?_, ?_, ?_⟩
  · intro hends hdone
    rw [pass_of_not_ends hends]
    exact ⟨value_of_not_le hdone, unfinished?_of_not_le hdone⟩
  · intro hends hdone
    rw [pass_of_not_ends hends]
    exact ⟨value_of_le hdone, unfinished?_of_le hdone⟩
  · intro hends
    rw [pass_of_ends hends]
    exact ⟨rfl, rfl⟩

/-! ## Motions and their node -/

/-- The motion of the position that an accepted start installs. -/
def Motions.moveFrom (m : Motions) (origin target : Point Coordinate) (options : MoveOptions) :
    Tween (Point Coordinate) where
  origin := origin
  delta := target - origin
  target := target
  duration := options.timing.span (longerWay (target - origin))
  easing := options.easing.getD m.defaultEasing

/-- The rotation that an accepted start installs. -/
def Motions.turnFrom (m : Motions) (current target : Float32) (options : MoveOptions) :
    Tween Float32 where
  origin := current
  delta := shortestTurn Single.pi current target
  target := target
  duration := options.timing.span (Scalar.magnitude (shortestTurn Single.pi current target))
  easing := options.easing.getD m.defaultEasing

/-- A node and the motions that are written to it. -/
structure Mover where
  /-- The motions. -/
  motions : Motions
  /-- The node. -/
  node : SpriteNode

/-- What can be done to a node and its motions. -/
inductive MotionStep where
  /-- A motion of the position is started from some place, the place of the node or another. -/
  | startMove (origin target : Point Coordinate) (options : MoveOptions)
  /-- A rotation is started from some angle. -/
  | startRotate (current target : Float32) (options : MoveOptions)
  /-- Both channels are stopped. -/
  | cancel
  /-- Time passes. -/
  | tick (elapsed : Float32)
  /-- The host writes a part of the node. -/
  | write (part : NodeWrite)

namespace MotionStep

/-- The motion of the position is neither restarted nor cancelled. -/
def sparesMove : MotionStep → Bool
  | startMove .. | cancel => false
  | startRotate .. | tick _ | write _ => true

/-- The rotation is neither restarted nor cancelled. -/
def sparesTurn : MotionStep → Bool
  | startRotate .. | cancel => false
  | startMove .. | tick _ | write _ => true

/-- The time that passes, if any does. -/
def time? : MotionStep → Option Float32
  | tick elapsed => some elapsed
  | startMove .. | startRotate .. | cancel | write _ => none

/-- The times of the ticks among steps. -/
def times (steps : List MotionStep) : List Float32 := steps.filterMap time?

end MotionStep

namespace Mover

/-- What comes of a step. -/
def take (m : Mover) : MotionStep → Outcome Mover Unit
  | .startMove origin target options =>
    (m.motions.startMove origin target options).embed fun motions => { m with motions := motions }
  | .startRotate current target options =>
    (m.motions.startRotate current target options).embed fun motions => { m with motions := motions }
  | .cancel => .success { m with motions := m.motions.cancel } ()
  | .tick elapsed =>
    let t := m.motions.tick elapsed m.node
    { state := ⟨t.motions, t.node⟩, signals := t.signals, result := .ok () }
  | .write part => .success { m with node := m.node.written part } ()

/-- The state after steps. -/
def run (m : Mover) (steps : List MotionStep) : Mover :=
  steps.foldl (fun m step => (m.take step).state) m

/-- The signals of steps, in order. -/
def signals (m : Mover) : List MotionStep → List Signal
  | [] => []
  | step :: rest => (m.take step).signals ++ signals (m.take step).state rest

/-- Whether the step starts a motion of the position. -/
def startsMove (m : Mover) (step : MotionStep) : Bool :=
  match step with
  | .startMove .. => (m.take step).result.isOk
  | .startRotate .. | .cancel | .tick _ | .write _ => false

/-- How many of the steps start a motion of the position. -/
def starts (m : Mover) : List MotionStep → Nat
  | [] => 0
  | step :: rest => (m.startsMove step).toNat + starts (m.take step).state rest

variable {m : Mover} {step : MotionStep} {steps : List MotionStep}

/-! ## One step -/

/-- On the channel of the position, a step that spares it is nothing but the time it takes. -/
theorem position_take (h : step.sparesMove = true) :
    (m.take step).state.motions.position = Tween.pass m.motions.position step.time?.toList ∧
      (step.time? = none → (m.take step).signals = []) := by
  cases step with
  | startMove origin target options => cases h
  | cancel => cases h
  | tick elapsed => exact ⟨rfl, nofun⟩
  | write part => exact ⟨rfl, fun _ => rfl⟩
  | startRotate current target options =>
      cases hcheck : options.timing.check with
      | error fault =>
          simp only [take, Motions.startRotate_of_error hcheck]
          exact ⟨rfl, fun _ => rfl⟩
      | ok u =>
          simp only [take, Motions.startRotate_of_ok hcheck]
          exact ⟨rfl, fun _ => rfl⟩

theorem rotation_take (h : step.sparesTurn = true) :
    (m.take step).state.motions.rotation = Tween.pass m.motions.rotation step.time?.toList := by
  cases step with
  | startRotate current target options => cases h
  | cancel => cases h
  | tick elapsed => rfl
  | write part => rfl
  | startMove origin target options =>
      cases hcheck : options.timing.check with
      | error fault =>
          simp only [take, Motions.startMove_of_error hcheck]
          rfl
      | ok u =>
          simp only [take, Motions.startMove_of_ok hcheck]
          rfl

/-! ## Steps that spare a channel -/

theorem times_cons (step : MotionStep) (rest : List MotionStep) :
    MotionStep.times (step :: rest) = step.time?.toList ++ MotionStep.times rest := by
  unfold MotionStep.times
  cases hstep : step.time? with
  | none => rw [List.filterMap_cons_none hstep]; rfl
  | some elapsed => rw [List.filterMap_cons_some hstep]; rfl

theorem pass_append {V : Type} (motion : Option (Tween V)) (first rest : List Float32) :
    Tween.pass motion (first ++ rest) = Tween.pass (Tween.pass motion first) rest :=
  List.foldl_append

theorem position_run (h : ∀ step ∈ steps, step.sparesMove = true) :
    (m.run steps).motions.position = Tween.pass m.motions.position (MotionStep.times steps) := by
  induction steps generalizing m with
  | nil => rfl
  | cons step rest ih =>
      rw [times_cons, pass_append, ← (position_take (h step List.mem_cons_self)).1]
      exact ih fun later hlater => h later (List.mem_cons_of_mem _ hlater)

theorem rotation_run (h : ∀ step ∈ steps, step.sparesTurn = true) :
    (m.run steps).motions.rotation = Tween.pass m.motions.rotation (MotionStep.times steps) := by
  induction steps generalizing m with
  | nil => rfl
  | cons step rest ih =>
      rw [times_cons, pass_append, ← rotation_take (h step List.mem_cons_self)]
      exact ih fun later hlater => h later (List.mem_cons_of_mem _ hlater)

/-! ## Signals -/

theorem signals_tick_of_none (h : m.motions.position = none) (elapsed : Float32) :
    (m.take (.tick elapsed)).signals = [] := by
  show (if (m.motions.position.map _).any Tween.isDone then [Signal.moveDone] else []) = []
  rw [h]
  rfl

theorem signals_tick_of_some {t : Tween (Point Coordinate)} (h : m.motions.position = some t)
    (elapsed : Float32) :
    (m.take (.tick elapsed)).signals =
      if t.duration ≤ t.current + elapsed then [.moveDone] else [] := by
  show (if (m.motions.position.map _).any Tween.isDone then [Signal.moveDone] else []) = _
  rw [h]
  show (if decide (t.duration ≤ t.current + elapsed) = true then _ else _) = _
  simp only [decide_eq_true_eq]

theorem time?_eq_some {elapsed : Float32} (h : step.time? = some elapsed) :
    step = .tick elapsed := by
  cases step <;> cases h
  rfl

/-- Without a motion of the position, no end is signalled. -/
theorem count_of_none (h : m.motions.position = none)
    (hspares : ∀ step ∈ steps, step.sparesMove = true) :
    (m.signals steps).count .moveDone = 0 := by
  induction steps generalizing m with
  | nil => rfl
  | cons step rest ih =>
      obtain ⟨hposition, hquiet⟩ := position_take (m := m) (hspares step List.mem_cons_self)
      rw [h, Tween.pass_none] at hposition
      have hrest := ih hposition fun later hlater => hspares later (List.mem_cons_of_mem _ hlater)
      have hnow : (m.take step).signals = [] := by
        cases htime : step.time? with
        | none => exact hquiet htime
        | some elapsed =>
            rw [time?_eq_some htime]
            exact signals_tick_of_none h elapsed
      rw [signals, hnow]
      exact hrest

/-- The end of a motion of the position is signalled once, if it comes. -/
theorem count_of_some {t : Tween (Point Coordinate)} (h : m.motions.position = some t)
    (hspares : ∀ step ∈ steps, step.sparesMove = true) :
    (m.signals steps).count .moveDone = if t.Ends (MotionStep.times steps) then 1 else 0 := by
  induction steps generalizing m t with
  | nil => exact (if_neg t.ends_nil).symm
  | cons step rest ih =>
      have hrest : ∀ later ∈ rest, later.sparesMove = true :=
        fun later hlater => hspares later (List.mem_cons_of_mem _ hlater)
      obtain ⟨hposition, hquiet⟩ := position_take (m := m) (hspares step List.mem_cons_self)
      rw [signals, List.count_append, times_cons]
      cases htime : step.time? with
      | none =>
          rw [htime, h] at hposition
          rw [hquiet htime, ih hposition hrest]
          exact Nat.zero_add _
      | some elapsed =>
          rw [htime, h] at hposition
          rw [time?_eq_some htime, signals_tick_of_some h, ← time?_eq_some htime]
          by_cases hdone : t.duration ≤ t.current + elapsed
          · -- this tick is the end, and the channel is empty after it
            have hnone : (m.take step).state.motions.position = none :=
              hposition.trans (Tween.unfinished?_of_le hdone)
            have hends : t.Ends (elapsed :: MotionStep.times rest) :=
              (t.ends_cons _ _).2 (Or.inl hdone)
            rw [count_of_none hnone hrest, if_pos hdone]
            exact (if_pos hends).symm
          · have hsome : (m.take step).state.motions.position = some (t.advance elapsed) :=
              hposition.trans (Tween.unfinished?_of_not_le hdone)
            have hiff : t.Ends (elapsed :: MotionStep.times rest) ↔
                (t.advance elapsed).Ends (MotionStep.times rest) := by
              rw [Tween.ends_cons, or_iff_right hdone]
            rw [ih hsome hrest, if_neg hdone]
            show 0 + _ = if t.Ends (elapsed :: MotionStep.times rest) then 1 else 0
            simp only [hiff, Nat.zero_add]

/-- A step signals an end only of a motion that was there, and leaves one only if there was one or it
has started it. -/
theorem count_take (m : Mover) (step : MotionStep) :
    (m.take step).signals.count .moveDone + (m.take step).state.motions.position.isSome.toNat ≤
      (m.startsMove step).toNat + m.motions.position.isSome.toNat := by
  cases step with
  | startMove origin target options =>
      cases hcheck : options.timing.check with
      | error fault =>
          simp only [take, Motions.startMove_of_error hcheck]
          exact Nat.zero_le _
      | ok u =>
          simp only [startsMove, take, Motions.startMove_of_ok hcheck]
          exact Nat.le_add_right 1 _
  | cancel => exact Nat.zero_le _
  | write part => exact Nat.le_refl _
  | startRotate current target options =>
      have hspares : (MotionStep.startRotate current target options).sparesMove = true := rfl
      obtain ⟨hposition, hquiet⟩ := position_take (m := m) hspares
      rw [hposition, hquiet rfl]
      exact Nat.le_refl _
  | tick elapsed =>
      have hspares : (MotionStep.tick elapsed).sparesMove = true := rfl
      have hposition := (position_take (m := m) hspares).1
      rw [hposition]
      cases hmotion : m.motions.position with
      | none =>
          rw [signals_tick_of_none hmotion, Tween.pass_none]
          exact Nat.zero_le _
      | some t =>
          rw [signals_tick_of_some hmotion]
          show _ + (t.advance elapsed).unfinished?.isSome.toNat ≤ _
          by_cases hdone : t.duration ≤ t.current + elapsed
          · rw [if_pos hdone, Tween.unfinished?_of_le hdone]
            exact Nat.le_refl _
          · rw [if_neg hdone, Tween.unfinished?_of_not_le hdone]
            exact Nat.le_refl _

/-- However motions are started and stopped, no more ends are signalled than motions were started. -/
theorem count_le_starts (m : Mover) (steps : List MotionStep) :
    (m.signals steps).count .moveDone ≤ m.starts steps + m.motions.position.isSome.toNat := by
  induction steps generalizing m with
  | nil => exact Nat.zero_le _
  | cons step rest ih =>
      have hnow := m.count_take step
      have hrest := ih (m.take step).state
      rw [signals, List.count_append, starts]
      omega

/-! ## Motions that were started -/

theorem position_startMove {origin target : Point Coordinate} {options : MoveOptions}
    (h : (m.take (.startMove origin target options)).result = .ok ()) :
    (m.take (.startMove origin target options)).state.motions.position =
        some (m.motions.moveFrom origin target options) ∧
      (m.take (.startMove origin target options)).signals = [] := by
  cases hcheck : options.timing.check with
  | error fault =>
      simp only [take, Motions.startMove_of_error hcheck] at h
      cases h
  | ok u =>
      simp only [take, Motions.startMove_of_ok hcheck]
      exact ⟨rfl, rfl⟩

theorem rotation_startRotate {current target : Float32} {options : MoveOptions}
    (h : (m.take (.startRotate current target options)).result = .ok ()) :
    (m.take (.startRotate current target options)).state.motions.rotation =
      some (m.motions.turnFrom current target options) := by
  cases hcheck : options.timing.check with
  | error fault =>
      simp only [take, Motions.startRotate_of_error hcheck] at h
      cases h
  | ok u =>
      simp only [take, Motions.startRotate_of_ok hcheck]
      rfl

/-- What steps, of which the first has started the motion of the position, and a tick after them lead
to. -/
structure MoveLands (m : Mover) (t : Tween (Point Coordinate)) (steps : List MotionStep) : Prop where
  /-- One end is signalled if a tick has reached the duration, and none otherwise. -/
  count_eq : (m.signals steps).count .moveDone =
    if t.Ends (MotionStep.times steps) then 1 else 0
  /-- The node follows the motion until it lands. -/
  lands : ∀ elapsed, Lands t (MotionStep.times steps) elapsed (m.run steps).node.position
    ((m.run steps).take (.tick elapsed)).state.node.position
    ((m.run steps).take (.tick elapsed)).state.motions.position
  /-- On the way, each axis has its eased value. -/
  axes : ∀ elapsed, ¬ t.Ends (MotionStep.times steps) →
    ¬ t.duration ≤ total t.current (MotionStep.times steps) + elapsed →
      ((m.run steps).take (.tick elapsed)).state.node.position.x =
          t.easing.apply (total t.current (MotionStep.times steps) + elapsed) t.origin.x t.delta.x
            t.duration ∧
        ((m.run steps).take (.tick elapsed)).state.node.position.y =
          t.easing.apply (total t.current (MotionStep.times steps) + elapsed) t.origin.y t.delta.y
            t.duration
  /-- The tick in which it lands signals the end, and no other does. -/
  signals_eq : ∀ elapsed, ((m.run steps).take (.tick elapsed)).signals =
    if ¬ t.Ends (MotionStep.times steps) ∧
      t.duration ≤ total t.current (MotionStep.times steps) + elapsed then [.moveDone] else []

/-- What steps, of which the first has started the rotation, and a tick after them lead to. -/
structure TurnLands (m : Mover) (t : Tween Float32) (steps : List MotionStep) : Prop where
  /-- The node follows the rotation until it lands. -/
  lands : ∀ elapsed, Lands t (MotionStep.times steps) elapsed (m.run steps).node.rotation
    ((m.run steps).take (.tick elapsed)).state.node.rotation
    ((m.run steps).take (.tick elapsed)).state.motions.rotation
  /-- The rotation adds nothing to what is signalled. -/
  signals_eq : ∀ elapsed, ((m.run steps).take (.tick elapsed)).signals =
    (take { m.run steps with motions := { (m.run steps).motions with rotation := none } }
      (.tick elapsed)).signals

/-- The easing of a point is that of each axis. -/
theorem apply_point (e : Easing) (time : Float32) (start delta : Point Coordinate)
    (duration : Float32) :
    e.apply time start delta duration =
      ⟨e.apply time start.x delta.x duration, e.apply time start.y delta.y duration⟩ := by
  unfold Easing.apply
  by_cases hduration : duration ≤ 0.0
  · rw [if_pos hduration, if_pos hduration, if_pos hduration]
    rfl
  · rw [if_neg hduration, if_neg hduration, if_neg hduration]
    rfl

theorem moveLands_of_position {t : Tween (Point Coordinate)} (h : m.motions.position = some t)
    (hspares : ∀ step ∈ steps, step.sparesMove = true) : m.MoveLands t steps := by
  have hposition := position_run (m := m) hspares
  rw [h] at hposition
  have hlands : ∀ elapsed, Lands t (MotionStep.times steps) elapsed (m.run steps).node.position
      ((m.run steps).take (.tick elapsed)).state.node.position
      ((m.run steps).take (.tick elapsed)).state.motions.position := by
    intro elapsed
    have hlands := t.lands (MotionStep.times steps) elapsed (m.run steps).node.position
    rw [← hposition] at hlands
    exact hlands
  refine ⟨count_of_some h hspares, hlands, ?_, ?_⟩
  · intro elapsed hends hdone
    rw [((hlands elapsed).onTheWay hends hdone).1, apply_point]
    exact ⟨rfl, rfl⟩
  · intro elapsed
    by_cases hends : t.Ends (MotionStep.times steps)
    · rw [Tween.pass_of_ends hends] at hposition
      rw [signals_tick_of_none hposition, if_neg fun hboth => hboth.1 hends]
    · rw [Tween.pass_of_not_ends hends] at hposition
      rw [signals_tick_of_some hposition]
      simp only [hends, not_false_eq_true, true_and]
      rfl

theorem turnLands_of_rotation {t : Tween Float32} (h : m.motions.rotation = some t)
    (hspares : ∀ step ∈ steps, step.sparesTurn = true) : m.TurnLands t steps := by
  have hrotation := rotation_run (m := m) hspares
  rw [h] at hrotation
  refine ⟨?_, fun _ => rfl⟩
  intro elapsed
  have hlands := t.lands (MotionStep.times steps) elapsed (m.run steps).node.rotation
  rw [← hrotation] at hlands
  exact hlands

/-- A motion of the position that was started, and neither restarted nor cancelled since, writes the
eased value in each tick up to the first that reaches its duration. That tick writes the target and
empties the channel, and signals the end; later ticks write and signal nothing. A rotation does the
same, and signals nothing at all. However motions are started and stopped, the ends that are
signalled are not more than the motions of the position that were started. -/
theorem lands_once (m : Mover) :
    (∀ origin target options, (m.take (.startMove origin target options)).result = .ok () →
      ∀ steps, (∀ step ∈ steps, step.sparesMove = true) →
        m.MoveLands (m.motions.moveFrom origin target options)
          (.startMove origin target options :: steps)) ∧
    (∀ current target options, (m.take (.startRotate current target options)).result = .ok () →
      ∀ steps, (∀ step ∈ steps, step.sparesTurn = true) →
        m.TurnLands (m.motions.turnFrom current target options)
          (.startRotate current target options :: steps)) ∧
    (m.motions.position = none → ∀ steps, (m.signals steps).count .moveDone ≤ m.starts steps) := by
  refine ⟨?_, ?_, ?_⟩
  · intro origin target options hok steps hspares
    obtain ⟨hposition, hsignals⟩ := position_startMove hok
    have hlands := moveLands_of_position hposition hspares
    refine ⟨?_, hlands.lands, hlands.axes, hlands.signals_eq⟩
    rw [signals, hsignals]
    exact hlands.count_eq
  · intro current target options hok steps hspares
    have hlands := turnLands_of_rotation (rotation_startRotate hok) hspares
    exact ⟨hlands.lands, hlands.signals_eq⟩
  · intro hnone steps
    have hcount := m.count_le_starts steps
    rw [hnone] at hcount
    exact hcount

/-- A node that stands still. -/
def idleMover : Mover := ⟨{}, {}⟩

/-- A motion to the right and a turn, both of ten milliseconds, and two ticks. -/
def strollSteps : List MotionStep :=
  [.startMove ⟨.zero, .zero⟩ ⟨.ofSingle 8.0, .zero⟩ ⟨.duration 10.0, some .quadIn⟩, .tick 4.0,
    .startRotate 0.0 1.0 ⟨.duration 10.0, none⟩, .tick 4.0]

theorem lands_once_strollSteps :
    (idleMover.MoveLands
        (idleMover.motions.moveFrom ⟨.zero, .zero⟩ ⟨.ofSingle 8.0, .zero⟩
          ⟨.duration 10.0, some .quadIn⟩) strollSteps) ∧
      (idleMover.TurnLands (idleMover.motions.turnFrom 0.0 1.0 ⟨.duration 10.0, none⟩)
        [.startRotate 0.0 1.0 ⟨.duration 10.0, none⟩, .tick 4.0]) ∧
      (idleMover.signals (strollSteps ++ strollSteps)).count .moveDone ≤
        idleMover.starts (strollSteps ++ strollSteps) := by
  obtain ⟨hmove, hturn, hcount⟩ := lands_once idleMover
  exact ⟨hmove _ _ _ rfl _ (by decide), hturn _ _ _ rfl _ (by decide), hcount rfl _⟩

end Mover

end SpriteStage
