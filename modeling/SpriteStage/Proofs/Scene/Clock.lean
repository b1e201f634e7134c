import SpriteStage.Proofs.Single.Sum
import SpriteStage.Scene.Timeline

/-!
# The clock of a timeline

A timeline that was created is `WellTimed`: its events are in the order of their times, its clock is
defined and not negative, and the events before the cursor are due. Advancing keeps that, whatever
the time is (`WellTimed.advance`); it never turns the clock back (`WellTimed.le_advance`), hands out
the events from the cursor on, one index after the other (`due_eq`), and leaves the cursor at the
number of events that the clock has reached (`WellTimed.cursor_advance`).
-/

set_option autoImplicit false

namespace SpriteStage

open Single (sign units parts)

/-! ## The time that is added -/

theorem isUsableElapsed_iff (elapsed : Float32) :
    isUsableElapsed elapsed = true ↔ elapsed.isFinite = true ∧ 0.0 ≤ elapsed := by
  unfold isUsableElapsed
  exact decide_eq_true_iff

/-- What is added to the clock is finite and not negative. -/
theorem clampElapsed_usable (elapsed : Float32) :
    (clampElapsed elapsed).isFinite = true ∧ 0 ≤ units (parts (clampElapsed elapsed)) := by
  unfold clampElapsed
  by_cases h : isUsableElapsed elapsed = true
  · rw [if_pos h]
    obtain ⟨hfinite, hle⟩ := (isUsableElapsed_iff elapsed).1 h
    have hdefined := Single.isNaN_eq_false_of_isFinite hfinite
    exact ⟨hfinite, (Single.nonneg_iff_units hdefined).1 hle⟩
  · rw [if_neg h]
    exact ⟨rfl, by decide⟩

theorem isUsableElapsed_clampElapsed (elapsed : Float32) :
    isUsableElapsed (clampElapsed elapsed) = true := by
  unfold clampElapsed
  by_cases h : isUsableElapsed elapsed = true
  · rw [if_pos h]
    exact h
  · rw [if_neg h]
    rfl

theorem clampElapsed_clampElapsed (elapsed : Float32) :
    clampElapsed (clampElapsed elapsed) = clampElapsed elapsed := by
  rw [clampElapsed.eq_def (clampElapsed elapsed), if_pos (isUsableElapsed_clampElapsed elapsed)]

/-- A negative, infinite or undefined time counts as no time. -/
theorem clampElapsed_of_unusable {elapsed : Float32}
    (h : elapsed.isFinite = false ∨ elapsed < 0.0) : clampElapsed elapsed = 0.0 := by
  unfold clampElapsed
  refine if_neg fun husable => ?_
  obtain ⟨hfinite, hle⟩ := (isUsableElapsed_iff elapsed).1 husable
  rcases h with hinf | hneg
  · rw [hinf] at hfinite
    exact Bool.noConfusion hfinite
  · have hdefined := Single.isNaN_eq_false_of_isFinite hfinite
    exact (Single.not_le_iff_lt (by decide) hdefined).2 hneg hle

namespace Timeline

/-! ## Events in the order of their times -/

theorem checkTimes_eq_ok_iff (start : Nat) (events : List TimelineEntry) :
    checkTimes start events = .ok () ↔ ∀ e ∈ events, e.time.isFinite = true := by
  induction events generalizing start with
  | nil => simp [checkTimes]
  | cons e rest ih =>
      unfold checkTimes
      by_cases h : e.time.isFinite = true
      · rw [if_pos h, ih]
        simp [h]
      · rw [if_neg h]
        simp [h]

/-- Sorting by the rank of the bits sorts by time. -/
theorem pairwise_sortEvents {events : List TimelineEntry}
    (h : ∀ e ∈ events, e.time.isFinite = true) :
    (sortEvents events).Pairwise fun a b => a.time ≤ b.time := by
  have hrank : (sortEvents events).Pairwise fun a b =>
      decide (Single.rank a.time ≤ Single.rank b.time) = true := by
    refine List.pairwise_mergeSort ?_ ?_ events
    · intro a b c hab hbc
      rw [decide_eq_true_iff] at hab hbc ⊢
      exact Int.le_trans hab hbc
    · intro a b
      rw [Bool.or_eq_true, decide_eq_true_iff, decide_eq_true_iff]
      exact Int.le_total _ _
  refine hrank.imp_of_mem ?_
  intro a b ha hb hab
  have hfa := h a (List.mem_mergeSort.1 ha)
  have hfb := h b (List.mem_mergeSort.1 hb)
  exact Single.le_of_rank_le (Single.isNaN_eq_false_of_isFinite hfa)
    (Single.isNaN_eq_false_of_isFinite hfb) (of_decide_eq_true hab)

/-! ## Counting what is due -/

/-- How many events the time on the clock has reached. -/
def reached (t : Timeline) : Nat := t.events.countP fun e => decide (e.time ≤ t.elapsed)

theorem takeWhile_zipIdx {α : Type} (p : α → Bool) (l : List α) (k : Nat) :
    (l.zipIdx k).takeWhile (fun e => p e.1) = (l.takeWhile p).zipIdx k := by
  induction l generalizing k with
  | nil => rfl
  | cons a l ih =>
      rw [List.zipIdx_cons, List.takeWhile_cons, List.takeWhile_cons]
      by_cases h : p a = true
      · rw [if_pos h, if_pos h, List.zipIdx_cons, ih]
      · rw [if_neg h, if_neg h]
        rfl

theorem drop_zipIdx {α : Type} (l : List α) (n k : Nat) :
    (l.zipIdx k).drop n = (l.drop n).zipIdx (k + n) := by
  induction n generalizing l k with
  | zero => rfl
  | succ n ih =>
      cases l with
      | nil => rfl
      | cons a l =>
          rw [List.zipIdx_cons, List.drop_succ_cons, List.drop_succ_cons, ih,
            Nat.add_right_comm k 1 n]
          rfl

/-- The events that are due follow the cursor, and their indices count on from it. -/
theorem due_eq (t : Timeline) :
    t.due = ((t.events.drop t.cursor).takeWhile
      fun e => decide (e.time ≤ t.elapsed)).zipIdx t.cursor := by
  unfold due pending
  rw [drop_zipIdx, Nat.zero_add,
    takeWhile_zipIdx (fun e : TimelineEntry => decide (e.time ≤ t.elapsed))]

/-- In a list where what satisfies `p` comes first, counting it is finding the end of it. -/
theorem length_takeWhile_eq_countP {α : Type} {p : α → Bool} {l : List α}
    (h : l.Pairwise fun a b => p b = true → p a = true) :
    (l.takeWhile p).length = l.countP p := by
  induction l with
  | nil => rfl
  | cons a l ih =>
      obtain ⟨hall, hrest⟩ := List.pairwise_cons.1 h
      rw [List.takeWhile_cons, List.countP_cons]
      by_cases ha : p a = true
      · rw [if_pos ha, if_pos ha, List.length_cons, ih hrest]
      · -- whatever satisfied `p` further on would have made the first satisfy it
        rw [if_neg ha, if_neg ha]
        have hnone : l.countP p = 0 := List.countP_eq_zero.2 fun b hb hp => ha (hall b hb hp)
        rw [hnone]
        rfl

/-- What comes before a position that is due is due too, so counting may start there. -/
theorem add_length_takeWhile_drop {α : Type} {p : α → Bool} {l : List α} {n : Nat}
    (hsorted : l.Pairwise fun a b => p b = true → p a = true) (hn : n ≤ l.length)
    (hbefore : ∀ a ∈ l.take n, p a = true) :
    n + ((l.drop n).takeWhile p).length = l.countP p := by
  have hdrop := length_takeWhile_eq_countP (hsorted.sublist (List.drop_sublist n l))
  have htake : (l.take n).countP p = n := by
    rw [List.countP_eq_length.2 hbefore, List.length_take, Nat.min_eq_left hn]
  calc
    n + ((l.drop n).takeWhile p).length = (l.take n).countP p + (l.drop n).countP p := by
      rw [htake, hdrop]
    _ = l.countP p := by rw [← List.countP_append, List.take_append_drop]

/-! ## What advancing keeps -/

/-- Events in order, and a clock that has reached those before the cursor. -/
structure WellTimed (t : Timeline) : Prop where
  /-- Every event has a finite time. -/
  finite : ∀ e ∈ t.events, e.time.isFinite = true
  /-- The events are in the order of their times. -/
  ordered : t.events.Pairwise fun a b => a.time ≤ b.time
  /-- The clock is defined; it may have run up to infinity. -/
  defined : t.elapsed.isNaN = false
  /-- The clock is not negative, and not negative zero. -/
  positive : sign (parts t.elapsed) = .positive
  /-- The cursor is on the timeline or at its end. -/
  cursor_le : t.cursor ≤ t.events.length
  /-- The events before the cursor are due. -/
  passed : ∀ e ∈ t.events.take t.cursor, e.time ≤ t.elapsed

/-- A timeline that was built has checked and sorted events and is at its start. -/
theorem eq_of_create {events : List TimelineEntry} {t : Timeline} (h : create events = .ok t) :
    checkTimes 0 events = .ok () ∧ t = { events := sortEvents events } := by
  unfold create at h
  cases hcheck : checkTimes 0 events with
  | error e =>
      rw [hcheck] at h
      exact absurd h (by simp [bind, Except.bind])
  | ok _ =>
      rw [hcheck] at h
      cases h
      exact ⟨rfl, rfl⟩

theorem wellTimed_of_create {events : List TimelineEntry} {t : Timeline}
    (h : create events = .ok t) : t.WellTimed := by
  obtain ⟨hcheck, rfl⟩ := eq_of_create h
  have hfinite := (checkTimes_eq_ok_iff 0 events).1 hcheck
  have hdefined : (0.0 : Float32).isNaN = false := by decide
  have hsign : sign (parts (0.0 : Float32)) = .positive := by
    rw [show parts (0.0 : Float32) = .zero .positive from rfl]
    rfl
  refine ⟨fun e he => ?_, pairwise_sortEvents hfinite, hdefined, hsign, Nat.zero_le _, ?_⟩
  · exact hfinite e (List.mem_mergeSort.1 he)
  · intro e he
    exact absurd he (by simp)

theorem cursor_of_create {events : List TimelineEntry} {t : Timeline}
    (h : create events = .ok t) : t.cursor = 0 := by
  obtain ⟨-, rfl⟩ := eq_of_create h
  rfl

theorem rewind_of_create {events : List TimelineEntry} {t : Timeline}
    (h : create events = .ok t) : t.rewind = t := by
  obtain ⟨-, rfl⟩ := eq_of_create h
  rfl

/-- It does not matter whether a time is clamped before the clock clamps it. -/
theorem advance_clampElapsed (t : Timeline) (elapsed : Float32) :
    t.advance (clampElapsed elapsed) = t.advance elapsed := by
  unfold advance wait
  rw [clampElapsed_clampElapsed]

/-- Advancing hands out the events that the clock has newly reached. -/
theorem take_cursor_advance (t : Timeline) (elapsed : Float32) :
    (t.advance elapsed).events.take (t.advance elapsed).cursor =
      t.events.take t.cursor ++ (t.events.drop t.cursor).takeWhile
        fun e => decide (e.time ≤ (t.wait elapsed).elapsed) := by
  have hlength : (t.wait elapsed).due.length = ((t.events.drop t.cursor).takeWhile
      fun e => decide (e.time ≤ (t.wait elapsed).elapsed)).length := by
    rw [due_eq, List.length_zipIdx]
    rfl
  show t.events.take (t.cursor + (t.wait elapsed).due.length) = _
  rw [hlength, List.take_add]
  congr 1
  exact (List.prefix_iff_eq_take.1 (List.takeWhile_prefix _)).symm

namespace WellTimed

variable {t : Timeline}

theorem le_wait (h : t.WellTimed) (elapsed : Float32) : t.elapsed ≤ (t.wait elapsed).elapsed := by
  obtain ⟨hfinite, hnonneg⟩ := clampElapsed_usable elapsed
  exact Single.le_add h.defined (Single.units_nonneg_of_sign h.positive) hfinite hnonneg

theorem wait (h : t.WellTimed) (elapsed : Float32) : (t.wait elapsed).WellTimed := by
  obtain ⟨hfinite, hnonneg⟩ := clampElapsed_usable elapsed
  have hle := h.le_wait elapsed
  refine ⟨h.finite, h.ordered, (Single.isNaN_eq_false_of_le hle).2, ?_, h.cursor_le, ?_⟩
  · exact Single.sign_add h.positive hfinite hnonneg
  · intro e he
    exact Single.le_trans (h.passed e he) hle

/-- Events that come later are due later. -/
theorem pairwise_due (h : t.WellTimed) :
    t.events.Pairwise fun a b =>
      decide (b.time ≤ t.elapsed) = true → decide (a.time ≤ t.elapsed) = true := by
  refine h.ordered.imp ?_
  intro a b hab hb
  rw [decide_eq_true_iff] at hb ⊢
  exact Single.le_trans hab hb

theorem cursor_add_length_due (h : t.WellTimed) : t.cursor + t.due.length = t.reached := by
  rw [due_eq, List.length_zipIdx]
  refine add_length_takeWhile_drop h.pairwise_due h.cursor_le fun e he => ?_
  rw [decide_eq_true_iff]
  exact h.passed e he

/-- The cursor moves behind the last event that the clock has reached. -/
theorem cursor_advance (h : t.WellTimed) (elapsed : Float32) :
    (t.advance elapsed).cursor = (t.advance elapsed).reached :=
  (h.wait elapsed).cursor_add_length_due

theorem le_advance (h : t.WellTimed) (elapsed : Float32) :
    t.elapsed ≤ (t.advance elapsed).elapsed := h.le_wait elapsed

/-- A time that the clock cannot use leaves it where it is. -/
theorem advance_of_unusable (h : t.WellTimed) {elapsed : Float32}
    (hbad : elapsed.isFinite = false ∨ elapsed < 0.0) :
    (t.advance elapsed).elapsed = t.elapsed := by
  show t.elapsed + clampElapsed elapsed = t.elapsed
  rw [clampElapsed_of_unusable hbad, Single.add_zero h.positive]

theorem advance (h : t.WellTimed) (elapsed : Float32) : (t.advance elapsed).WellTimed := by
  have hwait := h.wait elapsed
  have hcursor := h.cursor_advance elapsed
  refine ⟨hwait.finite, hwait.ordered, hwait.defined, hwait.positive, ?_, ?_⟩
  · rw [hcursor]
    exact List.countP_le_length
  · intro e he
    rw [take_cursor_advance, List.mem_append] at he
    rcases he with hbefore | hnow
    · -- what the clock had reached before it has reached still
      exact hwait.passed e hbefore
    · exact of_decide_eq_true (List.all_eq_true.1 List.all_takeWhile e hnow)

end WellTimed

end Timeline

end SpriteStage
