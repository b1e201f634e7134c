import SpriteStage.Proofs.Scene.Clock
import SpriteStage.Proofs.Single.Zero
import SpriteStage.Proofs.Sorting

/-!
# The order of events of one time

A timeline sorts its events by the rank of the bits of their times, and makes them due by comparing
the times as numbers. The two orders agree but for zero, which has two ranks: an event at negative
zero comes before every event at zero, whichever was authored first. So the events of one time stand
as authored unless that time is zero, and the events at zero do so exactly if they were authored
with those at negative zero first (`timeOrder_of_create`).
-/

set_option autoImplicit false

namespace SpriteStage

namespace Single

variable {x y : Float32}

theorem beq_iff_compare (x y : Float32) :
    (x == y) = true ↔ (parts x).compare (parts y) = some .eq := by
  show ((parts x).compare (parts y) == some .eq) = true ↔ _
  rw [beq_iff_eq]

theorem beq_iff_level (hx : x.isNaN = false) (hy : y.isNaN = false) :
    (x == y) = true ↔ level (parts x) = level (parts y) := by
  rw [isNaN_eq_false_iff] at hx hy
  rw [beq_iff_compare, compare_eq (encodable_parts x) (encodable_parts y) hx hy, Option.some.injEq]
  exact Int.compare_eq_eq

/-- Only numbers that are defined are equal to some number. -/
theorem isNaN_eq_false_of_beq (h : (x == y) = true) : x.isNaN = false ∧ y.isNaN = false := by
  rw [isNaN_eq_false_iff, isNaN_eq_false_iff]
  rw [beq_iff_compare] at h
  constructor
  · intro hx
    rw [hx] at h
    cases h
  · intro hy
    rw [hy, compare_notANumber] at h
    cases h

/-- Numbers that are equal to the same number have one level. -/
theorem level_eq_of_beq {z : Float32} (hx : (x == z) = true) (hy : (y == z) = true) :
    level (parts x) = level (parts y) := by
  obtain ⟨hxn, hzn⟩ := isNaN_eq_false_of_beq hx
  obtain ⟨hyn, -⟩ := isNaN_eq_false_of_beq hy
  exact ((beq_iff_level hxn hzn).1 hx).trans ((beq_iff_level hyn hzn).1 hy).symm

/-- There are two zeros. -/
theorem eq_minusZero_or_eq_zero (hx : x.isNaN = false) (h : level (parts x) = 0) :
    x = -0.0 ∨ x = 0.0 := by
  have hzero : level (parts (0.0 : Float32)) = 0 := by decide
  have hle : x ≤ 0.0 := (le_iff_level hx (by decide)).2 (by omega)
  have hge : 0.0 ≤ x := (le_iff_level (by decide) hx).2 (by omega)
  obtain ⟨s, hs⟩ := isZero_of_le_of_le hle hge
  rw [← packed_parts x, hs]
  cases s with
  | positive => exact Or.inr (by decide)
  | negative => exact Or.inl (by decide)

/-- Two numbers that are equal to the same number are the same, unless one of them is negative
zero. -/
theorem eq_of_beq_of_ne {z : Float32} (hx : (x == z) = true) (hy : (y == z) = true)
    (hxm : x ≠ -0.0) (hym : y ≠ -0.0) : x = y := by
  have hlevel := level_eq_of_beq hx hy
  obtain ⟨hxn, -⟩ := isNaN_eq_false_of_beq hx
  obtain ⟨hyn, -⟩ := isNaN_eq_false_of_beq hy
  by_cases h0 : level (parts x) = 0
  · have hx0 := (eq_minusZero_or_eq_zero hxn h0).resolve_left hxm
    have hy0 := (eq_minusZero_or_eq_zero hyn (hlevel.symm.trans h0)).resolve_left hym
    rw [hx0, hy0]
  · exact eq_of_level_eq hxn hyn hlevel h0

/-- A number that is equal to the same number as negative zero is one of the zeros. -/
theorem eq_zero_of_beq {z : Float32} (hx : (x == z) = true) (hminus : (-0.0 == z) = true) :
    x = -0.0 ∨ x = 0.0 := by
  have hlevel := level_eq_of_beq hx hminus
  have h0 : level (parts (-0.0 : Float32)) = 0 := by decide
  exact eq_minusZero_or_eq_zero (isNaN_eq_false_of_beq hx).1 (hlevel.trans h0)

end Single

/-- Whether the event is at negative zero. -/
def TimelineEntry.isAtMinusZero (e : TimelineEntry) : Bool := decide (e.time = -0.0)

/-- The events at negative zero, then the others; each of them in the order that they have. -/
def minusZeroFirst (events : List TimelineEntry) : List TimelineEntry :=
  events.filter TimelineEntry.isAtMinusZero ++ events.filter fun e => !e.isAtMinusZero

/-- The events `after` are those `before` in the order of their times, and the events of any one
time stand as `arrange` puts those that were there before. Times are the same if they are equal as
numbers. -/
structure TimeOrder (arrange : List TimelineEntry → List TimelineEntry)
    (before after : List TimelineEntry) : Prop where
  /-- No event is lost, and none is added. -/
  perm : after.Perm before
  /-- Times never decrease. -/
  ordered : after.Pairwise fun a b => a.time ≤ b.time
  /-- The events of one time are arranged. -/
  ties : ∀ time : Float32, (after.filter fun e => e.time == time) =
    arrange (before.filter fun e => e.time == time)

variable {events after : List TimelineEntry}

/-- Events that stand with those at negative zero first stay as they are. -/
theorem minusZeroFirst_eq_self
    (h : events.Pairwise fun a b => b.isAtMinusZero = true → a.isAtMinusZero = true) :
    minusZeroFirst events = events :=
  filter_append_filter_not h

/-- What `minusZeroFirst` gives has the events at negative zero first. -/
theorem pairwise_minusZeroFirst (events : List TimelineEntry) :
    (minusZeroFirst events).Pairwise
      fun a b => b.isAtMinusZero = true → a.isAtMinusZero = true := by
  refine List.pairwise_append.2 ⟨?_, ?_, ?_⟩
  · refine List.pairwise_of_forall_mem_list ?_
    intro a ha b _ _
    exact (List.mem_filter.1 ha).2
  · refine List.pairwise_of_forall_mem_list ?_
    intro a _ b hb hminus
    have hnot := (List.mem_filter.1 hb).2
    simp [hminus] at hnot
  · intro a ha b _ _
    exact (List.mem_filter.1 ha).2

namespace Timeline

theorem stablySorted_sortEvents (events : List TimelineEntry) :
    StablySorted (fun a b => Single.rank a.time ≤ Single.rank b.time) events (sortEvents events) :=
  stablySorted_mergeSort (fun e : TimelineEntry => Single.rank e.time) events

/-- Among the events of one time, those at negative zero are the least. -/
theorem ties_sortEvents (events : List TimelineEntry) (time : Float32) :
    ((sortEvents events).filter fun e => e.time == time) =
      minusZeroFirst (events.filter fun e => e.time == time) := by
  -- The sort is stable in ranks, and the events of one time have one rank or, at zero, two. So the
  -- events at negative zero are taken apart from the others of the time.
  have hstable := stablySorted_sortEvents events
  have hminus : ∀ e : TimelineEntry, e.isAtMinusZero = true ↔ e.time = -0.0 :=
    fun e => decide_eq_true_iff
  -- sorting has put the events at negative zero first
  have hfirst : ((sortEvents events).filter fun e => e.time == time).Pairwise
      fun a b => b.isAtMinusZero = true → a.isAtMinusZero = true := by
    refine List.pairwise_filter.2 (hstable.ordered.imp ?_)
    intro a b hrank ha hb hbminus
    rw [hminus] at hbminus ⊢
    rw [hbminus] at hrank hb
    refine (Single.eq_zero_of_beq ha hb).resolve_right ?_
    intro hzero
    rw [hzero] at hrank
    exact absurd hrank (by decide)
  -- each of the two kinds has one rank, so it is as it was
  have hzeros : ((sortEvents events).filter fun e => e.isAtMinusZero && e.time == time) =
      events.filter fun e => e.isAtMinusZero && e.time == time := by
    refine hstable.filter_eq ?_
    intro a _ b _ ha hb
    rw [Bool.and_eq_true, hminus] at ha hb
    have hsame : a.time = b.time := ha.1.trans hb.1.symm
    exact Int.le_of_eq (congrArg Single.rank hsame)
  have hothers : ((sortEvents events).filter fun e => !e.isAtMinusZero && e.time == time) =
      events.filter fun e => !e.isAtMinusZero && e.time == time := by
    refine hstable.filter_eq ?_
    intro a _ b _ ha hb
    rw [Bool.and_eq_true, Bool.not_eq_true', ← Bool.not_eq_true, hminus] at ha hb
    have hsame : a.time = b.time := Single.eq_of_beq_of_ne ha.2 hb.2 ha.1 hb.1
    exact Int.le_of_eq (congrArg Single.rank hsame)
  calc
    ((sortEvents events).filter fun e => e.time == time)
      = minusZeroFirst ((sortEvents events).filter fun e => e.time == time) :=
        (minusZeroFirst_eq_self hfirst).symm
    _ = minusZeroFirst (events.filter fun e => e.time == time) := by
        simp only [minusZeroFirst, List.filter_filter, hzeros, hothers]

/-- Sorting puts the events in the order of their times, those at negative zero before those at
zero. -/
theorem timeOrder_sortEvents (h : ∀ e ∈ events, e.time.isFinite = true) :
    TimeOrder minusZeroFirst events (sortEvents events) :=
  ⟨List.mergeSort_perm events _, pairwise_sortEvents h, ties_sortEvents events⟩

end Timeline

/-- Events stand as authored if none at zero was authored before one at negative zero, and only
then. -/
theorem TimeOrder.asAuthored_iff (h : TimeOrder minusZeroFirst events after) :
    TimeOrder id events after ↔
      events.Pairwise fun a b => ¬(a.time = 0.0 ∧ b.time = -0.0) := by
  constructor
  · intro hauthored
    -- at the time zero, the authored order has the events at negative zero first
    have hsame : (events.filter fun e => e.time == 0.0) =
        minusZeroFirst (events.filter fun e => e.time == 0.0) :=
      (hauthored.ties 0.0).symm.trans (h.ties 0.0)
    have hfirst := pairwise_minusZeroFirst (events.filter fun e => e.time == 0.0)
    rw [← hsame] at hfirst
    refine (List.pairwise_filter.1 hfirst).imp ?_
    rintro a b hab ⟨ha, hb⟩
    have haminus : a.isAtMinusZero = true := by
      refine hab ?_ ?_ (decide_eq_true hb)
      · rw [ha]
        decide
      · rw [hb]
        decide
    rw [TimelineEntry.isAtMinusZero, ha] at haminus
    exact absurd haminus (by decide)
  · intro hpairs
    refine ⟨h.perm, h.ordered, ?_⟩
    intro time
    rw [h.ties time]
    refine minusZeroFirst_eq_self (List.pairwise_filter.2 (hpairs.imp ?_))
    intro a b hab ha hb hbminus
    have hbzero : b.time = -0.0 := of_decide_eq_true hbminus
    rw [hbzero] at hb
    rcases Single.eq_zero_of_beq ha hb with hminus | hzero
    · exact decide_eq_true hminus
    · exact absurd ⟨hzero, hbzero⟩ hab

namespace Timeline

theorem create_of_isFinite (h : ∀ e ∈ events, e.time.isFinite = true) :
    create events = .ok { events := sortEvents events } := by
  unfold create
  rw [(checkTimes_eq_ok_iff 0 events).2 h]
  rfl

/-- A timeline of authored events with finite times is made. It has the events in the order of their
times. Those of one time stand as authored, but for the two zeros: an event at negative zero comes
before every event at zero, and so the authored order is kept exactly if no event at zero was
authored before one at negative zero. -/
theorem timeOrder_of_create (h : ∀ e ∈ events, e.time.isFinite = true) :
    ∃ t, create events = .ok t ∧ TimeOrder minusZeroFirst events t.events ∧
      (TimeOrder id events t.events ↔
        events.Pairwise fun a b => ¬(a.time = 0.0 ∧ b.time = -0.0)) := by
  have horder := timeOrder_sortEvents h
  exact ⟨{ events := sortEvents events }, create_of_isFinite h, horder, horder.asAuthored_iff⟩

/-- Two events at zero, of which the second has the sign. -/
def zeroEvents : List TimelineEntry := [⟨0.0, "a", .unplace⟩, ⟨-0.0, "b", .unplace⟩]

/-- They are authored at one time, and change places. -/
theorem not_asAuthored_zeroEvents :
    (∀ e ∈ zeroEvents, e.time.isFinite = true) ∧
      ∃ t, create zeroEvents = .ok t ∧ ¬ TimeOrder id zeroEvents t.events := by
  have hfinite : ∀ e ∈ zeroEvents, e.time.isFinite = true := by decide +kernel
  refine ⟨hfinite, { events := sortEvents zeroEvents }, create_of_isFinite hfinite, ?_⟩
  rw [(timeOrder_sortEvents hfinite).asAuthored_iff]
  intro hpairs
  have hpair := (List.pairwise_cons.1 hpairs).1 ⟨-0.0, "b", .unplace⟩ List.mem_cons_self
  exact hpair ⟨rfl, rfl⟩

/-- Two events at one time with others around them, and the two zeros as the sort has them. -/
def tiedEvents : List TimelineEntry :=
  [⟨50.0, "a", .unplace⟩, ⟨-0.0, "b", .unplace⟩, ⟨50.0, "c", .place ⟨1.0, 2.0⟩⟩,
    ⟨0.0, "d", .unplace⟩]

theorem timeOrder_tiedEvents :
    ∃ t, create tiedEvents = .ok t ∧ TimeOrder id tiedEvents t.events := by
  have hfinite : ∀ e ∈ tiedEvents, e.time.isFinite = true := by decide +kernel
  obtain ⟨t, hcreate, -, hiff⟩ := timeOrder_of_create hfinite
  exact ⟨t, hcreate, hiff.2 (by decide +kernel)⟩

end Timeline

end SpriteStage
