import Mathlib.Algebra.GroupWithZero.Nat
import SpriteStage.Animator
import SpriteStage.Proofs.Random
import SpriteStage.Proofs.Single.Whole

/-!
# Reels

A reel is an animation of frames that stay for whole times, played once or over and over. This
module says what is on screen when, and what was signalled by then, with nothing but the lengths of
the frames: frames are counted through all rounds, frame `k` starts at `start k`, and that is as
many rounds as `k` frames make and then the frames of one round (`start_eq`). So the round is the
time divided by the length of one, and the frame is found from the rest (`round_eq`). An animator
has no part in any of this; that it keeps this time is another matter.
-/

set_option autoImplicit false

namespace SpriteStage

/-- A frame and the whole number of units that it stays. -/
structure Cel where
  /-- The frame. -/
  frame : UInt64
  /-- How long it stays. -/
  duration : FrameDuration
  /-- How many units that is. -/
  units : Nat
  /-- The units are counted anew on every visit. -/
  counts : ∀ random, Single.toInt? (duration.draw random).1 = some (units : Int)
  /-- The frame stays at all. -/
  units_pos : 0 < units

/-- A range that leaves no choice counts the same units on every visit. -/
theorem FrameDuration.counts_range {n : UInt32} (h : n.toNat ≤ 2 ^ 24) (random : Random) :
    Single.toInt? ((FrameDuration.range n n).draw random).1 = some (n.toNat : Int) := by
  have hbounds := random.range_bounds (UInt32.le_refl n)
  have hdrawn : (random.range n n).1 = n := UInt32.toNat_inj.1 (by omega)
  rw [Single.toInt?_eq_some_iff]
  simpa [draw, hdrawn] using Single.isWhole_toFloat32 h

/-- The step that shows the frame. -/
def Cel.step (c : Cel) : AnimationStep := .frame c.frame c.duration

/-- Frames to be played at a whole time scale, at which every frame stays for a time that single
precision is exact for. -/
structure Reel where
  /-- The frames. -/
  cels : List Cel
  /-- Whether it goes on from the first frame after the last one. -/
  repeats : Bool
  /-- The time scale. -/
  scale : Float32
  /-- The milliseconds of a unit. -/
  millis : Nat
  /-- There is a frame. -/
  length_pos : 0 < cels.length
  /-- The time scale is that many milliseconds. -/
  scale_eq : Single.toInt? scale = some (millis : Int)
  /-- A unit takes time. -/
  millis_pos : 0 < millis
  /-- No frame stays too long. -/
  fits : ∀ c ∈ cels, millis * c.units ≤ 2 ^ 24

namespace Reel

variable (r : Reel)

/-- The steps that play the reel. -/
def steps : Sequence := r.cels.map Cel.step ++ if r.repeats then [.loop] else []

/-- When a frame is due in a round. -/
def onset (i : Nat) : Nat := r.millis * ((r.cels.take i).map Cel.units).sum

/-- How long a round takes. -/
def span : Nat := r.onset r.cels.length

/-- The frame with a number, counted through all rounds. -/
def cel (k : Nat) : Cel := r.cels.get ⟨k % r.cels.length, Nat.mod_lt k r.length_pos⟩

/-- How long a frame stays. -/
def hold (k : Nat) : Nat := r.millis * (r.cel k).units

/-- When a frame is due, counted through all rounds. -/
def start : Nat → Nat
  | 0 => 0
  | k + 1 => start k + r.hold k

/-- What is signalled when a frame is due. -/
def entry (k : Nat) : List Signal :=
  (if k ≠ 0 ∧ k % r.cels.length = 0 then [.loop] else []) ++ [.frame (r.cel k).frame]

/-- What is signalled for so many frames after another. -/
def entriesAfter (k n : Nat) : List Signal := (List.range' (k + 1) n).flatMap r.entry

/-- What is signalled up to a frame. -/
def entries (k : Nat) : List Signal := (List.range (k + 1)).flatMap r.entry

/-! ## Time -/

theorem hold_pos (k : Nat) : 0 < r.hold k := Nat.mul_pos r.millis_pos (r.cel k).units_pos

theorem hold_le (k : Nat) : r.hold k ≤ 2 ^ 24 := r.fits _ (List.getElem_mem _)

theorem start_succ (k : Nat) : r.start (k + 1) = r.start k + r.hold k := rfl

theorem onset_succ {i : Nat} (h : i < r.cels.length) :
    r.onset (i + 1) = r.onset i + r.millis * r.cels[i].units := by
  have hget : r.cels[i]? = some r.cels[i] := List.getElem?_eq_getElem h
  rw [onset, onset, List.take_add_one, hget, List.map_append, List.sum_append, Nat.mul_add]
  simp

theorem onset_le_span (i : Nat) : r.onset i ≤ r.span := by
  have hsplit : (r.cels.take i ++ r.cels.drop i).map Cel.units = r.cels.map Cel.units := by
    rw [List.take_append_drop]
  refine Nat.mul_le_mul_left _ ?_
  rw [List.take_length, ← hsplit, List.map_append, List.sum_append]
  exact Nat.le_add_right _ _

theorem span_pos : 0 < r.span := by
  have hfirst : r.onset 1 = r.onset 0 + r.hold 0 := by
    rw [r.onset_succ r.length_pos, hold, cel]
    simp
  have hhold := r.hold_pos 0
  have hle := r.onset_le_span 1
  omega

/-- After a frame comes the next one of the round, or the first one of the next round. -/
theorem next_cases (k : Nat) :
    (k % r.cels.length + 1 = r.cels.length ∧ (k + 1) / r.cels.length = k / r.cels.length + 1 ∧
      (k + 1) % r.cels.length = 0) ∨
    (k % r.cels.length + 1 < r.cels.length ∧ (k + 1) / r.cels.length = k / r.cels.length ∧
      (k + 1) % r.cels.length = k % r.cels.length + 1) := by
  have hlt : k % r.cels.length < r.cels.length := Nat.mod_lt k r.length_pos
  have hk := Nat.div_add_mod k r.cels.length
  by_cases hlast : k % r.cels.length + 1 = r.cels.length
  · refine Or.inl ⟨hlast, (Nat.div_mod_unique r.length_pos).2 ⟨?_, r.length_pos⟩⟩
    rw [Nat.mul_succ]
    omega
  · exact Or.inr ⟨by omega, (Nat.div_mod_unique r.length_pos).2 ⟨by omega, by omega⟩⟩

/-- Frames are due as many rounds later as came before, and in each round at the same time. -/
theorem start_eq (k : Nat) :
    r.start k = k / r.cels.length * r.span + r.onset (k % r.cels.length) := by
  induction k with
  | zero => simp [start, onset]
  | succ k ih =>
      have hlt : k % r.cels.length < r.cels.length := Nat.mod_lt k r.length_pos
      have hstart : r.start (k + 1) =
          k / r.cels.length * r.span + r.onset (k % r.cels.length + 1) := by
        rw [start_succ, ih, r.onset_succ hlt, Nat.add_assoc]
        rfl
      rw [hstart]
      rcases r.next_cases k with ⟨hlast, hdiv, hmod⟩ | ⟨-, hdiv, hmod⟩
      · rw [hdiv, hmod, hlast, Nat.succ_mul]
        simp [onset, span]
      · rw [hdiv, hmod]

/-- The round and the frame at a time. -/
theorem round_eq {k t : Nat} (hbegun : r.start k ≤ t) (hleft : t < r.start (k + 1)) :
    t / r.span = k / r.cels.length ∧ r.onset (k % r.cels.length) ≤ t % r.span ∧
      t % r.span + (r.start (k + 1) - t) = r.onset (k % r.cels.length + 1) := by
  have hlt : k % r.cels.length < r.cels.length := Nat.mod_lt k r.length_pos
  have hend : r.start (k + 1) = k / r.cels.length * r.span + r.onset (k % r.cels.length + 1) := by
    rw [start_succ, r.start_eq, r.onset_succ hlt, Nat.add_assoc]
    rfl
  have hle : r.onset (k % r.cels.length + 1) ≤ r.span := r.onset_le_span _
  rw [r.start_eq] at hbegun
  rw [hend] at hleft ⊢
  have hround : t / r.span = k / r.cels.length ∧
      t % r.span = t - k / r.cels.length * r.span := by
    refine (Nat.div_mod_unique r.span_pos).2 ⟨?_, by omega⟩
    rw [Nat.mul_comm r.span]
    omega
  refine ⟨hround.1, ?_, ?_⟩
  · rw [hround.2]
    omega
  · rw [hround.2]
    omega

/-! ## Signals -/

theorem entriesAfter_zero (k : Nat) : r.entriesAfter k 0 = [] := rfl

theorem entriesAfter_succ (k n : Nat) :
    r.entriesAfter k (n + 1) = r.entry (k + 1) ++ r.entriesAfter (k + 1) n := by
  simp [entriesAfter, List.range'_succ]

theorem entriesAfter_append (k m n : Nat) :
    r.entriesAfter k m ++ r.entriesAfter (k + m) n = r.entriesAfter k (m + n) := by
  induction m generalizing k with
  | zero => simp [entriesAfter_zero]
  | succ m ih =>
      rw [entriesAfter_succ, List.append_assoc, Nat.succ_add, entriesAfter_succ, ← ih (k + 1)]
      congr 3
      omega

theorem entries_eq (k : Nat) : r.entries k = r.entry 0 ++ r.entriesAfter 0 k := by
  simp [entries, entriesAfter, List.range_eq_range', List.range'_succ]

/-- There is one loop for every round that is over. -/
theorem count_loop_entries (k : Nat) : (r.entries k).count .loop = k / r.cels.length := by
  have hentry : ∀ k, (r.entry k).count .loop = if k ≠ 0 ∧ k % r.cels.length = 0 then 1 else 0 := by
    intro k
    unfold entry
    by_cases h : k ≠ 0 ∧ k % r.cels.length = 0
    · simp [h]
    · simp [h]
  induction k with
  | zero => simp [entries, hentry]
  | succ k ih =>
      have hlast : r.entries (k + 1) = r.entries k ++ r.entry (k + 1) := by
        simp [entries, List.range_succ]
      rw [hlast, List.count_append, ih, hentry, Nat.succ_div]
      simp [Nat.dvd_iff_mod_eq_zero]

/-- Nothing stops while a reel is shown. -/
theorem stop_not_mem_entries (k : Nat) (animation : Option String) :
    Signal.stop animation ∉ r.entries k := by
  simp [entries, entry]

/-- Up to the last frame of the first round, every frame is signalled once. -/
theorem entries_of_lt {k : Nat} (h : k < r.cels.length) :
    r.entries k = (r.cels.take (k + 1)).map fun c => .frame c.frame := by
  induction k with
  | zero =>
      have hget : r.cels[0]? = some r.cels[0] := List.getElem?_eq_getElem h
      simp [entries, entry, cel, List.take_add_one, hget]
  | succ k ih =>
      have hget : r.cels[k + 1]? = some r.cels[k + 1] := List.getElem?_eq_getElem h
      have hmod : (k + 1) % r.cels.length = k + 1 := Nat.mod_eq_of_lt h
      have hlast : r.entries (k + 1) = r.entries k ++ r.entry (k + 1) := by
        simp [entries, List.range_succ]
      have hentry : r.entry (k + 1) = [.frame r.cels[k + 1].frame] := by
        simp [entry, cel, hmod]
      rw [hlast, ih (Nat.lt_of_succ_lt h), hentry, List.take_add_one (i := k + 1), hget,
        List.map_append]
      rfl

end Reel

end SpriteStage
