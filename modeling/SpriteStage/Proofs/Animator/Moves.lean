import SpriteStage.Proofs.Animator.Transcript
import SpriteStage.Proofs.Animator.Visits

/-!
# The two loops of a tick

A tick looks at the countdown, and when a frame is due it seeks it, following redirections; then it
looks again. Here the two loops are run one move at a time, with no budget that is used up: each has
a counter of 64 bits, which is counted up and compared with its bound. Nothing in the steps makes
the loops end, as links lead back and a frame may take no time, or undo the time that passed. The
counters do: they never run over, and the loops end within a number of moves that the bounds give,
where `tick` says that they end (`halts_start`).
-/

set_option autoImplicit false

namespace SpriteStage

/-- Where the loops of a tick are. -/
inductive Phase where
  /-- The countdown is looked at. -/
  | looking
  /-- A frame is sought, with the time that is left over and after so many redirections. -/
  | seeking (leftover : Float32) (redirects : UInt64)
  /-- The tick has ended. -/
  | ended (result : Except AnimationError Bool)

/-- A tick that has come so far. -/
structure TickRun where
  /-- The animator. -/
  animator : Animator
  /-- The signals. -/
  signals : List Signal
  /-- The number of frames that were shown. -/
  shown : UInt64
  /-- Where the loops are. -/
  phase : Phase

namespace TickRun

open Animator

/-- A tick that failed. -/
def failed (shown : UInt64) (a : Animator) (signals : List Signal) (cause : AnimationError) :
    TickRun :=
  ⟨a.stop, signals, shown, .ended (.error cause)⟩

/-- A tick that has shown a frame. The frame has to take time, and there must not be too many. -/
def settled (shown : UInt64) (leftover : Float32) (a : Animator) (signals : List Signal) :
    TickRun :=
  let shown := shown + 1
  if a.playback.countdown ≤ leftover ∨ a.maxFramesPerTick < shown.toNat then
    failed shown a signals (.degenerateCycle a.playback.label shown.toNat)
  else ⟨a, signals, shown, .looking⟩

/-- One move of a tick. -/
def move (t : TickRun) : TickRun :=
  match t.phase with
  | .looking =>
    let a := t.animator.advanced
    if t.animator.playback.countdown ≤ 0.0 then
      if a.playback.length ≤ a.playback.cursor then
        ⟨a.stop, t.signals ++ [.stop a.playback.animation], t.shown, .ended (.ok (0 < t.shown.toNat))⟩
      else ⟨a, t.signals, t.shown, .seeking a.playback.countdown 0⟩
    else ⟨t.animator, t.signals, t.shown, .ended (.ok (0 < t.shown.toNat))⟩
  | .seeking leftover redirects =>
    match t.animator.resolveStep leftover with
    | .shown a frame => settled t.shown leftover a (t.signals ++ [.frame frame])
    | .failed cause => failed t.shown t.animator t.signals cause
    | .redirected a signal =>
      let redirects := redirects + 1
      if a.maxRedirects < redirects.toNat then
        failed t.shown a (t.signals ++ [signal])
          (.degenerateCycle a.playback.label redirects.toNat)
      else ⟨a, t.signals ++ [signal], t.shown, .seeking leftover redirects⟩
  | .ended _ => t

/-- So many moves of a tick. -/
def run : Nat → TickRun → TickRun
  | 0, t => t
  | n + 1, t => run n t.move

/-- A tick that has not moved yet. -/
def start (a : Animator) (elapsed : Float32) : TickRun :=
  if elapsed.isFinite = false then ⟨a, [], 0, .ended (.error (.invalidElapsed elapsed))⟩
  else if a.playback.playing = false then ⟨a, [], 0, .ended (.ok false)⟩
  else ⟨a.elapse elapsed, [], 0, .looking⟩

/-- The tick has ended, with the given outcome after earlier signals. -/
structure EndsWith (t : TickRun) (o : Outcome Animator Bool) : Prop where
  /-- The animator is the one of the outcome. -/
  animator_eq : t.animator = o.state
  /-- So are the signals. -/
  signals_eq : t.signals = o.signals
  /-- So is the result. -/
  phase_eq : t.phase = .ended o.result

/-- The counters are within their bounds, so that there is room for one more. -/
structure Counted (limit most : Nat) (t : TickRun) : Prop where
  /-- The bound of redirections is the animator's. -/
  limit_eq : t.animator.maxRedirects = limit
  /-- The bound of frames is the animator's. -/
  most_eq : t.animator.maxFramesPerTick = most
  /-- While the countdown is looked at, there is no frame too many. -/
  le_of_looking : t.phase = .looking → t.shown.toNat ≤ most
  /-- While a frame is sought, there is no frame and no redirection too many. -/
  le_of_seeking : ∀ leftover redirects, t.phase = .seeking leftover redirects →
    t.shown.toNat ≤ most ∧ redirects.toNat ≤ limit

theorem run_add (m n : Nat) (t : TickRun) : run (m + n) t = run n (run m t) := by
  induction m generalizing t with
  | zero => rw [Nat.zero_add, run]
  | succ m ih => rw [Nat.succ_add, run, run, ih]

/-! ## Moves -/

section

variable {a b : Animator} {signals : List Signal} {shown redirects : UInt64} {leftover : Float32}
  {frame : UInt64} {signal : Signal} {cause : AnimationError}

theorem move_of_waiting (h : ¬ a.playback.countdown ≤ 0.0) :
    move ⟨a, signals, shown, .looking⟩ = ⟨a, signals, shown, .ended (.ok (0 < shown.toNat))⟩ := by
  simp only [move, if_neg h]

theorem move_of_end (h : a.playback.countdown ≤ 0.0)
    (hend : a.playback.length ≤ a.playback.cursor + 1) :
    move ⟨a, signals, shown, .looking⟩ =
      ⟨a.advanced.stop, signals ++ [.stop a.playback.animation], shown,
        .ended (.ok (0 < shown.toNat))⟩ := by
  have hpast : a.advanced.playback.length ≤ a.advanced.playback.cursor := hend
  simp only [move, if_pos h, if_pos hpast]
  rfl

theorem move_of_due (h : a.playback.countdown ≤ 0.0)
    (hin : a.playback.cursor + 1 < a.playback.length) :
    move ⟨a, signals, shown, .looking⟩ =
      ⟨a.advanced, signals, shown, .seeking a.playback.countdown 0⟩ := by
  have hpast : ¬ a.advanced.playback.length ≤ a.advanced.playback.cursor := Nat.not_le.2 hin
  simp only [move, if_pos h, if_neg hpast]
  rfl

theorem move_of_shown (h : a.resolveStep leftover = .shown b frame) :
    move ⟨a, signals, shown, .seeking leftover redirects⟩ =
      settled shown leftover b (signals ++ [.frame frame]) := by
  simp only [move, h]

theorem move_of_failed (h : a.resolveStep leftover = .failed cause) :
    move ⟨a, signals, shown, .seeking leftover redirects⟩ = failed shown a signals cause := by
  simp only [move, h]

theorem move_of_overrun (h : a.resolveStep leftover = .redirected b signal)
    (hover : b.maxRedirects < (redirects + 1).toNat) :
    move ⟨a, signals, shown, .seeking leftover redirects⟩ =
      failed shown b (signals ++ [signal])
        (.degenerateCycle b.playback.label (redirects + 1).toNat) := by
  simp only [move, h, if_pos hover]

theorem move_of_redirected (h : a.resolveStep leftover = .redirected b signal)
    (hwithin : ¬ b.maxRedirects < (redirects + 1).toNat) :
    move ⟨a, signals, shown, .seeking leftover redirects⟩ =
      ⟨b, signals ++ [signal], shown, .seeking leftover (redirects + 1)⟩ := by
  simp only [move, h, if_neg hwithin]

theorem settled_of_refused
    (h : b.playback.countdown ≤ leftover ∨ b.maxFramesPerTick < (shown + 1).toNat) :
    settled shown leftover b signals =
      failed (shown + 1) b signals (.degenerateCycle b.playback.label (shown + 1).toNat) :=
  if_pos h

theorem settled_of_kept
    (h : ¬(b.playback.countdown ≤ leftover ∨ b.maxFramesPerTick < (shown + 1).toNat)) :
    settled shown leftover b signals = ⟨b, signals, shown + 1, .looking⟩ :=
  if_neg h

end

/-! ## The counters do not run over -/

theorem toNat_add_one {x : UInt64} {bound : Nat} (hx : x.toNat ≤ bound)
    (hbound : bound + 1 < UInt64.size) : (x + 1).toNat = x.toNat + 1 := by
  have hlt : x.toNat + 1 < UInt64.size := by omega
  simpa [UInt64.toNat_add] using Nat.mod_eq_of_lt hlt

section

variable {limit most : Nat} {t : TickRun} {a : Animator} {shown redirects : UInt64}
  {leftover : Float32} {signals : List Signal}

theorem Counted.of_ended (hlimit : a.maxRedirects = limit) (hmost : a.maxFramesPerTick = most)
    {result : Except AnimationError Bool} :
    Counted limit most ⟨a, signals, shown, .ended result⟩ :=
  ⟨hlimit, hmost, by simp, by simp⟩

theorem Counted.of_failed (hlimit : a.maxRedirects = limit) (hmost : a.maxFramesPerTick = most)
    {cause : AnimationError} : Counted limit most (failed shown a signals cause) :=
  .of_ended (a := a.stop) hlimit hmost

theorem Counted.of_seeking (hlimit : a.maxRedirects = limit) (hmost : a.maxFramesPerTick = most)
    (hshown : shown.toNat ≤ most) (hredirects : redirects.toNat ≤ limit) :
    Counted limit most ⟨a, signals, shown, .seeking leftover redirects⟩ := by
  refine ⟨hlimit, hmost, by simp, ?_⟩
  rintro other count ⟨⟩
  exact ⟨hshown, hredirects⟩

theorem Counted.settled (hlimit : a.maxRedirects = limit) (hmost : a.maxFramesPerTick = most) :
    Counted limit most (settled shown leftover a signals) := by
  by_cases hrefused : a.playback.countdown ≤ leftover ∨ a.maxFramesPerTick < (shown + 1).toNat
  · rw [settled_of_refused hrefused]
    exact .of_failed hlimit hmost
  · rw [settled_of_kept hrefused]
    rw [not_or, Nat.not_lt, hmost] at hrefused
    exact ⟨hlimit, hmost, fun _ => hrefused.2, by simp⟩

/-- No move takes a counter past its bound. -/
theorem Counted.move (h : Counted limit most t) : Counted limit most t.move := by
  obtain ⟨a, signals, shown, phase⟩ := t
  have hlimit : a.maxRedirects = limit := h.limit_eq
  have hmost : a.maxFramesPerTick = most := h.most_eq
  cases phase with
  | looking =>
      have hshown : shown.toNat ≤ most := h.le_of_looking rfl
      by_cases hdue : a.playback.countdown ≤ 0.0
      · by_cases hin : a.playback.cursor + 1 < a.playback.length
        · rw [move_of_due hdue hin]
          exact .of_seeking hlimit hmost hshown (Nat.zero_le _)
        · rw [move_of_end hdue (Nat.not_lt.1 hin)]
          exact .of_ended (a := a.advanced.stop) hlimit hmost
      · rw [move_of_waiting hdue]
        exact .of_ended hlimit hmost
  | seeking leftover redirects =>
      obtain ⟨hshown, hredirects⟩ := h.le_of_seeking leftover redirects rfl
      cases hstep : a.resolveStep leftover with
      | shown b frame =>
          obtain ⟨-, hlimitb, hmostb⟩ := kept_of_shown hstep
          rw [move_of_shown hstep]
          exact .settled (hlimitb.trans hlimit) (hmostb.trans hmost)
      | failed cause =>
          rw [move_of_failed hstep]
          exact .of_failed hlimit hmost
      | redirected b signal =>
          obtain ⟨-, hlimitb, hmostb⟩ := kept_of_redirected hstep
          by_cases hover : b.maxRedirects < (redirects + 1).toNat
          · rw [move_of_overrun hstep hover]
            exact .of_failed (hlimitb.trans hlimit) (hmostb.trans hmost)
          · rw [move_of_redirected hstep hover]
            rw [Nat.not_lt, hlimitb, hlimit] at hover
            exact .of_seeking (hlimitb.trans hlimit) (hmostb.trans hmost) hshown hover
  | ended result => exact h

theorem Counted.run (h : Counted limit most t) (n : Nat) : Counted limit most (t.run n) := by
  induction n generalizing t with
  | zero => exact h
  | succ n ih => exact ih h.move

theorem counted_start (a : Animator) (elapsed : Float32) :
    Counted a.maxRedirects a.maxFramesPerTick (start a elapsed) := by
  unfold start
  by_cases hinvalid : elapsed.isFinite = false
  · rw [if_pos hinvalid]
    exact .of_ended rfl rfl
  · by_cases hidle : a.playback.playing = false
    · rw [if_neg hinvalid, if_pos hidle]
      exact .of_ended rfl rfl
    · rw [if_neg hinvalid, if_neg hidle]
      exact ⟨rfl, rfl, fun _ => Nat.zero_le _, by simp⟩

end

/-! ## The loops end -/

section

variable {a : Animator} {signals : List Signal} {shown redirects : UInt64} {leftover : Float32}

/-- A tick for which a frame was sought. -/
def landed (shown : UInt64) (leftover : Float32) (o : Outcome Animator Unit) : TickRun :=
  match o.result with
  | .ok () => settled shown leftover o.state o.signals
  | .error cause => failed shown o.state o.signals cause

/-- The inner loop ends, where resolving within what the counter leaves of the budget ends. -/
theorem exists_landed (hlimit : a.maxRedirects + 1 < UInt64.size) {budget : Nat}
    (hbudget : redirects.toNat + budget = a.maxRedirects) :
    ∃ n ≤ budget + 1, run n ⟨a, signals, shown, .seeking leftover redirects⟩ =
      landed shown leftover ((a.resolveWithin leftover budget).after signals) := by
  induction budget generalizing a signals redirects with
  | zero =>
      refine ⟨1, Nat.le_refl _, ?_⟩
      cases hstep : a.resolveStep leftover with
      | shown b frame => simp [run, move_of_shown hstep, resolveWithin_of_shown hstep, landed]
      | failed cause =>
          simp [run, move_of_failed hstep, resolveWithin_of_failed hstep, landed, Outcome.failure]
      | redirected b signal =>
          -- the counter is at its bound, which the redirection takes it past
          have hb : b.maxRedirects = a.maxRedirects := (kept_of_redirected hstep).2.1
          have hnext := toNat_add_one (x := redirects) (Nat.le_of_eq hbudget) hlimit
          have hover : b.maxRedirects < (redirects + 1).toNat := by omega
          rw [run, run, move_of_overrun hstep hover, resolveWithin_zero_of_redirected hstep]
          have heq : (redirects + 1).toNat = b.maxRedirects + 1 := by omega
          simp [landed, heq]
  | succ budget ih =>
      cases hstep : a.resolveStep leftover with
      | shown b frame =>
          refine ⟨1, by omega, ?_⟩
          simp [run, move_of_shown hstep, resolveWithin_of_shown hstep, landed]
      | failed cause =>
          refine ⟨1, by omega, ?_⟩
          simp [run, move_of_failed hstep, resolveWithin_of_failed hstep, landed, Outcome.failure]
      | redirected b signal =>
          have hb : b.maxRedirects = a.maxRedirects := (kept_of_redirected hstep).2.1
          have hnext := toNat_add_one (x := redirects) (by omega) hlimit
          have hwithin : ¬ b.maxRedirects < (redirects + 1).toNat := by omega
          have hrest : ∃ n ≤ budget + 1,
              run n ⟨b, signals ++ [signal], shown, .seeking leftover (redirects + 1)⟩ =
                landed shown leftover
                  ((b.resolveWithin leftover budget).after (signals ++ [signal])) :=
            ih (hb ▸ hlimit) (by omega)
          obtain ⟨n, hn, hrun⟩ := hrest
          refine ⟨n + 1, Nat.succ_le_succ hn, ?_⟩
          rw [run, move_of_redirected hstep hwithin, hrun, resolveWithin_succ_of_redirected hstep]
          simp [landed]

theorem landed_of_ok {o : Outcome Animator Unit} (h : o.result = .ok ()) :
    landed shown leftover o = settled shown leftover o.state o.signals := by
  simp only [landed, h]

theorem landed_of_error {o : Outcome Animator Unit} {cause : AnimationError}
    (h : o.result = .error cause) :
    landed shown leftover o = failed shown o.state o.signals cause := by
  simp only [landed, h]

/-- A look at the countdown when a frame is due, and the inner loop after it. -/
theorem exists_landed_due (signals : List Signal) (shown : UInt64)
    (hlimit : a.maxRedirects + 1 < UInt64.size) (hdue : a.playback.countdown ≤ 0.0)
    (hin : a.playback.cursor + 1 < a.playback.length) :
    ∃ n ≤ a.maxRedirects + 2, run n ⟨a, signals, shown, .looking⟩ =
      landed shown a.playback.countdown (a.due.after signals) := by
  have hseek : ∃ n ≤ a.maxRedirects + 1,
      run n ⟨a.advanced, signals, shown, .seeking a.playback.countdown 0⟩ =
        landed shown a.playback.countdown (a.due.after signals) :=
    exists_landed (a := a.advanced) hlimit (Nat.zero_add _)
  obtain ⟨n, hn, hrun⟩ := hseek
  refine ⟨n + 1, Nat.succ_le_succ hn, ?_⟩
  rw [run, move_of_due hdue hin, hrun]

/-- The outer loop ends, where advancing within what the counter leaves of the budget ends. -/
theorem exists_endsWith (hlimit : a.maxRedirects + 1 < UInt64.size)
    (hmost : a.maxFramesPerTick + 1 < UInt64.size) {budget : Nat}
    (hbudget : shown.toNat + budget = a.maxFramesPerTick) :
    ∃ n ≤ (budget + 1) * (a.maxRedirects + 2),
      (run n ⟨a, signals, shown, .looking⟩).EndsWith
        ((a.advanceWithin shown.toNat budget).after signals) := by
  induction budget using Nat.strongRecOn generalizing a signals shown with
  | ind budget ih =>
      have hpos : 1 ≤ (budget + 1) * (a.maxRedirects + 2) := Nat.mul_pos (by omega) (by omega)
      have hround : a.maxRedirects + 2 ≤ (budget + 1) * (a.maxRedirects + 2) :=
        Nat.le_mul_of_pos_left _ (Nat.succ_pos budget)
      have hnext := toNat_add_one (x := shown) (by omega) hmost
      have hdueMost : a.due.state.maxFramesPerTick = a.maxFramesPerTick :=
        congrArg (·.2.2.2) (settings_due a)
      rcases advanceWithin_cases a shown.toNat budget with
        ⟨hwait, heq⟩ | ⟨hdue, hend, heq⟩ | ⟨hdue, hin, cause, heq, hcause⟩ |
        ⟨hdue, hin, hok, hmoved, rest, rfl, heq⟩
      · refine ⟨1, hpos, ?_⟩
        rw [run, run, move_of_waiting hwait, heq]
        exact ⟨rfl, by simp [Outcome.success], rfl⟩
      · refine ⟨1, hpos, ?_⟩
        rw [run, run, move_of_end hdue hend, heq]
        exact ⟨rfl, by simp, rfl⟩
      · -- the frame that is due is not found, or it is refused once it is shown
        obtain ⟨n, hn, hrun⟩ := exists_landed_due signals shown hlimit hdue hin
        refine ⟨n, Nat.le_trans hn hround, ?_⟩
        rw [hrun, heq]
        rcases hcause with herror | ⟨hok, rfl, hrefused⟩
        · have hlanded : (a.due.after signals).result = .error cause := by simpa using herror
          rw [landed_of_error hlanded]
          exact ⟨rfl, by simp [failed, refused], rfl⟩
        · have hsettled : a.due.state.playback.countdown ≤ a.playback.countdown ∨
              a.due.state.maxFramesPerTick < (shown + 1).toNat := hrefused.imp_right (by omega)
          rw [landed_of_ok (by simpa using hok), Outcome.state_after, settled_of_refused hsettled]
          exact ⟨rfl, by simp [failed, refused], by simp [failed, refused, overrun, hnext]⟩
      · -- the frame is kept, and the loop goes on from it with its counter one higher
        obtain ⟨n, hn, hrun⟩ := exists_landed_due signals shown hlimit hdue hin
        have hkept : ¬(a.due.state.playback.countdown ≤ a.playback.countdown ∨
            a.due.state.maxFramesPerTick < (shown + 1).toNat) := by
          rw [not_or]
          exact ⟨hmoved, by omega⟩
        rw [landed_of_ok (by simpa using hok), Outcome.state_after, settled_of_kept hkept] at hrun
        have hdueLimit : a.due.state.maxRedirects = a.maxRedirects :=
          congrArg (·.2.2.1) (settings_due a)
        have hrest : ∃ m ≤ (rest + 1) * (a.due.state.maxRedirects + 2),
            (run m ⟨a.due.state, (a.due.after signals).signals, shown + 1, .looking⟩).EndsWith
              ((a.due.state.advanceWithin (shown + 1).toNat rest).after
                (a.due.after signals).signals) :=
          ih rest (Nat.lt_succ_self rest) (hdueLimit ▸ hlimit) (hdueMost ▸ hmost) (by omega)
        obtain ⟨m, hm, hends⟩ := hrest
        refine ⟨n + m, ?_, ?_⟩
        · rw [hdueLimit] at hm
          rw [Nat.succ_mul (rest + 1), Nat.add_comm n]
          exact Nat.add_le_add hm hn
        · rw [run_add, hrun, heq]
          rw [hnext] at hends
          exact ⟨hends.animator_eq, by simpa using hends.signals_eq, hends.phase_eq⟩

end

/-- The loops of a tick end where `tick` does, after a number of moves that its bounds give. -/
theorem halts_start {a : Animator} (hlimit : a.maxRedirects + 1 < UInt64.size)
    (hmost : a.maxFramesPerTick + 1 < UInt64.size) (elapsed : Float32) :
    ∃ n ≤ (a.maxFramesPerTick + 1) * (a.maxRedirects + 2),
      ((start a elapsed).run n).EndsWith (a.tick elapsed) := by
  unfold start
  by_cases hinvalid : elapsed.isFinite = false
  · rw [if_pos hinvalid, tick_of_invalidElapsed hinvalid]
    exact ⟨0, Nat.zero_le _, rfl, rfl, rfl⟩
  · by_cases hidle : a.playback.playing = false
    · rw [if_neg hinvalid, if_pos hidle, tick_of_idle hinvalid hidle]
      exact ⟨0, Nat.zero_le _, rfl, rfl, rfl⟩
    · rw [if_neg hinvalid, if_neg hidle, tick_eq hinvalid hidle]
      have hloops : ∃ n ≤ (a.maxFramesPerTick + 1) * (a.maxRedirects + 2),
          (run n ⟨a.elapse elapsed, [], 0, .looking⟩).EndsWith
            (((a.elapse elapsed).advanceWithin (0 : UInt64).toNat a.maxFramesPerTick).after []) :=
        exists_endsWith (a := a.elapse elapsed) hlimit hmost (Nat.zero_add _)
      exact hloops

end TickRun

namespace Animator

/-! ## What bounds a tick -/

/-- What bounds a tick: its loops end where `tick` ends, their counters do not run over, the random
source permits every draw, and the signals are those of so many frames and redirections at most. -/
structure BoundedTick (limit most : Nat) (a : Animator) (elapsed : Float32) : Prop where
  /-- The loops end, and they end where `tick` does. -/
  halts : ∃ n ≤ (most + 1) * (limit + 2),
    ((TickRun.start a elapsed).run n).EndsWith (a.tick elapsed)
  /-- Whenever a frame is sought, both counters have room for one more. -/
  counts : ∀ n leftover redirects,
    ((TickRun.start a elapsed).run n).phase = .seeking leftover redirects →
      ((TickRun.start a elapsed).run n).shown.toNat + 1 < UInt64.size ∧
        redirects.toNat + 1 < UInt64.size
  /-- No draw is one that the source does not permit. -/
  permitted : a.random.LeadsTo (a.tick elapsed).state.random
  /-- The frames, the redirections before each, and those before a failure are bounded; a tick that
  succeeds has not shown a frame too many. -/
  transcript : ∃ showings ending, Transcript limit most (a.tick elapsed) showings ending ∧
    ∀ changed, (a.tick elapsed).result = .ok changed → showings.length ≤ most

/-- Every tick is bounded, whatever was played before and however long its steps take, as long as
ranges are in order and there is something to pick. -/
theorem boundedTick_respondAll {animations : AnimationSet} {config : Config}
    (hset : ∀ name steps, animations.get? name = some steps → ∀ step ∈ steps, step.Drawable)
    (hlimit : config.maxRedirects.toNat + 1 < UInt64.size)
    (hmost : config.maxFramesPerTick.toNat + 1 < UInt64.size) (random : Random)
    {calls : List AnimatorCall}
    (hcalls : ∀ call ∈ calls, call.Starts fun steps => ∀ step ∈ steps, step.Drawable)
    (elapsed : Float32) :
    BoundedTick config.maxRedirects.toNat config.maxFramesPerTick.toNat
      ((create animations config random).respondAll calls) elapsed := by
  have hdrawable : ((create animations config random).respondAll calls).StepsSatisfy AnimationStep.Drawable :=
    (StepsSatisfy.create hset config random).respondAll
      (fun _ _ _ hcompile => drawable_of_compileAnimation hcompile) hcalls
  have hsettings := settings_respondAll (create animations config random) calls
  generalize (create animations config random).respondAll calls = a at hdrawable hsettings
  have hlimit_eq : a.maxRedirects = config.maxRedirects.toNat := congrArg (·.2.2.1) hsettings
  have hmost_eq : a.maxFramesPerTick = config.maxFramesPerTick.toNat := congrArg (·.2.2.2) hsettings
  rw [← hlimit_eq] at hlimit ⊢
  rw [← hmost_eq] at hmost ⊢
  obtain ⟨showings, ending, htranscript⟩ := transcript_tick a elapsed
  refine ⟨TickRun.halts_start hlimit hmost elapsed, ?_, ?_, showings, ending, htranscript,
    fun _ hok => htranscript.length_le_of_ok hok⟩
  · intro n leftover redirects hphase
    obtain ⟨hshown, hredirects⟩ :=
      ((TickRun.counted_start a elapsed).run n).le_of_seeking leftover redirects hphase
    exact ⟨by omega, by omega⟩
  · have hpath : Path (fun _ => False) a (a.tickVisits elapsed) (a.tick elapsed).state :=
      path_tick a elapsed
    exact hpath.leadsTo hdrawable fun _ hfalse => hfalse.elim

/-- Steps that compiling refuses: a frame that stays, the same frame twice to pick from, and frames
that take no time, an undefined time and less than no time. -/
def spinSteps : Sequence :=
  [.frame 0 (.fixed 0.5), .unique [4, 4] (.range 0 1), .frame 1 (.fixed 0.0),
    .frame 2 (.fixed (0.0 / 0.0)), .frame 3 (.fixed (-1.0)), .loop]

theorem boundedTick_spinSteps :
    BoundedTick 1 3
      ((create Table.empty { maxRedirects := 1, maxFramesPerTick := 3 } (Random.ofSeed 7)).respondAll
        [.start spinSteps false 2.0, .tick 0.0, .start spinSteps true 1.0]) 5.0 := by
  have hspin : ∀ step ∈ spinSteps, step.Drawable := by
    simp [spinSteps, AnimationStep.Drawable, FrameDuration.Ordered]
  have hset : ∀ name steps, (Table.empty : AnimationSet).get? name = some steps →
      ∀ step ∈ steps, step.Drawable := by
    intro name steps hsteps
    cases hsteps
  have hlimit : ({ maxRedirects := 1, maxFramesPerTick := 3 } : Config).maxRedirects.toNat + 1 <
      UInt64.size := by decide
  refine boundedTick_respondAll hset hlimit (by decide) _ ?_ 5.0
  simpa [AnimatorCall.Starts] using hspin

end Animator

end SpriteStage
