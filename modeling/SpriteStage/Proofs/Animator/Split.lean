import SpriteStage.Proofs.Animator.Reachable
import SpriteStage.Proofs.Single.Whole

/-!
# Splitting a tick

When all times are whole numbers that are not too large, it does not matter whether time passes at
once or in two parts: the same frames are shown, the same signals are given and the same numbers are
drawn (`tick_add`). The proof compares the tick over the whole time with the one over its first
part, which is ahead of it by the second part all along: as long as both have a frame to show they
show the same one, and when the first has time left, the second tick goes on from there.
-/

set_option autoImplicit false

namespace SpriteStage

open Single (IsWhole)

/-- A duration whose counts are whole numbers, none of which takes more than `2 ^ 24` at a time
scale. -/
def FrameDuration.WholeHold (scale : Int) : FrameDuration → Prop
  | .range _ greatest => greatest.toNat * scale ≤ 2 ^ 24
  | .fixed count => ∃ n, Single.toInt? count = some n ∧ n * scale ≤ 2 ^ 24

namespace Animator

/-- All times of an animator are whole numbers of at most `2 ^ 24`: the time left for its frame, and
the holds of all steps that it may come upon. -/
structure WholeTimes (a : Animator) : Prop where
  /-- The time left for the frame. -/
  countdown : ∃ c, Single.toInt? a.playback.countdown = some c ∧ c ≤ 2 ^ 24
  /-- The time scale, and the holds under it. -/
  holds : ∃ scale, Single.toInt? a.playback.timeScale = some scale ∧
    a.DurationsSatisfy (FrameDuration.WholeHold scale)

/-- The same animator, except that the time left may be another if nothing is playing. -/
structure AgreesWith (a b : Animator) : Prop where
  /-- All but the countdown is the same. -/
  rest_eq : a = b.withCountdown a.playback.countdown
  /-- While something is playing, so is the countdown. -/
  countdown_eq : b.playback.playing = true → a.playback.countdown = b.playback.countdown

/-- An outcome is that of two operations one after the other: both succeed, their signals are
appended, and something has changed if one of them changed it. -/
structure SplitsInto (whole first second : Outcome Animator Bool) : Prop where
  /-- The answers. -/
  results : ∃ r s, first.result = .ok r ∧ second.result = .ok s ∧ whole.result = .ok (r || s)
  /-- The signals. -/
  signals_eq : whole.signals = first.signals ++ second.signals
  /-- The animator. -/
  agrees : second.state.AgreesWith whole.state

/-! ## Whole holds -/

/-- The durations and the time scale of an animator that counts in whole numbers. -/
structure CountsWhole (scale : Int) (a : Animator) : Prop where
  /-- Every duration is usable and whole. -/
  durations : a.DurationsSatisfy fun d => d.check = .ok () ∧ d.WholeHold scale
  /-- The time scale is whole. -/
  timeScale : IsWhole a.playback.timeScale scale
  /-- The time scale is positive. -/
  scale_pos : 0 < scale

theorem CountsWhole.withCountdown {scale : Int} {a : Animator} (h : a.CountsWhole scale)
    (c : Float32) : (a.withCountdown c).CountsWhole scale :=
  ⟨⟨h.durations.current, h.durations.named⟩, h.timeScale, h.scale_pos⟩

theorem count_isWhole {scale : Int} {duration : FrameDuration} (hcheck : duration.check = .ok ())
    (hwhole : duration.WholeHold scale) (hscale : 0 < scale) (random : Random) :
    ∃ n, IsWhole (duration.draw random).1 n ∧ 0 < n ∧ n * scale ≤ 2 ^ 24 := by
  cases duration with
  | fixed count =>
      obtain ⟨n, hn, hle⟩ := hwhole
      rw [Single.toInt?_eq_some_iff] at hn
      obtain ⟨-, habove⟩ := not_or.1 (FrameDuration.fixed_of_check hcheck)
      rw [hn.le_iff Single.isWhole_zero] at habove
      exact ⟨n, hn, by omega, hle⟩
  | range least greatest =>
      obtain ⟨hleast, hle⟩ := FrameDuration.range_of_check hcheck
      have hpos : 0 < least.toNat := Nat.pos_of_ne_zero fun h0 => hleast (UInt32.toNat_inj.1 h0)
      obtain ⟨hlow, hhigh⟩ := random.range_bounds hle
      have hhold : (greatest.toNat : Int) * scale ≤ 2 ^ 24 := hwhole
      -- the scale is at least one, so the greatest count is bounded like its hold
      have hgreatest : (greatest.toNat : Int) * 1 ≤ greatest.toNat * scale :=
        Int.mul_le_mul_of_nonneg_left (by omega) (Int.natCast_nonneg _)
      show ∃ n, IsWhole (random.range least greatest).1.toFloat32 n ∧ 0 < n ∧ n * scale ≤ 2 ^ 24
      generalize (random.range least greatest).1 = drawn at hlow hhigh
      refine ⟨drawn.toNat, Single.isWhole_toFloat32 (by omega), by omega, ?_⟩
      exact Int.le_trans (Int.mul_le_mul_of_nonneg_right (by omega) (by omega)) hhold

/-- The hold of every step is a whole number above zero. -/
theorem CountsWhole.hold {scale : Int} {a : Animator} (h : a.CountsWhole scale)
    {duration : FrameDuration} (hd : duration.check = .ok () ∧ duration.WholeHold scale)
    (random : Random) : ∃ n, IsWhole (a.hold duration random) n ∧ 0 < n ∧ n ≤ 2 ^ 24 := by
  obtain ⟨n, hn, hpos, hle⟩ := count_isWhole hd.1 hd.2 h.scale_pos random
  have hprod : 0 < n * scale := Int.mul_pos hpos h.scale_pos
  exact ⟨n * scale, hn.mul h.timeScale (by omega), hprod, hle⟩

/-- The frame that is due next: `b` shows it for `held`, which is the whole number `n`, and for the
countdown that is left over, whatever that is. -/
structure Next (scale : Int) (a b : Animator) (held : Float32) (n : Int) (signals : List Signal) :
    Prop where
  /-- The animator that shows it counts in whole numbers. -/
  counts : b.CountsWhole scale
  /-- Its settings are the same. -/
  settings : SameSettings a b
  /-- The hold is a whole number. -/
  held_whole : IsWhole held n
  /-- The hold is positive. -/
  held_pos : 0 < n
  /-- The hold is not too large. -/
  held_le : n ≤ 2 ^ 24
  /-- For every countdown the same frame is due. -/
  due_eq : ∀ c, (a.withCountdown c).due =
    { state := b.withCountdown (held + c), signals := signals, result := .ok () }

theorem CountsWhole.exists_next {scale : Int} {a : Animator} (h : a.CountsWhole scale)
    (hok : a.due.result = .ok ()) : ∃ b held n signals, Next scale a b held n signals := by
  have hadvanced : a.advanced.CountsWhole scale :=
    ⟨⟨h.durations.current, h.durations.named⟩, h.timeScale, h.scale_pos⟩
  obtain ⟨b, duration, random, signals, hland, hany⟩ := resolveWithin_landing hadvanced.durations hok
  obtain ⟨n, hn, hpos, hle⟩ := hadvanced.hold hland.duration_ok random
  refine ⟨b, _, n, signals, ⟨hland.durations, ?_, h.scale_pos⟩, ?_, hn, hpos, hle, ?_⟩
  · rw [hland.settings.timeScale_eq]
    exact h.timeScale
  · exact ⟨hland.settings.animations_eq, hland.settings.playing_eq, hland.settings.timeScale_eq,
      hland.settings.maxRedirects_eq, hland.settings.maxFramesPerTick_eq⟩
  · intro c
    exact hany c c

/-- A tick that is due shows the next frame and goes on, and the value of the countdown grows by the
hold. -/
theorem Next.advanceWithin {scale n v : Int} {a b : Animator} {held c : Float32}
    {signals : List Signal} (h : Next scale a b held n signals)
    (hin : a.playback.cursor + 1 < a.playback.length) (hc : IsWhole c v) (hdue : v ≤ 0)
    (hlow : -(2 ^ 24) ≤ v) (shown budget : Nat) :
    IsWhole (held + c) (n + v) ∧
      (a.withCountdown c).advanceWithin shown (budget + 1) =
        ((b.withCountdown (held + c)).advanceWithin (shown + 1) budget).after signals := by
  have hpos := h.held_pos
  have hle := h.held_le
  have hsum : IsWhole (held + c) (n + v) := h.held_whole.add hc (by omega)
  have hcountdown : (a.withCountdown c).playback.countdown ≤ 0.0 :=
    (hc.le_iff Single.isWhole_zero).2 hdue
  have hok : (a.withCountdown c).due.result = .ok () := by rw [h.due_eq]
  -- the sum of whole numbers is exact, so a positive hold does move the countdown
  have hmoved : ¬ (a.withCountdown c).due.state.playback.countdown ≤
      (a.withCountdown c).playback.countdown := by
    rw [h.due_eq]
    show ¬ held + c ≤ c
    rw [hsum.le_iff hc]
    omega
  have hnext : (a.withCountdown c).advanceWithin shown (budget + 1) =
      ((a.withCountdown c).due.state.advanceWithin (shown + 1) budget).after
        (a.withCountdown c).due.signals :=
    advanceWithin_succ hcountdown (Nat.not_le.2 hin) hok hmoved
  rw [h.due_eq] at hnext
  exact ⟨hsum, hnext⟩

/-! ## Going on from the same value -/

/-- A tick that succeeds can be repeated from an animator with a countdown of the same value, with
at least as many frames to show: it shows the same `k` frames. -/
theorem advanceWithin_resumes {scale v : Int} {a : Animator} {shown budget : Nat} {changed : Bool}
    (h : a.CountsWhole scale) (hv : IsWhole a.playback.countdown v) (hbound : v.natAbs ≤ 2 ^ 24)
    (hok : (a.advanceWithin shown budget).result = .ok changed) {c : Float32} (hc : IsWhole c v)
    {s t : Nat} (hmore : budget ≤ t) :
    ∃ k, changed = decide (0 < shown + k) ∧
      ((a.withCountdown c).advanceWithin s t).result = .ok (decide (0 < s + k)) ∧
      ((a.withCountdown c).advanceWithin s t).signals =
        (a.advanceWithin shown budget).signals ∧
      ((a.withCountdown c).advanceWithin s t).state.AgreesWith
        (a.advanceWithin shown budget).state := by
  induction budget using Nat.strongRecOn generalizing a v c shown s t with
  | ind budget ih =>
      have hdue_iff : a.playback.countdown ≤ 0.0 ↔ v ≤ 0 := hv.le_iff Single.isWhole_zero
      have hdue_iff' : c ≤ 0.0 ↔ v ≤ 0 := hc.le_iff Single.isWhole_zero
      rcases advanceWithin_cases a shown budget with
        ⟨hwait, heq⟩ | ⟨hdue, hend, heq⟩ | ⟨-, -, cause, heq, -⟩ |
        ⟨hdue, hin, hdueok, -, rest, rfl, heq⟩
      · -- Time is left, so the value is not zero and has one representation.
        have hwait' : ¬ (a.withCountdown c).playback.countdown ≤ 0.0 := fun hle =>
          hwait (hdue_iff.2 (hdue_iff'.1 hle))
        have hcountdown : c = a.playback.countdown :=
          hc.eq_of_ne_zero hv fun h0 => hwait (hdue_iff.2 (by omega))
        rw [heq] at hok ⊢
        cases hok
        rw [advanceWithin_of_waiting hwait']
        exact ⟨0, rfl, rfl, rfl, ⟨rfl, fun _ => hcountdown⟩⟩
      · -- Both have run past the last step; the countdowns may differ in the sign of a zero.
        have hdue' : (a.withCountdown c).playback.countdown ≤ 0.0 := hdue_iff'.2 (hdue_iff.1 hdue)
        rw [heq] at hok ⊢
        cases hok
        rw [advanceWithin_of_end hdue' hend]
        exact ⟨0, rfl, rfl, rfl, ⟨rfl, fun hplaying => (nomatch hplaying)⟩⟩
      · rw [heq] at hok
        cases hok
      · -- Both show the next frame, and the countdowns have one value again.
        have hv0 := hdue_iff.1 hdue
        obtain ⟨t, rfl⟩ : ∃ m, t = m + 1 := ⟨t - 1, by omega⟩
        obtain ⟨b, held, n, signals, hnext⟩ := h.exists_next hdueok
        have hpos := hnext.held_pos
        have hle := hnext.held_le
        obtain ⟨hsum, hself⟩ := hnext.advanceWithin hin hv hv0 (by omega) shown rest
        obtain ⟨hsum', hother⟩ := hnext.advanceWithin hin hc hv0 (by omega) s t
        rw [withCountdown_self] at hself
        rw [hself, Outcome.result_after] at hok
        rw [hself, hother, Outcome.result_after, Outcome.signals_after, Outcome.signals_after,
          Outcome.state_after, Outcome.state_after]
        obtain ⟨k, hchanged, hresult, hsignals, hagrees⟩ :=
          ih rest (Nat.lt_succ_self rest)
            (hnext.counts.withCountdown (held + a.playback.countdown)) hsum (by omega) hok hsum'
            (s := s + 1) (t := t) (by omega)
        refine ⟨k + 1, ?_, ?_, congrArg (signals ++ ·) hsignals, hagrees⟩
        · rw [hchanged, Nat.add_right_comm, Nat.add_assoc]
        · rw [show s + (k + 1) = s + 1 + k by omega]
          exact hresult

/-! ## Two parts -/

theorem elapse_withCountdown (a : Animator) (c elapsed : Float32) :
    (a.withCountdown c).elapse elapsed = a.withCountdown (c - elapsed) := rfl

/-- The signals of a frame come before those of both parts of the rest. -/
theorem SplitsInto.after {whole first second : Outcome Animator Bool}
    (h : SplitsInto whole first second) (signals : List Signal) :
    SplitsInto (whole.after signals) (first.after signals) second := by
  refine ⟨h.results, ?_, h.agrees⟩
  rw [Outcome.signals_after, Outcome.signals_after, h.signals_eq, List.append_assoc]

/-- A first part that leaves time shows no frame, and the second goes on from where the tick over the
whole time is. -/
theorem splitsInto_of_waiting {scale v n : Int} {a : Animator} {shown budget : Nat} {changed : Bool}
    (h : a.CountsWhole scale) (hplaying : a.playback.playing = true)
    (hbudget : budget ≤ a.maxFramesPerTick) (hv : IsWhole a.playback.countdown v)
    (hbound : v.natAbs ≤ 2 ^ 24) {c rest : Float32} (hc : IsWhole c (v + n)) (hleft : ¬ v + n ≤ 0)
    (hrest : IsWhole rest n) (hok : (a.advanceWithin shown budget).result = .ok changed) :
    SplitsInto (a.advanceWithin shown budget) ((a.withCountdown c).advanceWithin shown budget)
      (((a.withCountdown c).advanceWithin shown budget).state.tick rest) := by
  have hwait : ¬ (a.withCountdown c).playback.countdown ≤ 0.0 := fun hle =>
    hleft ((hc.le_iff Single.isWhole_zero).1 hle)
  have hplaying' : ¬ (a.withCountdown c).playback.playing = false := by
    show ¬ a.playback.playing = false
    rw [hplaying]
    exact Bool.noConfusion
  -- Taking the rest off as well leads to the value of the whole tick, though not always to its sign.
  have hlater : IsWhole (c - rest) v := by
    have hsub := hc.sub hrest (by omega)
    rw [Int.add_sub_cancel] at hsub
    exact hsub
  obtain ⟨k, hchanged, hresult, hsignals, hagrees⟩ :=
    advanceWithin_resumes h hv hbound hok hlater (s := 0) hbudget
  rw [advanceWithin_of_waiting hwait]
  show SplitsInto _ _ ((a.withCountdown c).tick rest)
  rw [tick_eq hrest.not_infinite hplaying', elapse_withCountdown]
  refine ⟨⟨decide (0 < shown), decide (0 < 0 + k), rfl, hresult, ?_⟩, hsignals.symm, hagrees⟩
  rw [hok, hchanged]
  congr 1
  rw [Bool.eq_iff_iff, Bool.or_eq_true, decide_eq_true_iff, decide_eq_true_iff, decide_eq_true_iff]
  omega

/-- A tick over some time is split by any part of it: `a` is the animator after the whole time has
been taken off the countdown, and `c` what the countdown is after the first part, which is `n` more;
`rest` is the other part. -/
theorem advanceWithin_splits {scale v n : Int} {a : Animator} {shown budget : Nat} {changed : Bool}
    (h : a.CountsWhole scale) (hplaying : a.playback.playing = true)
    (hbudget : budget ≤ a.maxFramesPerTick) (hv : IsWhole a.playback.countdown v)
    (hlow : -(2 ^ 24) ≤ v) {c rest : Float32} (hc : IsWhole c (v + n)) (hn : 0 ≤ n)
    (hhigh : v + n ≤ 2 ^ 24) (hrest : IsWhole rest n)
    (hok : (a.advanceWithin shown budget).result = .ok changed) :
    SplitsInto (a.advanceWithin shown budget) ((a.withCountdown c).advanceWithin shown budget)
      (((a.withCountdown c).advanceWithin shown budget).state.tick rest) := by
  induction budget using Nat.strongRecOn generalizing a v c shown with
  | ind budget ih =>
      by_cases hleft : v + n ≤ 0
      · -- Neither has time left: both show the same frame, or both end.
        have hdue' : (a.withCountdown c).playback.countdown ≤ 0.0 :=
          (hc.le_iff Single.isWhole_zero).2 hleft
        rcases advanceWithin_cases a shown budget with
          ⟨hwait, heq⟩ | ⟨hdue, hend, heq⟩ | ⟨-, -, cause, heq, -⟩ |
          ⟨hdue, hin, hdueok, -, budget, rfl, heq⟩
        · exact absurd ((hv.le_iff Single.isWhole_zero).2 (by omega)) hwait
        · -- The first part ends playback, so the other part finds the animator idle.
          rw [heq, advanceWithin_of_end hdue' hend, tick_of_idle hrest.not_infinite rfl]
          refine ⟨⟨_, _, rfl, rfl, ?_⟩, rfl, ⟨rfl, fun hp => (nomatch hp)⟩⟩
          rw [Bool.or_false]
        · rw [heq] at hok
          cases hok
        · -- The countdown of the first part stays ahead by the other part.
          obtain ⟨b, held, m, signals, hnext⟩ := h.exists_next hdueok
          have hpos := hnext.held_pos
          have hle := hnext.held_le
          obtain ⟨hsum, hself⟩ := hnext.advanceWithin hin hv (by omega) hlow shown budget
          obtain ⟨hsum', hother⟩ := hnext.advanceWithin hin hc hleft (by omega) shown budget
          rw [withCountdown_self] at hself
          rw [← Int.add_assoc] at hsum'
          rw [hself, Outcome.result_after] at hok
          have hlater : budget ≤ b.maxFramesPerTick := by
            rw [hnext.settings.maxFramesPerTick_eq]
            omega
          rw [hself, hother]
          exact (ih budget (Nat.lt_succ_self budget)
            (hnext.counts.withCountdown (held + a.playback.countdown))
            (hnext.settings.playing_eq.trans hplaying) hlater hsum (by omega) hsum' (by omega)
            hok).after signals
      · exact splitsInto_of_waiting h hplaying hbudget hv (by omega) hc hleft hrest hok

/-- An animator that plays whole times counts in whole numbers, and its countdown is not negative. -/
theorem WholeTimes.countsWhole {animations : AnimationSet} {frameCount : Option Nat} {a : Animator}
    (h : a.WholeTimes) (hset : SoundSet animations frameCount) (hsteady : a.Steady animations)
    (hplaying : a.playback.playing = true) :
    ∃ scale c, a.CountsWhole scale ∧ IsWhole a.playback.countdown c ∧ 0 ≤ c ∧ c ≤ 2 ^ 24 := by
  have hchecked := hsteady.provided.durations hset
  obtain ⟨⟨c, hc, hhigh⟩, scale, hscale, hholds⟩ := h
  rw [Single.toInt?_eq_some_iff] at hc hscale
  refine ⟨scale, c, ⟨⟨?_, ?_⟩, hscale, ?_⟩, hc, ?_, hhigh⟩
  · intro steps hsteps step hstep d hd
    exact ⟨hchecked.current steps hsteps step hstep d hd,
      hholds.current steps hsteps step hstep d hd⟩
  · intro name steps hsteps step hstep d hd
    exact ⟨hchecked.named name steps hsteps step hstep d hd,
      hholds.named name steps hsteps step hstep d hd⟩
  · obtain ⟨-, habove⟩ := not_or.1 (hsteady.timeScale_ok hplaying)
    rw [hscale.le_iff Single.isWhole_zero] at habove
    omega
  · have hnonneg := hsteady.countdown_ok hplaying
    rw [hc.lt_iff Single.isWhole_zero] at hnonneg
    omega

/-- A tick over the sum of two whole times, if it succeeds, is the tick over the first and the tick
over the second. -/
theorem tick_add {authored : Table (List AuthoredStep)} {frameCount : Option Nat}
    {animations : AnimationSet} (hset : compileSet authored frameCount = .ok animations)
    {config : Config} {a : Animator} (hreach : Reachable animations config a)
    (hwhole : a.playback.playing = true → a.WholeTimes) {x y : Float32} {m n : Int}
    (hx : Single.toInt? x = some m) (hy : Single.toInt? y = some n) (hm : 0 ≤ m) (hn : 0 ≤ n)
    (hsum : m + n ≤ 2 ^ 24) {changed : Bool} (hok : (a.tick (x + y)).result = .ok changed) :
    SplitsInto (a.tick (x + y)) (a.tick x) ((a.tick x).state.tick y) := by
  rw [Single.toInt?_eq_some_iff] at hx hy
  have hxy : IsWhole (x + y) (m + n) := hx.add hy (by omega)
  by_cases hidle : a.playback.playing = false
  · rw [tick_of_idle hxy.not_infinite hidle, tick_of_idle hx.not_infinite hidle]
    show SplitsInto _ _ (a.tick y)
    rw [tick_of_idle hy.not_infinite hidle]
    exact ⟨⟨false, false, rfl, rfl, rfl⟩, rfl, ⟨rfl, fun _ => rfl⟩⟩
  · have hplaying : a.playback.playing = true := by
      rw [← Bool.not_eq_false]
      exact hidle
    have hsound := sound_of_compileSet hset
    obtain ⟨scale, c, hcounts, hc, hlow, hhigh⟩ :=
      (hwhole hplaying).countsWhole hsound (steady_of_reachable hsound hreach) hplaying
    have hv : IsWhole (a.elapse (x + y)).playback.countdown (c - (m + n)) :=
      hc.sub hxy (by omega)
    -- the first part leaves `n` more on the countdown than the whole time does
    have hfirst : IsWhole (a.playback.countdown - x) (c - (m + n) + n) := by
      rw [show c - (m + n) + n = c - m by omega]
      exact hc.sub hx (by omega)
    rw [tick_eq hxy.not_infinite hidle] at hok ⊢
    rw [tick_eq hx.not_infinite hidle]
    have helapsed : (a.elapse (x + y)).CountsWhole scale :=
      hcounts.withCountdown (a.playback.countdown - (x + y))
    exact advanceWithin_splits helapsed hplaying (Nat.le_refl _) hv (by omega) hfirst hn (by omega)
      hy hok

/-- One animation, of a frame with a fixed hold and two frames that take turns with drawn holds. -/
def strideSteps : List AuthoredStep :=
  [.frame 0 (.fixed 2.0), .unique [1, 2] (.range 1 3), .loop]

/-- The set of one animation. -/
def strideSet : AnimationSet := { entries := [("stride", expandSteps strideSteps)] }

/-- An animator that has just started it. -/
def striding : Animator :=
  ((create strideSet {} (Random.ofSeed 7)).animate "stride" false none).state

theorem compileSet_strideSteps :
    compileSet { entries := [("stride", strideSteps)] } none = .ok strideSet := by
  have hsorted : ({ entries := [("stride", strideSteps)] } : Table (List AuthoredStep)).sortByName =
      { entries := [("stride", strideSteps)] } :=
    Table.ext_entries (List.mergeSort_singleton _)
  unfold compileSet
  rw [hsorted]
  rfl

theorem wholeHold_of_mem_stride : ∀ step ∈ expandSteps strideSteps, ∀ duration,
    step.duration? = some duration → duration.WholeHold 150 := by
  intro step hstep duration hduration
  rcases List.mem_cons.1 hstep with rfl | hstep
  · cases hduration
    exact ⟨2, by decide +kernel, by decide⟩
  rcases List.mem_cons.1 hstep with rfl | hstep
  · cases hduration
    exact (by decide : (3 : Int) * 150 ≤ 2 ^ 24)
  rcases List.mem_cons.1 hstep with rfl | hstep
  · cases hduration
  · cases hstep

theorem wholeTimes_striding : striding.WholeTimes := by
  refine ⟨⟨300, by decide +kernel, by decide⟩, 150, by decide +kernel, ?_, ?_⟩
  · intro steps hsteps
    cases hsteps
    exact wholeHold_of_mem_stride
  · intro name steps hsteps
    have hmem : (name, steps) ∈ [("stride", expandSteps strideSteps)] :=
      (strideSet.mem_entries_iff name steps).2 hsteps
    cases List.mem_singleton.1 hmem
    exact wholeHold_of_mem_stride

theorem tick_add_striding :
    SplitsInto (striding.tick (1000.0 + 475.0)) (striding.tick 1000.0)
      ((striding.tick 1000.0).state.tick 475.0) := by
  have hreach : Reachable strideSet {} striding := (Reachable.create _).animate "stride" false none
  have hisOk : (striding.tick (1000.0 + 475.0)).result.isOk = true := by decide +kernel
  cases hok : (striding.tick (1000.0 + 475.0)).result with
  | error cause =>
      rw [hok] at hisOk
      cases hisOk
  | ok changed =>
      exact tick_add compileSet_strideSteps hreach (fun _ => wholeTimes_striding) (m := 1000)
        (n := 475) (by decide +kernel) (by decide +kernel) (by decide) (by decide) (by decide) hok

end Animator

end SpriteStage
