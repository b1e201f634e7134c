import SpriteStage.Proofs.Animator.Play
import SpriteStage.Proofs.Animator.Reel

/-!
# An animator keeps time

An animator that plays a reel takes the elapsed times off a countdown, and what a frame leaves over
is given to the next one. In whole numbers nothing is lost on the way: after ticks that add up to
`t`, however they are cut, the animator shows the frame that the reel has at `t`, and the countdown
is what is left of that frame (`playsReel_of_animate`).

The invariant is `Reel.At`: the animator has frame `k` on screen, and its countdown says how far `t`
is from the end of it. Inside a tick `t` may lie behind that end; then the next frame is due.
-/

set_option autoImplicit false

namespace SpriteStage

open Single (IsWhole)

namespace Reel

/-- The animator plays the reel. -/
structure Loaded (r : Reel) (name : String) (a : Animator) : Prop where
  /-- It is playing. -/
  playing : a.playback.playing = true
  /-- It plays the steps of the reel. -/
  steps_eq : a.playback.steps = some r.steps
  /-- They have a name. -/
  animation_eq : a.playback.animation = some name
  /-- They are played at the time scale of the reel. -/
  timeScale_eq : a.playback.timeScale = r.scale

/-- The animator has shown `k` frames and shows another one, at the time `t` after the start. -/
structure At (r : Reel) (name : String) (k t : Nat) (a : Animator) : Prop
    extends r.Loaded name a where
  /-- The cursor is at the frame. -/
  cursor_eq : a.playback.cursor = k % r.cels.length
  /-- The frame is on screen. -/
  frame_eq : a.playback.frame = some (r.cel k).frame
  /-- There is such a frame. -/
  inside : r.repeats = true ∨ k < r.cels.length
  /-- The frame was due. -/
  begun : r.start k ≤ t
  /-- The time is not too far ahead for the countdown. -/
  near : t ≤ r.start (k + 1) + 2 ^ 24
  /-- The countdown is the time that is left. -/
  countdown : IsWhole a.playback.countdown ((r.start (k + 1) : Int) - t)

/-- Where a run gets from frame `k`, `t` after the start: so many frames on, or past the last. -/
inductive Reaches (r : Reel) (name : String) (k t : Nat) (signals : List Signal) (a : Animator) :
    Prop where
  /-- A frame is on screen, and time is left for it. -/
  | waits (n : Nat) (h : r.At name (k + n) t a) (hleft : t < r.start (k + n + 1))
      (hsignals : signals = r.entriesAfter k n)
  /-- All frames were shown. -/
  | ends (n : Nat) (hrepeats : r.repeats = false) (hlast : k + n + 1 = r.cels.length)
      (hover : r.start r.cels.length ≤ t) (hidle : a.playback.playing = false)
      (hsignals : signals = r.entriesAfter k n ++ [.stop (some name)])

variable {r : Reel} {name : String} {k t : Nat} {a b : Animator} {signals : List Signal}

theorem Reaches.trans {n : Nat} (h : r.Reaches name (k + n) t signals a) :
    r.Reaches name k t (r.entriesAfter k n ++ signals) a := by
  cases h with
  | waits m h hleft hsignals =>
      rw [Nat.add_assoc k n m] at h hleft
      exact .waits (n + m) h hleft (by rw [hsignals, entriesAfter_append])
  | ends m hrepeats hlast hover hidle hsignals =>
      refine .ends (n + m) hrepeats (by omega) hover hidle ?_
      rw [hsignals, ← List.append_assoc, entriesAfter_append]

/-! ## Steps -/

theorem length_steps (r : Reel) :
    r.steps.length = r.cels.length + if r.repeats then 1 else 0 := by
  cases hrepeats : r.repeats with
  | true => simp [steps, hrepeats]
  | false => simp [steps, hrepeats]

theorem getElem?_steps (r : Reel) {i : Nat} (h : i < r.cels.length) :
    r.steps[i]? = some r.cels[i].step := by
  simp [steps, List.getElem?_append, h]

theorem getElem?_steps_last (h : r.repeats = true) : r.steps[r.cels.length]? = some .loop := by
  simp [steps, h]

theorem Loaded.step?_eq (h : r.Loaded name a) (hcursor : a.playback.cursor = k % r.cels.length) :
    a.playback.step? = some (r.cel k).step := by
  unfold Playback.step?
  rw [h.steps_eq, hcursor]
  exact r.getElem?_steps (Nat.mod_lt k r.length_pos)

theorem Loaded.length_eq (h : r.Loaded name a) :
    a.playback.length = r.cels.length + if r.repeats then 1 else 0 := by
  simpa [Playback.length, h.steps_eq] using r.length_steps

/-- A frame that is due is shown for its hold and what was left over. -/
theorem Loaded.shows (h : r.Loaded name a) (hcursor : a.playback.cursor = k % r.cels.length)
    (hinside : r.repeats = true ∨ k < r.cels.length) {leftover : Float32}
    (hleft : IsWhole leftover ((r.start k : Int) - t)) (hbegun : r.start k ≤ t)
    (hnear : t ≤ r.start k + 2 ^ 24) :
    ∃ b, a.resolveStep leftover = .shown b (r.cel k).frame ∧ r.At name k t b := by
  have hcount : IsWhole ((r.cel k).duration.draw a.random).1 ((r.cel k).units : Int) :=
    (Single.toInt?_eq_some_iff _ _).1 ((r.cel k).counts a.random)
  have hscale : IsWhole a.playback.timeScale (r.millis : Int) :=
    h.timeScale_eq ▸ (Single.toInt?_eq_some_iff _ _).1 r.scale_eq
  have hhold : ((r.cel k).units : Int) * r.millis = r.hold k := by
    rw [hold, Int.natCast_mul, Int.mul_comm]
  have hfits := r.hold_le k
  have hheld := hcount.mul hscale (by omega)
  have hcountdown := hheld.add hleft (by omega)
  have hend : ((r.cel k).units : Int) * r.millis + ((r.start k : Int) - t) =
      (r.start (k + 1) : Int) - t := by
    rw [hhold, start_succ]
    omega
  refine ⟨a.display (r.cel k).frame (r.cel k).duration leftover, ?_, ?_⟩
  · unfold Animator.resolveStep
    rw [h.step?_eq hcursor]
    rfl
  · have hloaded : r.Loaded name (a.display (r.cel k).frame (r.cel k).duration leftover) :=
      ⟨h.playing, h.steps_eq, h.animation_eq, h.timeScale_eq⟩
    refine ⟨hloaded, hcursor, rfl, hinside, hbegun, ?_, hend ▸ hcountdown⟩
    rw [start_succ]
    omega

/-- The frame that is due after another one is the next of the reel. -/
theorem At.due (h : r.At name k t a) (hdue : r.start (k + 1) ≤ t)
    (hin : a.playback.cursor + 1 < a.playback.length) (hok : a.due.result = .ok ()) :
    r.At name (k + 1) t a.due.state ∧ a.due.signals = r.entry (k + 1) := by
  have hadvanced : r.Loaded name a.advanced :=
    ⟨h.playing, h.steps_eq, h.animation_eq, h.timeScale_eq⟩
  rw [h.length_eq, h.cursor_eq] at hin
  rcases r.next_cases k with ⟨hlast, -, hmod⟩ | ⟨hnext, -, hmod⟩
  · -- behind the last frame there is only the loop, which leads back to the first one
    have hrepeats : r.repeats = true := by
      cases hrepeats : r.repeats with
      | true => rfl
      | false => simp [hrepeats, hlast] at hin
    have hstep : a.advanced.playback.step? = some .loop := by
      have hcursor : a.advanced.playback.cursor = r.cels.length := by
        rw [← hlast, ← h.cursor_eq]
        rfl
      unfold Playback.step?
      rw [hadvanced.steps_eq, hcursor]
      exact getElem?_steps_last hrepeats
    have hloop : a.advanced.resolveStep a.playback.countdown =
        .redirected a.advanced.rewound .loop := by
      unfold Animator.resolveStep
      rw [hstep]
      rfl
    have hrewound : r.Loaded name a.advanced.rewound :=
      ⟨h.playing, h.steps_eq, h.animation_eq, h.timeScale_eq⟩
    obtain ⟨b, hshown, hb⟩ := hrewound.shows hmod.symm (Or.inl hrepeats) h.countdown hdue h.near
    have hdue_eq : a.due = a.advanced.resolveWithin a.playback.countdown a.maxRedirects := rfl
    rw [hdue_eq] at hok ⊢
    cases hbudget : a.maxRedirects with
    | zero =>
        rw [hbudget, Animator.resolveWithin_zero_of_redirected hloop] at hok
        cases hok
    | succ budget =>
        rw [Animator.resolveWithin_succ_of_redirected hloop,
          Animator.resolveWithin_of_shown hshown]
        exact ⟨hb, by simp [entry, hmod]⟩
  · have hcursor : a.advanced.playback.cursor = (k + 1) % r.cels.length := by
      rw [hmod, ← h.cursor_eq]
      rfl
    have hinside : r.repeats = true ∨ k + 1 < r.cels.length := by
      refine h.inside.imp_right fun hlt => ?_
      rw [Nat.mod_eq_of_lt hlt] at hnext
      exact hnext
    obtain ⟨b, hshown, hb⟩ := hadvanced.shows hcursor hinside h.countdown hdue h.near
    have hdue_eq : a.due = a.advanced.resolveWithin a.playback.countdown a.maxRedirects := rfl
    rw [hdue_eq, Animator.resolveWithin_of_shown hshown]
    exact ⟨hb, by simp [entry, hmod]⟩

/-! ## Ticks -/

theorem At.countdown_le_iff (h : r.At name k t a) :
    a.playback.countdown ≤ 0.0 ↔ r.start (k + 1) ≤ t := by
  rw [h.countdown.le_iff Single.isWhole_zero]
  omega

/-- A tick that succeeds goes on from frame to frame until time is left for one, or none is left. -/
theorem At.advanceWithin {shown budget : Nat} (h : r.At name k t a) {changed : Bool}
    (hok : (a.advanceWithin shown budget).result = .ok changed) :
    r.Reaches name k t (a.advanceWithin shown budget).signals
      (a.advanceWithin shown budget).state := by
  induction budget using Nat.strongRecOn generalizing a k shown with
  | ind budget ih =>
      rcases Animator.advanceWithin_cases a shown budget with
        ⟨hwait, heq⟩ | ⟨hdue, hend, heq⟩ | ⟨-, -, cause, heq, -⟩ |
        ⟨hdue, hin, hfound, -, rest, rfl, heq⟩
      · rw [h.countdown_le_iff, Nat.not_le] at hwait
        rw [heq]
        exact .waits 0 h hwait (r.entriesAfter_zero k).symm
      · -- the cursor runs past the steps, so the frame is the last of a reel that is played once
        rw [h.countdown_le_iff] at hdue
        rw [h.length_eq, h.cursor_eq] at hend
        have hlt := Nat.mod_lt k r.length_pos
        have hrepeats : r.repeats = false := by
          cases hrepeats : r.repeats with
          | false => rfl
          | true =>
              simp only [hrepeats, if_true] at hend
              omega
        have hinside : k < r.cels.length := h.inside.resolve_left (by simp [hrepeats])
        have hlast : k + 1 = r.cels.length := by
          rw [Nat.mod_eq_of_lt hinside, hrepeats] at hend
          simp at hend
          omega
        rw [heq]
        refine .ends 0 hrepeats hlast (hlast ▸ hdue) rfl ?_
        simp [entriesAfter_zero, h.animation_eq]
      · rw [heq] at hok
        cases hok
      · obtain ⟨hnext, hsignals⟩ := h.due (h.countdown_le_iff.1 hdue) hin hfound
        rw [heq, Outcome.result_after] at hok
        have hlater := (ih rest (Nat.lt_succ_self rest) hnext hok).trans (k := k) (n := 1)
        rw [entriesAfter_succ, entriesAfter_zero, List.append_nil] at hlater
        rw [heq, Outcome.state_after, Outcome.signals_after, hsignals]
        exact hlater

end Reel

/-- Some time that passes: whole milliseconds, and few enough for single precision. -/
structure Lapse where
  /-- The time. -/
  time : Float32
  /-- Its milliseconds. -/
  millis : Nat
  /-- The time is that many milliseconds. -/
  time_eq : Single.toInt? time = some (millis : Int)
  /-- They are not too many. -/
  fits : millis ≤ 2 ^ 24

/-- The milliseconds of all lapses. -/
def Lapse.total (lapses : List Lapse) : Nat := (lapses.map Lapse.millis).sum

namespace Animator

/-- A run of ticks, all of which succeed, with what they signal. -/
inductive Ticks : Animator → List Lapse → List Signal → Animator → Prop where
  /-- No time passes. -/
  | none (a : Animator) : Ticks a [] [] a
  /-- Time passes, and then more time. -/
  | tick {a b : Animator} {lapse : Lapse} {later : List Lapse} {signals : List Signal}
      {changed : Bool} (hok : (a.tick lapse.time).result = .ok changed)
      (rest : Ticks (a.tick lapse.time).state later signals b) :
      Ticks a (lapse :: later) ((a.tick lapse.time).signals ++ signals) b

theorem Ticks.tick_of_isOk {a b : Animator} {lapse : Lapse} {later : List Lapse}
    {signals : List Signal} (hok : (a.tick lapse.time).result.isOk = true)
    (rest : Ticks (a.tick lapse.time).state later signals b) :
    Ticks a (lapse :: later) ((a.tick lapse.time).signals ++ signals) b := by
  cases hresult : (a.tick lapse.time).result with
  | ok changed => exact .tick hresult rest
  | error cause =>
      rw [hresult] at hok
      cases hok

/-- One more tick. -/
theorem Ticks.snoc {a b : Animator} {lapses : List Lapse} {signals : List Signal}
    (h : Ticks a lapses signals b) {lapse : Lapse} {changed : Bool}
    (hok : (b.tick lapse.time).result = .ok changed) :
    Ticks a (lapses ++ [lapse]) (signals ++ (b.tick lapse.time).signals)
      (b.tick lapse.time).state := by
  induction h with
  | none a => simpa using Ticks.tick hok (.none _)
  | tick hfirst _ ih =>
      rw [List.append_assoc]
      exact .tick hfirst (ih hok)

/-- Nothing happens to an idle animator. -/
theorem Ticks.of_idle {a b : Animator} {lapses : List Lapse} {signals : List Signal}
    (h : Ticks a lapses signals b) (hidle : a.playback.playing = false) :
    signals = [] ∧ b.playback.playing = false := by
  induction h with
  | none a => exact ⟨rfl, hidle⟩
  | @tick a b lapse later signals changed _ _ ih =>
      have htime := (Single.toInt?_eq_some_iff _ _).1 lapse.time_eq
      rw [tick_of_idle htime.not_infinite hidle] at ih ⊢
      exact ih hidle

end Animator

namespace Reel

open Animator (Ticks)

variable {r : Reel} {name : String} {k t : Nat} {a b : Animator} {signals : List Signal}

/-- A tick takes its time off the countdown and goes on from there. -/
theorem At.tick (h : r.At name k t a) (hleft : t < r.start (k + 1)) {lapse : Lapse} {changed : Bool}
    (hok : (a.tick lapse.time).result = .ok changed) :
    r.Reaches name k (t + lapse.millis) (a.tick lapse.time).signals (a.tick lapse.time).state := by
  have htime := (Single.toInt?_eq_some_iff _ _).1 lapse.time_eq
  have hplaying : ¬ a.playback.playing = false := by simp [h.playing]
  have hfits := lapse.fits
  have hhold := r.hold_le k
  have hbegun := h.begun
  have hstart := r.start_succ k
  have hcountdown := h.countdown.sub htime (by omega)
  have helapsed : r.At name k (t + lapse.millis) (a.elapse lapse.time) := by
    refine ⟨⟨h.playing, h.steps_eq, h.animation_eq, h.timeScale_eq⟩, h.cursor_eq, h.frame_eq,
      h.inside, by omega, by omega, ?_⟩
    rw [Int.natCast_add, ← Int.sub_sub]
    exact hcountdown
  rw [Animator.tick_eq htime.not_infinite hplaying] at hok ⊢
  exact helapsed.advanceWithin hok

/-- Ticks go on from frame to frame, and after the last frame nothing happens any more. -/
theorem At.ticks (h : r.At name k t a) (hleft : t < r.start (k + 1)) {lapses : List Lapse}
    (hticks : Ticks a lapses signals b) :
    r.Reaches name k (t + Lapse.total lapses) signals b := by
  induction hticks generalizing k t with
  | none a => exact .waits 0 h hleft (r.entriesAfter_zero k).symm
  | @tick a b lapse later signals changed hok rest ih =>
      have htotal : t + Lapse.total (lapse :: later) = t + lapse.millis + Lapse.total later := by
        simp [Lapse.total, Nat.add_assoc]
      rw [htotal]
      cases h.tick hleft hok with
      | waits n hat hless hsignals =>
          rw [hsignals]
          exact (ih hat hless).trans
      | ends n hrepeats hlast hover hidle hsignals =>
          obtain ⟨hnone, hstill⟩ := rest.of_idle hidle
          rw [hnone, List.append_nil]
          exact .ends n hrepeats hlast (by omega) hstill hsignals

/-! ## The closed form -/

/-- What an animator shows `t` after it started a reel, and what it has signalled by then. -/
structure Shows (r : Reel) (t : Nat) (signals : List Signal) (a : Animator) : Prop where
  /-- It is playing. -/
  playing : a.playback.playing = true
  /-- The frame is the one that a round has after what is left of the time without whole rounds, and
  the countdown is the time up to its end. -/
  onScreen : ∃ i, ∃ h : i < r.cels.length,
    r.onset i ≤ t % r.span ∧ t % r.span < r.onset (i + 1) ∧
      a.playback.frame = some r.cels[i].frame ∧
      Single.toInt? a.playback.countdown = some ((r.onset (i + 1) : Int) - (t % r.span : Nat))
  /-- There is a loop for every whole round. -/
  loops : signals.count .loop = t / r.span
  /-- Nothing has stopped. -/
  noStop : ∀ animation, Signal.stop animation ∉ signals

/-- How an animator plays a reel from its start, which has given the first signals: where any run of
ticks gets, given by nothing but the time that they add up to. -/
structure PlaysReel (r : Reel) (name : String) (o : Outcome Animator Unit) : Prop where
  /-- The start succeeds. -/
  result_eq : o.result = .ok ()
  /-- A reel that repeats is shown at all times, and one that does not up to its end. -/
  shows : ∀ {lapses signals b}, Ticks o.state lapses signals b →
    r.repeats = true ∨ Lapse.total lapses < r.span →
      r.Shows (Lapse.total lapses) (o.signals ++ signals) b
  /-- Once a reel that does not repeat is at its end, every frame was signalled once, in order, and
  then the end, and nothing plays any more. -/
  ends : ∀ {lapses signals b}, Ticks o.state lapses signals b → r.repeats = false →
    r.span ≤ Lapse.total lapses →
      o.signals ++ signals = (r.cels.map fun c => .frame c.frame) ++ [.stop (some name)] ∧
        b.playback.playing = false
  /-- The end is signalled in the tick that gets there. -/
  stops : ∀ {lapses signals b} {lapse : Lapse} {changed}, Ticks o.state lapses signals b →
    (b.tick lapse.time).result = .ok changed → r.repeats = false →
      ((∃ animation, Signal.stop animation ∈ (b.tick lapse.time).signals) ↔
        Lapse.total lapses < r.span ∧ r.span ≤ Lapse.total lapses + lapse.millis)

theorem At.shows (h : r.At name k t a) (hleft : t < r.start (k + 1)) :
    r.Shows t (r.entries k) a := by
  obtain ⟨hround, honset, hrest⟩ := r.round_eq h.begun hleft
  have hlt : k % r.cels.length < r.cels.length := Nat.mod_lt k r.length_pos
  refine ⟨h.playing, ⟨k % r.cels.length, hlt, honset, by omega, h.frame_eq, ?_⟩, ?_, ?_⟩
  · rw [Single.toInt?_eq_some_iff]
    have heq : (r.start (k + 1) : Int) - t =
        (r.onset (k % r.cels.length + 1) : Int) - (t % r.span : Nat) := by omega
    exact heq ▸ h.countdown
  · rw [r.count_loop_entries, hround]
  · exact r.stop_not_mem_entries k

theorem start_length (r : Reel) : r.start r.cels.length = r.span := by
  rw [r.start_eq, Nat.div_self r.length_pos, Nat.mod_self]
  simp [onset]

/-- What is reached from the first frame is given by the time alone. -/
theorem Reaches.closed (h : r.Reaches name 0 t signals a) :
    (r.repeats = true ∨ t < r.span → r.Shows t (r.entry 0 ++ signals) a) ∧
    (r.repeats = false → r.span ≤ t →
      r.entry 0 ++ signals = (r.cels.map fun c => .frame c.frame) ++ [.stop (some name)] ∧
        a.playback.playing = false) := by
  cases h with
  | waits n h hleft hsignals =>
      rw [Nat.zero_add] at h hleft
      rw [hsignals, ← r.entries_eq]
      refine ⟨fun _ => h.shows hleft, ?_⟩
      -- a frame of the first round is on screen, so the round is not over
      intro hrepeats hover
      have hinside : n < r.cels.length := h.inside.resolve_left (by simp [hrepeats])
      have hround := (r.round_eq h.begun hleft).1
      rw [Nat.div_eq_of_lt hinside] at hround
      exact absurd (Nat.lt_of_div_eq_zero r.span_pos hround) (Nat.not_lt.2 hover)
  | ends n hrepeats hlast hover hidle hsignals =>
      rw [r.start_length] at hover
      refine ⟨?_, fun _ _ => ⟨?_, hidle⟩⟩
      · rintro (hagain | hless)
        · simp [hrepeats] at hagain
        · omega
      · rw [Nat.zero_add] at hlast
        rw [hsignals, ← List.append_assoc, ← r.entries_eq, r.entries_of_lt (by omega), hlast,
          List.take_length]

/-- Starting a reel shows its first frame for its hold. -/
theorem at_animate (hget : a.animations.get? name = some r.steps) (reverse : Bool)
    {timeScale : Option Float32} (hscale : timeScale.getD a.frameTime = r.scale) :
    (a.animate name reverse timeScale).result = .ok () ∧
      (a.animate name reverse timeScale).signals = r.entry 0 ∧
      r.At name 0 0 (a.animate name reverse timeScale).state := by
  have hlaunch : a.animate name reverse timeScale =
      a.launch r.steps (some name) reverse r.scale := by
    unfold Animator.animate
    rw [hget, ← hscale]
  have hwhole := (Single.toInt?_eq_some_iff _ _).1 r.scale_eq
  have hvalid : ¬(r.scale.isFinite = false ∨ r.scale ≤ 0.0) := by
    rw [not_or, hwhole.le_iff Single.isWhole_zero]
    have hmillis := r.millis_pos
    exact ⟨hwhole.not_infinite, by omega⟩
  have hne : r.steps ≠ [] := by
    have hlength := r.length_steps
    have hpos := r.length_pos
    rw [← List.length_pos_iff]
    omega
  have hbegun : r.Loaded name (a.begun r.steps (some name) reverse r.scale) := ⟨rfl, rfl, rfl, rfl⟩
  obtain ⟨b, hshown, hb⟩ := hbegun.shows (k := 0) (t := 0) (Nat.zero_mod _).symm
    (Or.inr r.length_pos) Single.isWhole_zero (Nat.le_refl 0) (Nat.zero_le _)
  have hresolve : (a.begun r.steps (some name) reverse r.scale).resolve 0.0 =
      { state := b, signals := [.frame (r.cel 0).frame], result := .ok () } :=
    Animator.resolveWithin_of_shown hshown
  rw [hlaunch, Animator.launch_eq hvalid hne, hresolve]
  exact ⟨rfl, by simp [Animator.stopOnFailure, entry], hb⟩

/-- An animator that starts a reel plays it to the millisecond: what it shows and what it has
signalled after ticks that succeed depends only on the time that they add up to. -/
theorem playsReel_of_animate {a : Animator} {name : String} {r : Reel} {reverse : Bool}
    {timeScale : Option Float32} (hget : a.animations.get? name = some r.steps)
    (hscale : timeScale.getD a.frameTime = r.scale) :
    r.PlaysReel name (a.animate name reverse timeScale) := by
  obtain ⟨hresult, hsignals, hat⟩ := at_animate hget reverse hscale
  have hstart : 0 < r.start (0 + 1) := by
    rw [r.start_succ]
    exact Nat.add_pos_right _ (r.hold_pos 0)
  have hclosed : ∀ {lapses signals b},
      Ticks (a.animate name reverse timeScale).state lapses signals b →
        (r.repeats = true ∨ Lapse.total lapses < r.span →
          r.Shows (Lapse.total lapses)
            ((a.animate name reverse timeScale).signals ++ signals) b) ∧
        (r.repeats = false → r.span ≤ Lapse.total lapses →
          (a.animate name reverse timeScale).signals ++ signals =
              (r.cels.map fun c => .frame c.frame) ++ [.stop (some name)] ∧
            b.playback.playing = false) := by
    intro lapses signals b hticks
    have hreaches := hat.ticks hstart hticks
    rw [Nat.zero_add] at hreaches
    exact hsignals ▸ hreaches.closed
  refine ⟨hresult, fun hticks => (hclosed hticks).1, fun hticks => (hclosed hticks).2, ?_⟩
  intro lapses signals b lapse changed hticks hok hrepeats
  have hmore := hclosed (hticks.snoc hok)
  have htotal : Lapse.total (lapses ++ [lapse]) = Lapse.total lapses + lapse.millis := by
    simp [Lapse.total]
  rw [htotal, ← List.append_assoc] at hmore
  constructor
  · rintro ⟨animation, hstop⟩
    have hmem : Signal.stop animation ∈ (a.animate name reverse timeScale).signals ++ signals ++
        (b.tick lapse.time).signals := List.mem_append_right _ hstop
    constructor
    · -- behind the end nothing is signalled
      refine Nat.not_le.1 fun hover => ?_
      have hidle := ((hclosed hticks).2 hrepeats hover).2
      have htime := (Single.toInt?_eq_some_iff _ _).1 lapse.time_eq
      rw [Animator.tick_of_idle htime.not_infinite hidle] at hstop
      cases hstop
    · refine Nat.not_lt.1 fun hless => ?_
      exact (hmore.1 (Or.inr hless)).noStop animation hmem
  · rintro ⟨hless, hover⟩
    have hend := (hmore.2 hrepeats hover).1
    have hmem : Signal.stop (some name) ∈ (a.animate name reverse timeScale).signals ++ signals ++
        (b.tick lapse.time).signals := by simp [hend]
    rcases List.mem_append.1 hmem with hbefore | htick
    · exact absurd hbefore (((hclosed hticks).1 (Or.inr hless)).noStop _)
    · exact ⟨_, htick⟩

/-- Three frames over and over, one of them with a range that leaves no choice. -/
def carousel : Reel where
  cels :=
    [⟨3, .fixed 2.0, 2, fun _ => (by decide +kernel : Single.toInt? 2.0 = some 2), by decide⟩,
      ⟨5, .range 1 1, 1, FrameDuration.counts_range (by decide), by decide⟩,
      ⟨4, .fixed 3.0, 3, fun _ => (by decide +kernel : Single.toInt? 3.0 = some 3), by decide⟩]
  repeats := true
  scale := 150.0
  millis := 150
  length_pos := by decide
  scale_eq := by decide +kernel
  millis_pos := by decide
  fits := by decide

/-- An animator that knows it. -/
def showman : Animator :=
  .create { entries := [("carousel", carousel.steps)] } {} (Random.ofSeed 7)

/-- Times that are more than a round, none, and some of a round. -/
def outing : List Lapse :=
  [⟨1000.0, 1000, by decide +kernel, by decide⟩, ⟨0.0, 0, by decide +kernel, by decide⟩,
    ⟨475.0, 475, by decide +kernel, by decide⟩]

theorem playsReel_carousel :
    carousel.PlaysReel "carousel" (showman.animate "carousel" false none) ∧
      ∃ signals b, Ticks (showman.animate "carousel" false none).state outing signals b := by
  refine ⟨playsReel_of_animate rfl rfl, ?_⟩
  refine ⟨_, _, .tick_of_isOk ?_ (.tick_of_isOk ?_ (.tick_of_isOk ?_ (.none _)))⟩
  · decide +kernel
  · decide +kernel
  · decide +kernel

end Reel

end SpriteStage
