import SpriteStage.Proofs.Actor.Channels
import SpriteStage.Proofs.Animator.Reachable
import SpriteStage.Proofs.Single.Zero

/-!
# Actors that no time passes for

A tick leaves an actor settled: an animation that is playing has time left for its frame, and a
motion that is under way is not over and has put the node where it is at that time. Then a tick of no
time finds nothing to do (`Settled.tick`). It adds nothing to the time of a motion, as that is
never negative zero: no step makes it so (`kept_forward`).
-/

set_option autoImplicit false

namespace SpriteStage

open Single (IsZero IsMinusZero)

/-! ## Motions -/

section Tweens

variable {V : Type}

/-- The time that has passed is a number to which no time can be added without changing it. -/
def Tween.Forward (t : Tween V) : Prop := ¬ IsMinusZero t.current

/-- If there is a motion, it has the property. -/
def OfMotion (P : Tween V → Prop) (motion : Option (Tween V)) : Prop := ∀ t, motion = some t → P t

theorem OfMotion.none (P : Tween V → Prop) : OfMotion P none := nofun

theorem Tween.forward_start {t : Tween V} (h : t.current = 0.0) : t.Forward := by
  have hzero : Single.parts (0.0 : Float32) = .zero .positive := rfl
  rw [Tween.Forward, IsMinusZero, h, hzero]
  intro hminus
  cases hminus

/-- What is left of a motion after some time. -/
theorem eq_some_of_unfinished {motion : Option (Tween V)} {elapsed : Float32} {t : Tween V}
    (h : (motion.map (·.advance elapsed)).bind Tween.unfinished? = some t) :
    t.isDone = false ∧ ∃ before, motion = some before ∧ t = before.advance elapsed := by
  obtain ⟨later, hlater, hunfinished⟩ := Option.bind_eq_some_iff.1 h
  obtain ⟨before, hbefore, rfl⟩ := Option.map_eq_some_iff.1 hlater
  unfold Tween.unfinished? at hunfinished
  cases hdone : (before.advance elapsed).isDone with
  | true =>
      rw [if_pos hdone] at hunfinished
      cases hunfinished
  | false =>
      rw [if_neg (by simp [hdone])] at hunfinished
      cases hunfinished
      exact ⟨hdone, before, hbefore, rfl⟩

theorem OfMotion.forward_unfinished {motion : Option (Tween V)}
    (h : OfMotion Tween.Forward motion) (elapsed : Float32) :
    OfMotion Tween.Forward ((motion.map (·.advance elapsed)).bind Tween.unfinished?) := by
  intro t ht
  obtain ⟨-, before, hbefore, rfl⟩ := eq_some_of_unfinished ht
  exact Single.not_isMinusZero_add (h before hbefore) elapsed

/-- Adding no time to a motion. -/
theorem Tween.Forward.advance_of_isZero {t : Tween V} (h : t.Forward) {elapsed : Float32}
    (hzero : IsZero elapsed) : t.advance elapsed = t := by
  have hcurrent : t.current + elapsed = t.current := Single.add_of_isZero h hzero
  simp only [Tween.advance, hcurrent]

variable [Add V] [HMul V Float32 V]

/-- The motion is under way, and the value is the one that it has led to. -/
structure Tween.Leads (value : V) (t : Tween V) : Prop where
  /-- The motion is not over. -/
  isDone_eq : t.isDone = false
  /-- The value is that of the time that has passed. -/
  value_eq : t.value = value
  /-- No time can be added without changing that time. -/
  forward : t.Forward

/-- A motion leads to the value that it has when time has passed for it. -/
theorem OfMotion.leads {motion : Option (Tween V)} (h : OfMotion Tween.Forward motion)
    (elapsed : Float32) (start : V) :
    OfMotion (Tween.Leads ((motion.map (·.advance elapsed)).elim start Tween.value))
      ((motion.map (·.advance elapsed)).bind Tween.unfinished?) := by
  intro t ht
  have hforward := h.forward_unfinished elapsed t ht
  obtain ⟨hdone, before, rfl, rfl⟩ := eq_some_of_unfinished ht
  exact ⟨hdone, rfl, hforward⟩

/-- No time changes neither the motion nor the value that it leads to, and does not end it. -/
theorem OfMotion.advance_of_isZero {motion : Option (Tween V)} {value : V}
    (h : OfMotion (Tween.Leads value) motion) {elapsed : Float32} (hzero : IsZero elapsed) :
    (motion.map (·.advance elapsed)).bind Tween.unfinished? = motion ∧
      (motion.map (·.advance elapsed)).elim value Tween.value = value ∧
      (motion.map (·.advance elapsed)).any Tween.isDone = false := by
  cases motion with
  | none => exact ⟨rfl, rfl, rfl⟩
  | some t =>
      obtain ⟨hdone, hvalue, hforward⟩ := h t rfl
      simp [hforward.advance_of_isZero hzero, Tween.unfinished?, hdone, hvalue]

end Tweens

namespace Motions

/-- No time can be added to a motion without changing it. -/
structure Forward (m : Motions) : Prop where
  /-- The motion of the position. -/
  position : OfMotion Tween.Forward m.position
  /-- The rotation. -/
  rotation : OfMotion Tween.Forward m.rotation

theorem forward_cancel (m : Motions) : m.cancel.Forward := ⟨.none _, .none _⟩

variable {m : Motions}

theorem Forward.tick (h : m.Forward) (elapsed : Float32) (node : SpriteNode) :
    (m.tick elapsed node).motions.Forward :=
  ⟨h.position.forward_unfinished elapsed, h.rotation.forward_unfinished elapsed⟩

/-- A new motion has not gone on for any time. -/
theorem Forward.startMove (h : m.Forward) (origin target : Point Coordinate)
    (options : MoveOptions) : (m.startMove origin target options).state.Forward := by
  cases hcheck : options.timing.check with
  | error fault =>
      rw [startMove_of_error hcheck]
      exact ⟨.none _, h.rotation⟩
  | ok u =>
      rw [startMove_of_ok hcheck]
      refine ⟨?_, h.rotation⟩
      rintro t ⟨⟩
      exact Tween.forward_start rfl

theorem Forward.startRotate (h : m.Forward) (current angle : Float32) (options : MoveOptions) :
    (m.startRotate current angle options).state.Forward := by
  cases hcheck : options.timing.check with
  | error fault =>
      rw [startRotate_of_error hcheck]
      exact ⟨h.position, .none _⟩
  | ok u =>
      rw [startRotate_of_ok hcheck]
      refine ⟨h.position, ?_⟩
      rintro t ⟨⟩
      exact Tween.forward_start rfl

end Motions

theorem Course.forward_take {c : Course} (h : c.motions.Forward) (step : ActorStep) :
    (c.take step).1.motions.Forward := by
  cases step with
  | command command =>
      cases command with
      | tick elapsed =>
          by_cases hfinite : elapsed.isFinite = false
          · simpa only [take, if_pos hfinite] using h
          · simp only [take, if_neg hfinite]
            exact h.tick elapsed { position := c.position, rotation := c.rotation }
      | moveTo target options => exact h.startMove _ _ _
      | rotateTo angle options => exact h.startRotate _ _ _
      | cancel => exact c.motions.forward_cancel
      | reset => exact c.motions.forward_cancel
      | _ => exact h
  | write part => cases part <;> exact h
  | mark placed => exact h

/-! ## Actors -/

namespace Actor

variable {a : Actor} {elapsed : Float32}

/-- No step leaves a motion to which no time can be added without changing it. -/
theorem kept_forward : Kept fun a => a.motions.Forward := by
  intro a sheet step h
  have htake := congrArg Prod.fst (a.course_take sheet step)
  have hforward := Course.forward_take (c := a.course) h step
  rw [← htake] at hforward
  exact hforward

/-- Nothing is due: an animation that is playing has time left for its frame, and the motions that are
under way have led the node to where it is. -/
structure Settled (a : Actor) : Prop where
  /-- Time is left for the frame. -/
  waiting : a.animator.playback.playing = true → ¬ a.animator.playback.countdown ≤ 0.0
  /-- The motion of the position has led there. -/
  position : OfMotion (Tween.Leads a.node.position) a.motions.position
  /-- The rotation has led there. -/
  rotation : OfMotion (Tween.Leads a.node.rotation) a.motions.rotation

/-- A tick leaves an actor settled, whether its animation fails or not. -/
theorem settled_tick (h : a.motions.Forward) (hfinite : elapsed.isFinite = true)
    (sheet : FrameSheet) : (a.tick elapsed sheet).state.Settled := by
  have hvalid : ¬ elapsed.isFinite = false := by simp [hfinite]
  have hcourse := congrArg Prod.fst (a.course_tick hvalid sheet)
  refine ⟨?_, ?_, ?_⟩
  · rw [animator_tick]
    intro hplaying
    by_cases hidle : a.animator.playback.playing = false
    · -- time starts nothing
      rw [Animator.tick_of_idle hvalid hidle] at hplaying
      cases hidle.symm.trans hplaying
    · rw [Animator.tick_eq hvalid hidle] at hplaying ⊢
      exact (Animator.playing_advanceWithin _ _ _ hplaying).2
  · -- the tick writes the value that the motion has reached
    have hleads := h.position.leads elapsed a.node.position
    have hmotion : (a.tick elapsed sheet).state.motions.position = _ :=
      congrArg (fun c => c.motions.position) hcourse
    have hnode : (a.tick elapsed sheet).state.node.position = _ :=
      congrArg (fun c => c.position) hcourse
    rw [hmotion, hnode]
    exact hleads
  · have hleads := h.rotation.leads elapsed a.node.rotation
    have hmotion : (a.tick elapsed sheet).state.motions.rotation = _ :=
      congrArg (fun c => c.motions.rotation) hcourse
    have hnode : (a.tick elapsed sheet).state.node.rotation = _ :=
      congrArg (fun c => c.rotation) hcourse
    rw [hmotion, hnode]
    exact hleads

/-- An animator with time left for its frame lets no time pass. -/
theorem animator_tick_of_isZero
    (h : a.animator.playback.playing = true → ¬ a.animator.playback.countdown ≤ 0.0)
    (hzero : IsZero elapsed) : a.animator.tick elapsed = .success a.animator false := by
  have hvalid : ¬ elapsed.isFinite = false := by simp [hzero.isFinite]
  by_cases hidle : a.animator.playback.playing = false
  · exact Animator.tick_of_idle hvalid hidle
  · have hwaiting := h (by simpa using hidle)
    have hcountdown := Single.sub_of_isZero (fun hdue => hwaiting hdue.le_zero) hzero
    have helapse : a.animator.elapse elapsed = a.animator := by
      simp only [Animator.elapse, hcountdown]
    rw [Animator.tick_eq hvalid hidle, helapse, Animator.advanceWithin_of_waiting hwaiting]
    rfl

/-- Nothing comes of no time: the actor stays as it is, gives no signals and does not fail. -/
theorem Settled.tick (h : a.Settled) (hzero : IsZero elapsed) (sheet : FrameSheet) :
    (a.tick elapsed sheet).state = a ∧ (a.tick elapsed sheet).signals = [] ∧
      ∃ changed, (a.tick elapsed sheet).result = .ok changed := by
  have hvalid : ¬ elapsed.isFinite = false := by simp [hzero.isFinite]
  have hanimator := animator_tick_of_isZero h.waiting hzero
  obtain ⟨hposition, hplace, hquiet⟩ := h.position.advance_of_isZero hzero
  obtain ⟨hrotation, hangle, -⟩ := h.rotation.advance_of_isZero hzero
  have hmotions : a.motions.tick elapsed a.node =
      ⟨a.motions, a.node, [], a.motions.position.isSome || a.motions.rotation.isSome⟩ := by
    simp [Motions.tick, hposition, hplace, hquiet, hrotation, hangle]
  unfold Actor.tick
  rw [if_neg hvalid, hanimator]
  simp only [moved, follow, Outcome.success, List.any_nil]
  simp [hmotions, Except.map]

end Actor

end SpriteStage
