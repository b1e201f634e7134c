import SpriteStage.Proofs.Actor.Reset
import SpriteStage.Proofs.Animator.Failure

/-!
# Failures of an actor

An actor whose animation cannot be started is left as it was, but for its animator, and that is idle
and shows what it showed before (`failedStart_started`). A tick whose time is refused does nothing,
and one that fails for anything else leaves the animator idle. From then on the animator does
nothing until something is started, while the motions go on (`resting_of_idle`).
-/

set_option autoImplicit false

namespace SpriteStage

/-- Whether the step starts an animation, or tries to. -/
def ActorStep.isStart : ActorStep → Bool
  | .command (.animate ..) => true
  | .command (.animateManual ..) => true
  | _ => false

namespace Motions

variable {m : Motions} {options : MoveOptions}

theorem signals_startMove (m : Motions) (origin target : Point Coordinate)
    (options : MoveOptions) : (m.startMove origin target options).signals = [] := by
  cases hcheck : options.timing.check with
  | error fault => rw [startMove_of_error hcheck]; rfl
  | ok u => rw [startMove_of_ok hcheck]; rfl

theorem signals_startRotate (m : Motions) (current angle : Float32) (options : MoveOptions) :
    (m.startRotate current angle options).signals = [] := by
  cases hcheck : options.timing.check with
  | error fault => rw [startRotate_of_error hcheck]; rfl
  | ok u => rw [startRotate_of_ok hcheck]; rfl

/-- Motions signal nothing but their end. -/
theorem eq_moveDone_of_mem_tick {elapsed : Float32} {node : SpriteNode} {signal : Signal}
    (h : signal ∈ (m.tick elapsed node).signals) : signal = .moveDone := by
  unfold tick at h
  dsimp only at h
  split at h
  · exact List.mem_singleton.1 h
  · cases h

end Motions

namespace Actor

variable {a : Actor} {sheet : FrameSheet} {elapsed : Float32}

/-! ## Actors at rest -/

/-- Until something is started, time does nothing to the animator, and the actor signals nothing but
the ends of motions. -/
def Resting (a : Actor) : Prop :=
  ∀ later : List (FrameSheet × ActorStep), (∀ s ∈ later, s.2.isStart = false) →
    (∀ o ∈ a.replies later, ∀ signal ∈ o.signals, signal = .moveDone) ∧
      ∀ elapsed, elapsed.isFinite = true →
        (a.ran later).animator.tick elapsed = .success (a.ran later).animator false

/-- What a step that starts nothing does to an actor whose animator is idle. -/
structure Rests (a : Actor) (sheet : FrameSheet) (step : ActorStep) : Prop where
  /-- The animator is idle again. -/
  idle : (a.take sheet step).state.animator.Idle
  /-- Nothing but the ends of motions is signalled. -/
  moveDone : ∀ signal ∈ (a.reply sheet step).signals, signal = .moveDone

theorem signals_tick_of_idle (h : a.animator.Idle) (sheet : FrameSheet) :
    ∀ signal ∈ (a.tick elapsed sheet).signals, signal = .moveDone := by
  intro signal hsignal
  unfold tick at hsignal
  by_cases hinvalid : elapsed.isFinite = false
  · rw [if_pos hinvalid] at hsignal
    cases hsignal
  · -- the animator has no part in it
    rw [if_neg hinvalid, h.tick_eq, if_neg hinvalid] at hsignal
    have hmotions : signal ∈ (a.motions.tick elapsed a.node).signals := hsignal
    exact Motions.eq_moveDone_of_mem_tick hmotions

theorem rests_of_idle (h : a.animator.Idle) (sheet : FrameSheet) {step : ActorStep}
    (hstep : step.isStart = false) : a.Rests sheet step := by
  cases step with
  | command command =>
      cases command with
      | animate name reverse timeScale => cases hstep
      | animateManual steps reverse timeScale => cases hstep
      | showFrame frame => exact ⟨⟨rfl, rfl⟩, nofun⟩
      | stop => exact ⟨a.animator.idle_stop, nofun⟩
      | tick elapsed =>
          refine ⟨?_, signals_tick_of_idle h sheet⟩
          have hcall : (AnimatorCall.tick elapsed).isStart = false := rfl
          show (a.tick elapsed sheet).state.animator.Idle
          rw [animator_tick]
          exact (h.respond hcall).1
      | moveTo target options =>
          have hsilent := Motions.signals_startMove a.motions a.node.position target options
          exact ⟨h, fun signal hsignal => by cases hsilent ▸ hsignal⟩
      | rotateTo target options =>
          have hsilent := Motions.signals_startRotate a.motions a.node.rotation target options
          exact ⟨h, fun signal hsignal => by cases hsilent ▸ hsignal⟩
      | cancel => exact ⟨h, nofun⟩
      | reset => exact ⟨⟨rfl, rfl⟩, nofun⟩
  | write part => exact ⟨h, nofun⟩
  | mark placed => exact ⟨h, nofun⟩

theorem resting_of_idle (h : a.animator.Idle) : a.Resting := by
  intro later hlater
  induction later generalizing a with
  | nil =>
      refine ⟨by simp [replies], fun elapsed hfinite => ?_⟩
      rw [ran_nil, h.tick_eq, hfinite]
      rfl
  | cons first later ih =>
      obtain ⟨sheet, step⟩ := first
      obtain ⟨hstep, hrest⟩ := List.forall_mem_cons.1 hlater
      have hrests := rests_of_idle h sheet hstep
      obtain ⟨hreplies, htick⟩ := ih hrests.idle hrest
      rw [replies, ran_cons]
      exact ⟨List.forall_mem_cons.2 ⟨hrests.moveDone, hreplies⟩, htick⟩

/-! ## Starts -/

/-- What a start that failed leaves behind. -/
structure FailedStart (a : Actor) (o : Outcome Actor Unit) : Prop where
  /-- The node stays as it is. -/
  node_eq : o.state.node = a.node
  /-- So do the motions. -/
  motions_eq : o.state.motions = a.motions
  /-- All that the actor did was done by its animator, which failed. -/
  embed_eq : ∃ p, a.animator.FailedStart p ∧
    o = p.embed fun animator => { a with animator := animator }
  /-- Nothing happens until something is started, but for the motions. -/
  resting : o.state.Resting

theorem failedStart_started {o : Outcome Animator Unit} {cause : AnimationError}
    (h : o.result = .error cause) (hanimator : a.animator.FailedStart o) (sheet : FrameSheet) :
    a.FailedStart (a.started o sheet) := by
  have heq : a.started o sheet = o.embed fun animator => { a with animator := animator } := by
    rw [started, h]
  rw [heq]
  exact
    { node_eq := rfl
      motions_eq := rfl
      embed_eq := ⟨o, hanimator, rfl⟩
      resting := resting_of_idle hanimator.idle }

/-! ## Ticks -/

theorem tick_of_error_invalidElapsed {value : Float32}
    (h : (a.tick elapsed sheet).result = .error (.invalidElapsed value)) :
    a.tick elapsed sheet = .failure a (.invalidElapsed value) := by
  have hinvalid := Animator.isFinite_of_tick_invalidElapsed (a.error_of_tick h)
  have htick : a.tick elapsed sheet = .failure a (.invalidElapsed elapsed) := by
    rw [tick, if_pos hinvalid]
  rw [htick] at h ⊢
  cases h
  rfl

theorem idle_of_tick_error {cause : AnimationError}
    (h : (a.tick elapsed sheet).result = .error cause)
    (hcause : ∀ value, cause ≠ .invalidElapsed value) :
    (a.tick elapsed sheet).state.animator.Idle := by
  rw [animator_tick]
  exact Animator.idle_of_tick_error (a.error_of_tick h) hcause

/-- What an actor does when it fails. -/
structure FailsCleanly (a : Actor) : Prop where
  /-- A named animation that cannot be started. -/
  animate : ∀ name reverse timeScale sheet cause,
    (a.animate name reverse timeScale sheet).result = .error cause →
      a.FailedStart (a.animate name reverse timeScale sheet)
  /-- Authored steps that cannot be started. -/
  animateManual : ∀ steps reverse timeScale sheet cause,
    (a.animateManual steps reverse timeScale sheet).result = .error cause →
      a.FailedStart (a.animateManual steps reverse timeScale sheet)
  /-- A tick that fails leaves the animator idle, and nothing happens until something is started, but
  for the motions. -/
  tick : ∀ elapsed sheet cause, (a.tick elapsed sheet).result = .error cause →
    (∀ value, cause ≠ .invalidElapsed value) →
      (a.tick elapsed sheet).state.animator.Idle ∧ (a.tick elapsed sheet).state.Resting
  /-- A tick whose time is refused changes nothing and signals nothing. -/
  invalidElapsed : ∀ elapsed sheet value,
    (a.tick elapsed sheet).result = .error (.invalidElapsed value) →
      a.tick elapsed sheet = .failure a (.invalidElapsed value)

/-- In all that it does, an actor fails cleanly. -/
theorem failsCleanly (a : Actor) : a.FailsCleanly where
  animate name reverse timeScale sheet cause h := by
    have hresult : (a.animator.animate name reverse timeScale).result = .error cause :=
      (started_eq a _ sheet).2.symm.trans h
    exact failedStart_started hresult (a.animator.failedStart_animate _ _ _ cause hresult) sheet
  animateManual steps reverse timeScale sheet cause h := by
    have hresult : (a.animator.animateManual steps reverse timeScale).result = .error cause :=
      (started_eq a _ sheet).2.symm.trans h
    exact failedStart_started hresult (a.animator.failedStart_animateManual _ _ _ cause hresult)
      sheet
  tick _ _ _ h hcause :=
    ⟨idle_of_tick_error h hcause, resting_of_idle (idle_of_tick_error h hcause)⟩
  invalidElapsed _ _ _ h := tick_of_error_invalidElapsed h

end Actor

/-- Whatever they were doing, animators and actors that fail are idle and show what they showed
before. -/
theorem failures_leave_idle (animator : Animator) (actor : Actor) :
    animator.FailsCleanly ∧ actor.FailsCleanly :=
  ⟨animator.failsCleanly, actor.failsCleanly⟩

end SpriteStage
