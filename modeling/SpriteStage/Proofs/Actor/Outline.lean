import SpriteStage.Proofs.Animator.Reset
import SpriteStage.Scene.Play

/-!
# What an actor does without regard to where it is

The outline of an actor leaves out what a node shows besides its visibility, and the ways of the
motions; a paced outline keeps the times of the motions, and one that is not paced has no motions.
The outline alone determines what an action does to the outline, what it signals and whether it
fails (`sameOutline_perform`), and what time does to it, but for the ends of motions
(`sameCourse_tick`). Only a motion by speed takes a time that depends on its way, so a paced
outline determines the ends of motions as well, as long as there is none of these.
-/

set_option autoImplicit false

namespace SpriteStage

/-- The motion without its way, which is at the value all the time. -/
def Tween.pace {V : Type} (value : V) (t : Tween V) : Tween V :=
  { t with origin := value, delta := value, target := value }

/-- The motions without their ways, or no motions. -/
def Motions.outline (paced : Bool) (m : Motions) : Motions :=
  if paced then
    { m with
      position := m.position.map (Tween.pace ⟨.zero, .zero⟩)
      rotation := m.rotation.map (Tween.pace 0.0) }
  else m.cancel

/-- The actor without what is drawn of it, and with its motions in outline. -/
def Actor.outline (paced : Bool) (a : Actor) : Actor :=
  { a with node := { visible := a.node.visible }, motions := a.motions.outline paced }

/-- A motion whose time depends on its way. -/
def SceneAction.BySpeed : SceneAction → Prop
  | .move _ _ (some _) _ => True
  | _ => False

/-- Two outcomes of an operation on actors that cannot be told apart by the outlines. -/
structure SameOutline {α : Type} (paced : Bool) (o p : Outcome Actor α) : Prop where
  /-- The outlines of the actors. -/
  state_eq : o.state.outline paced = p.state.outline paced
  /-- The signals. -/
  signals_eq : o.signals = p.signals
  /-- The lines of the log. -/
  log_eq : o.log = p.log
  /-- The answers. -/
  result_eq : o.result = p.result

/-- Two outcomes of time that cannot be told apart by the outlines, but for the ends of motions if
these are not paced. -/
structure SameCourse (paced : Bool) (o p : Outcome Actor Bool) : Prop where
  /-- The outlines of the actors. -/
  state_eq : o.state.outline paced = p.state.outline paced
  /-- The signals besides the ends of motions. -/
  signals_eq : o.signals.filter (· ≠ .moveDone) = p.signals.filter (· ≠ .moveDone)
  /-- The errors. -/
  error_eq : (o.result.map fun _ => ()) = p.result.map fun _ => ()
  /-- All signals and the answers, if the motions are paced. -/
  paced_eq : paced = true → o.signals = p.signals ∧ o.result = p.result

theorem Tween.isDone_pace {V : Type} (value : V) (t : Tween V) :
    (t.pace value).isDone = t.isDone := rfl

namespace Motions

variable {paced : Bool}

theorem outline_outline (m : Motions) : (m.outline paced).outline paced = m.outline paced := by
  obtain ⟨position, rotation, easing⟩ := m
  cases paced with
  | false => rfl
  | true =>
      cases position with
      | none =>
          cases rotation with
          | none => rfl
          | some r => rfl
      | some p =>
          cases rotation with
          | none => rfl
          | some r => rfl

theorem outline_cancel (m : Motions) : m.cancel.outline paced = m.cancel := by
  cases paced with
  | false => rfl
  | true => rfl

theorem defaultEasing_outline (m : Motions) :
    (m.outline paced).defaultEasing = m.defaultEasing := by
  cases paced with
  | false => rfl
  | true => rfl

/-- A motion whose timing is refused leaves the position at rest. -/
theorem startMove_of_error {m : Motions} {origin target : Point Coordinate} {options : MoveOptions}
    {fault : TweenFault} (h : options.timing.check = .error fault) :
    m.startMove origin target options =
      .failure { m with position := none } (.invalidTween fault) := by
  unfold startMove tween
  rw [h]

/-- A motion whose timing is accepted starts at the origin. -/
theorem startMove_of_ok {m : Motions} {origin target : Point Coordinate} {options : MoveOptions}
    {u : Unit} (h : options.timing.check = .ok u) :
    m.startMove origin target options =
      .success
        { m with
          position :=
            some
              { origin := origin
                delta := target - origin
                target := target
                duration := options.timing.span (longerWay (target - origin))
                easing := options.easing.getD m.defaultEasing } } () := by
  unfold startMove tween
  rw [h]

theorem defaultEasing_startMove (m : Motions) (origin target : Point Coordinate)
    (options : MoveOptions) :
    (m.startMove origin target options).state.defaultEasing = m.defaultEasing := by
  cases hcheck : options.timing.check with
  | error fault => rw [startMove_of_error hcheck]; rfl
  | ok u => rw [startMove_of_ok hcheck]; rfl

/-- Another motion of the position changes that part of the outline only. -/
theorem outline_position (m : Motions) {p q : Option (Tween (Point Coordinate))}
    (h : paced = true → p.map (Tween.pace ⟨.zero, .zero⟩) = q.map (Tween.pace ⟨.zero, .zero⟩)) :
    ({ m with position := p } : Motions).outline paced =
      ({ m.outline paced with position := q } : Motions).outline paced := by
  obtain ⟨position, rotation, easing⟩ := m
  cases paced with
  | false => rfl
  | true =>
      unfold outline
      rw [if_pos rfl, if_pos rfl, if_pos rfl, h rfl]
      cases rotation with
      | none => rfl
      | some r => rfl

theorem span_duration (time distance : Float32) :
    (Timing.duration time).span distance = time := rfl

/-- Whether a motion starts does not depend on where it starts, and its outline does not either,
unless the motion is paced and goes at a given speed. -/
theorem startMove_outline (m : Motions) (origin start target : Point Coordinate)
    {options : MoveOptions}
    (hpaced : paced = true → ∃ time, options.timing = .duration time) :
    (m.startMove origin target options).state.outline paced =
        ((m.outline paced).startMove start target options).state.outline paced ∧
      (m.startMove origin target options).signals =
        ((m.outline paced).startMove start target options).signals ∧
      (m.startMove origin target options).log =
        ((m.outline paced).startMove start target options).log ∧
      (m.startMove origin target options).result =
        ((m.outline paced).startMove start target options).result := by
  cases hcheck : options.timing.check with
  | error fault =>
      rw [startMove_of_error hcheck, startMove_of_error hcheck]
      exact ⟨m.outline_position fun _ => rfl, rfl, rfl, rfl⟩
  | ok u =>
      rw [startMove_of_ok hcheck, startMove_of_ok hcheck]
      refine ⟨m.outline_position ?_, rfl, rfl, rfl⟩
      intro h
      obtain ⟨time, htime⟩ := hpaced h
      rw [htime, span_duration, span_duration, defaultEasing_outline]
      rfl

/-! ## Time -/

/-- What is left of a motion after some time does not depend on its way. -/
theorem unfinished_pace {V : Type} (value : V) (p : Option (Tween V)) (elapsed : Float32) :
    (((p.map (Tween.pace value)).map (·.advance elapsed)).bind Tween.unfinished?).map
        (Tween.pace value) =
      ((p.map (·.advance elapsed)).bind Tween.unfinished?).map (Tween.pace value) := by
  cases p with
  | none => rfl
  | some t =>
      show ((t.advance elapsed).pace value).unfinished?.map (Tween.pace value) =
        (t.advance elapsed).unfinished?.map (Tween.pace value)
      unfold Tween.unfinished?
      rw [Tween.isDone_pace]
      cases (t.advance elapsed).isDone with
      | false => rfl
      | true => rfl

/-- The outline determines the outline after some time, wherever the node is. -/
theorem outline_tick (m : Motions) (elapsed : Float32) (node start : SpriteNode) :
    (m.tick elapsed node).motions.outline paced =
      ((m.outline paced).tick elapsed start).motions.outline paced := by
  cases paced with
  | false => rfl
  | true =>
      show ({ position := _, rotation := _, defaultEasing := _ } : Motions) =
        { position := _, rotation := _, defaultEasing := _ }
      congr 1
      · exact (unfinished_pace _ m.position elapsed).symm
      · exact (unfinished_pace _ m.rotation elapsed).symm

/-- Paced motions end at the same times, wherever they go. -/
theorem tick_outline_true (m : Motions) (elapsed : Float32) (node start : SpriteNode) :
    (m.tick elapsed node).signals = ((m.outline true).tick elapsed start).signals ∧
      (m.tick elapsed node).changed = ((m.outline true).tick elapsed start).changed := by
  obtain ⟨position, rotation, easing⟩ := m
  cases position with
  | none =>
      cases rotation with
      | none => exact ⟨rfl, rfl⟩
      | some r => exact ⟨rfl, rfl⟩
  | some p =>
      cases rotation with
      | none => exact ⟨rfl, rfl⟩
      | some r => exact ⟨rfl, rfl⟩

/-- Motions signal nothing but their ends. -/
theorem filter_signals_tick (m : Motions) (elapsed : Float32) (node : SpriteNode) :
    (m.tick elapsed node).signals.filter (· ≠ .moveDone) = [] := by
  show (if (m.position.map (·.advance elapsed)).any Tween.isDone then [Signal.moveDone]
    else []).filter (· ≠ .moveDone) = []
  cases (m.position.map (·.advance elapsed)).any Tween.isDone with
  | false => rfl
  | true => rfl

end Motions

namespace Actor

variable {paced : Bool} {a b : Actor}

/-- Actors have the same outline just if they have the same parts in outline. -/
theorem outline_eq_iff : a.outline paced = b.outline paced ↔
    a.asset = b.asset ∧ a.animator = b.animator ∧ a.placed = b.placed ∧ a.seed = b.seed ∧
      a.node.visible = b.node.visible ∧ a.motions.outline paced = b.motions.outline paced := by
  constructor
  · intro h
    exact ⟨congrArg (fun c => c.asset) h, congrArg (fun c => c.animator) h,
      congrArg (fun c => c.placed) h, congrArg (fun c => c.seed) h,
      congrArg (fun c => c.node.visible) h, congrArg (fun c => c.motions) h⟩
  · rintro ⟨hasset, hanimator, hplaced, hseed, hvisible, hmotions⟩
    unfold outline
    rw [hasset, hanimator, hplaced, hseed, hvisible, hmotions]

theorem outline_outline (a : Actor) : (a.outline paced).outline paced = a.outline paced :=
  outline_eq_iff.2 ⟨rfl, rfl, rfl, rfl, rfl, a.motions.outline_outline⟩

theorem outline_follow {α : Type} (a : Actor) (o : Outcome Animator α) (sheet : FrameSheet) :
    (a.follow o sheet).state.outline paced = { a.outline paced with animator := o.state } := by
  unfold follow
  cases (if o.signals.any Signal.isFrame then o.state.playback.frame else none) with
  | none => rfl
  | some frame => rfl

theorem outline_started (a : Actor) (o : Outcome Animator Unit) (sheet : FrameSheet) :
    (a.started o sheet).state.outline paced = { a.outline paced with animator := o.state } := by
  obtain ⟨state, signals, log, result⟩ := o
  cases result with
  | ok answer => exact outline_follow { a with node := a.node.facing state.playback.flip } _ sheet
  | error cause => rfl

theorem sameOutline_started (a : Actor) (o : Outcome Animator Unit) (sheet : FrameSheet) :
    SameOutline paced (a.started o sheet) ((a.outline paced).started o sheet) := by
  have hstate : (a.started o sheet).state.outline paced =
      ((a.outline paced).started o sheet).state.outline paced := by
    rw [outline_started, outline_started, outline_outline]
  obtain ⟨state, signals, log, result⟩ := o
  cases result with
  | ok answer => exact ⟨hstate, rfl, rfl, rfl⟩
  | error cause => exact ⟨hstate, rfl, rfl, rfl⟩

theorem perform_move_of_error {target : Point Float32} {duration speed : Option Float32}
    {ease : Option String} {cause : AnimationError}
    (h : MoveOptions.ofFields duration speed ease = .error cause) (sheet : FrameSheet) :
    a.perform (.move target duration speed ease) sheet = .failure a cause := by
  unfold perform
  dsimp only
  rw [h]

theorem perform_move_of_ok {target : Point Float32} {duration speed : Option Float32}
    {ease : Option String} {options : MoveOptions}
    (h : MoveOptions.ofFields duration speed ease = .ok options) (sheet : FrameSheet) :
    a.perform (.move target duration speed ease) sheet =
      a.moveTo (target.map .ofSingle) options := by
  unfold perform
  dsimp only
  rw [h]

/-- Options without a speed are by duration. -/
theorem duration_of_ofFields {duration speed : Option Float32} {ease : Option String}
    {options : MoveOptions} (h : MoveOptions.ofFields duration speed ease = .ok options)
    (hspeed : speed = none) : ∃ time, options.timing = .duration time := by
  subst hspeed
  cases duration with
  | none => cases h
  | some time =>
      have hmap : (MoveOptions.easingOfName? ease).map
          (fun easing => (⟨.duration time, easing⟩ : MoveOptions)) = .ok options := h
      cases heasing : MoveOptions.easingOfName? ease with
      | error cause =>
          rw [heasing] at hmap
          cases hmap
      | ok easing =>
          rw [heasing] at hmap
          cases hmap
          exact ⟨time, rfl⟩

/-- The outline determines what comes of an action, apart from the times of motions by speed. -/
theorem sameOutline_perform (a : Actor) {action : SceneAction}
    (hpaced : paced = true → ¬ action.BySpeed) (sheet : FrameSheet) :
    SameOutline paced (a.perform action sheet) ((a.outline paced).perform action sheet) := by
  cases action with
  | place target =>
      refine ⟨?_, rfl, rfl, rfl⟩
      exact outline_eq_iff.2 ⟨rfl, rfl, rfl, rfl, rfl, a.motions.outline_outline.symm⟩
  | unplace =>
      refine ⟨?_, rfl, rfl, rfl⟩
      exact outline_eq_iff.2 ⟨rfl, rfl, rfl, rfl, rfl, a.motions.outline_outline.symm⟩
  | animate animation reverse frameTime => exact sameOutline_started a _ sheet
  | move target duration speed ease =>
      cases hoptions : MoveOptions.ofFields duration speed ease with
      | error cause =>
          rw [perform_move_of_error hoptions, perform_move_of_error hoptions]
          exact ⟨a.outline_outline.symm, rfl, rfl, rfl⟩
      | ok options =>
          -- a motion without a speed takes the same time from anywhere
          have htimed : paced = true → ∃ time, options.timing = .duration time := by
            intro h
            refine duration_of_ofFields hoptions ?_
            cases speed with
            | none => rfl
            | some rate => exact absurd trivial (hpaced h)
          obtain ⟨hmotions, hsignals, hlog, hresult⟩ := a.motions.startMove_outline
            a.node.position (a.outline paced).node.position (target.map .ofSingle) htimed
          rw [perform_move_of_ok hoptions, perform_move_of_ok hoptions]
          exact ⟨outline_eq_iff.2 ⟨rfl, rfl, rfl, rfl, rfl, hmotions⟩, hsignals, hlog, hresult⟩

theorem sameOutline_follow {α : Type} (a : Actor) (o : Outcome Animator α) (sheet : FrameSheet) :
    SameOutline paced (a.follow o sheet) ((a.outline paced).follow o sheet) := by
  have hstate : (a.follow o sheet).state.outline paced =
      ((a.outline paced).follow o sheet).state.outline paced := by
    rw [outline_follow, outline_follow, outline_outline]
  exact ⟨hstate, rfl, rfl, rfl⟩

/-- Motions do the same to the outlines of actors that have the same outline. -/
theorem sameCourse_moved {o p : Outcome Actor Bool} (h : SameOutline paced o p)
    (elapsed : Float32) : SameCourse paced (moved o elapsed) (moved p elapsed) := by
  obtain ⟨hasset, hanimator, hplaced, hseed, hvisible, hmotions⟩ := outline_eq_iff.1 h.state_eq
  refine ⟨?_, ?_, ?_, ?_⟩
  · refine outline_eq_iff.2 ⟨hasset, hanimator, hplaced, hseed, hvisible, ?_⟩
    show (o.state.motions.tick elapsed o.state.node).motions.outline paced =
      (p.state.motions.tick elapsed p.state.node).motions.outline paced
    -- through the outline of the motions, which both have
    rw [Motions.outline_tick _ elapsed _ p.state.node, hmotions, ← Motions.outline_tick]
  · show (o.signals ++ (o.state.motions.tick elapsed o.state.node).signals).filter _ =
      (p.signals ++ (p.state.motions.tick elapsed p.state.node).signals).filter _
    rw [List.filter_append, List.filter_append, Motions.filter_signals_tick,
      Motions.filter_signals_tick, h.signals_eq]
  · show ((o.result.map _).map fun _ => ()) = (p.result.map _).map fun _ => ()
    rw [h.result_eq]
    cases p.result with
    | error cause => rfl
    | ok changed => rfl
  · intro hpaced
    subst hpaced
    -- both end the motions that their one outline ends
    have ho := Motions.tick_outline_true o.state.motions elapsed o.state.node p.state.node
    have hp := Motions.tick_outline_true p.state.motions elapsed p.state.node p.state.node
    rw [hmotions] at ho
    refine ⟨?_, ?_⟩
    · show o.signals ++ _ = p.signals ++ _
      rw [h.signals_eq, ho.1.trans hp.1.symm]
    · show o.result.map (fun changed => changed || _) = p.result.map fun changed => changed || _
      rw [h.result_eq, ho.2.trans hp.2.symm]

/-- The outline determines what time does to it, but for the ends of motions. -/
theorem sameCourse_tick (paced : Bool) (a : Actor) (elapsed : Float32) (sheet : FrameSheet) :
    SameCourse paced (a.tick elapsed sheet) ((a.outline paced).tick elapsed sheet) := by
  unfold tick
  by_cases hfinite : elapsed.isFinite = false
  · rw [if_pos hfinite, if_pos hfinite]
    exact ⟨a.outline_outline.symm, rfl, rfl, fun _ => ⟨rfl, rfl⟩⟩
  · rw [if_neg hfinite, if_neg hfinite]
    exact sameCourse_moved (a.sameOutline_follow _ sheet) elapsed

end Actor

end SpriteStage
