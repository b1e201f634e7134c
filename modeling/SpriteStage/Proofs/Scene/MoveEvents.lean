import SpriteStage.Proofs.Actor.Unchanged
import SpriteStage.Proofs.Animator.Transcript
import SpriteStage.Proofs.Motion.Landing
import SpriteStage.Proofs.Scene.Replay
import SpriteStage.Proofs.Table

/-!
# Moves and the motion in progress

A new motion takes the place of the one in progress, and a start that fails leaves the actor at
rest. Two layers can refuse a move: the fields of the action are read first, and the timing that
they give is checked when the motion starts. A move that gets as far as its timing discards the
motion in progress whatever comes of it. One whose fields cannot be read is refused before that and
changes nothing, so the actor goes on to the old target after the error (`moveLaw_of_actor`).
-/

set_option autoImplicit false

namespace SpriteStage

/-! ## The fields of a move -/

namespace MoveOptions

variable {duration speed : Option Float32} {ease : Option String}

/-- One of duration and speed is given, and an easing only if there is one of that name. -/
structure WellGiven (duration speed : Option Float32) (ease : Option String) : Prop where
  /-- A motion is timed in one way. -/
  timed : duration.isSome ≠ speed.isSome
  /-- The easing is known. -/
  eased : ∀ name, ease = some name → (Easing.ofName? name).isSome

theorem easingOfName?_cases (ease : Option String) :
    ((∀ name, ease = some name → (Easing.ofName? name).isSome) ∧
      ∃ easing, easingOfName? ease = .ok easing) ∨
    ∃ name, ease = some name ∧ Easing.ofName? name = none ∧
      easingOfName? ease = .error (.unknownEasing name) := by
  cases ease with
  | none =>
      refine Or.inl ⟨?_, none, rfl⟩
      intro name hname
      cases hname
  | some name =>
      unfold easingOfName?
      dsimp only
      cases heasing : Easing.ofName? name with
      | none => exact Or.inr ⟨name, rfl, heasing, rfl⟩
      | some easing =>
          refine Or.inl ⟨?_, some easing, rfl⟩
          rintro other ⟨⟩
          rw [heasing]
          rfl

/-- Fields that give options are well given, and others are refused with an error about motions. -/
theorem ofFields_cases (duration speed : Option Float32) (ease : Option String) :
    (WellGiven duration speed ease ∧ ∃ options, ofFields duration speed ease = .ok options) ∨
    (¬ WellGiven duration speed ease ∧
      ∃ cause, ofFields duration speed ease = .error cause ∧ cause.category = .tween) := by
  have hease : ∀ timing : Timing Float32, duration.isSome ≠ speed.isSome →
      ofFields duration speed ease = (easingOfName? ease).map (MoveOptions.mk timing) →
      (WellGiven duration speed ease ∧ ∃ options, ofFields duration speed ease = .ok options) ∨
      (¬ WellGiven duration speed ease ∧
        ∃ cause, ofFields duration speed ease = .error cause ∧ cause.category = .tween) := by
    intro timing htimed heq
    rcases easingOfName?_cases ease with ⟨hknown, easing, hok⟩ | ⟨name, rfl, hunknown, herror⟩
    · rw [heq, hok]
      exact Or.inl ⟨⟨htimed, hknown⟩, _, rfl⟩
    · rw [heq, herror]
      refine Or.inr ⟨?_, _, rfl, rfl⟩
      intro hgiven
      have hsome := hgiven.eased name rfl
      rw [hunknown] at hsome
      cases hsome
  cases duration with
  | none =>
      cases speed with
      | none => exact Or.inr ⟨fun hgiven => hgiven.timed rfl, _, rfl, rfl⟩
      | some rate => exact hease (.speed rate) Bool.noConfusion rfl
  | some time =>
      cases speed with
      | none => exact hease (.duration time) Bool.noConfusion rfl
      | some rate => exact Or.inr ⟨fun hgiven => hgiven.timed rfl, _, rfl, rfl⟩

end MoveOptions

/-- The motion from where the actor stands. -/
def Actor.leading (a : Actor) (target : Point Float32) (options : MoveOptions) :
    Tween (Point Coordinate) :=
  a.motions.moveFrom a.node.position (target.map .ofSingle) options

namespace Scene

/-- The motion of the position of an actor. -/
def motionOf (s : Scene) (sprite : String) : Option (Tween (Point Coordinate)) :=
  (s.actors.get? sprite).bind fun a => a.motions.position

/-- The scene with another motion of the position of an actor, or with none. -/
def withMotion (s : Scene) (sprite : String) (motion : Option (Tween (Point Coordinate))) : Scene :=
  { s with
    actors := s.actors.modify sprite fun a =>
      { a with motions := { a.motions with position := motion } } }

variable {s : Scene} {sprite : String} {a : Actor} {target : Point Float32}
  {duration speed : Option Float32} {ease : Option String}

theorem motionOf_eq (h : s.actors.get? sprite = some a) :
    s.motionOf sprite = a.motions.position := by
  rw [motionOf, h]
  rfl

theorem motionOf_withMotion (h : s.actors.get? sprite = some a)
    (motion : Option (Tween (Point Coordinate))) :
    (s.withMotion sprite motion).motionOf sprite = motion := by
  rw [motionOf, withMotion, Table.get?_modify, if_pos rfl, h]
  rfl

/-- The scene after an action, where the actor becomes what the function says. -/
theorem apply_eq {action : SceneAction} {f : Actor → Actor} (h : s.actors.get? sprite = some a)
    (hf : (a.perform action s.sheet).state = f a) :
    s.apply sprite action =
      ({ s with actors := s.actors.modify sprite f }, (a.perform action s.sheet).log,
        ((a.perform action s.sheet).result.map fun _ =>
          (a.perform action s.sheet).signals).mapError (.animation sprite)) := by
  have hactors : (s.actors.modify sprite fun _ => (a.perform action s.sheet).state) =
      s.actors.modify sprite f := by
    refine Table.modify_congr ?_
    intro b hb
    cases h.symm.trans hb
    exact hf
  rw [apply, h]
  dsimp only
  rw [hactors]

/-! ## What comes of a move -/

/-- What a move can do to a scene, by the layer that decides on it. -/
inductive MoveOutcome (s : Scene) (sprite : String) (a : Actor) (target : Point Float32)
    (duration speed : Option Float32) (ease : Option String) :
    Scene × List LogLine × Except SceneError (List Signal) → Prop where
  /-- The motion starts, in the place of the one in progress. -/
  | started (options : MoveOptions) (hgiven : MoveOptions.WellGiven duration speed ease)
      (hfields : MoveOptions.ofFields duration speed ease = .ok options) :
    MoveOutcome s sprite a target duration speed ease
      (s.withMotion sprite (some (a.leading target options)), [], .ok [])
  /-- The timing is refused, and the actor stays where it is. -/
  | stopped (fault : TweenFault) (hgiven : MoveOptions.WellGiven duration speed ease) :
    MoveOutcome s sprite a target duration speed ease
      (s.withMotion sprite none, [], .error (.animation sprite (.invalidTween fault)))
  /-- The fields are refused, and nothing comes of the move. -/
  | ignored (cause : AnimationError) (hcategory : cause.category = .tween)
      (hgiven : ¬ MoveOptions.WellGiven duration speed ease) :
    MoveOutcome s sprite a target duration speed ease
      (s, [], .error (.animation sprite cause))

theorem moveOutcome (h : s.actors.get? sprite = some a) (target : Point Float32)
    (duration speed : Option Float32) (ease : Option String) :
    MoveOutcome s sprite a target duration speed ease
      (s.apply sprite (.move target duration speed ease)) := by
  rcases MoveOptions.ofFields_cases duration speed ease with
    ⟨hgiven, options, hfields⟩ | ⟨hgiven, cause, hfields, hcategory⟩
  · have hperform : a.perform (.move target duration speed ease) s.sheet = _ :=
      a.perform_move_of_ok hfields s.sheet
    cases hcheck : options.timing.check with
    | ok u =>
        have hmove : a.moveTo (target.map .ofSingle) options = .success
            { a with motions := { a.motions with position := some (a.leading target options) } }
            () := by
          unfold Actor.moveTo
          rw [Motions.startMove_of_ok hcheck]
          rfl
        rw [hmove] at hperform
        rw [apply_eq (f := fun b => { b with
          motions := { b.motions with position := some (a.leading target options) } }) h
          (by rw [hperform]; rfl), hperform]
        exact .started options hgiven hfields
    | error fault =>
        have hmove : a.moveTo (target.map .ofSingle) options = .failure
            { a with motions := { a.motions with position := none } } (.invalidTween fault) := by
          unfold Actor.moveTo
          rw [Motions.startMove_of_error hcheck]
          rfl
        rw [hmove] at hperform
        rw [apply_eq (f := fun b => { b with motions := { b.motions with position := none } }) h
          (by rw [hperform]; rfl), hperform]
        exact .stopped fault hgiven
  · have hperform : a.perform (.move target duration speed ease) s.sheet = _ :=
      a.perform_move_of_error hfields s.sheet
    rw [apply_eq (f := id) h (by rw [hperform]; rfl), hperform, Table.modify_id]
    exact .ignored cause hcategory hgiven

/-- The move discards the motion in progress: one that starts leads the actor from where it stands,
and one that fails leaves it without a motion. -/
structure DiscardsMove (s : Scene) (sprite : String) (a : Actor) (target : Point Float32)
    (duration speed : Option Float32) (ease : Option String) : Prop where
  /-- The motion that the fields ask for is in progress. -/
  of_ok : ∀ signals, (s.apply sprite (.move target duration speed ease)).2.2 = .ok signals →
    ∃ options, MoveOptions.ofFields duration speed ease = .ok options ∧
      (s.apply sprite (.move target duration speed ease)).1.motionOf sprite =
        some (a.leading target options)
  /-- No motion is in progress. -/
  of_error : ∀ e, (s.apply sprite (.move target duration speed ease)).2.2 = .error e →
    (s.apply sprite (.move target duration speed ease)).1.motionOf sprite = none

/-- What comes of a move, by its fields. -/
structure MoveLaw (s : Scene) (sprite : String) (a : Actor) (target : Point Float32)
    (duration speed : Option Float32) (ease : Option String) : Prop where
  /-- If they are well given, the motion in progress is discarded, and nothing else is changed. -/
  given : MoveOptions.WellGiven duration speed ease →
    s.DiscardsMove sprite a target duration speed ease ∧
      ∃ motion,
        (s.apply sprite (.move target duration speed ease)).1 = s.withMotion sprite motion
  /-- If they are not, there is an error, and nothing at all is changed. -/
  refused : ¬ MoveOptions.WellGiven duration speed ease →
    ∃ cause, cause.category = .tween ∧
      s.apply sprite (.move target duration speed ease) = (s, [], .error (.animation sprite cause))
  /-- So only a motion in progress under fields that are not well given is not discarded. -/
  discards_iff : s.DiscardsMove sprite a target duration speed ease ↔
    a.motions.position = none ∨ MoveOptions.WellGiven duration speed ease

theorem discardsMove_of_wellGiven (h : s.actors.get? sprite = some a)
    (hgiven : MoveOptions.WellGiven duration speed ease) (target : Point Float32) :
    s.DiscardsMove sprite a target duration speed ease ∧
      ∃ motion,
        (s.apply sprite (.move target duration speed ease)).1 = s.withMotion sprite motion := by
  have houtcome := moveOutcome h target duration speed ease
  generalize heq : s.apply sprite (.move target duration speed ease) = o at houtcome
  cases houtcome with
  | started options _ hfields =>
      refine ⟨⟨?_, ?_⟩, _, rfl⟩
      · intro signals _
        rw [heq]
        exact ⟨options, hfields, motionOf_withMotion h _⟩
      · intro e he
        rw [heq] at he
        cases he
  | stopped fault _ =>
      refine ⟨⟨?_, ?_⟩, _, rfl⟩
      · intro signals hok
        rw [heq] at hok
        cases hok
      · intro e _
        rw [heq]
        exact motionOf_withMotion h none
  | ignored cause _ hrefused => exact absurd hgiven hrefused

theorem apply_of_not_wellGiven (h : s.actors.get? sprite = some a)
    (hgiven : ¬ MoveOptions.WellGiven duration speed ease) (target : Point Float32) :
    ∃ cause, cause.category = .tween ∧
      s.apply sprite (.move target duration speed ease) =
        (s, [], .error (.animation sprite cause)) := by
  have houtcome := moveOutcome h target duration speed ease
  generalize s.apply sprite (.move target duration speed ease) = o at houtcome ⊢
  cases houtcome with
  | started _ hyes _ => exact absurd hyes hgiven
  | stopped _ hyes => exact absurd hyes hgiven
  | ignored cause hcategory _ => exact ⟨cause, hcategory, rfl⟩

/-- An animation that cannot start leaves the actor idle. -/
theorem idle_of_animate (h : s.actors.get? sprite = some a) {animation : String} {reverse : Bool}
    {frameTime : Option Float32} {e : SceneError}
    (herror : (s.apply sprite (.animate animation reverse frameTime)).2.2 = .error e) :
    ∃ b, (s.apply sprite (.animate animation reverse frameTime)).1.actors.get? sprite = some b ∧
      b.isPlaying = false := by
  obtain ⟨b, cause, hb, hresult, -⟩ : ∃ b cause, s.actors.get? sprite = some b ∧
      (b.perform (.animate animation reverse frameTime) s.sheet).result = .error cause ∧
        e = .animation sprite cause := by
    rcases apply_error_cases herror with ⟨hnone, -⟩ | hfailed
    · cases h.symm.trans hnone
    · exact hfailed
  cases h.symm.trans hb
  have hstarted := a.started_eq (a.animator.animate animation reverse frameTime) s.sheet
  refine ⟨(a.perform (.animate animation reverse frameTime) s.sheet).state, ?_, ?_⟩
  · rw [apply_eq (f := fun _ => _) h rfl]
    dsimp only
    rw [Table.get?_modify, if_pos rfl, h]
    rfl
  · show (a.started _ s.sheet).state.animator.playback.playing = false
    rw [hstarted.1]
    refine ((a.animator.begins_animate animation reverse frameTime).of_error cause ?_).2
    rw [← hstarted.2]
    exact hresult

/-- A move discards the motion in progress exactly if there is none or its fields are well given;
otherwise the actor keeps on the way it was, after an error that is reported. An animation that
cannot start leaves the actor idle for every reason. -/
theorem moveLaw_of_actor (h : s.actors.get? sprite = some a) (target : Point Float32)
    (duration speed : Option Float32) (ease : Option String) :
    s.MoveLaw sprite a target duration speed ease ∧
      ∀ animation reverse frameTime e,
        (s.apply sprite (.animate animation reverse frameTime)).2.2 = .error e →
          ∃ b,
            (s.apply sprite (.animate animation reverse frameTime)).1.actors.get? sprite = some b ∧
              b.isPlaying = false := by
  refine ⟨⟨fun hgiven => discardsMove_of_wellGiven h hgiven target,
    fun hgiven => apply_of_not_wellGiven h hgiven target, ?_⟩,
    fun animation reverse frameTime e herror => idle_of_animate h herror⟩
  constructor
  · intro hdiscards
    by_cases hgiven : MoveOptions.WellGiven duration speed ease
    · exact Or.inr hgiven
    · -- the motion after the error is the one before
      obtain ⟨cause, -, heq⟩ := apply_of_not_wellGiven h hgiven target
      have hnone := hdiscards.of_error _ (by rw [heq])
      rw [heq, motionOf_eq h] at hnone
      exact Or.inl hnone
  · rintro (hnone | hgiven)
    · by_cases hgiven : MoveOptions.WellGiven duration speed ease
      · exact (discardsMove_of_wellGiven h hgiven target).1
      · obtain ⟨cause, -, heq⟩ := apply_of_not_wellGiven h hgiven target
        refine ⟨?_, ?_⟩
        · intro signals hok
          rw [heq] at hok
          cases hok
        · intro e _
          rw [heq, motionOf_eq h]
          exact hnone
    · exact (discardsMove_of_wellGiven h hgiven target).1

/-- The actor is on its way, and goes on after a move that is given neither a duration nor a speed. -/
theorem not_discardsMove_driftScene :
    (create { pixels := ["hero"], timeline := driftEntries } (.ofList [("hero", driftAsset)]) {}
        {}).2 = .ok driftScene ∧
      ∃ a, (driftScene.after [.tick 4.0]).actors.get? "hero" = some a ∧
        ¬ (driftScene.after [.tick 4.0]).DiscardsMove "hero" a ⟨1.0, 2.0⟩ none none none := by
  have hactor : ((driftScene.after [.tick 4.0]).actors.get? "hero").isSome = true := by
    decide +kernel
  have hmoving : ((driftScene.after [.tick 4.0]).motionOf "hero").isSome = true := by
    decide +kernel
  obtain ⟨a, ha⟩ := Option.isSome_iff_exists.1 hactor
  refine ⟨create_driftScene, a, ha, ?_⟩
  intro hdiscards
  have hgiven : ¬ MoveOptions.WellGiven none none none := fun hgiven => hgiven.timed rfl
  obtain ⟨cause, -, heq⟩ := apply_of_not_wellGiven ha hgiven ⟨1.0, 2.0⟩
  have hnone := hdiscards.of_error _ (by rw [heq])
  rw [heq] at hnone
  rw [hnone] at hmoving
  cases hmoving

/-- The same actor may be sent elsewhere, under any fields. -/
theorem moveLaw_driftScene :
    ∃ a, (driftScene.after [.tick 4.0]).actors.get? "hero" = some a ∧
      (driftScene.after [.tick 4.0]).MoveLaw "hero" a ⟨1.0, 2.0⟩ (some 10.0) none
        (some "ease-in-quad") := by
  have hactor : ((driftScene.after [.tick 4.0]).actors.get? "hero").isSome = true := by
    decide +kernel
  obtain ⟨a, ha⟩ := Option.isSome_iff_exists.1 hactor
  exact ⟨a, ha, (moveLaw_of_actor ha _ _ _ _).1⟩

end Scene

end SpriteStage
