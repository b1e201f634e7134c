import SpriteStage.Proofs.Actor.Steps

/-!
# Animation and motion apart

An actor is two machines that go on side by side. The one is its course: where the node is and how
it is turned, and the two motions. The other is the actor at rest: the animator and what the node
shows of it. A step does to each machine what that machine alone determines (`course_take`,
`rest_take`), and the steps that are meant for the one do nothing to the other. So the steps for
the one can be erased from a run, and the other shows the same in all that remains
(`independent_channels`).
-/

set_option autoImplicit false

namespace SpriteStage

/-! ## The kinds of steps -/

namespace ActorStep

/-- Whether the step starts or ends an animation. -/
def isAnimation : ActorStep → Bool
  | .command (.animate ..) => true
  | .command (.animateManual ..) => true
  | .command (.showFrame _) => true
  | .command .stop => true
  | _ => false

/-- Whether the step starts a motion of the position. -/
def isMove : ActorStep → Bool
  | .command (.moveTo ..) => true
  | _ => false

/-- Whether the step starts a rotation. -/
def isTurn : ActorStep → Bool
  | .command (.rotateTo ..) => true
  | _ => false

/-- Whether the step starts or ends a motion. -/
def isMotion : ActorStep → Bool
  | .command .cancel => true
  | step => step.isMove || step.isTurn

end ActorStep

/-! ## Signals of animations -/

namespace Animator

variable {a : Animator}

theorem moveDone_notMem_resolveWithin (a : Animator) (leftover : Float32) (budget : Nat) :
    .moveDone ∉ (a.resolveWithin leftover budget).signals := by
  intro hmem
  rcases a.signals_resolveWithin leftover budget with
    ⟨s, -, hsignals, hwithin⟩ | ⟨cause, -, hsignals, -⟩
  · rw [hsignals, Showing.signals, List.mem_append, List.mem_singleton] at hmem
    rcases hmem with hredirection | hframe
    · exact Bool.noConfusion (hwithin.isRedirection _ hredirection)
    · cases hframe
  · exact Bool.noConfusion (hsignals _ hmem)

theorem moveDone_notMem_launch (a : Animator) (steps : Sequence) (animation : Option String)
    (reverse : Bool) (timeScale : Float32) :
    .moveDone ∉ (a.launch steps animation reverse timeScale).signals := by
  have hresolve := moveDone_notMem_resolveWithin (a.begun steps animation reverse timeScale) 0.0
    a.maxRedirects
  rcases a.launch_cases steps animation reverse timeScale with ⟨cause, heq⟩ | heq
  · simp [heq, Outcome.failure]
  · rw [heq]
    cases hresult : ((a.begun steps animation reverse timeScale).resolve 0.0).result with
    | ok u =>
        rw [stopOnFailure_of_ok hresult]
        exact hresolve
    | error cause =>
        rw [stopOnFailure_of_error hresult]
        exact hresolve

theorem moveDone_notMem_animate (a : Animator) (name : String) (reverse : Bool)
    (timeScale : Option Float32) : .moveDone ∉ (a.animate name reverse timeScale).signals := by
  unfold animate
  cases a.animations.get? name with
  | none => simp [Outcome.failure]
  | some steps => exact moveDone_notMem_launch a _ _ _ _

theorem moveDone_notMem_animateManual (a : Animator) (steps : List AuthoredStep) (reverse : Bool)
    (timeScale : Option Float32) :
    .moveDone ∉ (a.animateManual steps reverse timeScale).signals := by
  unfold animateManual
  cases compileAnimation Playback.manualLabel steps with
  | error cause => simp [Outcome.failure]
  | ok compiled => exact moveDone_notMem_launch a _ _ _ _

theorem moveDone_notMem_tick (a : Animator) (elapsed : Float32) :
    .moveDone ∉ (a.tick elapsed).signals := by
  intro hmem
  obtain ⟨showings, ending, htranscript⟩ := a.transcript_tick elapsed
  rw [htranscript.signals_eq, List.mem_append, List.mem_flatMap] at hmem
  rcases hmem with ⟨s, hs, hshown⟩ | hending
  · rw [Showing.signals, List.mem_append, List.mem_singleton] at hshown
    rcases hshown with hredirection | hframe
    · exact Bool.noConfusion ((htranscript.within s hs).isRedirection _ hredirection)
    · cases hframe
  · cases hresult : (a.tick elapsed).result with
    | ok changed =>
        rcases htranscript.of_ok changed hresult with hnil | ⟨animation, hstop⟩
        · simp [hnil] at hending
        · simp [hstop] at hending
    | error cause => exact Bool.noConfusion ((htranscript.of_error cause hresult).1 _ hending)

end Animator

/-! ## The course of an actor -/

namespace Motions

variable {m : Motions} {current angle : Float32} {options : MoveOptions}

/-- A rotation whose timing is refused leaves the angle at rest. -/
theorem startRotate_of_error {fault : TweenFault} (h : options.timing.check = .error fault) :
    m.startRotate current angle options =
      .failure { m with rotation := none } (.invalidTween fault) := by
  simp only [startRotate, tween, h]

/-- A rotation whose timing is accepted starts at the current angle. -/
theorem startRotate_of_ok {u : Unit} (h : options.timing.check = .ok u) :
    m.startRotate current angle options =
      .success
        { m with
          rotation :=
            some
              { origin := current
                delta := shortestTurn Single.pi current angle
                target := angle
                duration := options.timing.span
                  (Scalar.magnitude (shortestTurn Single.pi current angle))
                easing := options.easing.getD m.defaultEasing } } () := by
  simp only [startRotate, tween, h]

end Motions

/-- Where a node is and how it is turned, and its motions. -/
structure Course where
  /-- The place of the node. -/
  position : Point Coordinate
  /-- The angle of the node. -/
  rotation : Float32
  /-- The motions that are under way. -/
  motions : Motions

namespace Course

/-- The course after time has passed, and what is signalled. -/
def advance (c : Course) (elapsed : Float32) : Course × List Signal :=
  let t := c.motions.tick elapsed { position := c.position, rotation := c.rotation }
  (⟨t.node.position, t.node.rotation, t.motions⟩, t.signals)

/-- What a step does to a course, and the ends of motions that it signals. -/
def take (c : Course) : ActorStep → Course × List Signal
  | .command (.tick elapsed) => if elapsed.isFinite = false then (c, []) else c.advance elapsed
  | .command (.moveTo target options) =>
    ({ c with motions := (c.motions.startMove c.position target options).state }, [])
  | .command (.rotateTo target options) =>
    ({ c with motions := (c.motions.startRotate c.rotation target options).state }, [])
  | .command .cancel => ({ c with motions := c.motions.cancel }, [])
  | .command .reset => ({ c with motions := c.motions.cancel }, [])
  | .write (.position place) => ({ c with position := place }, [])
  | .write (.rotation angle) => ({ c with rotation := angle }, [])
  | _ => (c, [])

/-- Starting and ending animations does nothing to a course. -/
theorem take_of_isAnimation (c : Course) {step : ActorStep} (h : step.isAnimation = true) :
    c.take step = (c, []) := by
  cases step with
  | command command =>
      cases command with
      | animate name reverse timeScale => rfl
      | animateManual steps reverse timeScale => rfl
      | showFrame frame => rfl
      | stop => rfl
      | _ => cases h
  | write part => cases h
  | mark placed => cases h

/-- The part of a course that has to do with the position. -/
def moving (c : Course) : Point Coordinate × Option (Tween (Point Coordinate)) × Easing :=
  (c.position, c.motions.position, c.motions.defaultEasing)

/-- The part of a course that has to do with the rotation. -/
def turning (c : Course) : Float32 × Option (Tween Float32) × Easing :=
  (c.rotation, c.motions.rotation, c.motions.defaultEasing)

variable {c d : Course}

/-- A rotation starts or fails, and the position knows nothing of it. -/
theorem moving_take_of_isTurn (c : Course) {step : ActorStep} (h : step.isTurn = true) :
    (c.take step).1.moving = c.moving ∧ (c.take step).2 = [] := by
  cases step with
  | command command =>
      cases command with
      | rotateTo angle options =>
          cases hcheck : options.timing.check with
          | error fault =>
              simp only [take, Motions.startRotate_of_error hcheck]
              exact ⟨rfl, trivial⟩
          | ok u =>
              simp only [take, Motions.startRotate_of_ok hcheck]
              exact ⟨rfl, trivial⟩
      | _ => cases h
  | write part => cases h
  | mark placed => cases h

/-- A motion of the position starts or fails, and the rotation knows nothing of it. -/
theorem turning_take_of_isMove (c : Course) {step : ActorStep} (h : step.isMove = true) :
    (c.take step).1.turning = c.turning := by
  cases step with
  | command command =>
      cases command with
      | moveTo target options =>
          cases hcheck : options.timing.check with
          | error fault =>
              simp only [take, Motions.startMove_of_error hcheck]
              rfl
          | ok u =>
              simp only [take, Motions.startMove_of_ok hcheck]
              rfl
      | _ => cases h
  | write part => cases h
  | mark placed => cases h

/-- The position goes its way, and signals its ends, without regard to the rotation. -/
theorem moving_take (h : c.moving = d.moving) (step : ActorStep) :
    (c.take step).1.moving = (d.take step).1.moving ∧ (c.take step).2 = (d.take step).2 := by
  -- a rotation starts from the angle, in which the two courses may differ, so it is set apart
  cases hturn : step.isTurn with
  | true =>
      obtain ⟨hc, hc'⟩ := c.moving_take_of_isTurn hturn
      obtain ⟨hd, hd'⟩ := d.moving_take_of_isTurn hturn
      exact ⟨hc.trans (h.trans hd.symm), hc'.trans hd'.symm⟩
  | false =>
      obtain ⟨position, angle, ⟨motion, rotation, easing⟩⟩ := c
      obtain ⟨position', angle', ⟨motion', rotation', easing'⟩⟩ := d
      cases h
      cases step with
      | command command =>
          cases command with
          | tick elapsed =>
              by_cases hfinite : elapsed.isFinite = false
              · simp only [take, if_pos hfinite]
                exact ⟨rfl, trivial⟩
              · simp only [take, if_neg hfinite]
                exact ⟨rfl, rfl⟩
          | moveTo target options =>
              cases hcheck : options.timing.check with
              | error fault =>
                  simp only [take, Motions.startMove_of_error hcheck]
                  exact ⟨rfl, trivial⟩
              | ok u =>
                  simp only [take, Motions.startMove_of_ok hcheck]
                  exact ⟨rfl, trivial⟩
          | rotateTo angle options => cases hturn
          | _ => exact ⟨rfl, rfl⟩
      | write part => cases part <;> exact ⟨rfl, rfl⟩
      | mark placed => exact ⟨rfl, rfl⟩

/-- The rotation goes its way without regard to the position. -/
theorem turning_take (h : c.turning = d.turning) (step : ActorStep) :
    (c.take step).1.turning = (d.take step).1.turning := by
  cases hmove : step.isMove with
  | true =>
      rw [c.turning_take_of_isMove hmove, d.turning_take_of_isMove hmove, h]
  | false =>
      obtain ⟨position, angle, ⟨motion, rotation, easing⟩⟩ := c
      obtain ⟨position', angle', ⟨motion', rotation', easing'⟩⟩ := d
      cases h
      cases step with
      | command command =>
          cases command with
          | tick elapsed =>
              by_cases hfinite : elapsed.isFinite = false
              · simp only [take, if_pos hfinite]
                rfl
              · simp only [take, if_neg hfinite]
                rfl
          | rotateTo angle options =>
              cases hcheck : options.timing.check with
              | error fault =>
                  simp only [take, Motions.startRotate_of_error hcheck]
                  rfl
              | ok u =>
                  simp only [take, Motions.startRotate_of_ok hcheck]
                  rfl
          | moveTo target options => cases hmove
          | _ => rfl
      | write part => cases part <;> rfl
      | mark placed => rfl

end Course

namespace Actor

/-- The course of the actor. -/
def course (a : Actor) : Course := ⟨a.node.position, a.node.rotation, a.motions⟩

/-- The ends of motions among signals. -/
def ends (signals : List Signal) : List Signal := signals.filter (· = .moveDone)

/-- The other signals. -/
def lasting (signals : List Signal) : List Signal := signals.filter (· ≠ .moveDone)

theorem ends_eq_nil {signals : List Signal} (h : .moveDone ∉ signals) : ends signals = [] := by
  rw [ends, List.filter_eq_nil_iff]
  intro signal hsignal heq
  rw [of_decide_eq_true heq] at hsignal
  exact h hsignal

/-- Motions signal nothing but their ends. -/
theorem ends_signals_tick (m : Motions) (elapsed : Float32) (node : SpriteNode) :
    ends (m.tick elapsed node).signals = (m.tick elapsed node).signals := by
  show ends
      (if (m.position.map (·.advance elapsed)).any Tween.isDone then [Signal.moveDone] else []) =
    if (m.position.map (·.advance elapsed)).any Tween.isDone then [Signal.moveDone] else []
  cases (m.position.map (·.advance elapsed)).any Tween.isDone with
  | false => rfl
  | true => rfl

theorem course_follow {α : Type} (a : Actor) (o : Outcome Animator α) (sheet : FrameSheet) :
    (a.follow o sheet).state.course = a.course := by
  rcases a.follow_cases o sheet with ⟨heq, -⟩ | ⟨frame, heq, -⟩
  · rw [heq]
    rfl
  · rw [heq]
    rfl

/-- A start does not touch the course, and signals what the animator signals. -/
theorem course_started (a : Actor) (o : Outcome Animator Unit) (sheet : FrameSheet) :
    (a.started o sheet).state.course = a.course ∧ (a.started o sheet).signals = o.signals := by
  unfold started
  cases o.result with
  | ok u => exact ⟨course_follow _ o sheet, rfl⟩
  | error cause => exact ⟨rfl, rfl⟩

/-- Time moves an actor along its course, whatever its animation does. -/
theorem course_tick (a : Actor) {elapsed : Float32} (h : ¬ elapsed.isFinite = false)
    (sheet : FrameSheet) :
    ((a.tick elapsed sheet).state.course, ends (a.tick elapsed sheet).signals) =
      a.course.advance elapsed := by
  have hfollow := a.course_follow (a.animator.tick elapsed) sheet
  have hquiet := ends_eq_nil (a.animator.moveDone_notMem_tick elapsed)
  -- the animator signals no ends of motions, so the ends are those of the motions alone
  unfold tick
  rw [if_neg h, ← hfollow]
  refine Prod.ext rfl ?_
  show ends ((a.animator.tick elapsed).signals ++ (Motions.tick _ _ _).signals) = _
  rw [ends, List.filter_append, ← ends, ← ends, hquiet, ends_signals_tick]
  rfl

/-- A step does to the course of an actor what it does to a course. -/
theorem course_take (a : Actor) (sheet : FrameSheet) (step : ActorStep) :
    ((a.take sheet step).state.course, ends (a.take sheet step).signals) =
      a.course.take step := by
  cases step with
  | command command =>
      cases command with
      | animate name reverse timeScale =>
          obtain ⟨hcourse, hsignals⟩ :=
            a.course_started (a.animator.animate name reverse timeScale) sheet
          refine Prod.ext hcourse ?_
          exact (congrArg ends hsignals).trans
            (ends_eq_nil (a.animator.moveDone_notMem_animate name reverse timeScale))
      | animateManual steps reverse timeScale =>
          obtain ⟨hcourse, hsignals⟩ :=
            a.course_started (a.animator.animateManual steps reverse timeScale) sheet
          refine Prod.ext hcourse ?_
          exact (congrArg ends hsignals).trans
            (ends_eq_nil (a.animator.moveDone_notMem_animateManual steps reverse timeScale))
      | showFrame frame => rfl
      | stop => rfl
      | tick elapsed =>
          by_cases hfinite : elapsed.isFinite = false
          · simp only [take, answer, tick, Course.take, if_pos hfinite]
            rfl
          · simp only [Course.take, if_neg hfinite]
            exact a.course_tick hfinite sheet
      | moveTo target options =>
          cases hcheck : options.timing.check with
          | error fault =>
              simp only [take, answer, moveTo, Course.take, Motions.startMove_of_error hcheck]
              rfl
          | ok u =>
              simp only [take, answer, moveTo, Course.take, Motions.startMove_of_ok hcheck]
              rfl
      | rotateTo angle options =>
          cases hcheck : options.timing.check with
          | error fault =>
              simp only [take, answer, rotateTo, Course.take, Motions.startRotate_of_error hcheck]
              rfl
          | ok u =>
              simp only [take, answer, rotateTo, Course.take, Motions.startRotate_of_ok hcheck]
              rfl
      | cancel => rfl
      | reset => rfl
  | write part => cases part <;> rfl
  | mark placed => rfl

end Actor

/-! ## The actor at rest -/

namespace Actor

/-- The actor at the origin, without motions and in sight. -/
def rest (a : Actor) : Actor :=
  { a with
    node :=
      { scale := a.node.scale
        textureKey := a.node.textureKey
        texture := a.node.texture }
    motions := {}
    placed := false }

theorem rest_follow {α : Type} (a : Actor) (o : Outcome Animator α) (sheet : FrameSheet) :
    (a.follow o sheet).state.rest = (a.rest.follow o sheet).state.rest := by
  unfold follow
  cases (if o.signals.any Signal.isFrame then o.state.playback.frame else none) with
  | none => rfl
  | some frame => rfl

/-- What an operation shows of the actor at rest. -/
structure SameRest (o p : Outcome Actor Unit) : Prop where
  /-- The actors at rest. -/
  state_eq : o.state.rest = p.state.rest
  /-- The signals but for the ends of motions. -/
  lasting_eq : lasting o.signals = lasting p.signals
  /-- The answers. -/
  result_eq : o.result = p.result

theorem sameRest_started (a : Actor) (o : Outcome Animator Unit) (sheet : FrameSheet) :
    SameRest (a.started o sheet) (a.rest.started o sheet) := by
  unfold started
  cases o.result with
  | ok u =>
      refine ⟨?_, rfl, rfl⟩
      dsimp only
      -- the facing is written before the frame is shown, on either side
      rw [rest_follow, rest_follow { a.rest with node := _ }]
      rfl
  | error cause => exact ⟨rfl, rfl, rfl⟩

theorem sameRest_tick (a : Actor) (elapsed : Float32) (sheet : FrameSheet) :
    SameRest (a.take sheet (.command (.tick elapsed)))
      (a.rest.take sheet (.command (.tick elapsed))) := by
  by_cases hfinite : elapsed.isFinite = false
  · simp only [take, answer, tick, if_pos hfinite]
    exact ⟨rfl, rfl, rfl⟩
  · simp only [take, answer, tick, if_neg hfinite]
    refine ⟨a.rest_follow _ sheet, ?_, ?_⟩
    · show lasting ((a.animator.tick elapsed).signals ++ (Motions.tick _ _ _).signals) =
        lasting ((a.animator.tick elapsed).signals ++ (Motions.tick _ _ _).signals)
      simp only [lasting, List.filter_append, Motions.filter_signals_tick]
    · show ((a.animator.tick elapsed).result.map _).map _ =
        ((a.animator.tick elapsed).result.map _).map _
      cases (a.animator.tick elapsed).result with
      | ok changed => rfl
      | error cause => rfl

/-- What a step does to the actor at rest, it does wherever the actor is. -/
theorem rest_take (a : Actor) (sheet : FrameSheet) (step : ActorStep) :
    SameRest (a.take sheet step) (a.rest.take sheet step) := by
  cases step with
  | command command =>
      cases command with
      | animate name reverse timeScale => exact sameRest_started a _ sheet
      | animateManual steps reverse timeScale => exact sameRest_started a _ sheet
      | tick elapsed => exact sameRest_tick a elapsed sheet
      | moveTo target options =>
          cases hcheck : options.timing.check with
          | error fault =>
              simp only [take, answer, moveTo, Motions.startMove_of_error hcheck]
              exact ⟨rfl, rfl, rfl⟩
          | ok u =>
              simp only [take, answer, moveTo, Motions.startMove_of_ok hcheck]
              exact ⟨rfl, rfl, rfl⟩
      | rotateTo target options =>
          cases hcheck : options.timing.check with
          | error fault =>
              simp only [take, answer, rotateTo, Motions.startRotate_of_error hcheck]
              exact ⟨rfl, rfl, rfl⟩
          | ok u =>
              simp only [take, answer, rotateTo, Motions.startRotate_of_ok hcheck]
              exact ⟨rfl, rfl, rfl⟩
      | showFrame frame => exact ⟨rfl, rfl, rfl⟩
      | stop => exact ⟨rfl, rfl, rfl⟩
      | cancel => exact ⟨rfl, rfl, rfl⟩
      | reset => exact ⟨rfl, rfl, rfl⟩
  | write part => cases part <;> exact ⟨rfl, rfl, rfl⟩
  | mark placed => exact ⟨rfl, rfl, rfl⟩

/-! ## Runs -/

/-- What comes of steps that are taken one after the other, each with its sheet. -/
def outcomes (a : Actor) : List (FrameSheet × ActorStep) → List (ActorStep × Outcome Actor Unit)
  | [] => []
  | (sheet, step) :: rest => (step, a.take sheet step) :: outcomes (a.take sheet step).state rest

/-- Steps of this kind can be erased from every run: all others show what they show in the whole
run. -/
def Erasable {γ : Type} (erased : ActorStep → Bool) (shown : Outcome Actor Unit → γ) : Prop :=
  ∀ (a : Actor) (run : List (FrameSheet × ActorStep)),
    ((a.outcomes run).filter fun o => !erased o.1).map (fun o => shown o.2) =
      (a.outcomes (run.filter fun s => !erased s.2)).map fun o => shown o.2

/-- Steps can be erased if there is a view of the actor that they do not change, and that determines
what the others show and do to it. -/
theorem erasable_of_view {β γ : Type} {erased : ActorStep → Bool}
    {shown : Outcome Actor Unit → γ} (view : Actor → β)
    (hquiet : ∀ (a : Actor) (sheet : FrameSheet) (step : ActorStep), erased step = true →
      view (a.take sheet step).state = view a)
    (hsame : ∀ (a b : Actor) (sheet : FrameSheet) (step : ActorStep), view a = view b →
      view (a.take sheet step).state = view (b.take sheet step).state ∧
        shown (a.take sheet step) = shown (b.take sheet step)) :
    Erasable erased shown := by
  -- the run without those steps may start from another actor that has the same view, for erased
  -- steps change the one actor and not the other
  have hruns : ∀ (run : List (FrameSheet × ActorStep)) (a b : Actor), view a = view b →
      ((a.outcomes run).filter fun o => !erased o.1).map (fun o => shown o.2) =
        (b.outcomes (run.filter fun s => !erased s.2)).map fun o => shown o.2 := by
    intro run
    induction run with
    | nil =>
        intro a b hview
        rfl
    | cons first rest ih =>
        obtain ⟨sheet, step⟩ := first
        intro a b hview
        cases herased : erased step with
        | true =>
            have hrest := ih _ _ ((hquiet a sheet step herased).trans hview)
            simpa [outcomes, herased] using hrest
        | false =>
            obtain ⟨hstate, hshown⟩ := hsame a b sheet step hview
            simpa [outcomes, herased, hshown] using ih _ _ hstate
  intro a run
  exact hruns run a a rfl

/-- Animations do nothing to the course. -/
theorem erasable_isAnimation :
    Erasable ActorStep.isAnimation fun o => (o.state.course, ends o.signals) := by
  refine erasable_of_view course ?_ ?_
  · intro a sheet step hanimation
    have hcourse := congrArg Prod.fst (a.course_take sheet step)
    rw [a.course.take_of_isAnimation hanimation] at hcourse
    exact hcourse
  · intro a b sheet step hview
    have hshown := (a.course_take sheet step).trans
      ((congrArg (Course.take · step) hview).trans (b.course_take sheet step).symm)
    exact ⟨congrArg Prod.fst hshown, hshown⟩

/-- Starting and ending motions does nothing to the actor at rest. -/
theorem rest_take_of_isMotion (a : Actor) (sheet : FrameSheet) {step : ActorStep}
    (h : step.isMotion = true) : (a.take sheet step).state.rest = a.rest := by
  cases step with
  | command command =>
      cases command with
      | moveTo target options => rfl
      | rotateTo angle options => rfl
      | cancel => rfl
      | _ => cases h
  | write part => cases h
  | mark placed => cases h

theorem erasable_isMotion :
    Erasable ActorStep.isMotion fun o =>
      (o.result, lasting o.signals, o.state.animator, o.state.node.scale,
        o.state.node.textureKey, o.state.node.texture) := by
  refine erasable_of_view rest ?_ ?_
  · intro a sheet step hmotion
    exact a.rest_take_of_isMotion sheet hmotion
  · intro a b sheet step hview
    obtain ⟨hstate, hsignals, hresult⟩ := a.rest_take sheet step
    obtain ⟨hstate', hsignals', hresult'⟩ := b.rest_take sheet step
    rw [← hview] at hstate' hsignals' hresult'
    have hrest := hstate.trans hstate'.symm
    refine ⟨hrest, ?_⟩
    have hshown := congrArg
      (fun c : Actor => (c.animator, c.node.scale, c.node.textureKey, c.node.texture)) hrest
    rw [hresult, hresult', hsignals, hsignals']
    exact Prod.ext rfl (Prod.ext rfl hshown)

theorem erasable_isTurn :
    Erasable ActorStep.isTurn fun o =>
      (o.state.node.position, o.state.motions.position, ends o.signals) := by
  refine erasable_of_view (fun a => a.course.moving) ?_ ?_
  · intro a sheet step hturn
    have hcourse := congrArg Prod.fst (a.course_take sheet step)
    rw [← (a.course.moving_take_of_isTurn hturn).1, ← hcourse]
  · intro a b sheet step hview
    obtain ⟨hmoving, hends⟩ := Course.moving_take hview step
    rw [← a.course_take sheet step, ← b.course_take sheet step] at hmoving hends
    refine ⟨hmoving, ?_⟩
    have hposition := congrArg Prod.fst hmoving
    have hmotion := congrArg (fun v => v.2.1) hmoving
    exact Prod.ext hposition (Prod.ext hmotion hends)

theorem erasable_isMove :
    Erasable ActorStep.isMove fun o => (o.state.node.rotation, o.state.motions.rotation) := by
  refine erasable_of_view (fun a => a.course.turning) ?_ ?_
  · intro a sheet step hmove
    have hcourse := congrArg Prod.fst (a.course_take sheet step)
    rw [← a.course.turning_take_of_isMove hmove, ← hcourse]
  · intro a b sheet step hview
    have hturning := Course.turning_take hview step
    rw [← a.course_take sheet step, ← b.course_take sheet step] at hturning
    refine ⟨hturning, ?_⟩
    have hrotation := congrArg Prod.fst hturning
    have hmotion := congrArg (fun v => v.2.1) hturning
    exact Prod.ext hrotation hmotion

/-- The channels of an actor are independent. Without the steps for animations, all others leave the
node in the same place, at the same angle and with the same motions, and signal the same ends of
motions. Without those for motions, all others give the same answers and the same other signals, and
leave the animator, the scale and the texture the same. Without those that start rotations, the
position goes the same way, and without those that start motions of the position, the rotation
does. -/
theorem independent_channels :
    Erasable ActorStep.isAnimation (fun o => (o.state.course, ends o.signals)) ∧
      Erasable ActorStep.isMotion (fun o =>
        (o.result, lasting o.signals, o.state.animator, o.state.node.scale,
          o.state.node.textureKey, o.state.node.texture)) ∧
      Erasable ActorStep.isTurn (fun o =>
        (o.state.node.position, o.state.motions.position, ends o.signals)) ∧
      Erasable ActorStep.isMove (fun o => (o.state.node.rotation, o.state.motions.rotation)) :=
  ⟨erasable_isAnimation, erasable_isMotion, erasable_isTurn, erasable_isMove⟩

end Actor

end SpriteStage
