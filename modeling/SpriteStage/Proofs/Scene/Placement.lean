import Mathlib.Data.List.Induction
import SpriteStage.Proofs.Scene.Isolation
import SpriteStage.Proofs.Scene.MoveEvents

/-!
# Where a placed actor is

Placing an actor ends its animation and shows its first frame, but it does not end its motions: only
another motion takes the place of one that is in progress. The actors get their time after the
events of a tick, so an actor that was placed while it moved is led back to its way in the same
tick. Nothing else keeps it from where it was put, whatever else is due in that tick, for an event
that fails changes neither the node nor the frame (`putAt_tick`).
-/

set_option autoImplicit false

namespace SpriteStage

/-- The actor was put at a place: it is drawn and on the stage, and shows its first frame without an
animation. -/
structure Actor.PutAt (a : Actor) (place : Point Coordinate) : Prop where
  /-- Where the node is. -/
  position_eq : a.node.position = place
  /-- It is drawn. -/
  visible : a.node.visible = true
  /-- It is on the stage. -/
  placed : a.placed = true
  /-- It shows its first frame. -/
  frame_eq : a.animator.playback.frame = some 0
  /-- No animation is playing. -/
  idle : a.animator.playback.playing = false

namespace Actor

variable {a : Actor} {place : Point Coordinate} {sheet : FrameSheet}

theorem putAt_perform_place (a : Actor) (target : Point Float32) (sheet : FrameSheet) :
    (a.perform (.place target) sheet).state.PutAt (target.map .ofSingle) :=
  ⟨rfl, rfl, rfl, rfl, rfl⟩

/-- An animation that cannot start changes the animator only. -/
theorem started_of_error {o : Outcome Animator Unit} {cause : AnimationError}
    (h : o.result = .error cause) : (a.started o sheet).state = { a with animator := o.state } := by
  unfold started
  rw [h]
  rfl

/-- An action that fails does not take an actor away from where it was put. -/
theorem PutAt.perform_error (h : a.PutAt place) {action : SceneAction} {cause : AnimationError}
    (herror : (a.perform action sheet).result = .error cause) :
    (a.perform action sheet).state.PutAt place := by
  cases action with
  | place target => cases herror
  | unplace => cases herror
  | animate animation reverse frameTime =>
      have hresult : (a.animator.animate animation reverse frameTime).result = .error cause :=
        (a.started_eq _ sheet).2.symm.trans herror
      have hbegins := a.animator.begins_animate animation reverse frameTime
      obtain ⟨hframe, hidle⟩ := hbegins.of_error cause hresult
      show (a.started _ sheet).state.PutAt place
      rw [started_of_error hresult]
      refine ⟨h.position_eq, h.visible, h.placed, ?_, hidle⟩
      rw [hbegins.frame_eq, hframe]
      exact h.frame_eq
  | move target duration speed ease =>
      cases hoptions : MoveOptions.ofFields duration speed ease with
      | error refused =>
          rw [perform_move_of_error hoptions]
          exact h
      | ok options =>
          rw [perform_move_of_ok hoptions]
          exact ⟨h.position_eq, h.visible, h.placed, h.frame_eq, h.idle⟩

/-- Time does nothing to an idle actor but lead its node along its motions. -/
theorem state_tick_of_idle {elapsed : Float32} (hfinite : elapsed.isFinite = true)
    (hidle : a.animator.playback.playing = false) (sheet : FrameSheet) :
    (a.tick elapsed sheet).state =
      { a with
        node := (a.motions.tick elapsed a.node).node
        motions := (a.motions.tick elapsed a.node).motions } := by
  have hvalid : ¬ elapsed.isFinite = false := by simp [hfinite]
  have hanimator := Animator.tick_of_idle hvalid hidle
  rw [Actor.tick, if_neg hvalid, hanimator]
  simp only [moved, follow, Outcome.success, List.any_nil]
  simp

/-- Time leads the actor along its motion, if it has one, and does nothing else to it. -/
theorem PutAt.tick (h : a.PutAt place) {elapsed : Float32} (hfinite : elapsed.isFinite = true)
    (sheet : FrameSheet) :
    (a.tick elapsed sheet).state.PutAt
      (a.motions.position.elim place fun t => (t.advance elapsed).value) := by
  rw [state_tick_of_idle hfinite h.idle]
  refine ⟨?_, h.visible, h.placed, h.frame_eq, h.idle⟩
  show (a.motions.position.map (·.advance elapsed)).elim a.node.position Tween.value = _
  rw [h.position_eq, Option.elim_map]
  rfl

end Actor

namespace Scene

/-- The action that a tick applied to an actor last, if it applied any. -/
def lastApplied (s : Scene) (elapsed : Float32) (name : String) : Option SceneAction :=
  ((s.tick elapsed).2.2.applied.filter fun e => e.actor = name).getLast?.bind fun e =>
    (s.timeline.get? e.index).map TimelineEntry.action

/-- The actor of that name was put at a place. -/
def HasAt (s : Scene) (name : String) (place : Point Coordinate) : Prop :=
  ∃ a, s.actors.get? name = some a ∧ a.PutAt place

variable {s t : Scene} {name : String} {place : Point Coordinate} {elapsed : Float32}

theorem HasAt.of_sameActor (h : t.HasAt name place) (hsame : s.SameActor name t) :
    s.HasAt name place := by
  obtain ⟨a, ha, hput⟩ := h
  exact ⟨a, hsame.actor_eq.trans ha, hput⟩

/-! ## Events -/

/-- An action on another actor, or one that fails, leaves an actor where it was put. -/
theorem HasAt.apply (h : s.HasAt name place) {sprite : String} {action : SceneAction}
    (hquiet : sprite = name → ∃ e, (s.apply sprite action).2.2 = .error e) :
    (s.apply sprite action).1.HasAt name place := by
  by_cases hsprite : sprite = name
  · subst hsprite
    obtain ⟨a, ha, hput⟩ := h
    obtain ⟨e, herror⟩ := hquiet rfl
    rcases apply_error_cases herror with ⟨hnone, -⟩ | ⟨b, cause, hb, hresult, -⟩
    · cases ha.symm.trans hnone
    · cases ha.symm.trans hb
      refine ⟨(a.perform action s.sheet).state, ?_, hput.perform_error hresult⟩
      rw [apply_eq (f := fun _ => (a.perform action s.sheet).state) ha rfl]
      dsimp only
      rw [Table.get?_modify, if_pos rfl, ha]
      rfl
  · exact h.of_sameActor (s.sameActor_apply hsprite action)

/-- An event that places the actor puts it there. -/
theorem hasAt_of_place {sprite : String} {target : Point Float32} {signals : List Signal}
    (hok : (s.apply sprite (.place target)).2.2 = .ok signals) :
    (s.apply sprite (.place target)).1.HasAt sprite (target.map .ofSingle) := by
  cases ha : s.actors.get? sprite with
  | none =>
      rw [Scene.apply, ha] at hok
      cases hok
  | some a =>
      refine ⟨(a.perform (.place target) s.sheet).state, ?_, a.putAt_perform_place target s.sheet⟩
      rw [apply_eq (f := fun _ => (a.perform (.place target) s.sheet).state) ha rfl]
      dsimp only
      rw [Table.get?_modify, if_pos rfl, ha]
      rfl

theorem applyEvents_append_singleton (rest : List (TimelineEntry × Nat)) (entry : TimelineEntry)
    (index : Nat) (s : Scene) :
    applyEvents (rest ++ [(entry, index)]) s =
      ((applyEvents rest s).1 ++
        [⟨entry, index, ((applyEvents rest s).2.apply entry.sprite entry.action).2.2,
          ((applyEvents rest s).2.apply entry.sprite entry.action).2.1⟩],
        ((applyEvents rest s).2.apply entry.sprite entry.action).1) := by
  induction rest generalizing s with
  | nil => rfl
  | cons e rest ih =>
      obtain ⟨first, start⟩ := e
      rw [List.cons_append, applyEvents_cons, applyEvents_cons, ih]
      rfl

/-- If the last event that was applied to an actor places it, it is there after all events. -/
theorem hasAt_applyEvents {find : Nat → Option TimelineEntry} {target : Point Float32}
    {events : List (TimelineEntry × Nat)} (hfind : ∀ e ∈ events, find e.2 = some e.1)
    (h : ((((applyEvents events s).1.filterMap EventReport.applied?).filter
      fun e => e.actor = name).getLast?.bind fun e =>
        (find e.index).map TimelineEntry.action) = some (.place target)) :
    (applyEvents events s).2.HasAt name (target.map .ofSingle) := by
  -- the last event is looked at first: it places the actor, or it is nothing to it
  induction events using List.reverseRecOn with
  | nil => cases h
  | append_singleton rest last ih =>
      obtain ⟨entry, index⟩ := last
      have hrest := ih fun e he => hfind e (List.mem_append_left _ he)
      have hlast := hfind (entry, index) (List.mem_append_right _ (List.mem_singleton_self _))
      rw [applyEvents_append_singleton] at h ⊢
      rw [List.filterMap_append, List.filter_append] at h
      cases hresult : ((applyEvents rest s).2.apply entry.sprite entry.action).2.2 with
      | error e =>
          rw [hresult] at h
          have hnone : [(⟨entry, index, .error e,
              ((applyEvents rest s).2.apply entry.sprite entry.action).2.1⟩ : EventReport)].filterMap
                EventReport.applied? = [] := rfl
          rw [hnone, List.filter_nil, List.append_nil] at h
          exact (hrest h).apply fun _ => ⟨e, hresult⟩
      | ok signals =>
          rw [hresult] at h
          have happlied : [(⟨entry, index, .ok signals,
              ((applyEvents rest s).2.apply entry.sprite entry.action).2.1⟩ : EventReport)].filterMap
                EventReport.applied? = [⟨index, entry.time, entry.sprite, entry.action.kind⟩] := rfl
          rw [happlied] at h
          by_cases hsprite : entry.sprite = name
          · rw [List.filter_cons_of_pos (by simpa using hsprite), List.filter_nil,
              List.getLast?_concat, Option.bind_some, hlast] at h
            have haction : entry.action = .place target := Option.some.inj h
            rw [haction] at hresult ⊢
            subst hsprite
            exact hasAt_of_place hresult
          · rw [List.filter_cons_of_neg (by simpa using hsprite), List.filter_nil,
              List.append_nil] at h
            exact (hrest h).apply fun heq => absurd heq hsprite

/-! ## Ticks -/

/-- An actor that was placed last in a tick is visible, on the stage and shows its first frame without
an animation. It is where it was put, unless it has a motion of its position after the events of the
tick; then it is where that motion leads it in the time of the tick. -/
theorem putAt_tick {target : Point Float32}
    (h : s.lastApplied elapsed name = some (.place target)) :
    (s.tick elapsed).1.HasAt name
      (((s.afterEvents elapsed).motionOf name).elim (target.map .ofSingle) fun t =>
        (t.advance (clampElapsed elapsed)).value) := by
  have hevents : (s.afterEvents elapsed).HasAt name (target.map .ofSingle) :=
    hasAt_applyEvents
      (fun e he => get?_of_mem_due (t := s.timeline.wait (clampElapsed elapsed)) he) h
  obtain ⟨a, ha, hput⟩ := hevents
  have htick := hput.tick (clampElapsed_usable elapsed).1 (s.afterEvents elapsed).sheet
  have hactors : (s.afterActors elapsed).HasAt name
      (((s.afterEvents elapsed).motionOf name).elim (target.map .ofSingle) fun t =>
        (t.advance (clampElapsed elapsed)).value) := by
    rw [motionOf_eq ha]
    refine ⟨_, ?_, htick⟩
    rw [afterActors, tickActors, Table.get?_mapWithName, ha]
    rfl
  exact hactors.of_sameActor (s.afterActors elapsed).sameActor_reordered

/-- A motion to the right, and a place that the actor is put at before the motion is over. -/
def interruptedEntries : List TimelineEntry :=
  driftEntries ++ [⟨5.0, "hero", .place ⟨3.0, 4.0⟩⟩]

/-- A scene of one actor with the motion and the place. -/
def interruptedScene : Scene := { driftScene with timeline := { events := interruptedEntries } }

theorem create_interruptedScene :
    (create { pixels := ["hero"], timeline := interruptedEntries }
      (.ofList [("hero", driftAsset)]) {} {}).2 = .ok interruptedScene := by
  have hsorted : Timeline.sortEvents interruptedEntries = interruptedEntries :=
    List.mergeSort_of_pairwise (by decide)
  have htimeline : Timeline.create interruptedEntries = .ok { events := interruptedEntries } := by
    unfold Timeline.create
    rw [show Timeline.checkTimes 0 interruptedEntries = .ok () from rfl, hsorted]
    rfl
  unfold create
  simp only [htimeline]
  rfl

/-- The actor is on its way when it is put at the place, and goes on in the same tick. -/
theorem not_hasAt_interruptedScene :
    (create { pixels := ["hero"], timeline := interruptedEntries }
        (.ofList [("hero", driftAsset)]) {} {}).2 = .ok interruptedScene ∧
      (interruptedScene.after [.tick 4.0]).lastApplied 2.0 "hero" = some (.place ⟨3.0, 4.0⟩) ∧
      ¬ ((interruptedScene.after [.tick 4.0]).tick 2.0).1.HasAt "hero"
        (Point.map Coordinate.ofSingle ⟨3.0, 4.0⟩) := by
  refine ⟨create_interruptedScene, by decide +kernel, ?_⟩
  rintro ⟨a, ha, hput⟩
  have hplace : (((interruptedScene.after [.tick 4.0]).tick 2.0).1.actors.get? "hero").map
      (fun b => b.node.position) ≠ some (Point.map Coordinate.ofSingle ⟨3.0, 4.0⟩) := by
    decide +kernel
  rw [ha] at hplace
  exact hplace (congrArg some hput.position_eq)

/-- The motion leads the actor on from where it was before the place. -/
theorem putAt_tick_interruptedScene :
    (interruptedScene.after [.tick 4.0]).lastApplied 2.0 "hero" = some (.place ⟨3.0, 4.0⟩) ∧
      ((interruptedScene.after [.tick 4.0]).tick 2.0).1.HasAt "hero"
        (Point.map Coordinate.ofSingle ⟨6.0, 0.0⟩) := by
  have hlast : (interruptedScene.after [.tick 4.0]).lastApplied 2.0 "hero" =
      some (.place ⟨3.0, 4.0⟩) := by decide +kernel
  have hplace : (((interruptedScene.after [.tick 4.0]).afterEvents 2.0).motionOf "hero").elim
      (Point.map Coordinate.ofSingle ⟨3.0, 4.0⟩) (fun t => (t.advance (clampElapsed 2.0)).value) =
        Point.map Coordinate.ofSingle ⟨6.0, 0.0⟩ := by decide +kernel
  refine ⟨hlast, ?_⟩
  rw [← hplace]
  exact putAt_tick hlast

end Scene

end SpriteStage
