import SpriteStage.Proofs.Scene.Run

/-!
# Every event once

The events of a timeline are handled in order, each once, and none is left out: after any run, the
indices of the handled events are those before the cursor (`handled_once`). It does not matter how
often the host ticks, by which times, or what it does to the actors in between, nor whether an event
fails: a failing event is handled too, and its error is in the frame in the place of the event.
-/

set_option autoImplicit false

namespace SpriteStage

open EventReport (applied? error?)

/-- An event has one outcome: it was applied, under its own index, or there is an error for it. -/
def EventReport.HasOneOutcome (r : EventReport) : Prop :=
  (∃ a, r.applied? = some a ∧ a.index = r.index ∧ r.error? = none) ∨
    (∃ e, r.error? = some e ∧ r.applied? = none)

theorem EventReport.hasOneOutcome (r : EventReport) : r.HasOneOutcome := by
  obtain ⟨entry, index, result, log⟩ := r
  cases result with
  | ok signals => exact Or.inl ⟨_, rfl, rfl, rfl⟩
  | error e => exact Or.inr ⟨e, rfl, rfl⟩

namespace Scene

/-! ## One tick -/

/-- Every event that is applied is reported, with its index. -/
theorem reports_applyEvents (events : List (TimelineEntry × Nat)) (s : Scene) :
    (applyEvents events s).1.map (fun r => (r.entry, r.index)) = events := by
  induction events generalizing s with
  | nil => rfl
  | cons e rest ih =>
      obtain ⟨entry, index⟩ := e
      rw [applyEvents_cons, List.map_cons, ih]

/-- The events that a tick handles. -/
theorem eventReports_eq (s : Scene) (elapsed : Float32) :
    (s.eventReports elapsed).map (fun r => (r.entry, r.index)) =
      (s.timeline.wait (clampElapsed elapsed)).due := reports_applyEvents _ _

theorem length_eventReports (s : Scene) (elapsed : Float32) :
    (s.eventReports elapsed).length = (s.timeline.wait (clampElapsed elapsed)).due.length := by
  rw [← eventReports_eq, List.length_map]

/-- The indices of a tick count on from the cursor. -/
theorem index_eventReports (s : Scene) (elapsed : Float32) :
    (s.eventReports elapsed).map EventReport.index =
      List.range' s.timeline.cursor (s.eventReports elapsed).length := by
  have hsnd : (s.eventReports elapsed).map EventReport.index =
      ((s.eventReports elapsed).map fun r => (r.entry, r.index)).map Prod.snd := by
    rw [List.map_map]
    rfl
  rw [hsnd, length_eventReports, eventReports_eq, Timeline.due_eq, List.zipIdx_map_snd,
    List.length_zipIdx]
  rfl

theorem cursor_tick (s : Scene) (elapsed : Float32) :
    (s.tick elapsed).1.timeline.cursor = s.timeline.cursor + (s.eventReports elapsed).length := by
  rw [timeline_tick, length_eventReports]
  rfl

/-- What is due is on the timeline, with its index. -/
theorem get?_of_mem_due {t : Timeline} {e : TimelineEntry × Nat} (h : e ∈ t.due) :
    t.get? e.2 = some e.1 := by
  have hpending := (List.takeWhile_sublist _).subset h
  exact List.mem_zipIdx_iff_getElem?.1 (List.mem_of_mem_drop hpending)

theorem get?_of_mem_eventReports {s : Scene} {elapsed : Float32} {r : EventReport}
    (h : r ∈ s.eventReports elapsed) : s.timeline.get? r.index = some r.entry := by
  have hmem : (r.entry, r.index) ∈ (s.timeline.wait (clampElapsed elapsed)).due := by
    rw [← eventReports_eq]
    exact List.mem_map.2 ⟨r, h, rfl⟩
  exact get?_of_mem_due hmem

/-! ## Runs -/

theorem events_tick (s : Scene) (elapsed : Float32) :
    (s.tick elapsed).1.timeline.events = s.timeline.events := by
  rw [timeline_tick]
  rfl

theorem wellTimed_react {s : Scene} (h : s.timeline.WellTimed) (call : HostCall) :
    (s.react call).timeline.WellTimed := by
  cases call with
  | tick elapsed =>
      show (s.tick elapsed).1.timeline.WellTimed
      rw [timeline_tick]
      exact h.advance _
  | apply sprite action =>
      show (s.apply sprite action).1.timeline.WellTimed
      rw [timeline_apply]
      exact h

theorem wellTimed_after {s : Scene} (h : s.timeline.WellTimed) (calls : List HostCall) :
    (s.after calls).timeline.WellTimed := by
  induction calls generalizing s with
  | nil => exact h
  | cons call rest ih => exact ih (wellTimed_react h call)

theorem cursor_after (s : Scene) (calls : List HostCall) :
    (s.after calls).timeline.cursor = s.timeline.cursor + (s.handled calls).length := by
  induction calls generalizing s with
  | nil => rfl
  | cons call rest ih =>
      rw [after_cons, ih]
      cases call with
      | tick elapsed =>
          show (s.tick elapsed).1.timeline.cursor + (handled (s.tick elapsed).1 rest).length =
            _ + (s.eventReports elapsed ++ handled (s.tick elapsed).1 rest).length
          rw [cursor_tick, List.length_append, Nat.add_assoc]
      | apply sprite action =>
          show (s.apply sprite action).1.timeline.cursor + _ = _
          rw [timeline_apply]
          rfl

/-- The indices of a run count on from the cursor that it starts with. -/
theorem index_handled (s : Scene) (calls : List HostCall) :
    (s.handled calls).map EventReport.index =
      List.range' s.timeline.cursor (s.handled calls).length := by
  induction calls generalizing s with
  | nil => rfl
  | cons call rest ih =>
      cases call with
      | tick elapsed =>
          show (s.eventReports elapsed ++ handled (s.tick elapsed).1 rest).map _ =
            List.range' _ (s.eventReports elapsed ++ handled (s.tick elapsed).1 rest).length
          rw [List.map_append, index_eventReports, ih, cursor_tick, List.length_append,
            List.range'_append_1]
      | apply sprite action =>
          show (handled (s.apply sprite action).1 rest).map _ =
            List.range' s.timeline.cursor (handled (s.apply sprite action).1 rest).length
          rw [ih, timeline_apply]

theorem get?_of_mem_handled {s : Scene} {calls : List HostCall} {r : EventReport}
    (h : r ∈ s.handled calls) : s.timeline.get? r.index = some r.entry := by
  induction calls generalizing s with
  | nil => exact absurd h (by simp [handled])
  | cons call rest ih =>
      cases call with
      | tick elapsed =>
          rcases List.mem_append.1 h with hnow | hlater
          · exact get?_of_mem_eventReports hnow
          · -- the rest of the run reads the events of the same timeline
            have hget := ih hlater
            unfold Timeline.get? at hget ⊢
            rw [events_tick] at hget
            exact hget
      | apply sprite action =>
          have hget := ih (s := (s.apply sprite action).1) h
          rw [timeline_apply] at hget
          exact hget

theorem wellTimed_of_create {data : SceneData} {library : AssetLibrary} {sheet : FrameSheet}
    {config : SceneConfig} {s : Scene} (h : (create data library sheet config).2 = .ok s) :
    s.timeline.WellTimed ∧ s.timeline.cursor = 0 := by
  obtain ⟨-, htimeline⟩ := parts_of_create h
  exact ⟨Timeline.wellTimed_of_create htimeline, Timeline.cursor_of_create htimeline⟩

/-- What a tick owes to the timeline. -/
structure TickKeepsTime (s : Scene) (elapsed : Float32) : Prop where
  /-- The events that were applied are in the frame. -/
  applied_eq : (s.tick elapsed).2.2.applied = (s.eventReports elapsed).filterMap applied?
  /-- The errors of the other events are in the frame, before those of the actors. -/
  errors_eq : (s.tick elapsed).2.2.errors =
    (s.eventReports elapsed).filterMap error? ++
      ((s.afterEvents elapsed).actorReports (clampElapsed elapsed)).filterMap ActorReport.error?
  /-- The events stay as they are. -/
  events_eq : (s.tick elapsed).1.timeline.events = s.timeline.events
  /-- The cursor is the number of events that the clock has reached. -/
  cursor_eq : (s.tick elapsed).1.timeline.cursor = (s.tick elapsed).1.timeline.reached
  /-- The clock is not turned back. -/
  clock_le : s.timeline.elapsed ≤ (s.tick elapsed).1.timeline.elapsed
  /-- A negative, infinite or undefined time leaves the clock where it is. -/
  clock_eq : elapsed.isFinite = false ∨ elapsed < 0.0 →
    (s.tick elapsed).1.timeline.elapsed = s.timeline.elapsed

theorem tickKeepsTime {s : Scene} (h : s.timeline.WellTimed) (elapsed : Float32) :
    s.TickKeepsTime elapsed := by
  refine ⟨rfl, rfl, events_tick s elapsed, ?_, ?_, ?_⟩
  · rw [timeline_tick]
    exact h.cursor_advance _
  · rw [timeline_tick]
    exact h.le_advance _
  · intro hbad
    rw [timeline_tick, Timeline.advance_clampElapsed]
    exact h.advance_of_unusable hbad

/-- In every run of a scene that was built, each timeline event before the cursor is handled once and
in order, with one outcome, and every tick keeps the cursor and the clock right. An action of the
host moves neither. -/
theorem handled_once {data : SceneData} {library : AssetLibrary} {sheet : FrameSheet}
    {config : SceneConfig} {s : Scene} (h : (create data library sheet config).2 = .ok s)
    (calls : List HostCall) :
    (s.handled calls).map EventReport.index = List.range (s.after calls).timeline.cursor ∧
      (∀ r ∈ s.handled calls, s.timeline.get? r.index = some r.entry ∧ r.HasOneOutcome) ∧
      (∀ elapsed, (s.after calls).TickKeepsTime elapsed) ∧
      ∀ sprite action,
        ((s.after calls).apply sprite action).1.timeline = (s.after calls).timeline := by
  obtain ⟨htimed, hstart⟩ := wellTimed_of_create h
  refine ⟨?_, ?_, ?_, ?_⟩
  · rw [index_handled, cursor_after, hstart, Nat.zero_add, List.range_eq_range']
  · intro r hr
    exact ⟨get?_of_mem_handled hr, r.hasOneOutcome⟩
  · intro elapsed
    exact tickKeepsTime (wellTimed_after htimed calls) elapsed
  · intro sprite action
    exact timeline_apply _ sprite action

/-- An event for an actor that takes part, and one for an actor that does not. -/
def twoEntries : List TimelineEntry := [⟨0.0, "hero", .unplace⟩, ⟨16.0, "ghost", .unplace⟩]

/-- An asset without frames. -/
def bareAsset : Asset := ⟨"hero", [], .empty⟩

/-- A scene of one actor with the two events. -/
def twoEntryScene : Scene where
  width := 0
  height := 0
  options := {}
  unsortedLayer := .below
  actors := Table.empty.insert "hero" (.create bareAsset { visible := false } {})
  sorted := []
  unsorted := ["hero"]
  timeline := { events := twoEntries }
  sheet := {}

theorem create_twoEntryScene :
    (create { pixels := ["hero"], timeline := twoEntries } (.ofList [("hero", bareAsset)]) {} {}).2 =
      .ok twoEntryScene := by
  have hsorted : Timeline.sortEvents twoEntries = twoEntries :=
    List.mergeSort_of_pairwise (by decide)
  have htimeline : Timeline.create twoEntries = .ok { events := twoEntries } := by
    unfold Timeline.create
    rw [show Timeline.checkTimes 0 twoEntries = .ok () from rfl, hsorted]
    rfl
  unfold create
  simp only [htimeline]
  rfl

theorem handled_once_twoEntryScene :
    (twoEntryScene.handled [.tick 20.0, .apply "hero" .unplace, .tick (0.0 / 0.0)]).map
      EventReport.index = [0, 1] := by
  refine (handled_once create_twoEntryScene _).1.trans ?_
  rfl

end Scene

end SpriteStage
