import SpriteStage.Proofs.Actor.Settled
import SpriteStage.Proofs.Scene.DrawingOrder

/-!
# Scenes that no time passes for

A tick leaves a scene settled: no event is due, no frame is due, no motion that is over is kept, and
the actors that are sorted by depth are in order. A tick of no time then does nothing to the scene
and reports nothing (`Settled.stands`). Negative, infinite and undefined times count as no time.
-/

set_option autoImplicit false

namespace SpriteStage

open Single (IsZero)

theorem isZero_clampElapsed {elapsed : Float32} (h : elapsed ≤ 0.0 ∨ elapsed.isFinite = false) :
    IsZero (clampElapsed elapsed) := by
  unfold clampElapsed
  by_cases husable : isUsableElapsed elapsed = true
  · obtain ⟨hfinite, hle⟩ := (isUsableElapsed_iff elapsed).1 husable
    rw [if_pos husable]
    rcases h with hnonpos | hinfinite
    · exact Single.isZero_of_le_of_le hnonpos hle
    · cases hinfinite.symm.trans hfinite
  · rw [if_neg husable]
    exact ⟨.positive, rfl⟩

namespace Timeline.WellTimed

variable {t : Timeline} {elapsed : Float32}

/-- No time leaves a clock that is not negative as it is. -/
theorem wait_of_isZero (h : t.WellTimed) (hzero : IsZero (clampElapsed elapsed)) :
    t.wait elapsed = t := by
  have hminus : ¬ Single.IsMinusZero t.elapsed := by
    intro hminus
    have hsign := h.positive
    rw [hminus] at hsign
    cases hsign
  simp only [Timeline.wait, Single.add_of_isZero hminus hzero]

/-- Nothing is due when the cursor is behind all events that the clock has reached. -/
theorem due_eq_nil (h : t.WellTimed) (hcursor : t.cursor = t.reached) : t.due = [] := by
  have hcount := h.cursor_add_length_due
  exact List.eq_nil_of_length_eq_zero (by omega)

theorem advance_of_isZero (h : t.WellTimed) (hcursor : t.cursor = t.reached)
    (hzero : IsZero (clampElapsed elapsed)) : t.advance elapsed = t := by
  simp only [Timeline.advance, h.wait_of_isZero hzero, h.due_eq_nil hcursor, List.length_nil,
    Nat.add_zero]

end Timeline.WellTimed

namespace Scene

/-- Nothing is due on the stage. -/
structure Settled (s : Scene) : Prop where
  /-- The clock and the events are in order. -/
  wellTimed : s.timeline.WellTimed
  /-- The cursor is behind all events that the clock has reached. -/
  cursor_eq : s.timeline.cursor = s.timeline.reached
  /-- The actors are settled. -/
  actors : s.Everyone Actor.Settled
  /-- Those that are sorted by depth are in order. -/
  ordered : s.options.sortY = true → s.inDepthOrder s.sorted = true

/-- Nothing comes of a tick. -/
structure Stands (s : Scene) (elapsed : Float32) : Prop where
  /-- The clock, the cursor, the actors and the drawing order are as they were. -/
  state_eq : (s.tick elapsed).1 = s
  /-- The frame gives the time on the clock. -/
  elapsed_eq : (s.tick elapsed).2.2.elapsed = s.timeline.elapsed
  /-- No event is applied. -/
  applied_eq : (s.tick elapsed).2.2.applied = []
  /-- No error is reported. -/
  errors_eq : (s.tick elapsed).2.2.errors = []
  /-- No signal is given. -/
  signals_eq : (s.tick elapsed).2.2.signals = []

variable {s : Scene} {elapsed : Float32}

/-! ## Where a tick leads to -/

/-- Sorting leaves the actors in order. -/
theorem inDepthOrder_reordered (s : Scene) (hsort : s.options.sortY = true) :
    s.reordered.2.inDepthOrder s.reordered.2.sorted = true := by
  have hordered := s.stablySorted_depth.ordered
  rw [reordered, if_pos hsort, inDepthOrder_iff, sortDepth_eq]
  exact hordered

theorem settled_tick (htimed : s.timeline.WellTimed)
    (hforward : s.Everyone fun a => a.motions.Forward) (elapsed : Float32) :
    (s.tick elapsed).1.Settled := by
  refine ⟨?_, ?_, ?_, ?_⟩
  · exact wellTimed_react htimed (.tick elapsed)
  · exact (tickKeepsTime htimed elapsed).cursor_eq
  · have hstart : Everyone (fun a => a.motions.Forward)
        { s with timeline := s.timeline.advance (clampElapsed elapsed) } := hforward
    have hevents : (s.afterEvents elapsed).Everyone fun a => a.motions.Forward :=
      hstart.applyEvents Actor.kept_forward _
    have hactors : (s.afterActors elapsed).Everyone Actor.Settled :=
      hevents.map fun a ha => Actor.settled_tick ha (clampElapsed_usable elapsed).1 _
    obtain ⟨sorted, hsorted⟩ := (s.afterActors elapsed).exists_reordered_eq
    rw [tick_state, hsorted]
    exact hactors
  · intro hsort
    have hoptions := (SameStage.reordered (s.afterActors elapsed)).options_eq
    rw [tick_state, hoptions] at hsort
    exact (s.afterActors elapsed).inDepthOrder_reordered hsort

/-! ## Where no time leads to -/

namespace Settled

theorem played (h : s.Settled) (hzero : IsZero (clampElapsed elapsed)) :
    s.played elapsed = ([], s) := by
  -- the clock clamps the time once more
  have hclamp : IsZero (clampElapsed (clampElapsed elapsed)) := by
    rw [clampElapsed_clampElapsed]
    exact hzero
  simp only [Scene.played, h.wellTimed.wait_of_isZero hclamp, h.wellTimed.due_eq_nil h.cursor_eq,
    h.wellTimed.advance_of_isZero h.cursor_eq hclamp, applyEvents]

theorem tickActors (h : s.Settled) (hzero : IsZero elapsed) : s.tickActors elapsed = s := by
  have hactors : (s.actors.mapWithName fun _ a => (a.tick elapsed s.sheet).state) = s.actors :=
    Table.mapWithName_eq_self fun name a ha => ((h.actors name a ha).tick hzero s.sheet).1
  simp only [Scene.tickActors, hactors]

theorem reordered (h : s.Settled) : s.reordered = (false, s) := by
  unfold Scene.reordered
  by_cases hsort : s.options.sortY = true
  · simp only [if_pos hsort, sortDepth, if_pos (h.ordered hsort)]
  · rw [if_neg hsort]

/-- An actor that lets no time pass has nothing to report. -/
theorem quiet_of_mem_actorReports (h : s.Settled) (hzero : IsZero elapsed) {r : ActorReport}
    (hr : r ∈ s.actorReports elapsed) : r.signals = [] ∧ r.error? = none := by
  obtain ⟨⟨name, a⟩, hmem, rfl⟩ := List.mem_map.1 hr
  obtain ⟨-, hsignals, changed, hresult⟩ :=
    (h.actors name a ((s.actors.mem_entries_iff name a).1 hmem)).tick hzero s.sheet
  simp only [ActorReport.signals, ActorReport.error?, hsignals, hresult, List.map_nil, and_self]

/-- Nothing comes of no time. -/
theorem stands (h : s.Settled) (hidle : elapsed ≤ 0.0 ∨ elapsed.isFinite = false) :
    s.Stands elapsed := by
  have hzero := isZero_clampElapsed hidle
  have hplayed := h.played hzero
  have hreports : s.eventReports elapsed = [] := congrArg Prod.fst hplayed
  have hevents : s.afterEvents elapsed = s := congrArg Prod.snd hplayed
  have hactors : s.afterActors elapsed = s := by
    rw [afterActors, hevents, h.tickActors hzero]
  have hstate : (s.tick elapsed).1 = s := by
    rw [tick_state, hactors, h.reordered]
  have hquiet := fun r => h.quiet_of_mem_actorReports hzero (r := r)
  refine ⟨hstate, ?_, ?_, ?_, ?_⟩
  · rw [tick_frame, hstate]
    rfl
  · rw [tick_frame, hreports]
    rfl
  · rw [tick_frame, hreports, hevents]
    exact List.filterMap_eq_nil_iff.2 fun r hr => (hquiet r hr).2
  · rw [tick_frame, hreports, hevents]
    exact List.flatMap_eq_nil_iff.2 fun r hr => (hquiet r hr).1

end Settled

/-! ## Scenes that were built -/

/-- Nobody moves on a stage that has just been built. -/
theorem forward_of_create {data : SceneData} {library : AssetLibrary} {sheet : FrameSheet}
    {config : SceneConfig} (h : (create data library sheet config).2 = .ok s) :
    s.Everyone fun a => a.motions.Forward := by
  rw [← restart_of_create h]
  intro name a ha
  rw [get?_restart] at ha
  obtain ⟨before, -, rfl⟩ := Option.map_eq_some_iff.1 ha
  exact before.motions.forward_cancel

/-- Whatever has been done to a scene, and by whatever time it is ticked: after that, a tick of a time
that is zero, negative, infinite or undefined does nothing to the scene and reports nothing. -/
theorem stands_of_ticked {data : SceneData} {library : AssetLibrary} {sheet : FrameSheet}
    {config : SceneConfig} {fresh : Scene}
    (h : (create data library sheet config).2 = .ok fresh) (commands : List SceneCommand)
    (elapsed : Float32) {idle : Float32} (hidle : idle ≤ 0.0 ∨ idle.isFinite = false) :
    ((fresh.obeyAll commands).tick elapsed).1.Stands idle := by
  have htimed : (fresh.obeyAll commands).timeline.WellTimed :=
    obeyAll_induct (Q := fun s => s.timeline.WellTimed)
      (fun _ command hs => wellTimed_obey hs command) (wellTimed_of_create h).1 commands
  have hforward : (fresh.obeyAll commands).Everyone fun a => a.motions.Forward :=
    obeyAll_induct (fun _ command hs => hs.obey Actor.kept_forward command)
      (forward_of_create h) commands
  exact (settled_tick htimed hforward elapsed).stands hidle

/-- A scene stands still in the middle of a motion, and after its last event. -/
theorem stands_of_ticked_driftScene :
    ((driftScene.obeyAll [.call (.tick 1.0)]).tick 3.0).1.Stands (-1.0) ∧
      ((twoEntryScene.obeyAll [.restart]).tick 20.0).1.Stands (0.0 / 0.0) := by
  have hnegative : (-1.0 : Float32) ≤ 0.0 := by decide
  have hundefined : (0.0 / 0.0 : Float32).isFinite = false := rfl
  exact ⟨stands_of_ticked create_driftScene _ 3.0 (Or.inl hnegative),
    stands_of_ticked create_twoEntryScene _ 20.0 (Or.inr hundefined)⟩

end Scene

end SpriteStage
