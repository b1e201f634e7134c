import SpriteStage.Proofs.Actor.Outline
import SpriteStage.Proofs.Scene.Run
import SpriteStage.Proofs.Table

/-!
# What a scene does without regard to where its actors are

The outline of a scene has its actors in outline and no drawing order. It determines what is done to
the outline by an action (`apply_of_outline_eq`) and by a tick (`tick_of_outline_eq`), and all of a
frame but the ends of motions and whether something changed. A paced outline determines the ends of
motions as well, if no event of the timeline moves an actor by speed.
-/

set_option autoImplicit false

namespace SpriteStage

/-- No event moves an actor by speed. -/
def Timeline.Timed (t : Timeline) : Prop := ∀ entry ∈ t.events, ¬ entry.action.BySpeed

theorem Timeline.mem_events_of_mem_due {t : Timeline} {e : TimelineEntry × Nat} (h : e ∈ t.due) :
    e.1 ∈ t.events :=
  List.fst_mem_of_mem_zipIdx (List.mem_of_mem_drop (List.takeWhile_subset _ h))

/-- The frame without the note whether something changed. -/
def SceneFrame.quiet (f : SceneFrame) : SceneFrame := { f with changed := false }

/-- The frame without that note and without the ends of motions. -/
def SceneFrame.gist (f : SceneFrame) : SceneFrame :=
  { f.quiet with signals := f.signals.filter fun s => s.signal ≠ .moveDone }

/-- The signals of an actor besides the ends of motions. -/
def ActorReport.lasting (r : ActorReport) : List ActorSignal :=
  r.signals.filter fun s => s.signal ≠ .moveDone

theorem ActorReport.error?_congr (name : String) {o p : Outcome Actor Bool}
    (h : (o.result.map fun _ => ()) = p.result.map fun _ => ()) :
    ActorReport.error? ⟨name, o⟩ = ActorReport.error? ⟨name, p⟩ := by
  obtain ⟨_, _, _, result⟩ := o
  obtain ⟨_, _, _, other⟩ := p
  cases result with
  | ok changed =>
      cases other with
      | ok _ => rfl
      | error _ => cases h
  | error cause =>
      cases other with
      | ok _ => cases h
      | error _ =>
          cases h
          rfl

namespace SceneFrame

variable {elapsed : Float32} {events : List EventReport} {actors others : List ActorReport}

theorem flatMap_eq_of_map_eq {γ : Type} {f : ActorReport → List γ}
    (h : actors.map f = others.map f) : actors.flatMap f = others.flatMap f := by
  rw [List.flatMap_def, h, List.flatMap_def]

theorem filterMap_eq_of_map_eq {γ : Type} {f : ActorReport → Option γ}
    (h : actors.map f = others.map f) : actors.filterMap f = others.filterMap f := by
  have hid := congrArg (List.filterMap id) h
  rw [List.filterMap_map, List.filterMap_map] at hid
  exact hid

theorem any_eq_of_map_eq {f : ActorReport → Bool} (h : actors.map f = others.map f) :
    actors.any f = others.any f := by
  have hid := congrArg (List.any · id) h
  rw [List.any_map, List.any_map] at hid
  exact hid

theorem gist_ofReports (hsignals : actors.map ActorReport.lasting = others.map ActorReport.lasting)
    (herrors : actors.map ActorReport.error? = others.map ActorReport.error?)
    (reordered redrawn : Bool) :
    (ofReports elapsed reordered events actors).gist =
      (ofReports elapsed redrawn events others).gist := by
  have hlasting : ∀ reports : List ActorReport,
      ((reports.flatMap ActorReport.signals).filter fun s => s.signal ≠ .moveDone) =
        reports.flatMap ActorReport.lasting := fun reports => List.filter_flatMap
  unfold ofReports gist quiet
  dsimp only
  rw [List.filter_append, List.filter_append, hlasting, hlasting, flatMap_eq_of_map_eq hsignals,
    filterMap_eq_of_map_eq herrors]

theorem quiet_ofReports (hsignals : actors.map ActorReport.signals = others.map ActorReport.signals)
    (herrors : actors.map ActorReport.error? = others.map ActorReport.error?)
    (reordered redrawn : Bool) :
    (ofReports elapsed reordered events actors).quiet =
      (ofReports elapsed redrawn events others).quiet := by
  unfold ofReports quiet
  rw [flatMap_eq_of_map_eq hsignals, filterMap_eq_of_map_eq herrors]

theorem ofReports_congr (hsignals : actors.map ActorReport.signals = others.map ActorReport.signals)
    (herrors : actors.map ActorReport.error? = others.map ActorReport.error?)
    (hchanged : actors.map ActorReport.changed = others.map ActorReport.changed)
    (reordered : Bool) :
    ofReports elapsed reordered events actors = ofReports elapsed reordered events others := by
  unfold ofReports
  rw [flatMap_eq_of_map_eq hsignals, filterMap_eq_of_map_eq herrors, any_eq_of_map_eq hchanged]

end SceneFrame

namespace Scene

/-- The scene with its actors in outline and without a drawing order of those sorted by depth. -/
def outline (paced : Bool) (s : Scene) : Scene :=
  { s with actors := s.actors.mapWithName fun _ a => a.outline paced, sorted := [] }

variable {paced : Bool} {s t : Scene}

theorem outline_outline (s : Scene) : (s.outline paced).outline paced = s.outline paced := by
  have hactors : ((s.actors.mapWithName fun _ a => a.outline paced).mapWithName
      fun _ a => a.outline paced) = s.actors.mapWithName fun _ a => a.outline paced := by
    apply Table.ext_entries
    show ((s.actors.entries.map _).map _) = s.actors.entries.map _
    rw [List.map_map]
    refine List.map_congr_left ?_
    rintro ⟨n, a⟩ -
    exact congrArg (Prod.mk n) a.outline_outline
  exact congrArg (fun actors => { s with actors := actors, sorted := [] }) hactors

theorem outline_reordered (s : Scene) : s.reordered.2.outline paced = s.outline paced := by
  obtain ⟨sorted, hsorted⟩ := s.exists_reordered_eq
  rw [hsorted]
  rfl

/-! ## The setting -/

/-- The scene at its start, without actors and without a drawing order of those sorted by depth. -/
def setting (s : Scene) : Scene :=
  { s with timeline := s.timeline.rewind, actors := .empty, sorted := [] }

theorem setting_apply (s : Scene) (sprite : String) (action : SceneAction) :
    (s.apply sprite action).1.setting = s.setting := by
  unfold apply
  cases s.actors.get? sprite with
  | none => rfl
  | some actor => rfl

theorem setting_applyEvents (events : List (TimelineEntry × Nat)) (s : Scene) :
    (applyEvents events s).2.setting = s.setting := by
  induction events generalizing s with
  | nil => rfl
  | cons e rest ih =>
      obtain ⟨entry, index⟩ := e
      rw [applyEvents_cons]
      exact (ih _).trans (s.setting_apply entry.sprite entry.action)

theorem setting_afterActors (s : Scene) (elapsed : Float32) :
    (s.afterActors elapsed).setting = s.setting := setting_applyEvents _ _

theorem setting_reordered (s : Scene) : s.reordered.2.setting = s.setting := by
  obtain ⟨sorted, hsorted⟩ := s.exists_reordered_eq
  rw [hsorted]
  rfl

/-- Neither a tick nor an action changes the setting. -/
theorem setting_react (s : Scene) (call : HostCall) : (s.react call).setting = s.setting := by
  cases call with
  | tick elapsed =>
      show (s.tick elapsed).1.setting = s.setting
      rw [tick_state, setting_reordered, setting_afterActors]
  | apply sprite action => exact s.setting_apply sprite action

/-! ## Events -/

theorem outline_apply (s : Scene) (sprite : String) {action : SceneAction}
    (hpaced : paced = true → ¬ action.BySpeed) :
    (s.apply sprite action).1.outline paced =
        ((s.outline paced).apply sprite action).1.outline paced ∧
      (s.apply sprite action).2 = ((s.outline paced).apply sprite action).2 := by
  have hget : (s.outline paced).actors.get? sprite =
      (s.actors.get? sprite).map (·.outline paced) := Table.get?_mapWithName _ _ _
  unfold apply
  rw [hget]
  cases s.actors.get? sprite with
  | none => exact ⟨s.outline_outline.symm, rfl⟩
  | some actor =>
      have hsame := actor.sameOutline_perform hpaced s.sheet
      refine ⟨?_, ?_⟩
      · exact congrArg (fun actors => { s with actors := actors, sorted := [] })
          (Table.mapWithName_modify Actor.outline_outline s.actors sprite hsame.state_eq)
      · show ((actor.perform action s.sheet).log, _) =
          (((actor.outline paced).perform action s.sheet).log, _)
        rw [hsame.log_eq, hsame.signals_eq, hsame.result_eq]
        rfl

/-- Scenes of one outline take an action in the same way. -/
theorem apply_of_outline_eq (h : s.outline paced = t.outline paced) (sprite : String)
    {action : SceneAction} (hpaced : paced = true → ¬ action.BySpeed) :
    (s.apply sprite action).1.outline paced = (t.apply sprite action).1.outline paced ∧
      (s.apply sprite action).2 = (t.apply sprite action).2 := by
  obtain ⟨hs, hs'⟩ := s.outline_apply sprite hpaced
  obtain ⟨ht, ht'⟩ := t.outline_apply sprite hpaced
  rw [h] at hs hs'
  exact ⟨hs.trans ht.symm, hs'.trans ht'.symm⟩

theorem applyEvents_of_outline_eq {events : List (TimelineEntry × Nat)}
    (hpaced : paced = true → ∀ e ∈ events, ¬ e.1.action.BySpeed)
    (h : s.outline paced = t.outline paced) :
    (applyEvents events s).2.outline paced = (applyEvents events t).2.outline paced ∧
      (applyEvents events s).1 = (applyEvents events t).1 := by
  induction events generalizing s t with
  | nil => exact ⟨h, rfl⟩
  | cons e rest ih =>
      obtain ⟨entry, index⟩ := e
      obtain ⟨hscene, hreport⟩ := apply_of_outline_eq h entry.sprite
        fun hp => hpaced hp (entry, index) List.mem_cons_self
      obtain ⟨hrest, hreports⟩ := ih (fun hp e he => hpaced hp e (List.mem_cons_of_mem _ he)) hscene
      rw [applyEvents_cons, applyEvents_cons]
      refine ⟨hrest, ?_⟩
      show (⟨entry, index, _, _⟩ : EventReport) :: _ = ⟨entry, index, _, _⟩ :: _
      rw [hreport, hreports]

theorem timeline_of_outline_eq (h : s.outline paced = t.outline paced) : s.timeline = t.timeline :=
  congrArg (fun u => u.timeline) h

/-- The events that are due come out the same in scenes of one outline. -/
theorem played_of_outline_eq (hpaced : paced = true → s.timeline.Timed)
    (h : s.outline paced = t.outline paced) (elapsed : Float32) :
    (s.afterEvents elapsed).outline paced = (t.afterEvents elapsed).outline paced ∧
      s.eventReports elapsed = t.eventReports elapsed := by
  have htimeline := timeline_of_outline_eq h
  -- the clock is put on before the events are applied, and the outline keeps the clock
  have hstart : ({ s with timeline := s.timeline.advance (clampElapsed elapsed) } : Scene).outline
      paced = ({ t with timeline := t.timeline.advance (clampElapsed elapsed) } : Scene).outline
        paced := by
    rw [htimeline]
    exact congrArg
      (fun u => { u with timeline := t.timeline.advance (clampElapsed elapsed) }) h
  have hdue : paced = true → ∀ e ∈ (s.timeline.wait (clampElapsed elapsed)).due,
      ¬ e.1.action.BySpeed := by
    intro hp e he
    have hmem : e.1 ∈ (s.timeline.wait (clampElapsed elapsed)).events :=
      Timeline.mem_events_of_mem_due he
    exact hpaced hp e.1 hmem
  obtain ⟨hscene, hreports⟩ := applyEvents_of_outline_eq hdue hstart
  unfold afterEvents eventReports played
  rw [← htimeline] at hscene hreports ⊢
  exact ⟨hscene, hreports⟩

/-! ## Actors -/

theorem outline_tickActors (s : Scene) (elapsed : Float32) :
    (s.tickActors elapsed).outline paced =
      ((s.outline paced).tickActors elapsed).outline paced := by
  have hactors : ((s.actors.mapWithName fun _ a => (a.tick elapsed s.sheet).state).mapWithName
      fun _ a => a.outline paced) = ((s.actors.mapWithName fun _ a => a.outline paced).mapWithName
        fun _ a => (a.tick elapsed s.sheet).state).mapWithName fun _ a => a.outline paced := by
    apply Table.ext_entries
    show ((s.actors.entries.map _).map _) = ((s.actors.entries.map _).map _).map _
    rw [List.map_map, List.map_map, List.map_map]
    refine List.map_congr_left ?_
    rintro ⟨n, a⟩ -
    exact congrArg (Prod.mk n) (a.sameCourse_tick paced elapsed s.sheet).state_eq
  exact congrArg (fun actors => { s with actors := actors, sorted := [] }) hactors

/-- What can be told of an actor's tick from its outline can be told of all ticks. -/
theorem map_actorReports_outline {γ : Type} (g : ActorReport → γ) (s : Scene) (elapsed : Float32)
    (hg : ∀ name a, g ⟨name, a.tick elapsed s.sheet⟩ =
      g ⟨name, (Actor.outline paced a).tick elapsed s.sheet⟩) :
    (s.actorReports elapsed).map g = ((s.outline paced).actorReports elapsed).map g := by
  show ((s.actors.entries.map _).map g) = (((s.actors.entries.map _).map _).map g)
  rw [List.map_map, List.map_map, List.map_map]
  refine List.map_congr_left ?_
  rintro ⟨n, a⟩ -
  exact hg n a

/-! ## Ticks -/

theorem afterActors_of_outline_eq (hpaced : paced = true → s.timeline.Timed)
    (h : s.outline paced = t.outline paced) (elapsed : Float32) :
    (s.afterActors elapsed).outline paced = (t.afterActors elapsed).outline paced := by
  unfold afterActors
  rw [outline_tickActors, (played_of_outline_eq hpaced h elapsed).1, ← outline_tickActors]

/-- What can be told of an actor's tick from its outline is the same in scenes of one outline. -/
theorem map_actorReports_of_outline_eq {γ : Type} (g : ActorReport → γ)
    (h : s.outline paced = t.outline paced) (elapsed : Float32)
    (hg : ∀ name a sheet, g ⟨name, a.tick elapsed sheet⟩ =
      g ⟨name, (Actor.outline paced a).tick elapsed sheet⟩) :
    (s.actorReports elapsed).map g = (t.actorReports elapsed).map g := by
  rw [map_actorReports_outline g s elapsed fun name a => hg name a s.sheet, h,
    ← map_actorReports_outline g t elapsed fun name a => hg name a t.sheet]

theorem lasting_outline (paced : Bool) (name : String) (a : Actor) (elapsed : Float32)
    (sheet : FrameSheet) :
    ActorReport.lasting ⟨name, a.tick elapsed sheet⟩ =
      ActorReport.lasting ⟨name, (a.outline paced).tick elapsed sheet⟩ := by
  unfold ActorReport.lasting ActorReport.signals
  rw [List.filter_map, List.filter_map]
  exact congrArg _ (a.sameCourse_tick paced elapsed sheet).signals_eq

theorem error?_outline (paced : Bool) (name : String) (a : Actor) (elapsed : Float32)
    (sheet : FrameSheet) :
    ActorReport.error? ⟨name, a.tick elapsed sheet⟩ =
      ActorReport.error? ⟨name, (a.outline paced).tick elapsed sheet⟩ :=
  ActorReport.error?_congr name (a.sameCourse_tick paced elapsed sheet).error_eq

theorem signals_outline (name : String) (a : Actor) (elapsed : Float32) (sheet : FrameSheet) :
    ActorReport.signals ⟨name, a.tick elapsed sheet⟩ =
      ActorReport.signals ⟨name, (a.outline true).tick elapsed sheet⟩ := by
  unfold ActorReport.signals
  rw [((a.sameCourse_tick true elapsed sheet).paced_eq rfl).1]

theorem changed_outline (name : String) (a : Actor) (elapsed : Float32) (sheet : FrameSheet) :
    ActorReport.changed ⟨name, a.tick elapsed sheet⟩ =
      ActorReport.changed ⟨name, (a.outline true).tick elapsed sheet⟩ := by
  unfold ActorReport.changed
  rw [((a.sameCourse_tick true elapsed sheet).paced_eq rfl).2]

/-- A tick does the same to scenes of one outline, and its frames differ in the ends of motions and
in whether something changed at most. -/
theorem tick_of_outline_eq (hpaced : paced = true → s.timeline.Timed)
    (h : s.outline paced = t.outline paced) (elapsed : Float32) :
    (s.tick elapsed).1.outline paced = (t.tick elapsed).1.outline paced ∧
      (s.tick elapsed).2.2.gist = (t.tick elapsed).2.2.gist := by
  have hstate : (s.tick elapsed).1.outline paced = (t.tick elapsed).1.outline paced := by
    rw [tick_state, tick_state, outline_reordered, outline_reordered]
    exact afterActors_of_outline_eq hpaced h elapsed
  obtain ⟨hevents, hreports⟩ := played_of_outline_eq hpaced h elapsed
  refine ⟨hstate, ?_⟩
  rw [tick_frame, tick_frame, timeline_of_outline_eq hstate, hreports]
  apply SceneFrame.gist_ofReports
  · exact map_actorReports_of_outline_eq _ hevents _ fun name a => lasting_outline paced name a _
  · exact map_actorReports_of_outline_eq _ hevents _ fun name a => error?_outline paced name a _

theorem reordered_of_unsorted (h : s.options.sortY = false) : s.reordered = (false, s) := by
  unfold reordered
  rw [h]
  rfl

/-- With paced motions, the frames differ in whether something changed at most, and that only if
the drawing order follows the depth. -/
theorem tick_of_outline_true_eq (htimed : s.timeline.Timed) (h : s.outline true = t.outline true)
    (elapsed : Float32) :
    (s.tick elapsed).2.2.quiet = (t.tick elapsed).2.2.quiet ∧
      (s.options.sortY = false → (s.tick elapsed).2.2 = (t.tick elapsed).2.2) := by
  obtain ⟨hstate, -⟩ := tick_of_outline_eq (fun _ => htimed) h elapsed
  obtain ⟨hevents, hreports⟩ := played_of_outline_eq (fun _ => htimed) h elapsed
  have hsignals := map_actorReports_of_outline_eq _ hevents (clampElapsed elapsed)
    fun name a => signals_outline name a _
  have herrors := map_actorReports_of_outline_eq _ hevents (clampElapsed elapsed)
    fun name a => error?_outline true name a _
  rw [tick_frame, tick_frame, timeline_of_outline_eq hstate, hreports]
  refine ⟨SceneFrame.quiet_ofReports hsignals herrors _ _, ?_⟩
  intro hsort
  have hs : (s.afterActors elapsed).options.sortY = false := by
    have hoptions := congrArg (fun u => u.options.sortY) (s.setting_afterActors elapsed)
    exact hoptions.trans hsort
  have ht : (t.afterActors elapsed).options.sortY = false := by
    have hoptions := congrArg (fun u => u.options.sortY) (afterActors_of_outline_eq
      (fun _ => htimed) h elapsed)
    exact hoptions.symm.trans hs
  -- without an order by depth, none can change, so the frames do not differ in that
  rw [reordered_of_unsorted hs, reordered_of_unsorted ht]
  have hchanged := map_actorReports_of_outline_eq _ hevents (clampElapsed elapsed)
    fun name a => changed_outline name a _
  exact SceneFrame.ofReports_congr hsignals herrors hchanged false

end Scene

end SpriteStage
