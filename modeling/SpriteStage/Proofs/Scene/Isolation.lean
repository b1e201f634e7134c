import SpriteStage.Proofs.Scene.Delivery
import SpriteStage.Proofs.Scene.Replay

/-!
# What actors do to each other

Nothing. What an actor does in a tick is determined by its own state, by the sheet, and by the
events that are addressed to it, as these come due by the clock. So scenes that agree on those go on
to agree, and their frames agree on the actor (`agreeOn_ticked`), whatever else is on the stage and
whatever fails there.

The events of a tick are taken one by one: those of other actors can be left out without a
difference to the actor (`applyEvents_own`).
-/

set_option autoImplicit false

namespace SpriteStage

/-! ## Lists of reports -/

section

variable {α β : Type} {own : α → Bool} {about : β → Bool} {l : List α}

/-- If every report gives only what it is about, then what is given about an actor is what the
reports about the actor give. -/
theorem filter_flatMap_own {give : α → List β} (h : ∀ a ∈ l, ∀ b ∈ give a, about b = own a) :
    (l.flatMap give).filter about = (l.filter own).flatMap give := by
  induction l with
  | nil => rfl
  | cons a rest ih =>
      rw [List.flatMap_cons, List.filter_append, ih fun c hc => h c (List.mem_cons_of_mem _ hc)]
      have hfirst := h a List.mem_cons_self
      by_cases ha : own a = true
      · have hall : (give a).filter about = give a :=
          List.filter_eq_self.2 fun b hb => (hfirst b hb).trans ha
        simp [hall, ha]
      · have hnone : (give a).filter about = [] := by
          rw [List.filter_eq_nil_iff]
          intro b hb hb'
          exact ha ((hfirst b hb).symm.trans hb')
        simp [hnone, ha]

theorem filter_filterMap_own {give : α → Option β}
    (h : ∀ a ∈ l, ∀ b, give a = some b → about b = own a) :
    (l.filterMap give).filter about = (l.filter own).filterMap give := by
  induction l with
  | nil => rfl
  | cons a rest ih =>
      have hrest := ih fun c hc => h c (List.mem_cons_of_mem _ hc)
      have hfirst := h a List.mem_cons_self
      cases hgive : give a with
      | none =>
          rw [List.filterMap_cons_none hgive, hrest]
          by_cases ha : own a = true
          · simp [ha, hgive]
          · simp [ha]
      | some b =>
          rw [List.filterMap_cons_some hgive, List.filter_cons, hfirst b hgive, hrest]
          by_cases ha : own a = true
          · simp [ha, hgive]
          · simp [ha]

end

/-! ## Timelines -/

/-- What an actor sees of an entry: its time, and all of it if it is addressed to the actor. -/
def TimelineEntry.seenBy (name : String) (entry : TimelineEntry) : Float32 × Option TimelineEntry :=
  (entry.time, if entry.sprite = name then some entry else none)

namespace Timeline

/-- Timelines agree on clock, cursor and times, and on the entries addressed to an actor. -/
structure AgreeOn (name : String) (t u : Timeline) : Prop where
  /-- The clock. -/
  clock_eq : t.elapsed = u.elapsed
  /-- The cursor. -/
  cursor_eq : t.cursor = u.cursor
  /-- The times of all entries. -/
  times_eq : t.events.map (·.time) = u.events.map (·.time)
  /-- The entries that are addressed to the actor, with their places. -/
  entry_iff : ∀ index entry, entry.sprite = name →
    (t.get? index = some entry ↔ u.get? index = some entry)

variable {name : String} {t u : Timeline}

/-- The actor sees the same entries. -/
theorem AgreeOn.seen_eq (h : t.AgreeOn name u) :
    t.events.map (·.seenBy name) = u.events.map (·.seenBy name) := by
  apply List.ext_getElem?
  intro index
  have htime := congrArg (·[index]?) h.times_eq
  have hentry := h.entry_iff index
  unfold get? at hentry
  rw [List.getElem?_map, List.getElem?_map] at htime ⊢
  cases ht : t.events[index]? with
  | none =>
      rw [ht] at htime
      rw [Option.map_eq_none_iff.1 htime.symm]
  | some entry =>
      rw [ht] at htime
      obtain ⟨other, hu, hother⟩ := Option.map_eq_some_iff.1 htime.symm
      rw [hu]
      by_cases hown : entry.sprite = name
      · -- the entry is addressed to the actor, so it is the same on both
        have hsame := (hentry entry hown).1 ht
        cases hu.symm.trans hsame
        rfl
      · by_cases hothers : other.sprite = name
        · have hsame := (hentry other hothers).2 hu
          cases ht.symm.trans hsame
          exact absurd hothers hown
        · simp [TimelineEntry.seenBy, hown, hothers, hother]

theorem AgreeOn.wait (h : t.AgreeOn name u) (elapsed : Float32) :
    (t.wait elapsed).AgreeOn name (u.wait elapsed) :=
  ⟨congrArg (· + clampElapsed elapsed) h.clock_eq, h.cursor_eq, h.times_eq, h.entry_iff⟩

/-- The times alone decide what is due. -/
theorem map_seenBy_due (t : Timeline) (name : String) :
    t.due.map (Prod.map (·.seenBy name) id) =
      (((t.events.map (·.seenBy name)).drop t.cursor).takeWhile
        fun seen => decide (seen.1 ≤ t.elapsed)).zipIdx t.cursor := by
  rw [due_eq, ← List.map_drop, List.takeWhile_map, List.zipIdx_map]
  rfl

/-- The actor sees the same entries become due. -/
theorem AgreeOn.map_due_eq (h : t.AgreeOn name u) :
    t.due.map (Prod.map (·.seenBy name) id) = u.due.map (Prod.map (·.seenBy name) id) := by
  rw [map_seenBy_due, map_seenBy_due, h.seen_eq, h.clock_eq, h.cursor_eq]

/-- What the actor sees all of are the entries that are addressed to it. -/
theorem filterMap_seenBy (due : List (TimelineEntry × Nat)) (name : String) :
    (due.map (Prod.map (·.seenBy name) id)).filterMap
        (fun seen => seen.1.2.map fun entry => (entry, seen.2)) =
      due.filter fun e => e.1.sprite = name := by
  induction due with
  | nil => rfl
  | cons e rest ih =>
      rw [List.map_cons, List.filterMap_cons, ih, List.filter_cons]
      by_cases hown : e.1.sprite = name
      · simp [TimelineEntry.seenBy, hown]
      · simp [TimelineEntry.seenBy, hown]

/-- The same entries that are addressed to the actor become due. -/
theorem AgreeOn.filter_due_eq (h : t.AgreeOn name u) :
    t.due.filter (fun e => e.1.sprite = name) = u.due.filter fun e => e.1.sprite = name := by
  rw [← filterMap_seenBy, ← filterMap_seenBy, h.map_due_eq]

theorem AgreeOn.advance (h : t.AgreeOn name u) (elapsed : Float32) :
    (t.advance elapsed).AgreeOn name (u.advance elapsed) := by
  have hlater := h.wait elapsed
  have hlength : (t.wait elapsed).due.length = (u.wait elapsed).due.length := by
    simpa using congrArg List.length hlater.map_due_eq
  refine ⟨hlater.clock_eq, ?_, h.times_eq, h.entry_iff⟩
  show t.cursor + (t.wait elapsed).due.length = u.cursor + (u.wait elapsed).due.length
  rw [h.cursor_eq, hlength]

end Timeline

/-! ## Frames -/

/-- The part of a frame that concerns an actor: the events that were applied to it, its signals and
its errors. -/
def SceneFrame.about (name : String) (f : SceneFrame) : SceneFrame :=
  { f.quiet with
    applied := f.applied.filter fun e => e.actor = name
    signals := f.signals.filter fun s => s.actor = name
    errors := f.errors.filter fun e => e.actor? = some name }

/-- The report blames nobody but the actor that its event is addressed to. -/
def EventReport.BlamesOwn (r : EventReport) : Prop :=
  ∀ e, r.error? = some e → e.actor? = some r.entry.sprite

theorem EventReport.actor_of_mem_signals {r : EventReport} {s : ActorSignal} (h : s ∈ r.signals) :
    s.actor = r.entry.sprite := by
  obtain ⟨entry, index, result, log⟩ := r
  cases result with
  | ok signals =>
      obtain ⟨signal, -, rfl⟩ := List.mem_map.1 h
      rfl
  | error e => cases h

theorem EventReport.actor_of_applied? {r : EventReport} {e : AppliedEvent}
    (h : r.applied? = some e) : e.actor = r.entry.sprite := by
  obtain ⟨entry, index, result, log⟩ := r
  cases result with
  | ok signals =>
      cases h
      rfl
  | error e => cases h

theorem ActorReport.actor?_of_error? {r : ActorReport} {e : SceneError} (h : r.error? = some e) :
    e.actor? = some r.actor := by
  obtain ⟨name, state, signals, log, result⟩ := r
  cases result with
  | ok changed => cases h
  | error cause =>
      cases h
      rfl

/-- The part of a frame that concerns an actor is the frame of the actor's own reports. -/
theorem SceneFrame.about_ofReports {events : List EventReport} (h : ∀ r ∈ events, r.BlamesOwn)
    (name : String) (elapsed : Float32) (reordered : Bool) (actors : List ActorReport) :
    (ofReports elapsed reordered events actors).about name =
      (ofReports elapsed reordered (events.filter fun r => r.entry.sprite = name)
        (actors.filter fun r => r.actor = name)).quiet := by
  have happlied : (events.filterMap EventReport.applied?).filter (fun e => e.actor = name) =
      (events.filter fun r => r.entry.sprite = name).filterMap EventReport.applied? := by
    refine filter_filterMap_own ?_
    intro r _ e he
    rw [EventReport.actor_of_applied? he]
  have hsignals : (events.flatMap EventReport.signals).filter (fun s => s.actor = name) =
      (events.filter fun r => r.entry.sprite = name).flatMap EventReport.signals := by
    refine filter_flatMap_own ?_
    intro r _ s hs
    rw [EventReport.actor_of_mem_signals hs]
  have herrors : (events.filterMap EventReport.error?).filter (fun e => e.actor? = some name) =
      (events.filter fun r => r.entry.sprite = name).filterMap EventReport.error? := by
    refine filter_filterMap_own ?_
    intro r hr e he
    simp [h r hr e he]
  have hactors : (actors.flatMap ActorReport.signals).filter (fun s => s.actor = name) =
      (actors.filter fun r => r.actor = name).flatMap ActorReport.signals := by
    refine filter_flatMap_own ?_
    intro r _ s hs
    obtain ⟨signal, -, rfl⟩ := List.mem_map.1 hs
    rfl
  have hfailures : (actors.filterMap ActorReport.error?).filter (fun e => e.actor? = some name) =
      (actors.filter fun r => r.actor = name).filterMap ActorReport.error? := by
    refine filter_filterMap_own ?_
    intro r _ e he
    simp [ActorReport.actor?_of_error? he]
  unfold about ofReports quiet
  dsimp only
  rw [List.filter_append, List.filter_append, happlied, hsignals, herrors, hactors, hfailures]

namespace Scene

/-! ## One actor in two scenes -/

/-- An actor is the same in two scenes, and so are the frames that can be drawn. -/
structure SameActor (name : String) (s t : Scene) : Prop where
  /-- The actor; or neither scene has one of that name. -/
  actor_eq : s.actors.get? name = t.actors.get? name
  /-- The sheet. -/
  sheet_eq : s.sheet = t.sheet

/-- Scenes agree on an actor, on the sheet, and on what of the timeline matters to the actor. -/
structure AgreeOn (name : String) (s t : Scene) : Prop extends SameActor name s t where
  /-- The timelines agree on the actor. -/
  timeline : s.timeline.AgreeOn name t.timeline

variable {name : String} {s t u : Scene}

theorem SameActor.symm (h : s.SameActor name t) : t.SameActor name s :=
  ⟨h.actor_eq.symm, h.sheet_eq.symm⟩

theorem SameActor.trans (h : s.SameActor name t) (h' : t.SameActor name u) : s.SameActor name u :=
  ⟨h.actor_eq.trans h'.actor_eq, h.sheet_eq.trans h'.sheet_eq⟩

/-! ## Events -/

/-- An action on another actor makes no difference, whether it succeeds or fails. -/
theorem sameActor_apply (s : Scene) {sprite : String} (hother : sprite ≠ name)
    (action : SceneAction) : (s.apply sprite action).1.SameActor name s := by
  unfold apply
  cases s.actors.get? sprite with
  | none => exact ⟨rfl, rfl⟩
  | some actor =>
      refine ⟨?_, rfl⟩
      show (s.actors.modify sprite _).get? name = s.actors.get? name
      rw [Table.get?_modify, if_neg hother.symm]

/-- An action on the actor does the same in both scenes. -/
theorem SameActor.apply (h : s.SameActor name t) (action : SceneAction) :
    (s.apply name action).1.SameActor name (t.apply name action).1 ∧
      (s.apply name action).2 = (t.apply name action).2 := by
  have hactor := h.actor_eq
  unfold Scene.apply
  cases ht : t.actors.get? name with
  | none =>
      rw [hactor.trans ht]
      exact ⟨h, rfl⟩
  | some actor =>
      rw [hactor.trans ht, h.sheet_eq]
      refine ⟨⟨?_, rfl⟩, rfl⟩
      show (s.actors.modify name _).get? name = (t.actors.modify name _).get? name
      rw [Table.get?_modify, Table.get?_modify, if_pos rfl, if_pos rfl, hactor]

/-- Of the events that are applied, those of other actors can be left out. -/
theorem applyEvents_own (events : List (TimelineEntry × Nat)) (h : s.SameActor name t) :
    (applyEvents events s).2.SameActor name
        (applyEvents (events.filter fun e => e.1.sprite = name) t).2 ∧
      (applyEvents events s).1.filter (fun r => r.entry.sprite = name) =
        (applyEvents (events.filter fun e => e.1.sprite = name) t).1 := by
  induction events generalizing s t with
  | nil => exact ⟨h, rfl⟩
  | cons e rest ih =>
      obtain ⟨entry, index⟩ := e
      rw [applyEvents_cons]
      by_cases hown : entry.sprite = name
      · -- the event does the same to both, and so does the rest
        subst hown
        obtain ⟨hsame, hreport⟩ := h.apply entry.action
        obtain ⟨hlast, hrest⟩ := ih hsame
        rw [List.filter_cons_of_pos (by simp), applyEvents_cons]
        refine ⟨hlast, ?_⟩
        rw [List.filter_cons_of_pos (by simp), hrest, hreport]
      · -- the event makes no difference, and its report is about another actor
        have hsame := (s.sameActor_apply hown entry.action).trans h
        obtain ⟨hlast, hrest⟩ := ih hsame
        rw [List.filter_cons_of_neg (by simpa using hown)]
        refine ⟨hlast, ?_⟩
        rw [List.filter_cons_of_neg (by simpa using hown), hrest]

theorem blamesOwn_apply (s : Scene) (entry : TimelineEntry) (index : Nat) :
    EventReport.BlamesOwn ⟨entry, index, (s.apply entry.sprite entry.action).2.2,
      (s.apply entry.sprite entry.action).2.1⟩ := by
  intro e he
  cases hresult : (s.apply entry.sprite entry.action).2.2 with
  | ok signals =>
      rw [hresult] at he
      cases he
  | error cause =>
      rw [hresult] at he
      cases he
      rcases apply_error_cases hresult with ⟨-, rfl⟩ | ⟨actor, source, -, -, rfl⟩
      · rfl
      · rfl

theorem blamesOwn_of_mem_applyEvents {events : List (TimelineEntry × Nat)} {r : EventReport}
    (h : r ∈ (applyEvents events s).1) : r.BlamesOwn := by
  induction events generalizing s with
  | nil => cases h
  | cons e rest ih =>
      obtain ⟨entry, index⟩ := e
      rw [applyEvents_cons] at h
      rcases List.mem_cons.1 h with rfl | hrest
      · exact s.blamesOwn_apply entry index
      · exact ih hrest

/-- Scenes that agree on an actor apply the events of a tick to it in the same way. -/
theorem AgreeOn.played (h : s.AgreeOn name t) (elapsed : Float32) :
    (s.afterEvents elapsed).SameActor name (t.afterEvents elapsed) ∧
      (s.eventReports elapsed).filter (fun r => r.entry.sprite = name) =
        (t.eventReports elapsed).filter fun r => r.entry.sprite = name := by
  have hdue : (s.timeline.wait (clampElapsed elapsed)).due.filter (fun e => e.1.sprite = name) =
      (t.timeline.wait (clampElapsed elapsed)).due.filter fun e => e.1.sprite = name :=
    (h.timeline.wait (clampElapsed elapsed)).filter_due_eq
  -- the clock is put on first, which is nothing to an actor
  have hstart : ({ s with timeline := s.timeline.advance (clampElapsed elapsed) } : Scene).SameActor
      name { t with timeline := t.timeline.advance (clampElapsed elapsed) } :=
    ⟨h.actor_eq, h.sheet_eq⟩
  obtain ⟨hleft, hreports⟩ :=
    applyEvents_own (s.timeline.wait (clampElapsed elapsed)).due hstart
  obtain ⟨hright, hothers⟩ :=
    applyEvents_own (t.timeline.wait (clampElapsed elapsed)).due
      (⟨rfl, rfl⟩ : SameActor name
        { t with timeline := t.timeline.advance (clampElapsed elapsed) } _)
  rw [hdue] at hleft hreports
  exact ⟨hleft.trans hright.symm, hreports.trans hothers.symm⟩

/-! ## Actors -/

theorem SameActor.tickActors (h : s.SameActor name t) (elapsed : Float32) :
    (s.tickActors elapsed).SameActor name (t.tickActors elapsed) := by
  refine ⟨?_, h.sheet_eq⟩
  show (s.actors.mapWithName _).get? name = (t.actors.mapWithName _).get? name
  rw [Table.get?_mapWithName, Table.get?_mapWithName, h.actor_eq, h.sheet_eq]

/-- The report of an actor is that of its own tick. -/
theorem filter_actorReports (s : Scene) (name : String) (elapsed : Float32) :
    (s.actorReports elapsed).filter (fun r => r.actor = name) =
      (s.actors.get? name).toList.map fun a => ⟨name, a.tick elapsed s.sheet⟩ := by
  unfold actorReports
  rw [List.filter_map]
  show (s.actors.entries.filter fun e => e.1 = name).map _ = _
  rw [Table.filter_entries, List.map_map]
  rfl

theorem SameActor.actorReports (h : s.SameActor name t) (elapsed : Float32) :
    (s.actorReports elapsed).filter (fun r => r.actor = name) =
      (t.actorReports elapsed).filter fun r => r.actor = name := by
  rw [filter_actorReports, filter_actorReports, h.actor_eq, h.sheet_eq]

theorem sameActor_reordered (s : Scene) : s.reordered.2.SameActor name s := by
  obtain ⟨sorted, hsorted⟩ := s.exists_reordered_eq
  rw [hsorted]
  exact ⟨rfl, rfl⟩

/-! ## Ticks -/

theorem about_tick (s : Scene) (name : String) (elapsed : Float32) :
    (s.tick elapsed).2.2.about name =
      (SceneFrame.ofReports (s.tick elapsed).1.timeline.elapsed (s.afterActors elapsed).reordered.1
        ((s.eventReports elapsed).filter fun r => r.entry.sprite = name)
        (((s.afterEvents elapsed).actorReports (clampElapsed elapsed)).filter
          fun r => r.actor = name)).quiet := by
  rw [tick_frame]
  exact SceneFrame.about_ofReports (fun r hr => blamesOwn_of_mem_applyEvents hr) name _ _ _

/-- Scenes that agree on an actor agree on it after a tick and in the frame of the tick. -/
theorem AgreeOn.tick (h : s.AgreeOn name t) (elapsed : Float32) :
    (s.tick elapsed).1.AgreeOn name (t.tick elapsed).1 ∧
      (s.tick elapsed).2.2.about name = (t.tick elapsed).2.2.about name := by
  obtain ⟨hevents, hreports⟩ := h.played elapsed
  have hactors : (s.tick elapsed).1.SameActor name (t.tick elapsed).1 := by
    rw [tick_state, tick_state]
    exact (s.afterActors elapsed).sameActor_reordered.trans
      ((hevents.tickActors _).trans (t.afterActors elapsed).sameActor_reordered.symm)
  have htimeline : (s.tick elapsed).1.timeline.AgreeOn name (t.tick elapsed).1.timeline := by
    rw [timeline_tick, timeline_tick]
    exact h.timeline.advance _
  refine ⟨⟨hactors, htimeline⟩, ?_⟩
  -- what is left to differ is whether the drawing order has changed, and that is not told
  rw [about_tick, about_tick, hreports, hevents.actorReports, htimeline.clock_eq]
  exact SceneFrame.quiet_ofReports rfl rfl _ _

/-- Scenes that agree on an actor agree on it after ticks and in their frames. -/
theorem AgreeOn.run (h : s.AgreeOn name t) (elapsed : List Float32) :
    (s.ticked elapsed).AgreeOn name (t.ticked elapsed) ∧
      (s.frames elapsed).map (·.about name) = (t.frames elapsed).map (·.about name) := by
  induction elapsed generalizing s t with
  | nil => exact ⟨h, rfl⟩
  | cons e rest ih =>
      obtain ⟨hnext, hframe⟩ := h.tick e
      obtain ⟨hlast, hframes⟩ := ih hnext
      rw [ticked_cons, ticked_cons, frames_cons, frames_cons, List.map_cons, List.map_cons, hframe,
        hframes]
      exact ⟨hlast, rfl⟩

/-- Scenes that agree on an actor go on to agree on it, and so do their frames, whatever is done to
others. An action on another actor is nothing to it, whether it succeeds or fails. -/
theorem agreeOn_ticked (h : s.AgreeOn name t) (elapsed : List Float32) :
    (s.ticked elapsed).AgreeOn name (t.ticked elapsed) ∧
      (s.frames elapsed).map (·.about name) = (t.frames elapsed).map (·.about name) ∧
      ∀ sprite action, sprite ≠ name →
        ((s.ticked elapsed).apply sprite action).1.AgreeOn name (t.ticked elapsed) := by
  obtain ⟨hlast, hframes⟩ := h.run elapsed
  refine ⟨hlast, hframes, ?_⟩
  intro sprite action hother
  refine ⟨(sameActor_apply _ hother action).trans hlast.toSameActor, ?_⟩
  rw [timeline_apply]
  exact hlast.timeline

/-- The scene with another actor on stage, which takes the place of the one that is missing. -/
def rivalScene : Scene :=
  { twoEntryScene with
    actors := twoEntryScene.actors.insert "rival" (.create ⟨"rival", [], .empty⟩ {} {})
    timeline := { events := [⟨0.0, "hero", .unplace⟩, ⟨16.0, "rival", .unplace⟩] } }

theorem agreeOn_rivalScene : twoEntryScene.AgreeOn "hero" rivalScene := by
  have hactor : rivalScene.actors.get? "hero" = twoEntryScene.actors.get? "hero" := by
    show (twoEntryScene.actors.insert "rival" _).get? "hero" = _
    rw [Table.get?_insert, if_neg (by decide)]
  refine ⟨⟨hactor.symm, rfl⟩, rfl, rfl, rfl, ?_⟩
  intro index entry hentry
  rcases index with - | - | index
  · exact Iff.rfl
  · -- the second entries differ, and neither is addressed to the actor
    constructor
    · intro h
      cases h
      exact absurd hentry (by decide)
    · intro h
      cases h
      exact absurd hentry (by decide)
  · exact Iff.rfl

/-- The event that fails in one of the scenes is applied in the other, and the actor does not
notice. -/
theorem agreeOn_ticked_rivalScene :
    (twoEntryScene.frames [20.0, 5.0]).map (·.errors.length) = [1, 0] ∧
      (rivalScene.frames [20.0, 5.0]).map (·.errors.length) = [0, 0] ∧
      (twoEntryScene.ticked [20.0, 5.0]).AgreeOn "hero" (rivalScene.ticked [20.0, 5.0]) :=
  ⟨by decide +kernel, by decide +kernel, (agreeOn_ticked agreeOn_rivalScene [20.0, 5.0]).1⟩

end Scene

end SpriteStage
