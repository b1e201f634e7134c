import SpriteStage.Proofs.Actor.Origin
import SpriteStage.Proofs.Scene.Outline

/-!
# Restarts

A restart puts the clock, the cursor and the animation of every actor back, stops the motions and
hides the actors. It leaves alone where a run has left the nodes and in which order it has left the
actors. So the ticks after a restart go as they go for a scene that has just been built, but for what
depends on the nodes and on the order (`replays_of_create`): the ends of motions by speed, which take
longer or shorter from another place, the values of the nodes, and the drawing order.
-/

set_option autoImplicit false

namespace SpriteStage.Scene

/-! ## Runs of ticks -/

variable {paced : Bool} {s t : Scene}

/-- The scene after ticks. -/
def ticked (s : Scene) (elapsed : List Float32) : Scene := s.after (elapsed.map .tick)

/-- The frames of ticks, one after the other. -/
def frames (s : Scene) : List Float32 → List SceneFrame
  | [] => []
  | elapsed :: rest => (s.tick elapsed).2.2 :: frames (s.tick elapsed).1 rest

theorem ticked_cons (s : Scene) (elapsed : Float32) (rest : List Float32) :
    s.ticked (elapsed :: rest) = (s.tick elapsed).1.ticked rest := rfl

theorem frames_cons (s : Scene) (elapsed : Float32) (rest : List Float32) :
    s.frames (elapsed :: rest) = (s.tick elapsed).2.2 :: (s.tick elapsed).1.frames rest := rfl

theorem timed_tick (h : s.timeline.Timed) (elapsed : Float32) :
    (s.tick elapsed).1.timeline.Timed := by
  rw [timeline_tick]
  exact h

/-- Scenes of one outline stay so, and their frames agree in all but the ends of motions and whether
something changed. -/
theorem ticked_of_outline_eq (hpaced : paced = true → s.timeline.Timed)
    (h : s.outline paced = t.outline paced) (elapsed : List Float32) :
    (s.ticked elapsed).outline paced = (t.ticked elapsed).outline paced ∧
      (s.frames elapsed).map SceneFrame.gist = (t.frames elapsed).map SceneFrame.gist := by
  induction elapsed generalizing s t with
  | nil => exact ⟨h, rfl⟩
  | cons e rest ih =>
      obtain ⟨hstate, hgist⟩ := tick_of_outline_eq hpaced h e
      obtain ⟨hrest, hgists⟩ := ih (fun hp => timed_tick (hpaced hp) e) hstate
      rw [ticked_cons, ticked_cons, frames_cons, frames_cons, List.map_cons, List.map_cons, hgist,
        hgists]
      exact ⟨hrest, rfl⟩

/-- With paced motions the frames agree in all but whether something changed, and in that as well
unless the drawing order follows the depth. -/
theorem frames_of_outline_true_eq (htimed : s.timeline.Timed)
    (h : s.outline true = t.outline true) (elapsed : List Float32) :
    (s.frames elapsed).map SceneFrame.quiet = (t.frames elapsed).map SceneFrame.quiet ∧
      (s.options.sortY = false → s.frames elapsed = t.frames elapsed) := by
  induction elapsed generalizing s t with
  | nil => exact ⟨rfl, fun _ => rfl⟩
  | cons e rest ih =>
      obtain ⟨hquiet, hframe⟩ := tick_of_outline_true_eq htimed h e
      obtain ⟨hquiets, hframes⟩ := ih (timed_tick htimed e)
        (tick_of_outline_eq (fun _ => htimed) h e).1
      refine ⟨?_, ?_⟩
      · rw [frames_cons, frames_cons, List.map_cons, List.map_cons, hquiet, hquiets]
      · intro hsort
        have hlater : (s.tick e).1.options.sortY = false :=
          (congrArg (fun u => u.options.sortY) (s.setting_react (.tick e))).trans hsort
        rw [frames_cons, frames_cons, hframe hsort, hframes hlater]

/-! ## Restarts -/

theorem restart_eq (s : Scene) :
    s.restart =
      { s with
        timeline := s.timeline.rewind
        actors := s.actors.mapWithName fun _ a => a.backstage } := rfl

theorem outline_restart (s : Scene) :
    s.restart.outline paced =
      { s.setting with
        actors := s.actors.mapWithName fun _ a => a.backstage.outline paced } := by
  have hactors : ((s.actors.mapWithName fun _ a => a.backstage).mapWithName
      fun _ a => a.outline paced) = s.actors.mapWithName fun _ a => a.backstage.outline paced := by
    apply Table.ext_entries
    exact List.map_map
  exact congrArg (fun actors => { s.setting with actors := actors }) hactors

section SameOrigin

variable {γ : Type} {g : Actor → γ} (hg : ∀ a b : Actor, a.SameOrigin b → g b = g a)

include hg

theorem mapWithName_actors_apply (s : Scene) (sprite : String) (action : SceneAction) :
    ((s.apply sprite action).1.actors.mapWithName fun _ => g) =
      s.actors.mapWithName fun _ => g := by
  unfold apply
  cases hget : s.actors.get? sprite with
  | none => rfl
  | some actor =>
      exact Table.mapWithName_modify_of_get? hget
        (hg actor _ (actor.sameOrigin_perform action s.sheet))

theorem mapWithName_actors_applyEvents (events : List (TimelineEntry × Nat)) (s : Scene) :
    ((applyEvents events s).2.actors.mapWithName fun _ => g) =
      s.actors.mapWithName fun _ => g := by
  induction events generalizing s with
  | nil => rfl
  | cons e rest ih =>
      obtain ⟨entry, index⟩ := e
      rw [applyEvents_cons]
      exact (ih _).trans (mapWithName_actors_apply hg s entry.sprite entry.action)

theorem mapWithName_actors_tickActors (s : Scene) (elapsed : Float32) :
    ((s.tickActors elapsed).actors.mapWithName fun _ => g) =
      s.actors.mapWithName fun _ => g := by
  apply Table.ext_entries
  show ((s.actors.entries.map _).map _) = s.actors.entries.map _
  rw [List.map_map]
  refine List.map_congr_left ?_
  rintro ⟨n, a⟩ -
  exact congrArg (Prod.mk n) (hg a _ (a.sameOrigin_tick elapsed s.sheet))

/-- What does not tell actors of one origin apart does not tell apart the actors before and after a
call. -/
theorem mapWithName_actors_react (s : Scene) (call : HostCall) :
    ((s.react call).actors.mapWithName fun _ => g) = s.actors.mapWithName fun _ => g := by
  cases call with
  | apply sprite action => exact mapWithName_actors_apply hg s sprite action
  | tick elapsed =>
      show ((s.tick elapsed).1.actors.mapWithName fun _ => g) = _
      -- the events, then the actors; the drawing order has no part in it
      obtain ⟨sorted, hsorted⟩ := (s.afterActors elapsed).exists_reordered_eq
      rw [tick_state, hsorted]
      exact (mapWithName_actors_tickActors hg _ _).trans (mapWithName_actors_applyEvents hg _ _)

end SameOrigin

/-- A restart after a call leads to the same outline as a restart before it. -/
theorem outline_restart_react (s : Scene) (call : HostCall) :
    (s.react call).restart.outline paced = s.restart.outline paced := by
  have hactors := mapWithName_actors_react (g := fun a => a.backstage.outline paced)
    (fun _ _ h => h.outline_backstage) s call
  rw [outline_restart, outline_restart, setting_react, hactors]

theorem outline_restart_after (s : Scene) (calls : List HostCall) :
    (s.after calls).restart.outline paced = s.restart.outline paced := by
  induction calls generalizing s with
  | nil => rfl
  | cons call rest ih => rw [after_cons, ih, outline_restart_react]

/-! ## Scenes that have just been built -/

theorem backstage_create (asset : Asset) (config : Config) :
    (Actor.create asset { visible := false } config).backstage =
      .create asset { visible := false } config := rfl

/-- An actor that joins the cast has not done anything. -/
theorem backstage_of_cast {library : AssetLibrary} {config : Config} {pixels : List String}
    {actors players : Table Actor} (h : cast library config pixels actors = .ok players)
    (hactors : ∀ name a, actors.get? name = some a → a.backstage = a) :
    ∀ name a, players.get? name = some a → a.backstage = a :=
  forall_of_cast h (fun asset => backstage_create asset config) hactors

/-- A scene that has just been built is where a restart goes back to. -/
theorem restart_of_create {data : SceneData} {library : AssetLibrary} {sheet : FrameSheet}
    {config : SceneConfig} (h : (create data library sheet config).2 = .ok s) : s.restart = s := by
  obtain ⟨hcast, htimeline⟩ := parts_of_create h
  have hactors : (s.actors.mapWithName fun _ a => a.backstage) = s.actors := by
    refine Table.mapWithName_eq_self (backstage_of_cast hcast ?_)
    intro name a ha
    cases ha
  rw [restart_eq, hactors, Timeline.rewind_of_create htimeline]

/-! ## Replays -/

/-- What an outline leaves out is the same: the nodes, the motions and the drawing order. -/
structure SameLook (s t : Scene) : Prop where
  /-- The order of the actors that are sorted by depth. -/
  sorted_eq : s.sorted = t.sorted
  /-- The nodes. -/
  node_eq : ∀ name, (s.actors.get? name).map Actor.node = (t.actors.get? name).map Actor.node
  /-- The motions. -/
  motions_eq : ∀ name,
    (s.actors.get? name).map Actor.motions = (t.actors.get? name).map Actor.motions

/-- Ticks show the same in two scenes: the frames, the drawing order and the nodes. -/
structure PlaysLike (s t : Scene) (elapsed : List Float32) : Prop where
  /-- The frames. -/
  frames_eq : s.frames elapsed = t.frames elapsed
  /-- The drawing order after the ticks. -/
  renderOrder_eq : (s.ticked elapsed).renderOrder = (t.ticked elapsed).renderOrder
  /-- The nodes after the ticks. -/
  node_eq : ∀ name, ((s.ticked elapsed).actors.get? name).map Actor.node =
    ((t.ticked elapsed).actors.get? name).map Actor.node

/-- Apart from what is visible, the nodes and the drawing order are those of another scene. -/
structure LooksAsBuilt (s fresh : Scene) : Prop where
  /-- The order of the actors that are sorted by depth. -/
  sorted_eq : s.sorted = fresh.sorted
  /-- The nodes, as if hidden. -/
  node_eq : ∀ name, (s.actors.get? name).map (fun a => { a.node with visible := false }) =
    (fresh.actors.get? name).map Actor.node

/-- Scenes of one outline and one look are equal. -/
theorem SameLook.eq_of_outline_eq (hlook : s.SameLook t) (h : s.outline paced = t.outline paced) :
    s = t := by
  have hget : ∀ name, (s.actors.get? name).map (·.outline paced) =
      (t.actors.get? name).map (·.outline paced) := by
    intro name
    have hactors := congrArg (fun u => u.actors.get? name) h
    exact (Table.get?_mapWithName _ _ _).symm.trans (hactors.trans (Table.get?_mapWithName _ _ _))
  have hnames : s.actors.names = t.actors.names := by
    have hactors := congrArg (fun u => u.actors.names) h
    exact Table.names_mapWithName.symm.trans (hactors.trans Table.names_mapWithName)
  have hactors : s.actors = t.actors := by
    refine Table.ext_get? hnames ?_
    intro name
    have houtline := hget name
    have hnode := hlook.node_eq name
    have hmotions := hlook.motions_eq name
    cases hs : s.actors.get? name with
    | none =>
        rw [hs] at houtline
        exact (Option.map_eq_none_iff.1 houtline.symm).symm
    | some a =>
        rw [hs] at houtline hnode hmotions
        obtain ⟨b, hb, hba⟩ := Option.map_eq_some_iff.1 houtline.symm
        rw [hb] at hnode hmotions ⊢
        have hab := Actor.eq_of_outline_eq hba.symm (Option.some.inj hnode)
          (Option.some.inj hmotions)
        exact congrArg some hab
  have hrest := congrArg (fun u => { u with actors := t.actors, sorted := t.sorted }) h
  calc s = { s with actors := t.actors, sorted := t.sorted } := by
        rw [← hactors, ← hlook.sorted_eq]
    _ = t := hrest

theorem unsorted_of_outline_eq (h : s.outline paced = t.outline paced) :
    s.unsorted = t.unsorted ∧ s.unsortedLayer = t.unsortedLayer :=
  ⟨congrArg (fun u => u.unsorted) h, congrArg (fun u => u.unsortedLayer) h⟩

/-- One drawing order of all actors makes for one order of those that are sorted by depth. -/
theorem sorted_eq_of_renderOrder_eq (h : s.outline paced = t.outline paced)
    (horder : s.renderOrder = t.renderOrder) : s.sorted = t.sorted := by
  obtain ⟨hunsorted, hlayer⟩ := unsorted_of_outline_eq h
  unfold renderOrder at horder
  rw [hlayer, hunsorted] at horder
  cases hcase : t.unsortedLayer with
  | below =>
      rw [hcase] at horder
      exact List.append_cancel_left horder
  | above =>
      rw [hcase] at horder
      exact List.append_cancel_right horder

theorem get?_restart (s : Scene) (name : String) :
    s.restart.actors.get? name = (s.actors.get? name).map Actor.backstage :=
  Table.get?_mapWithName _ _ _

/-- Nothing moves after a restart. -/
theorem motions_restart (s : Scene) (name : String) :
    (s.restart.actors.get? name).map Actor.motions =
      (s.restart.actors.get? name).map fun a => a.motions.cancel := by
  rw [get?_restart]
  cases s.actors.get? name with
  | none => rfl
  | some a => rfl

/-- What the ticks of a scene are like after a restart, compared with those of the scene as it was
built. -/
structure Replays (s fresh : Scene) : Prop where
  /-- The clock, the animations and who is on the stage or visible are as they were. -/
  outline_eq : ∀ elapsed,
    (s.restart.ticked elapsed).outline false = (fresh.ticked elapsed).outline false
  /-- The frames have the same events, errors and signals besides the ends of motions. -/
  gist_eq : ∀ elapsed,
    (s.restart.frames elapsed).map SceneFrame.gist = (fresh.frames elapsed).map SceneFrame.gist
  /-- If no event moves an actor by speed, motions end when they did. -/
  quiet_eq : fresh.timeline.Timed → ∀ elapsed,
    (s.restart.frames elapsed).map SceneFrame.quiet = (fresh.frames elapsed).map SceneFrame.quiet
  /-- If the actors are not sorted by depth either, the frames are the same. -/
  frames_eq : fresh.timeline.Timed → fresh.options.sortY = false → ∀ elapsed,
    s.restart.frames elapsed = fresh.frames elapsed
  /-- When the nodes, the motions and the drawing order have come to be the same, all is. -/
  eq_of_sameLook : ∀ elapsed, (s.restart.ticked elapsed).SameLook (fresh.ticked elapsed) →
    s.restart.ticked elapsed = fresh.ticked elapsed
  /-- All is the same from the start just if nodes and drawing order were left as built. -/
  playsLike_iff : (∀ elapsed, s.restart.PlaysLike fresh elapsed) ↔ s.LooksAsBuilt fresh

theorem node_restart (s : Scene) (name : String) :
    (s.restart.actors.get? name).map Actor.node =
      (s.actors.get? name).map fun a => { a.node with visible := false } := by
  rw [get?_restart]
  cases s.actors.get? name with
  | none => rfl
  | some a => rfl

/-- Two restarts that lead to one outline, one order and the same nodes lead to the same scene. -/
theorem restart_eq_restart (h : s.restart.outline false = t.restart.outline false)
    (hsorted : s.sorted = t.sorted)
    (hnode : ∀ name, (s.restart.actors.get? name).map Actor.node =
      (t.restart.actors.get? name).map Actor.node) : s.restart = t.restart := by
  have hlook : s.restart.SameLook t.restart := by
    refine ⟨hsorted, hnode, ?_⟩
    intro name
    -- a restart has cancelled the motions, so outlines show all that is left of them
    have hactors := congrArg (fun u => (u.actors.get? name).map Actor.motions) h
    dsimp only [outline] at hactors
    rw [Table.get?_mapWithName, Table.get?_mapWithName, Option.map_map, Option.map_map] at hactors
    exact (s.motions_restart name).trans (hactors.trans (t.motions_restart name).symm)
  exact hlook.eq_of_outline_eq h

/-- Every run of a scene that was built can be replayed, apart from what it does to nodes and drawing
order. -/
theorem replays_of_create {data : SceneData} {library : AssetLibrary} {sheet : FrameSheet}
    {config : SceneConfig} {fresh : Scene} (h : (create data library sheet config).2 = .ok fresh)
    (calls : List HostCall) : (fresh.after calls).Replays fresh := by
  have hfresh := restart_of_create h
  have houtline : ∀ paced, (fresh.after calls).restart.outline paced = fresh.outline paced := by
    intro paced
    rw [outline_restart_after, hfresh]
  have hloose := ticked_of_outline_eq (fun hp => Bool.noConfusion hp) (houtline false)
  have htimed : fresh.timeline.Timed → (fresh.after calls).restart.timeline.Timed := by
    intro ht
    rw [timeline_of_outline_eq (houtline true)]
    exact ht
  refine ⟨fun elapsed => (hloose elapsed).1, fun elapsed => (hloose elapsed).2, ?_, ?_, ?_, ?_⟩
  · intro ht elapsed
    exact (frames_of_outline_true_eq (htimed ht) (houtline true) elapsed).1
  · intro ht hsort elapsed
    have hoptions := congrArg (fun u => u.options.sortY) (houtline true)
    exact (frames_of_outline_true_eq (htimed ht) (houtline true) elapsed).2 (hoptions.trans hsort)
  · intro elapsed hlook
    exact hlook.eq_of_outline_eq (hloose elapsed).1
  · constructor
    · -- before the first tick, what is shown is what the run has left
      intro hall
      obtain ⟨-, horder, hnode⟩ := hall []
      have hsorted : (fresh.after calls).restart.sorted = fresh.sorted :=
        sorted_eq_of_renderOrder_eq (houtline false) horder
      refine ⟨hsorted, ?_⟩
      intro name
      exact (node_restart _ name).symm.trans (hnode name)
    · -- nothing is left of the run, so the restart leads to the scene as it was built
      intro hbuilt elapsed
      have hnode : ∀ name, ((fresh.after calls).restart.actors.get? name).map Actor.node =
          (fresh.restart.actors.get? name).map Actor.node := by
        intro name
        rw [node_restart, hfresh]
        exact hbuilt.node_eq name
      have heq := restart_eq_restart ((houtline false).trans (by rw [hfresh])) hbuilt.sorted_eq hnode
      rw [heq, hfresh]
      exact ⟨rfl, rfl, fun _ => rfl⟩

/-- A motion to the right, by speed. -/
def driftEntries : List TimelineEntry :=
  [⟨0.0, "hero", .move ⟨8.0, 0.0⟩ none (some 1.0) none⟩]

/-- An asset of one frame. -/
def driftAsset : Asset := ⟨"hero", [⟨⟨1, 1⟩, []⟩], .empty⟩

/-- A scene of one actor with that motion. -/
def driftScene : Scene where
  width := 0
  height := 0
  options := {}
  unsortedLayer := .below
  actors := Table.empty.insert "hero" (.create driftAsset { visible := false } {})
  sorted := []
  unsorted := ["hero"]
  timeline := { events := driftEntries }
  sheet := {}

theorem create_driftScene :
    (create { pixels := ["hero"], timeline := driftEntries } (.ofList [("hero", driftAsset)]) {}
      {}).2 = .ok driftScene := by
  have hsorted : Timeline.sortEvents driftEntries = driftEntries := List.mergeSort_singleton _
  have htimeline : Timeline.create driftEntries = .ok { events := driftEntries } := by
    unfold Timeline.create
    rw [show Timeline.checkTimes 0 driftEntries = .ok () from rfl, hsorted]
    rfl
  unfold create
  simp only [htimeline]
  rfl

/-- The run has moved the actor, so the motion by speed is over as soon as it begins. -/
theorem not_playsLike_driftScene :
    (create { pixels := ["hero"], timeline := driftEntries } (.ofList [("hero", driftAsset)]) {}
        {}).2 = .ok driftScene ∧
      ¬ (driftScene.after [.tick 16.0]).restart.PlaysLike driftScene [0.0] := by
  refine ⟨create_driftScene, ?_⟩
  intro h
  have hsignals : ((driftScene.after [.tick 16.0]).restart.frames [0.0]).map SceneFrame.signals ≠
      (driftScene.frames [0.0]).map SceneFrame.signals := by decide +kernel
  exact hsignals (congrArg (List.map SceneFrame.signals) h.frames_eq)

/-- The replay differs from the first run in what is said of replays at most. -/
theorem replays_driftScene : (driftScene.after [.tick 16.0]).Replays driftScene :=
  replays_of_create create_driftScene _

end SpriteStage.Scene
