import SpriteStage.Proofs.Coordinate
import SpriteStage.Proofs.Scene.Commands
import SpriteStage.Proofs.Scene.Replay
import SpriteStage.Proofs.Sorting

/-!
# The drawing order

The cast of a scene is drawn in one order, in which every actor has one place: those that are not
sorted by depth in the order in which they joined, all below or all above the others (`Staged`). A
tick sorts the others by their depth, and actors of one depth stay as they are. The order need not
be looked at as a whole for that: if no two neighbours are out of order, sorting changes nothing
(`sortDepth_eq`), and otherwise it does (`sortDepth_fst_iff`).
-/

set_option autoImplicit false

namespace SpriteStage.Scene

/-- Both actors take part, and the depth of the first does not come after that of the second. -/
def Behind (s : Scene) (a b : String) : Prop :=
  ∃ actor other, s.actors.get? a = some actor ∧ s.actors.get? b = some other ∧
    actor.node.position.y.TotalLE other.node.position.y

variable {s t u : Scene}

theorem depth_of_get? {name : String} {actor : Actor} (h : s.actors.get? name = some actor) :
    s.depth name = actor.node.position.y.rank := by
  rw [depth, h, Option.elim_some]

/-- Among actors that take part, the rank of the depth tells who is behind whom. -/
theorem depth_le_depth_iff {a b : String} {actor other : Actor}
    (ha : s.actors.get? a = some actor) (hb : s.actors.get? b = some other) :
    s.depth a ≤ s.depth b ↔ s.Behind a b := by
  rw [depth_of_get? ha, depth_of_get? hb, Coordinate.rank_le_rank_iff]
  constructor
  · intro hle
    exact ⟨actor, other, ha, hb, hle⟩
  · rintro ⟨actor', other', ha', hb', hle⟩
    cases ha.symm.trans ha'
    cases hb.symm.trans hb'
    exact hle

/-! ## Sorting by depth -/

/-- Names are in order as soon as no two neighbours are out of order. -/
theorem inDepthOrder_iff (s : Scene) (names : List String) :
    s.inDepthOrder names = true ↔ names.Pairwise fun a b => s.depth a ≤ s.depth b := by
  induction names with
  | nil => simp [inDepthOrder]
  | cons a rest ih =>
      cases rest with
      | nil => simp [inDepthOrder]
      | cons b rest =>
          rw [inDepthOrder, Bool.and_eq_true, ih, isBehind, decide_eq_true_iff,
            List.pairwise_cons (a := a)]
          constructor
          · rintro ⟨hab, hrest⟩
            refine ⟨?_, hrest⟩
            intro c hc
            rcases List.mem_cons.1 hc with heq | hlater
            · rw [heq]
              exact hab
            · exact Int.le_trans hab ((List.pairwise_cons.1 hrest).1 c hlater)
          · rintro ⟨hall, hrest⟩
            exact ⟨hall b List.mem_cons_self, hrest⟩

theorem stablySorted_depth (s : Scene) :
    StablySorted (fun a b => s.depth a ≤ s.depth b) s.sorted (s.sorted.mergeSort s.isBehind) :=
  stablySorted_mergeSort s.depth s.sorted

/-- It makes no difference to sort actors that are in order as well. -/
theorem sortDepth_eq (s : Scene) :
    s.sortDepth.2 = { s with sorted := s.sorted.mergeSort s.isBehind } := by
  unfold sortDepth
  by_cases horder : s.inDepthOrder s.sorted = true
  · have hpairwise : s.sorted.Pairwise fun a b => s.isBehind a b = true := by
      refine ((s.inDepthOrder_iff s.sorted).1 horder).imp ?_
      exact decide_eq_true
    rw [if_pos horder, List.mergeSort_of_pairwise hpairwise]
  · rw [if_neg horder]

theorem sorted_sortDepth (s : Scene) : s.sortDepth.2.sorted = s.sorted.mergeSort s.isBehind := by
  rw [sortDepth_eq]

/-- The answer tells exactly whether the order changed. -/
theorem sortDepth_fst_iff (s : Scene) : s.sortDepth.1 = true ↔ s.sortDepth.2.sorted ≠ s.sorted := by
  have hsorted := s.stablySorted_depth.ordered
  rw [← sorted_sortDepth] at hsorted
  by_cases horder : s.inDepthOrder s.sorted = true
  · simp [sortDepth, horder]
  · have hchanged : s.sortDepth.2.sorted ≠ s.sorted := by
      intro hsame
      rw [hsame, ← inDepthOrder_iff] at hsorted
      exact horder hsorted
    have hanswer : s.sortDepth.1 = true := by simp [sortDepth, horder]
    simp only [hanswer, hchanged, ne_eq, not_false_eq_true]

/-! ## What stays as it is -/

/-- What no command changes of a stage: the cast, and what the host has said about the order. Actors
that are sorted by depth change places at most. -/
structure SameStage (s t : Scene) : Prop where
  /-- The same actors take part. -/
  names_eq : t.actors.names = s.actors.names
  /-- They are sorted in the same way. -/
  options_eq : t.options = s.options
  /-- The layer of those that are not sorted by depth is the same. -/
  unsortedLayer_eq : t.unsortedLayer = s.unsortedLayer
  /-- Their order is the same. -/
  unsorted_eq : t.unsorted = s.unsorted
  /-- The others are the same. -/
  sorted_perm : t.sorted.Perm s.sorted

namespace SameStage

theorem refl (s : Scene) : s.SameStage s := ⟨rfl, rfl, rfl, rfl, .refl _⟩

theorem trans (h : s.SameStage t) (h' : t.SameStage u) : s.SameStage u where
  names_eq := h'.names_eq.trans h.names_eq
  options_eq := h'.options_eq.trans h.options_eq
  unsortedLayer_eq := h'.unsortedLayer_eq.trans h.unsortedLayer_eq
  unsorted_eq := h'.unsorted_eq.trans h.unsorted_eq
  sorted_perm := h'.sorted_perm.trans h.sorted_perm

/-- Of the stage, a new state of the actors changes nothing. -/
theorem of_actors (s : Scene) {actors : Table Actor} (h : actors.names = s.actors.names) :
    s.SameStage { s with actors := actors } := ⟨h, rfl, rfl, rfl, .refl _⟩

theorem apply (s : Scene) (sprite : String) (action : SceneAction) :
    s.SameStage (s.apply sprite action).1 := by
  unfold Scene.apply
  cases s.actors.get? sprite with
  | none => exact refl s
  | some actor => exact of_actors s Table.names_modify

theorem applyEvents (events : List (TimelineEntry × Nat)) (s : Scene) :
    s.SameStage (applyEvents events s).2 := by
  induction events generalizing s with
  | nil => exact refl s
  | cons e rest ih =>
      obtain ⟨entry, index⟩ := e
      rw [applyEvents_cons]
      exact (apply s entry.sprite entry.action).trans (ih _)

theorem afterActors (s : Scene) (elapsed : Float32) : s.SameStage (s.afterActors elapsed) := by
  have hclock : s.SameStage { s with timeline := s.timeline.advance (clampElapsed elapsed) } :=
    ⟨rfl, rfl, rfl, rfl, .refl _⟩
  have hevents : s.SameStage (s.afterEvents elapsed) := hclock.trans (applyEvents _ _)
  exact hevents.trans (of_actors _ Table.names_mapWithName)

theorem reordered (s : Scene) : s.SameStage s.reordered.2 := by
  unfold Scene.reordered
  by_cases hsort : s.options.sortY = true
  · rw [if_pos hsort, sortDepth_eq]
    exact ⟨rfl, rfl, rfl, rfl, s.stablySorted_depth.perm⟩
  · rw [if_neg hsort]
    exact refl s

theorem tick (s : Scene) (elapsed : Float32) : s.SameStage (s.tick elapsed).1 := by
  rw [tick_state]
  exact (afterActors s elapsed).trans (reordered _)

theorem obey (s : Scene) (command : SceneCommand) : s.SameStage (s.obey command) := by
  cases command with
  | call call =>
      cases call with
      | tick elapsed => exact tick s elapsed
      | apply sprite action => exact apply s sprite action
  | restart => exact ⟨Table.names_mapWithName, rfl, rfl, rfl, .refl _⟩
  | renderSheet force => exact ⟨rfl, rfl, rfl, rfl, .refl _⟩
  | useSheet sheet => exact ⟨rfl, rfl, rfl, rfl, .refl _⟩
  | direct name sheet step => exact of_actors s Table.names_modify

theorem obeyAll (s : Scene) (commands : List SceneCommand) : s.SameStage (s.obeyAll commands) :=
  obeyAll_induct (fun _ command h => h.trans (obey _ command)) (refl s) commands

end SameStage

/-! ## The places of all actors -/

/-- The cast has joined in this order, and each actor has one place in the drawing order: those that
are not sorted by depth in the order in which they joined, in the layer that is theirs. -/
structure Staged (members : List String) (options : SceneOptions) (layer : UnsortedLayer)
    (s : Scene) : Prop where
  /-- The cast takes part, and no others. -/
  names_eq : s.actors.names = members
  /-- No one takes part twice. -/
  nodup : members.Nodup
  /-- The two lists together hold each actor once. -/
  lists_perm : (s.sorted ++ s.unsorted).Perm members
  /-- Those that are not sorted are in the order in which they joined. -/
  unsorted_eq : s.unsorted = members.filter fun name => !isSorted options name
  /-- They are all behind the others, or all in front of them. -/
  renderOrder_eq : s.renderOrder =
    match layer with
    | .below => s.unsorted ++ s.sorted
    | .above => s.sorted ++ s.unsorted
  /-- Every actor is drawn once. -/
  renderOrder_perm : s.renderOrder.Perm members
  /-- Every actor that is drawn is found under its name. -/
  found : ∀ name ∈ s.renderOrder, ∃ actor, s.actors.get? name = some actor
  /-- The layer of those that are not sorted is the one that was configured. -/
  unsortedLayer_eq : s.unsortedLayer = layer

theorem renderOrder_perm_lists (s : Scene) : s.renderOrder.Perm (s.sorted ++ s.unsorted) := by
  unfold renderOrder
  cases s.unsortedLayer with
  | below => exact List.perm_append_comm
  | above => exact .refl _

variable {members : List String} {options : SceneOptions} {layer : UnsortedLayer}

/-- What has to be known for every actor to have its place. -/
theorem Staged.of_lists (hnames : s.actors.names = members)
    (hlists : (s.sorted ++ s.unsorted).Perm members)
    (hunsorted : s.unsorted = members.filter fun name => !isSorted options name)
    (hlayer : s.unsortedLayer = layer) : s.Staged members options layer := by
  have hdrawn := s.renderOrder_perm_lists.trans hlists
  refine ⟨hnames, ?_, hlists, hunsorted, ?_, hdrawn, ?_, hlayer⟩
  · rw [← hnames]
    exact s.actors.names_nodup
  · cases hlayer
    rfl
  · intro name hname
    have hmem := hdrawn.mem_iff.1 hname
    rw [← hnames, ← Table.contains_iff] at hmem
    exact Table.exists_get?_of_contains hmem

/-- Where no command changes the stage, each actor keeps its one place. -/
theorem Staged.of_sameStage (hs : s.Staged members options layer) (h : s.SameStage t) :
    t.Staged members options layer := by
  refine .of_lists ?_ ?_ ?_ ?_
  · rw [h.names_eq, hs.names_eq]
  · rw [h.unsorted_eq]
    exact (h.sorted_perm.append_right _).trans hs.lists_perm
  · rw [h.unsorted_eq, hs.unsorted_eq]
  · rw [h.unsortedLayer_eq, hs.unsortedLayer_eq]

theorem Staged.found_of_mem_sorted (h : s.Staged members options layer) {name : String}
    (hname : name ∈ s.sorted) : ∃ actor, s.actors.get? name = some actor :=
  h.found name (s.renderOrder_perm_lists.mem_iff.2 (List.mem_append_left _ hname))

/-! ## Ticks -/

theorem sorted_apply (s : Scene) (sprite : String) (action : SceneAction) :
    (s.apply sprite action).1.sorted = s.sorted := by
  unfold apply
  cases s.actors.get? sprite with
  | none => rfl
  | some actor => rfl

theorem sorted_applyEvents (events : List (TimelineEntry × Nat)) (s : Scene) :
    (applyEvents events s).2.sorted = s.sorted := by
  induction events generalizing s with
  | nil => rfl
  | cons e rest ih =>
      obtain ⟨entry, index⟩ := e
      rw [applyEvents_cons]
      exact (ih _).trans (s.sorted_apply entry.sprite entry.action)

theorem sorted_afterActors (s : Scene) (elapsed : Float32) :
    (s.afterActors elapsed).sorted = s.sorted := sorted_applyEvents _ _

/-- A tick of a scene that is sorted by depth ends with sorting it. -/
theorem tick_of_sortY (h : s.options.sortY = true) (elapsed : Float32) :
    (s.afterActors elapsed).reordered = (s.afterActors elapsed).sortDepth := by
  have hoptions := (SameStage.afterActors s elapsed).options_eq
  rw [reordered, hoptions, if_pos h]

/-- What a tick does to the actors that are sorted by depth. -/
structure TickSorts (s : Scene) (elapsed : Float32) : Prop where
  /-- They are sorted by the depth they have at the end of the tick, and where that leaves a choice,
  they stay as they were. -/
  stablySorted : s.options.sortY = true →
    StablySorted (s.tick elapsed).1.Behind s.sorted (s.tick elapsed).1.sorted
  /-- The tick knows whether that changed their order. -/
  answer_iff : s.options.sortY = true →
    ((s.afterActors elapsed).sortDepth.1 = true ↔ (s.tick elapsed).1.sorted ≠ s.sorted)
  /-- If there is no sorting by depth, the order stays. -/
  sorted_eq : s.options.sortY = false → (s.tick elapsed).1.sorted = s.sorted

/-- A tick sorts the actors that have a place. -/
theorem Staged.tickSorts (h : s.Staged members options layer) (elapsed : Float32) :
    s.TickSorts elapsed := by
  have hbefore := s.sorted_afterActors elapsed
  have hafter := h.of_sameStage (SameStage.afterActors s elapsed)
  refine ⟨?_, ?_, ?_⟩
  · intro hsort
    rw [tick_state, tick_of_sortY hsort, sortDepth_eq, ← hbefore]
    refine (s.afterActors elapsed).stablySorted_depth.congr ?_
    intro a ha b hb
    -- those that are sorted take part, so their depths are those of actors
    obtain ⟨actor, hactor⟩ := hafter.found_of_mem_sorted ha
    obtain ⟨other, hother⟩ := hafter.found_of_mem_sorted hb
    exact depth_le_depth_iff hactor hother
  · intro hsort
    rw [sortDepth_fst_iff, tick_state, tick_of_sortY hsort, hbefore]
  · intro hsort
    have hoptions := (SameStage.afterActors s elapsed).options_eq
    rw [tick_state, reordered_of_unsorted (by rw [hoptions, hsort])]
    exact hbefore

/-! ## Scenes that were built -/

/-- The cast is that of the assets that are named, in their order. -/
theorem names_of_cast {library : AssetLibrary} {config : Config} {pixels : List String}
    {actors players : Table Actor} (h : cast library config pixels actors = .ok players) :
    players.names.map some =
      actors.names.map some ++ pixels.map fun pixel => (library.get? pixel).map Asset.name := by
  induction pixels generalizing actors with
  | nil =>
      cases h
      simp
  | cons pixel rest ih =>
      rw [cast.eq_def] at h
      dsimp only at h
      cases hasset : library.get? pixel with
      | none =>
          rw [hasset] at h
          cases h
      | some asset =>
          rw [hasset] at h
          dsimp only at h
          by_cases htaken : actors.contains asset.name = true
          · rw [if_pos htaken] at h
            cases h
          · rw [if_neg htaken] at h
            rw [ih h, Table.names_insert, if_neg htaken]
            simp [hasset]

/-- The cast of a scene that was built, and its two lists. -/
theorem lists_of_create {data : SceneData} {library : AssetLibrary} {sheet : FrameSheet}
    {config : SceneConfig} (h : (create data library sheet config).2 = .ok s) :
    s.options = data.options ∧ s.unsortedLayer = config.unsortedLayer ∧
      s.sorted = s.actors.names.filter (isSorted data.options) ∧
      s.unsorted = s.actors.names.filter fun name => !isSorted data.options name := by
  obtain ⟨hcast, htimeline⟩ := parts_of_create h
  unfold create at h
  rw [hcast, htimeline] at h
  have hscene := Except.ok.inj h
  refine ⟨?_, ?_, ?_, ?_⟩
  · exact (congrArg (fun u => u.options) hscene).symm
  · exact (congrArg (fun u => u.unsortedLayer) hscene).symm
  · exact (congrArg (fun u => u.sorted) hscene).symm
  · exact (congrArg (fun u => u.unsorted) hscene).symm

theorem staged_of_create {data : SceneData} {library : AssetLibrary} {sheet : FrameSheet}
    {config : SceneConfig} (h : (create data library sheet config).2 = .ok s) :
    s.Staged s.actors.names data.options config.unsortedLayer := by
  obtain ⟨-, hlayer, hsorted, hunsorted⟩ := lists_of_create h
  refine .of_lists rfl ?_ hunsorted hlayer
  rw [hsorted, hunsorted]
  exact List.filter_append_perm _ _

/-- Whatever is done to a scene that was built, each actor keeps its one place in the drawing order,
and every tick sorts those that are sorted by depth. Whether an order is looked at before it is
sorted or not makes no difference, and the answer tells exactly whether it changed. -/
theorem staged_obeyAll {data : SceneData} {library : AssetLibrary} {sheet : FrameSheet}
    {config : SceneConfig} {fresh : Scene}
    (h : (create data library sheet config).2 = .ok fresh) (commands : List SceneCommand) :
    (fresh.actors.names.map some =
        data.pixels.map fun pixel => (library.get? pixel).map Asset.name) ∧
      (fresh.obeyAll commands).options = data.options ∧
      (fresh.obeyAll commands).Staged fresh.actors.names data.options config.unsortedLayer ∧
      (∀ elapsed, (fresh.obeyAll commands).TickSorts elapsed) ∧
      ∀ s : Scene, s.sortDepth.2 = { s with sorted := s.sorted.mergeSort s.isBehind } ∧
        (s.sortDepth.1 = true ↔ s.sortDepth.2.sorted ≠ s.sorted) := by
  obtain ⟨hoptions, -, -, -⟩ := lists_of_create h
  have hsame := SameStage.obeyAll fresh commands
  have hstaged := (staged_of_create h).of_sameStage hsame
  have hnames := names_of_cast (parts_of_create h).1
  refine ⟨hnames, ?_, hstaged, hstaged.tickSorts, ?_⟩
  · rw [hsame.options_eq, hoptions]
  · intro s
    exact ⟨s.sortDepth_eq, s.sortDepth_fst_iff⟩

/-- A scene that is sorted by depth, but for its clouds. -/
def skyData : SceneData where
  options := { sortY := true, noSort := ["cloud"] }
  pixels := ["sun", "cloud", "moon"]

/-- An asset for each actor of the sky. -/
def skyLibrary : AssetLibrary :=
  .ofList [("sun", ⟨"sun", [], .empty⟩), ("cloud", ⟨"cloud", [], .empty⟩),
    ("moon", ⟨"moon", [], .empty⟩)]

/-- The actors of the sky, who have done nothing yet. -/
def skyActors : Table Actor :=
  .ofList (["sun", "cloud", "moon"].map fun name =>
    (name, .create ⟨name, [], .empty⟩ { visible := false } {}))

/-- The scene of the sky. -/
def skyScene : Scene where
  width := 0
  height := 0
  options := skyData.options
  unsortedLayer := .below
  actors := skyActors
  sorted := ["sun", "moon"]
  unsorted := ["cloud"]
  timeline := { events := [] }
  sheet := {}

theorem create_skyScene : (create skyData skyLibrary {} {}).2 = .ok skyScene := by
  have htimeline : Timeline.create skyData.timeline = .ok { events := [] } := by
    simp only [Timeline.create, Timeline.checkTimes, Timeline.sortEvents, skyData,
      List.mergeSort_nil]
    rfl
  unfold create
  simp only [htimeline]
  rfl

/-- The sun goes down below the moon. -/
def sunset : List SceneCommand :=
  [.call (.apply "sun" (.place ⟨0.0, 2.0⟩)), .call (.apply "moon" (.place ⟨0.0, 1.0⟩))]

/-- After the sunset, the next tick draws the sun in front of the moon. -/
theorem staged_obeyAll_skyScene :
    (skyScene.obeyAll sunset).Staged ["sun", "cloud", "moon"] skyData.options .below ∧
      ((skyScene.obeyAll sunset).tick 0.0).1.sorted ≠ ["sun", "moon"] := by
  obtain ⟨-, -, hstaged, hticks, -⟩ := staged_obeyAll create_skyScene sunset
  refine ⟨hstaged, ?_⟩
  have hanswer : ((skyScene.obeyAll sunset).afterActors 0.0).sortDepth.1 = true := by
    decide +kernel
  exact ((hticks 0.0).answer_iff rfl).1 hanswer

end SpriteStage.Scene
