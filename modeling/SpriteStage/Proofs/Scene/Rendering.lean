import Mathlib.Algebra.GroupWithZero.Nat
import SpriteStage.Proofs.Scene.Run
import SpriteStage.Proofs.Sheet

/-!
# Rendering the cast

The frames of all actors are added to the sheet of a scene actor by actor. An actor is skipped if the
sheet has its first frame. On a sheet that was empty this is never a mistake, whatever the actors are
called: afterwards every frame of every actor has its own size and a texture of its own, and the
sheet has nothing else (`FrameSheet.Serves`). Doing it again adds nothing, and doing it again by
force changes nothing (`Scene.serves_renderSheet`).
-/

set_option autoImplicit false

namespace SpriteStage

/-! ## The frames of an asset -/

namespace Asset

/-- The frames of an asset with their keys and sizes, as they are added to a sheet. -/
def sheetFrames (a : Asset) : List (String × Size) :=
  a.frames.zipIdx.map fun e => (a.frameKey e.2, e.1.size)

theorem keys_sheetFrames (a : Asset) :
    a.sheetFrames.map Prod.fst = (List.range a.frameCount).map a.frameKey := by
  have hkeys : (a.sheetFrames.map Prod.fst) = (a.frames.zipIdx.map Prod.snd).map a.frameKey := by
    rw [sheetFrames, List.map_map, List.map_map]
    rfl
  rw [hkeys, List.zipIdx_map_snd, ← List.range_eq_range']
  rfl

@[simp] theorem length_sheetFrames (a : Asset) : a.sheetFrames.length = a.frameCount := by
  simp [sheetFrames, frameCount]

theorem mem_keys_sheetFrames {a : Asset} {key : String} :
    key ∈ a.sheetFrames.map Prod.fst ↔ ∃ index < a.frameCount, key = a.frameKey index := by
  rw [keys_sheetFrames, List.mem_map]
  simp [eq_comm]

theorem exists_size? {a : Asset} {index : Nat} (h : index < a.frameCount) :
    ∃ size, a.size? index = some size := by
  rw [size?, List.getElem?_eq_getElem h]
  exact ⟨_, rfl⟩

theorem mem_sheetFrames {a : Asset} {index : Nat} {size : Size} (h : a.size? index = some size) :
    (a.frameKey index, size) ∈ a.sheetFrames := by
  obtain ⟨frame, hframe, rfl⟩ := Option.map_eq_some_iff.1 h
  exact List.mem_map.2 ⟨(frame, index), List.mem_zipIdx_iff_getElem?.2 hframe, rfl⟩

/-- An asset has no frames, or it has a first one. -/
theorem sheetFrames_cases (a : Asset) :
    a.frameCount = 0 ∧ a.sheetFrames = [] ∨ ∃ size, (a.frameKey 0, size) ∈ a.sheetFrames := by
  cases hframes : a.frames with
  | nil => simp [frameCount, sheetFrames, hframes]
  | cons frame frames =>
      refine Or.inr ⟨frame.size, mem_sheetFrames ?_⟩
      simp [size?, hframes]

theorem nodup_keys_sheetFrames (a : Asset) : (a.sheetFrames.map Prod.fst).Nodup := by
  rw [keys_sheetFrames]
  exact List.Nodup.map (fun i j heq => (frameKey_inj.1 heq).2) List.nodup_range

/-- Assets with different names share no key. -/
theorem disjoint_keys_sheetFrames {a b : Asset} (h : a.name ≠ b.name) :
    (a.sheetFrames.map Prod.fst).Disjoint (b.sheetFrames.map Prod.fst) := by
  intro key ha hb
  obtain ⟨i, -, rfl⟩ := mem_keys_sheetFrames.1 ha
  obtain ⟨j, -, heq⟩ := mem_keys_sheetFrames.1 hb
  exact h (frameKey_inj.1 heq).1

end Asset

/-! ## One actor -/

namespace Actor

theorem addFrames_eq (asset : Asset) (start : Nat) (frames : List PixelFrame)
    (sheet : FrameSheet) :
    addFrames asset start frames sheet =
      sheet.addAll ((frames.zipIdx start).map fun e => (asset.frameKey e.2, e.1.size)) := by
  induction frames generalizing start sheet with
  | nil => rfl
  | cons frame frames ih =>
      rw [addFrames, ih]
      rfl

variable {a : Actor} {sheet : FrameSheet}

theorem render_of_force (a : Actor) (sheet : FrameSheet) :
    a.render sheet true = (a.asset.frameCount, sheet.addAll a.asset.sheetFrames) := by
  simp [render, addFrames_eq, Asset.sheetFrames]

/-- Without force, the first frame decides. -/
theorem render_false (a : Actor) (sheet : FrameSheet) :
    a.render sheet false =
      if sheet.contains (a.asset.frameKey 0) = true then (0, sheet) else a.render sheet true := by
  simp [render]

/-- An actor whose frames are all new is not skipped, unless there are none. -/
theorem render_of_new (h : ∀ frame ∈ a.asset.sheetFrames, sheet.contains frame.1 = false) :
    a.render sheet false = (a.asset.frameCount, sheet.addAll a.asset.sheetFrames) := by
  rw [render_false, render_of_force]
  split
  · next hfirst =>
    rcases a.asset.sheetFrames_cases with ⟨hcount, hframes⟩ | ⟨size, hmem⟩
    · rw [hcount, hframes, FrameSheet.addAll_nil]
    · rw [h _ hmem] at hfirst
      cases hfirst
  · rfl

/-- An actor whose frames are all there is skipped, unless there are none. -/
theorem render_of_added (h : ∀ frame ∈ a.asset.sheetFrames, sheet.contains frame.1 = true) :
    a.render sheet false = (0, sheet) := by
  rw [render_false, render_of_force]
  split
  · rfl
  · next hfirst =>
    rcases a.asset.sheetFrames_cases with ⟨hcount, hframes⟩ | ⟨size, hmem⟩
    · rw [hcount, hframes, FrameSheet.addAll_nil]
    · exact absurd (h _ hmem) hfirst

end Actor

/-! ## The whole cast -/

/-- Renders actors one after the other and counts the frames that are added. -/
def renderActors (force : Bool) : List Actor → FrameSheet → Nat × FrameSheet
  | [], sheet => (0, sheet)
  | a :: rest, sheet =>
    let one := a.render sheet force
    let others := renderActors force rest one.2
    (one.1 + others.1, others.2)

/-- The frames of actors with their keys and sizes. -/
def sheetFrames (actors : List Actor) : List (String × Size) :=
  actors.flatMap fun a => a.asset.sheetFrames

theorem renderActors_of_force (actors : List Actor) (sheet : FrameSheet) :
    renderActors true actors sheet =
      ((sheetFrames actors).length, sheet.addAll (sheetFrames actors)) := by
  induction actors generalizing sheet with
  | nil => rfl
  | cons a rest ih =>
      simp [renderActors, ih, Actor.render_of_force, sheetFrames, FrameSheet.addAll_append]

/-- Actors whose frames are all new are rendered as by force. -/
theorem renderActors_of_new {actors : List Actor} {sheet : FrameSheet}
    (hnodup : ((sheetFrames actors).map Prod.fst).Nodup)
    (hnew : ∀ frame ∈ sheetFrames actors, sheet.contains frame.1 = false) :
    renderActors false actors sheet =
      ((sheetFrames actors).length, sheet.addAll (sheetFrames actors)) := by
  induction actors generalizing sheet with
  | nil => rfl
  | cons a rest ih =>
      have hsplit : sheetFrames (a :: rest) = a.asset.sheetFrames ++ sheetFrames rest := rfl
      rw [hsplit, List.map_append, List.nodup_append'] at hnodup
      obtain ⟨-, hrest, hdisjoint⟩ := hnodup
      have hfirst := Actor.render_of_new fun frame hframe =>
        hnew frame (List.mem_append_left _ hframe)
      -- the frames of the first actor are none of the others
      have hothers : ∀ frame ∈ sheetFrames rest,
          (sheet.addAll a.asset.sheetFrames).contains frame.1 = false := by
        intro frame hframe
        rw [FrameSheet.contains_eq_false_iff, FrameSheet.entry?_addAll_of_not_mem,
          ← FrameSheet.contains_eq_false_iff]
        · exact hnew frame (List.mem_append_right _ hframe)
        · exact fun hmem => hdisjoint hmem (List.mem_map_of_mem hframe)
      simp [renderActors, hfirst, ih hrest hothers, hsplit, FrameSheet.addAll_append]

/-- Actors whose frames are all there add nothing. -/
theorem renderActors_of_added {actors : List Actor} {sheet : FrameSheet}
    (h : ∀ frame ∈ sheetFrames actors, sheet.contains frame.1 = true) :
    renderActors false actors sheet = (0, sheet) := by
  induction actors with
  | nil => rfl
  | cons a rest ih =>
      have hfirst := Actor.render_of_added fun frame hframe =>
        h frame (List.mem_append_left _ hframe)
      have hothers := ih fun frame hframe => h frame (List.mem_append_right _ hframe)
      simp [renderActors, hfirst, hothers]

/-- Actors with different names share no key. -/
theorem nodup_keys_sheetFrames {actors : List Actor} (h : (actors.map Actor.name).Nodup) :
    ((sheetFrames actors).map Prod.fst).Nodup := by
  rw [sheetFrames, List.map_flatMap, List.nodup_flatMap]
  refine ⟨fun a _ => a.asset.nodup_keys_sheetFrames, ?_⟩
  exact (List.pairwise_map.1 h).imp Asset.disjoint_keys_sheetFrames

/-! ## The sheet of a scene -/

namespace Scene

variable {s : Scene}

/-- The number of frames of all actors. -/
def frameTotal (s : Scene) : Nat := (s.actors.values.map fun a => a.asset.frameCount).sum

theorem length_sheetFrames_values (s : Scene) :
    (sheetFrames s.actors.values).length = s.frameTotal := by
  simp [sheetFrames, frameTotal, List.length_flatMap]

/-- The count starts at zero, and the sheet goes from actor to actor. -/
theorem renderSheet_eq (s : Scene) (force : Bool) :
    s.renderSheet force =
      ((renderActors force s.actors.values s.sheet).1,
        { s with sheet := (renderActors force s.actors.values s.sheet).2 }) := by
  have hfold : ∀ (actors : List Actor) (sum : Nat × FrameSheet),
      actors.foldl (fun sum actor =>
        (sum.1 + (actor.render sum.2 force).1, (actor.render sum.2 force).2)) sum =
      (sum.1 + (renderActors force actors sum.2).1, (renderActors force actors sum.2).2) := by
    intro actors
    induction actors with
    | nil => exact fun _ => rfl
    | cons a rest ih =>
        intro sum
        rw [List.foldl_cons, ih, renderActors, Nat.add_assoc]
  have hsum := hfold s.actors.values (0, s.sheet)
  rw [Nat.zero_add] at hsum
  exact congrArg (fun sum : Nat × FrameSheet => (sum.1, { s with sheet := sum.2 })) hsum

end Scene

/-- The sheet serves the actors: it has every frame of every actor under its key, with the size of
the frame, and nothing else, and no two frames share a texture. -/
structure FrameSheet.Serves (sheet : FrameSheet) (actors : Table Actor) : Prop where
  /-- There are as many entries as frames. -/
  size_eq : sheet.size = (actors.values.map fun a => a.asset.frameCount).sum
  /-- Every frame has an entry with its size. -/
  entry? : ∀ name actor index, actors.get? name = some actor → index < actor.asset.frameCount →
    ∃ t size, actor.asset.size? index = some size ∧
      sheet.entry? (actor.asset.frameKey index) = some ⟨t, size⟩
  /-- Different frames have different textures. -/
  eq_of_texture? : ∀ name actor index name' actor' index' t, actors.get? name = some actor →
    actors.get? name' = some actor' → sheet.texture? (actor.asset.frameKey index) = some t →
      sheet.texture? (actor'.asset.frameKey index') = some t → name = name' ∧ index = index'

namespace Scene

variable {s : Scene}

theorem mem_values {actors : Table Actor} {name : String} {actor : Actor}
    (h : actors.get? name = some actor) : actor ∈ actors.values :=
  List.mem_map.2 ⟨(name, actor), (actors.mem_entries_iff name actor).2 h, rfl⟩

/-- Actors with one asset name are one actor, if their names are distinct. -/
theorem eq_of_name_eq {actors : Table Actor} (hnames : (actors.values.map Actor.name).Nodup)
    {name name' : String} {actor actor' : Actor} (h : actors.get? name = some actor)
    (h' : actors.get? name' = some actor') (heq : actor.name = actor'.name) : name = name' := by
  rw [Table.values, List.map_map] at hnames
  have hsame := List.inj_on_of_nodup_map hnames ((actors.mem_entries_iff _ _).2 h)
    ((actors.mem_entries_iff _ _).2 h') heq
  exact congrArg Prod.fst hsame

/-- A sheet that was empty serves the actors once all their frames were added. -/
theorem serves_addAll {sheet : FrameSheet} {actors : Table Actor} (hempty : sheet.isEmpty = true)
    (hnames : (actors.values.map Actor.name).Nodup)
    (htotal : (sheetFrames actors.values).length < 2 ^ 32) :
    (sheet.addAll (sheetFrames actors.values)).Serves actors := by
  have hnodup := nodup_keys_sheetFrames hnames
  have hsize : (sheet.addAll (sheetFrames actors.values)).size =
      (sheetFrames actors.values).length := by
    rw [FrameSheet.size_addAll hnodup fun frame _ => FrameSheet.contains_of_isEmpty hempty _,
      FrameSheet.size_of_isEmpty hempty, Nat.zero_add]
  refine ⟨?_, ?_, ?_⟩
  · rw [hsize, sheetFrames, List.length_flatMap]
    simp
  · intro name actor index hactor hindex
    obtain ⟨size, hsize⟩ := Asset.exists_size? hindex
    obtain ⟨t, hentry⟩ := FrameSheet.entry?_addAll_of_mem hnodup
      (List.mem_flatMap.2 ⟨actor, mem_values hactor, Asset.mem_sheetFrames hsize⟩)
    exact ⟨t, size, hsize, hentry⟩
  · intro name actor index name' actor' index' t hactor hactor' ht ht'
    have hnumbered := (FrameSheet.numbered_of_isEmpty hempty).addAll (sheetFrames actors.values)
    have hkeys := hnumbered.eq_of_texture? (by omega) ht ht'
    obtain ⟨hname, hindex⟩ := frameKey_inj.1 hkeys
    exact ⟨eq_of_name_eq hnames hactor hactor' hname, hindex⟩

/-- On an empty sheet, rendering the cast adds every frame once, each with its own texture. Once
more, it adds nothing; and by force it adds every frame again, and leaves the scene as it is. Names
matter only in that they are distinct. -/
theorem serves_renderSheet (hempty : s.sheet.isEmpty = true)
    (hnames : (s.actors.values.map Actor.name).Nodup) (htotal : s.frameTotal < 2 ^ 32) :
    ∃ sheet : FrameSheet,
      s.renderSheet false = (s.frameTotal, { s with sheet := sheet }) ∧
        sheet.Serves s.actors ∧
        renderSheet { s with sheet := sheet } false = (0, { s with sheet := sheet }) ∧
        renderSheet { s with sheet := sheet } true =
          (s.frameTotal, { s with sheet := sheet }) := by
  have hnodup := nodup_keys_sheetFrames hnames
  have hlength := s.length_sheetFrames_values
  have hserves := serves_addAll hempty hnames (by omega)
  generalize hsheet : s.sheet.addAll (sheetFrames s.actors.values) = sheet at hserves
  have hadded : ∀ frame ∈ sheetFrames s.actors.values,
      ∃ t, sheet.entry? frame.1 = some ⟨t, frame.2⟩ := by
    intro frame hframe
    rw [← hsheet]
    exact FrameSheet.entry?_addAll_of_mem hnodup hframe
  refine ⟨sheet, ?_, hserves, ?_, ?_⟩
  · rw [renderSheet_eq, renderActors_of_new hnodup fun frame _ =>
      FrameSheet.contains_of_isEmpty hempty _, hlength, hsheet]
  · rw [renderSheet_eq, renderActors_of_added fun frame hframe => ?_]
    obtain ⟨t, hentry⟩ := hadded frame hframe
    simp [FrameSheet.contains, hentry]
  · rw [renderSheet_eq, renderActors_of_force, hlength, FrameSheet.addAll_eq_self hadded]

/-- In a scene that was built, every actor is known by its own name. -/
theorem nodup_names_of_create {data : SceneData} {library : AssetLibrary} {sheet : FrameSheet}
    {config : SceneConfig} (h : (create data library sheet config).2 = .ok s) :
    (s.actors.values.map Actor.name).Nodup := by
  have hown : ∀ name a, s.actors.get? name = some a → a.name = name :=
    forall_of_cast (P := fun name a => a.name = name) (parts_of_create h).1 (fun _ => rfl) (by simp)
  have hnames : s.actors.values.map Actor.name = s.actors.names := by
    rw [Table.values, Table.names, List.map_map]
    refine List.map_congr_left ?_
    rintro ⟨name, a⟩ hmem
    exact hown name a ((s.actors.mem_entries_iff name a).1 hmem)
  rw [hnames]
  exact s.actors.names_nodup

/-- Two actors, of which one is called like a frame of the other. -/
def twinData : SceneData where
  pixels := ["hero", "hero-1"]

/-- Assets with frames of different sizes. -/
def twinLibrary : AssetLibrary :=
  .ofList [("hero", ⟨"hero", [⟨⟨1, 1⟩, []⟩, ⟨⟨2, 1⟩, []⟩], .empty⟩),
    ("hero-1", ⟨"hero-1", [⟨⟨3, 1⟩, []⟩], .empty⟩)]

/-- The scene of the two. -/
def twinScene : Scene where
  width := 0
  height := 0
  options := {}
  unsortedLayer := .below
  actors := .ofList (twinLibrary.entries.map fun e =>
    (e.1, .create e.2 { visible := false } {}))
  sorted := []
  unsorted := ["hero", "hero-1"]
  timeline := { events := [] }
  sheet := {}

theorem create_twinScene : (create twinData twinLibrary {} {}).2 = .ok twinScene := by
  have htimeline : Timeline.create twinData.timeline = .ok { events := [] } := by
    simp only [Timeline.create, Timeline.checkTimes, Timeline.sortEvents, twinData,
      List.mergeSort_nil]
    rfl
  unfold create
  simp only [htimeline]
  rfl

theorem serves_renderSheet_twinScene :
    twinScene.sheet.isEmpty = true ∧ (twinScene.actors.values.map Actor.name).Nodup ∧
      twinScene.frameTotal < 2 ^ 32 ∧
      ∃ sheet : FrameSheet, twinScene.renderSheet false = (3, { twinScene with sheet := sheet }) ∧
        sheet.Serves twinScene.actors := by
  have hnames := nodup_names_of_create create_twinScene
  refine ⟨rfl, hnames, by decide, ?_⟩
  obtain ⟨sheet, hfirst, hserves, -, -⟩ := serves_renderSheet rfl hnames (by decide)
  exact ⟨sheet, hfirst, hserves⟩

end Scene

end SpriteStage
