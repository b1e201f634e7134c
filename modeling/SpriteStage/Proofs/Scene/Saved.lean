import SpriteStage.Proofs.Scene.Entry

/-!
# Saved scenes are loaded again

What is written for a scene is read as the scene (`ofText?_text`): every string, every option that is
present or left out, every kind of action, and the entries in their authored order. Of each number
of the timeline it is asked that it is read back when it is written alone.
-/

set_option autoImplicit false

namespace SpriteStage

open Json (Reader)
open Json.Reader (Reads Takes)

theorem reads_strings {ε : Type} (names : List String) :
    Reads (Reader.list Reader.string : Reader ε (List String))
      (Json.arrayText (names.map Json.Quoted.encode)) names :=
  Reader.reads_list Json.Quoted.encode names fun name _ => Reader.reads_string name

theorem SceneOptions.reads {ε : Type} (o : SceneOptions) (nesting : Nat) :
    Reads (SceneOptions.read (nesting + 2) : Reader ε SceneOptions) o.write o := by
  have htakes : Takes (Json.Record.member fields (nesting + 1) : Draft → Reader ε Draft) {}
      [Json.Quoted.encode "sortY" ++ ':' :: Json.boolText o.sortY,
        Json.Quoted.encode "noSort" ++ ':' :: Json.arrayText (o.noSort.map Json.Quoted.encode)]
      { sortY := some o.sortY, noSort := some o.noSort } :=
    Takes.field rfl rfl (Reader.reads_bool o.sortY)
      (Takes.field rfl rfl (reads_strings o.noSort) (Takes.nil _))
  exact (Reader.reads_record htakes).bind fun _ => rfl

namespace SceneData

/-- The numbers of a scene. -/
def singles (s : SceneData) : List Float32 := s.timeline.flatMap TimelineEntry.singles

/-- What is written for a scene is read as the scene. -/
theorem reads (s : SceneData) (h : ∀ x ∈ s.singles, Survives x) (nesting : Nat) :
    Reads (read (nesting + 3) : Reader Empty SceneData) s.write s := by
  -- of the nesting, the scene takes one level, the list of entries one, and each entry one
  have hentries : Reads (Reader.list (readEntry (nesting + 1)) : Reader Empty (List TimelineEntry))
      (Json.arrayText (s.timeline.map fun e => Json.objectText e.fieldTexts)) s.timeline := by
    refine Reader.reads_list _ s.timeline fun e he => TimelineEntry.reads ?_ nesting
    refine TimelineEntry.sound_of_survives fun x hx => ?_
    exact h x (List.mem_flatMap.2 ⟨e, he, hx⟩)
  have htakes : Takes (Json.Record.member fields (nesting + 2) : Draft → Reader Empty Draft) {}
      [Json.Quoted.encode "width" ++ ':' :: Json.naturalText s.width.toNat,
        Json.Quoted.encode "height" ++ ':' :: Json.naturalText s.height.toNat,
        Json.Quoted.encode "options" ++ ':' :: s.options.write,
        Json.Quoted.encode "pixels" ++ ':' :: Json.arrayText (s.pixels.map Json.Quoted.encode),
        Json.Quoted.encode "timeline" ++
          ':' :: Json.arrayText (s.timeline.map fun e => Json.objectText e.fieldTexts)]
      ⟨s.width, s.height, s.options, s.pixels, s.timeline⟩ :=
    Takes.field rfl rfl (Reader.reads_word s.width)
      (Takes.field rfl rfl (Reader.reads_word s.height)
        (Takes.field rfl rfl (s.options.reads nesting)
          (Takes.field rfl rfl (reads_strings s.pixels)
            (Takes.field rfl rfl hentries (Takes.nil _)))))
  exact (Reader.reads_record htakes).bind fun _ => rfl

/-- **A saved scene is loaded as it was**, if each of its numbers survives on its own, which only
finite numbers do (`Survives.isFinite`). -/
theorem ofText?_text (s : SceneData) (h : ∀ x ∈ s.singles, Survives x) :
    ofText? s.text = .ok s :=
  (s.reads h 124).run

/-- A scene with every kind of action, with options present and left out, and with strings and
numbers that need escapes, signs and exponents. -/
def storedScene : SceneData where
  width := 320
  height := 4294967295
  options := ⟨true, ["sky \"blue\"", ""]⟩
  pixels := ["hero", "a\\b\n\x00\x1f", "😀é\x7f"]
  timeline :=
    [⟨16777216.0, "hero", .place ⟨0.1, -0.0⟩⟩, ⟨0.0, "😀é\x7f", .animate "run" true (some 16.67)⟩,
      ⟨0.0, "hero", .animate "idle" false none⟩,
      ⟨500.5, "hero", .move ⟨1e-7, 3.4e38⟩ (some 250.0) none (some "easeInOut")⟩,
      ⟨500.5, "hero", .move ⟨-1.5, 2.0⟩ none (some 0.3) none⟩, ⟨1e21, "hero", .unplace⟩]

theorem ofText?_text_storedScene :
    (∀ x ∈ storedScene.singles, Survives x) ∧ ofText? storedScene.text = .ok storedScene := by
  have hsurvive : ∀ x ∈ storedScene.singles, Survives x := by decide +kernel
  exact ⟨hsurvive, ofText?_text storedScene hsurvive⟩

end SceneData

end SpriteStage
