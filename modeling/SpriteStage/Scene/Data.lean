import SpriteStage.Scene.Action

/-!
# Authored scenes

A scene as the editor writes it: a size, options, the assets whose actors take part, and a timeline.
Reading and writing keep the authored order of everything.
-/

set_option autoImplicit false

namespace SpriteStage

open Json (Field Reader ReadError)

/-- How the actors of a scene are ordered. -/
structure SceneOptions where
  /-- Whether actors are sorted by their vertical position. -/
  sortY : Bool := false
  /-- The names of the actors that are not sorted. -/
  noSort : List String := []
deriving DecidableEq, Repr

namespace SceneOptions

/-- The options that a text has given so far. -/
structure Draft where
  /-- Whether actors are sorted by their vertical position. -/
  sortY : Option Bool := none
  /-- The names of the actors that are not sorted. -/
  noSort : Option (List String) := none

/-- The options of a draft, with defaults for what it lacks. -/
def Draft.complete (d : Draft) : SceneOptions where
  sortY := d.sortY.getD false
  noSort := d.noSort.getD []

/-- The fields of the options. -/
def fields {ε : Type} : List (Field ε Draft) :=
  [.of "sortY" (fun _ => Reader.bool) (·.sortY) ({ · with sortY := some · }),
    .of "noSort" (Reader.listWithin fun _ => Reader.string) (·.noSort)
      ({ · with noSort := some · })]

/-- Reads options. -/
def read {ε : Type} (nesting : Nat) : Reader ε SceneOptions :=
  return (← Json.Record.read fields {} nesting).complete

/-- The JSON text of the options. -/
def write (o : SceneOptions) : List Char :=
  Json.objectText
    [("sortY", Json.boolText o.sortY),
      ("noSort", Json.arrayText (o.noSort.map Json.Quoted.encode))]

end SceneOptions

/-- A scene as the editor writes it. -/
structure SceneData where
  /-- The width in pixels. -/
  width : UInt32 := 0
  /-- The height in pixels. -/
  height : UInt32 := 0
  /-- How the actors are ordered. -/
  options : SceneOptions := {}
  /-- The names of the assets; each has one actor. -/
  pixels : List String := []
  /-- The entries of the timeline, in any order. -/
  timeline : List TimelineEntry := []
deriving DecidableEq

namespace SceneData

/-- The parts of a scene that a text has given so far. -/
structure Draft where
  /-- The width in pixels. -/
  width : Option UInt32 := none
  /-- The height in pixels. -/
  height : Option UInt32 := none
  /-- How the actors are ordered. -/
  options : Option SceneOptions := none
  /-- The names of the assets. -/
  pixels : Option (List String) := none
  /-- The entries of the timeline. -/
  timeline : Option (List TimelineEntry) := none

/-- The scene of a draft, with defaults for what it lacks. -/
def Draft.complete (d : Draft) : SceneData where
  width := d.width.getD 0
  height := d.height.getD 0
  options := d.options.getD {}
  pixels := d.pixels.getD []
  timeline := d.timeline.getD []

/-- Reads an entry of a timeline, which is an object. -/
def readEntry {ε : Type} (nesting : Nat) : Reader ε TimelineEntry := do
  Reader.require (TimelineEntry.ofJson? (← Reader.value nesting))

/-- The fields of a scene. -/
def fields {ε : Type} : List (Field ε Draft) :=
  [.of "width" (fun _ => Reader.word) (·.width) ({ · with width := some · }),
    .of "height" (fun _ => Reader.word) (·.height) ({ · with height := some · }),
    .of "options" SceneOptions.read (·.options) ({ · with options := some · }),
    .of "pixels" (Reader.listWithin fun _ => Reader.string) (·.pixels)
      ({ · with pixels := some · }),
    .of "timeline" (Reader.listWithin readEntry) (·.timeline) ({ · with timeline := some · })]

/-- Reads a scene. -/
def read {ε : Type} (nesting : Nat) : Reader ε SceneData :=
  return (← Json.Record.read fields {} nesting).complete

/-- Reads a scene from the whole of a text. -/
def ofText? (text : String) : Except (ReadError Empty) SceneData := (read Json.maxNesting).run text

/-- The JSON text of the scene. -/
def write (s : SceneData) : List Char :=
  Json.objectText
    [("width", Json.naturalText s.width.toNat), ("height", Json.naturalText s.height.toNat),
      ("options", s.options.write), ("pixels", Json.arrayText (s.pixels.map Json.Quoted.encode)),
      ("timeline", Json.arrayText (s.timeline.map fun e => Json.objectText e.fieldTexts))]

/-- The JSON text of the scene. -/
def text (s : SceneData) : String := String.ofList s.write

end SceneData

end SpriteStage
