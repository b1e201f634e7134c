import SpriteStage.Sheet
import SpriteStage.Step.Compact
import SpriteStage.Json.Record

/-!
# Authored assets

A pixel asset as the editor writes it: a name, the frames with their pixels, and the animations with
their steps. Reading it checks the form of each step, but neither durations nor links.
-/

set_option autoImplicit false

namespace SpriteStage

open Json (Field Reader ReadError)

/-- A frame of pixels. -/
structure PixelFrame where
  /-- The width and the height. -/
  size : Size
  /-- The colours row by row, where a pixel without one is transparent. It may be left empty. -/
  pixels : List (Option UInt32) := []
deriving DecidableEq

namespace PixelFrame

/-- The parts of a frame that a text has given so far. -/
structure Draft where
  /-- The width. -/
  width : Option UInt32 := none
  /-- The height. -/
  height : Option UInt32 := none
  /-- The colours. -/
  pixels : Option (List (Option UInt32)) := none

/-- The frame of a draft, if it has a width and a height. -/
def Draft.complete? (d : Draft) : Option PixelFrame := do
  return { size := ⟨← d.width, ← d.height⟩, pixels := d.pixels.getD [] }

/-- The fields of a frame. -/
def fields {ε : Type} : List (Field ε Draft) :=
  [.of "width" (fun _ => Reader.word) (·.width) ({ · with width := some · }),
    .of "height" (fun _ => Reader.word) (·.height) ({ · with height := some · }),
    .of "data" (Reader.listWithin fun _ => Reader.optional Reader.word) (·.pixels)
      ({ · with pixels := some · })]

/-- Reads a frame. -/
def read {ε : Type} (nesting : Nat) : Reader ε PixelFrame := do
  Reader.require (← Json.Record.read fields {} nesting).complete?

/-- The JSON text of a frame. -/
def text (f : PixelFrame) : String :=
  String.ofList <| Json.objectText
    [("width", Json.naturalText f.size.width.toNat),
      ("height", Json.naturalText f.size.height.toNat),
      ("data", Json.arrayText <| f.pixels.map fun
        | some colour => Json.naturalText colour.toNat
        | none => "null".toList)]

/-- The number of pixels that a frame of this size has. -/
def area (f : PixelFrame) : Nat := f.size.width.toNat * f.size.height.toNat

end PixelFrame

/-- A pixel asset as the editor writes it. -/
structure AssetData where
  /-- The name of the asset. -/
  name : String
  /-- The frames. -/
  frames : List PixelFrame := []
  /-- The authored steps of each animation. -/
  animations : Table (List AuthoredStep) := .empty

namespace AssetData

/-- The parts of an asset that a text has given so far. -/
structure Draft where
  /-- The name. -/
  name : Option String := none
  /-- The frames. -/
  frames : Option (List PixelFrame) := none
  /-- The animations; the last of those that share a name counts. -/
  animations : Option (Table (List AuthoredStep)) := none

/-- The asset of a draft, if it has a name. -/
def Draft.complete? (d : Draft) : Option AssetData := do
  return { name := ← d.name, frames := d.frames.getD [], animations := d.animations.getD .empty }

/-- Reads the animations of an asset. -/
def readAnimations (nesting : Nat) : Reader StepFault (Table (List AuthoredStep)) := do
  return .ofList (← Reader.membersWithin (Reader.listWithin AuthoredStep.read) nesting)

/-- The fields of an asset. -/
def fields : List (Field StepFault Draft) :=
  [.of "name" (fun _ => Reader.string) (·.name) ({ · with name := some · }),
    .of "frames" (Reader.listWithin PixelFrame.read) (·.frames) ({ · with frames := some · }),
    .of "animations" readAnimations (·.animations) ({ · with animations := some · })]

/-- Reads an asset. -/
def read (nesting : Nat) : Reader StepFault AssetData := do
  Reader.require (← Json.Record.read fields {} nesting).complete?

/-- Reads an asset from the whole of a text. -/
def ofText? (text : String) : Except (ReadError StepFault) AssetData :=
  (read Json.maxNesting).run text

/-- The JSON text of the steps of an animation. -/
def stepsText (steps : List AuthoredStep) : String :=
  String.ofList (Json.arrayText (steps.map AuthoredStep.write))

end AssetData

end SpriteStage
