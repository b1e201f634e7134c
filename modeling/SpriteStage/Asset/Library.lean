import SpriteStage.Animation
import SpriteStage.Asset.Data

/-!
# Assets

An asset that can be played: its frames have as many pixels as their size says, or none, and its
animations are compiled against the number of its frames. A library holds assets by name.
-/

set_option autoImplicit false

namespace SpriteStage

/-- A pixel asset that can be played. -/
structure Asset where
  /-- The name of the asset. -/
  name : String
  /-- The frames. -/
  frames : List PixelFrame
  /-- The compiled animations. -/
  animations : AnimationSet

namespace Asset

/-- Refuses the first frame, counting frames from `start`, with pixels for some places only. -/
def checkPixels (name : String) (start : Nat) : List PixelFrame → Except AnimationError Unit
  | [] => .ok ()
  | frame :: rest =>
    if frame.pixels = [] ∨ frame.pixels.length = frame.area then checkPixels name (start + 1) rest
    else .error (.pixelCount name start frame.pixels.length frame.area)

/-- Checks and compiles an authored asset. -/
def ofData (data : AssetData) : Except AnimationError Asset := do
  checkPixels data.name 0 data.frames
  let animations ← compileSet data.animations (some data.frames.length)
  return { name := data.name, frames := data.frames, animations := animations }

/-- Reads, checks and compiles an asset. -/
def ofText (text : String) : Except AnimationError Asset := do
  ofData (← (AssetData.ofText? text).mapError .unreadable)

/-- The number of frames. -/
def frameCount (a : Asset) : Nat := a.frames.length

/-- The size of a frame. -/
def size? (a : Asset) (index : Nat) : Option Size := (a.frames[index]?).map (·.size)

/-- The key of a frame on a render sheet. -/
def frameKey (a : Asset) (index : Nat) : String := SpriteStage.frameKey a.name index

end Asset

/-- Assets by name. -/
abbrev AssetLibrary := Table Asset

namespace AssetLibrary

/-- Adds an asset in the place of the one with its name. -/
def add (library : AssetLibrary) (asset : Asset) : AssetLibrary := library.insert asset.name asset

/-- Reads an asset and adds it. -/
def load (library : AssetLibrary) (text : String) : Except AnimationError (Asset × AssetLibrary) :=
  (Asset.ofText text).map fun asset => (asset, library.add asset)

end AssetLibrary

end SpriteStage
