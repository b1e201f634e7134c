import SpriteStage.Table

/-!
# Render sheets

A sheet holds the frames that can be drawn, each under a key and with a texture of its own. Drawing
them is the host's work; the sheet keeps their sizes and gives out the textures. A key that is added
again keeps its texture and takes the new size.
-/

set_option autoImplicit false

namespace SpriteStage

/-- The handle of a texture. -/
structure TextureId where
  /-- The number of the texture. -/
  number : UInt32
deriving DecidableEq, Repr

/-- Gives out textures one after the other. After the last number comes zero again. -/
structure TextureAllocator where
  /-- The number of the next texture. -/
  next : UInt32 := 0
deriving DecidableEq, Repr

/-- Gives out a texture. -/
def TextureAllocator.allocate (t : TextureAllocator) : TextureId × TextureAllocator :=
  (⟨t.next⟩, ⟨t.next + 1⟩)

/-- A width and a height in pixels. -/
structure Size where
  /-- The width. -/
  width : UInt32
  /-- The height. -/
  height : UInt32
deriving DecidableEq, Repr

/-- A frame of a sheet. -/
structure SheetEntry where
  /-- The texture of the frame. -/
  texture : TextureId
  /-- The size of the frame. -/
  size : Size
deriving DecidableEq, Repr

/-- The key of a frame of an asset. -/
def frameKey (asset : String) (index : Nat) : String := s!"{asset}-{index}"

/-- The frames that can be drawn, by key. -/
structure FrameSheet where
  /-- The source of textures. -/
  allocator : TextureAllocator := {}
  /-- The frames. -/
  entries : Table SheetEntry := .empty

namespace FrameSheet

/-- The frame under a key. -/
def entry? (s : FrameSheet) (key : String) : Option SheetEntry := s.entries.get? key

/-- The texture of the frame under a key. -/
def texture? (s : FrameSheet) (key : String) : Option TextureId := (s.entry? key).map (·.texture)

/-- Whether there is a frame under the key. -/
def contains (s : FrameSheet) (key : String) : Bool := (s.entry? key).isSome

/-- The number of frames. -/
def size (s : FrameSheet) : Nat := s.entries.size

/-- Whether there is no frame. -/
def isEmpty (s : FrameSheet) : Bool := s.entries.isEmpty

/-- Adds a frame of the given size. -/
def add (s : FrameSheet) (key : String) (size : Size) : FrameSheet :=
  match s.texture? key with
  | some texture => { s with entries := s.entries.insert key ⟨texture, size⟩ }
  | none =>
    let (texture, allocator) := s.allocator.allocate
    { allocator := allocator, entries := s.entries.insert key ⟨texture, size⟩ }

/-- Drops every frame and starts textures anew. -/
def clear (_ : FrameSheet) : FrameSheet := {}

end FrameSheet

end SpriteStage
