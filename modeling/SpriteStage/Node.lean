import SpriteStage.Coordinate
import SpriteStage.Sheet

/-!
# Sprite nodes

The node of a sprite is what the host draws: where, how turned and scaled, with which texture, and
whether at all.
-/

set_option autoImplicit false

namespace SpriteStage

/-- What the host draws of a sprite. -/
structure SpriteNode where
  /-- The place of the sprite. -/
  position : Point Coordinate := ⟨.zero, .zero⟩
  /-- The angle of the sprite in radians. -/
  rotation : Float32 := 0.0
  /-- The scale of the sprite; a negative one mirrors it. -/
  scale : Point Float32 := ⟨1.0, 1.0⟩
  /-- Whether the sprite is drawn. -/
  visible : Bool := true
  /-- The key of the frame that is shown, even if the sheet has none under it. -/
  textureKey : Option String := none
  /-- The texture of the frame that is shown. -/
  texture : Option TextureId := none
deriving DecidableEq

namespace SpriteNode

/-- The node with the frame under a key. -/
def withTexture (n : SpriteNode) (key : String) (texture : Option TextureId) : SpriteNode :=
  { n with textureKey := some key, texture := texture }

/-- The node with the size of its horizontal scale kept and the sign given. -/
def facing (n : SpriteNode) (sign : Float32) : SpriteNode :=
  { n with scale := ⟨n.scale.x.abs * sign, n.scale.y⟩ }

end SpriteNode

end SpriteStage
