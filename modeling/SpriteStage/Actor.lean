import SpriteStage.Animator
import SpriteStage.Asset.Library
import SpriteStage.Motion.Channels

/-!
# Actors

An actor is a sprite on the stage: a node that the host draws, an animator and motions. The animator
decides the frame and the motions decide place and angle; neither reads what the other writes. When
a frame is shown, its texture is looked up on the render sheet. A frame that the sheet lacks is
logged, and the node keeps its key without a texture.
-/

set_option autoImplicit false

namespace SpriteStage

/-- A sprite with its animation and its motions. -/
structure Actor where
  /-- The asset whose frames the actor shows. -/
  asset : Asset
  /-- What the host draws. -/
  node : SpriteNode
  /-- The player of the animations. -/
  animator : Animator
  /-- The motions of the node. -/
  motions : Motions
  /-- Whether the actor is on the stage. -/
  placed : Bool := false
  /-- The seed of the random source. -/
  seed : UInt32

namespace Actor

/-- An idle actor that is not on the stage. -/
def create (asset : Asset) (node : SpriteNode) (config : Config) : Actor where
  asset := asset
  node := node
  animator := .create asset.animations config (.forActor config.seed asset.name)
  motions := { defaultEasing := config.defaultEasing }
  seed := config.seed

/-- The name of the actor. -/
def name (a : Actor) : String := a.asset.name

/-- Whether an animation is playing. -/
def isPlaying (a : Actor) : Bool := a.animator.playback.playing

/-! ## Textures -/

/-- Adds frames to a sheet, counting from `start`. -/
def addFrames (asset : Asset) (start : Nat) : List PixelFrame → FrameSheet → FrameSheet
  | [], sheet => sheet
  | frame :: rest, sheet =>
    addFrames asset (start + 1) rest (sheet.add (asset.frameKey start) frame.size)

/-- Adds the frames of the actor to a sheet, unless the sheet has the first of them and nothing
forces it. The answer is the number of frames added. -/
def render (a : Actor) (sheet : FrameSheet) (force : Bool) : Nat × FrameSheet :=
  if !force && sheet.contains (a.asset.frameKey 0) then (0, sheet)
  else (a.asset.frameCount, addFrames a.asset 0 a.asset.frames sheet)

/-- The actor with the texture of a frame. -/
def textured (a : Actor) (frame : UInt64) (sheet : FrameSheet) : Actor :=
  let key := a.asset.frameKey frame.toNat
  { a with node := a.node.withTexture key (sheet.texture? key) }

/-- What is logged when a frame is shown. -/
def textureLog (a : Actor) (frame : UInt64) (sheet : FrameSheet) : List LogLine :=
  let key := a.asset.frameKey frame.toNat
  if (sheet.texture? key).isSome then []
  else [.warning s!"render sheet has no frame '{key}' for actor '{a.name}'"]

/-- The actor after its animator did something; if a frame was shown, its texture follows. -/
def follow {α : Type} (a : Actor) (o : Outcome Animator α) (sheet : FrameSheet) :
    Outcome Actor α :=
  let actor := { a with animator := o.state }
  let shown := if o.signals.any Signal.isFrame then o.state.playback.frame else none
  { state := shown.elim actor fun frame => actor.textured frame sheet
    signals := o.signals
    log := shown.elim [] fun frame => actor.textureLog frame sheet
    result := o.result }

/-! ## Animation -/

/-- The actor after an animation was started: a sprite looks the way it is told to. -/
def started (a : Actor) (o : Outcome Animator Unit) (sheet : FrameSheet) : Outcome Actor Unit :=
  match o.result with
  | .ok () => follow { a with node := a.node.facing o.state.playback.flip } o sheet
  | .error _ => o.embed fun animator => { a with animator := animator }

/-- Starts a named animation; `reverse` mirrors the sprite. -/
def animate (a : Actor) (name : String) (reverse : Bool) (timeScale : Option Float32)
    (sheet : FrameSheet) : Outcome Actor Unit :=
  a.started (a.animator.animate name reverse timeScale) sheet

/-- Starts steps that have no name. -/
def animateManual (a : Actor) (steps : List AuthoredStep) (reverse : Bool)
    (timeScale : Option Float32) (sheet : FrameSheet) : Outcome Actor Unit :=
  a.started (a.animator.animateManual steps reverse timeScale) sheet

/-- Ends the animation; the frame stays on screen. -/
def stop (a : Actor) : Actor := { a with animator := a.animator.stop }

/-- Shows a frame and ends the animation. -/
def showFrame (a : Actor) (frame : UInt64) (sheet : FrameSheet) : Outcome Actor Unit :=
  let actor := { a with animator := a.animator.setFrame frame }
  { state := actor.textured frame sheet
    log := actor.textureLog frame sheet
    result := .ok () }

/-! ## Motion -/

/-- Moves from where the node is to another place. -/
def moveTo (a : Actor) (target : Point Coordinate) (options : MoveOptions) : Outcome Actor Unit :=
  (a.motions.startMove a.node.position target options).embed fun motions =>
    { a with motions := motions }

/-- Turns from where the node looks to another angle. -/
def rotateTo (a : Actor) (target : Float32) (options : MoveOptions) : Outcome Actor Unit :=
  (a.motions.startRotate a.node.rotation target options).embed fun motions =>
    { a with motions := motions }

/-- Stops the motions where they are. -/
def cancel (a : Actor) : Actor := { a with motions := a.motions.cancel }

/-! ## The whole actor -/

/-- Goes back to an idle actor that is not on the stage and draws the same random numbers again; the
node stays as it is. -/
def reset (a : Actor) : Actor :=
  { a with
    animator := a.animator.reset (.forActor a.seed a.asset.name)
    motions := a.motions.cancel
    placed := false }

/-- The actor after time passed for its motions. -/
def moved (o : Outcome Actor Bool) (elapsed : Float32) : Outcome Actor Bool :=
  let t := o.state.motions.tick elapsed o.state.node
  { o with
    state := { o.state with node := t.node, motions := t.motions }
    signals := o.signals ++ t.signals
    result := o.result.map fun changed => changed || t.changed }

/-- Lets time pass for the animation and then for the motions; the answer says whether the sprite
changed. A failing animation does not keep the motions from going on. -/
def tick (a : Actor) (elapsed : Float32) (sheet : FrameSheet) : Outcome Actor Bool :=
  if elapsed.isFinite = false then .failure a (.invalidElapsed elapsed)
  else moved (a.follow (a.animator.tick elapsed) sheet) elapsed

end Actor

end SpriteStage
