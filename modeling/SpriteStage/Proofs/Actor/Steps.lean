import SpriteStage.Proofs.Actor.Origin
import SpriteStage.Proofs.Actor.Screen

/-!
# Steps of an actor

All that a host can do to an actor: the commands, writing a part of the node, and saying whether the
actor is on the stage. A step answers like any operation, with signals and with success or failure.
A property that every step keeps, with whatever sheet, is one that the actions of a scene keep as
well (`Kept.perform`), for these are made of steps.
-/

set_option autoImplicit false

namespace SpriteStage

/-- A part of a node, with what is written there. -/
inductive NodeWrite where
  /-- The place. -/
  | position (place : Point Coordinate)
  /-- The angle. -/
  | rotation (angle : Float32)
  /-- The scale. -/
  | scale (factors : Point Float32)
  /-- Whether the sprite is drawn. -/
  | visible (drawn : Bool)
  /-- The key of the frame that is shown, and its texture. -/
  | texture (key : Option String) (texture : Option TextureId)

/-- The node after a part was written. -/
def SpriteNode.written (node : SpriteNode) : NodeWrite → SpriteNode
  | .position place => { node with position := place }
  | .rotation angle => { node with rotation := angle }
  | .scale factors => { node with scale := factors }
  | .visible drawn => { node with visible := drawn }
  | .texture key texture => { node with textureKey := key, texture := texture }

/-- What a host can do to an actor. -/
inductive ActorStep where
  /-- Something is asked of the actor. -/
  | command (command : ActorCommand)
  /-- A part of the node is written. -/
  | write (part : NodeWrite)
  /-- The actor is said to be on the stage, or not to be. -/
  | mark (placed : Bool)

namespace Actor

/-- What comes of a command. -/
def answer (a : Actor) (sheet : FrameSheet) : ActorCommand → Outcome Actor Unit
  | .animate name reverse timeScale => a.animate name reverse timeScale sheet
  | .animateManual steps reverse timeScale => a.animateManual steps reverse timeScale sheet
  | .showFrame frame => a.showFrame frame sheet
  | .stop => .success a.stop ()
  | .tick elapsed =>
    let o := a.tick elapsed sheet
    { o with result := o.result.map fun _ => () }
  | .moveTo target options => a.moveTo target options
  | .rotateTo target options => a.rotateTo target options
  | .cancel => .success a.cancel ()
  | .reset => .success a.reset ()

/-- What comes of a step. -/
def take (a : Actor) (sheet : FrameSheet) : ActorStep → Outcome Actor Unit
  | .command command => a.answer sheet command
  | .write part => .success { a with node := a.node.written part } ()
  | .mark placed => .success { a with placed := placed } ()

/-- A property that an actor keeps in every step. -/
def Kept (P : Actor → Prop) : Prop :=
  ∀ (a : Actor) (sheet : FrameSheet) (step : ActorStep), P a → P (a.take sheet step).state

variable {P : Actor → Prop} {a : Actor}

theorem Kept.tick (hkept : Kept P) (h : P a) (elapsed : Float32) (sheet : FrameSheet) :
    P (a.tick elapsed sheet).state := hkept a sheet (.command (.tick elapsed)) h

/-- An action is a few steps. -/
theorem Kept.perform (hkept : Kept P) (h : P a) (action : SceneAction) (sheet : FrameSheet) :
    P (a.perform action sheet).state := by
  cases action with
  | place target =>
      have hvisible := hkept a sheet (.write (.visible true)) h
      have hplace := hkept _ sheet (.write (.position (target.map .ofSingle))) hvisible
      have hmarked := hkept _ sheet (.mark true) hplace
      exact hkept _ sheet (.command (.showFrame 0)) hmarked
  | unplace =>
      have hhidden := hkept a sheet (.write (.visible false)) h
      exact hkept _ sheet (.mark false) hhidden
  | animate animation reverse frameTime =>
      exact hkept a sheet (.command (.animate animation reverse frameTime)) h
  | move target duration speed ease =>
      cases hoptions : MoveOptions.ofFields duration speed ease with
      | error cause =>
          rw [perform_move_of_error hoptions]
          exact h
      | ok options =>
          rw [perform_move_of_ok hoptions]
          exact hkept a sheet (.command (.moveTo (target.map .ofSingle) options)) h

/-- So is what a restart does. -/
theorem Kept.backstage (hkept : Kept P) (h : P a) : P a.backstage := by
  have hreset := hkept a {} (.command .reset) h
  exact hkept _ {} (.write (.visible false)) hreset

end Actor

end SpriteStage
