import SpriteStage.Motion.Angle
import SpriteStage.Motion.Tween
import SpriteStage.Outcome

/-!
# Motions of a sprite

A sprite moves on two channels that do not know of each other: its position and its rotation. A new
motion takes the place of the one that is under way on its channel; one that cannot start leaves the
channel at rest. Only the end of a motion of the position is signalled.
-/

set_option autoImplicit false

namespace SpriteStage

/-- The motions of a sprite. -/
structure Motions where
  /-- The motion of the position. -/
  position : Option (Tween (Point Coordinate)) := none
  /-- The motion of the rotation. -/
  rotation : Option (Tween Float32) := none
  /-- The easing of a motion that names none. -/
  defaultEasing : Easing := .linear
deriving DecidableEq

/-- What one tick does to a moving sprite. -/
structure MotionTick where
  /-- The motions that go on. -/
  motions : Motions
  /-- The node with the new values. -/
  node : SpriteNode
  /-- What is signalled. -/
  signals : List Signal
  /-- Whether a value was written. -/
  changed : Bool

namespace Motions

/-- The motion that options ask for, over a distance. -/
def tween {V : Type} (m : Motions) (origin delta target : V) (distance : Float32)
    (options : MoveOptions) : Except AnimationError (Tween V) :=
  match options.timing.check with
  | .error fault => .error (.invalidTween fault)
  | .ok () =>
    .ok
      { origin := origin
        delta := delta
        target := target
        duration := options.timing.span distance
        easing := options.easing.getD m.defaultEasing }

/-- The distance of a motion of the position: that of the axis with the longer way. -/
def longerWay (delta : Point Coordinate) : Float32 :=
  Single.larger (Scalar.magnitude delta.x.value) (Scalar.magnitude delta.y.value)

/-- Starts a motion of the position. -/
def startMove (m : Motions) (origin target : Point Coordinate) (options : MoveOptions) :
    Outcome Motions Unit :=
  let delta := target - origin
  match m.tween origin delta target (longerWay delta) options with
  | .error cause => .failure { m with position := none } cause
  | .ok tween => .success { m with position := some tween } ()

/-- Starts a rotation along the shorter side of the circle. -/
def startRotate (m : Motions) (current target : Float32) (options : MoveOptions) :
    Outcome Motions Unit :=
  let turn := shortestTurn Single.pi current target
  match m.tween current turn target (Scalar.magnitude turn) options with
  | .error cause => .failure { m with rotation := none } cause
  | .ok tween => .success { m with rotation := some tween } ()

/-- Stops both channels where they are. -/
def cancel (m : Motions) : Motions := { m with position := none, rotation := none }

/-- Lets time pass on both channels and writes their values to the node. -/
def tick (m : Motions) (elapsed : Float32) (node : SpriteNode) : MotionTick :=
  let position := m.position.map (·.advance elapsed)
  let rotation := m.rotation.map (·.advance elapsed)
  { motions :=
      { m with
        position := position.bind Tween.unfinished?
        rotation := rotation.bind Tween.unfinished? }
    node :=
      { node with
        position := position.elim node.position Tween.value
        rotation := rotation.elim node.rotation Tween.value }
    signals := if position.any Tween.isDone then [.moveDone] else []
    changed := position.isSome || rotation.isSome }

end Motions

end SpriteStage
