import SpriteStage.Scene.Play
import SpriteStage.Proofs.Single.Encoding
import SpriteStage.Proofs.Single.Order
import SpriteStage.Proofs.Scene.Clock
import SpriteStage.Proofs.Scene.Delivery
import SpriteStage.Proofs.Single.Whole
import SpriteStage.Proofs.Actor.Sound
import SpriteStage.Proofs.Animator.Leftover
import SpriteStage.Proofs.Animator.Reachable
import SpriteStage.Proofs.Animator.Split
import SpriteStage.Proofs.Actor.Origin
import SpriteStage.Proofs.Scene.Outline
import SpriteStage.Proofs.Scene.Replay
import SpriteStage.Proofs.Single.Bounds
import SpriteStage.Proofs.Animator.Consistent
import SpriteStage.Proofs.Scene.Isolation
import SpriteStage.Proofs.Actor.Unchanged
import SpriteStage.Proofs.Scene.Unchanged
import SpriteStage.Proofs.Animator.Walk
import SpriteStage.Proofs.Animator.Moves
import SpriteStage.Proofs.Animator.Picks
import SpriteStage.Proofs.Animator.Reel
import SpriteStage.Proofs.Animator.Timing
import SpriteStage.Proofs.Single.Magnitude
import SpriteStage.Proofs.Actor.Screen
import SpriteStage.Proofs.Coordinate
import SpriteStage.Proofs.Actor.Steps
import SpriteStage.Proofs.Scene.Commands
import SpriteStage.Proofs.Sorting
import SpriteStage.Proofs.Scene.DrawingOrder
import SpriteStage.Proofs.Actor.Channels
import SpriteStage.Proofs.Actor.Settled
import SpriteStage.Proofs.Scene.Settled
import SpriteStage.Proofs.Json.Literal
import SpriteStage.Proofs.Json.Quoted
import SpriteStage.Proofs.Json.Numeral
import SpriteStage.Proofs.Json.Reads
import SpriteStage.Proofs.Scene.Saved
import SpriteStage.Proofs.Animator.Endless
import SpriteStage.Proofs.Animator.Story
import SpriteStage.Proofs.Scene.EventOrder
import SpriteStage.Proofs.Single.Widening
import SpriteStage.Proofs.Step.Compact
import SpriteStage.Proofs.Motion.Landing
import SpriteStage.Proofs.Scene.MoveEvents
import SpriteStage.Proofs.Scene.Placement
import SpriteStage.Proofs.Single.Overflow
import SpriteStage.Proofs.Single.Turn
import SpriteStage.Proofs.Motion.Durations
import SpriteStage.Proofs.Animator.Holds
import SpriteStage.Proofs.Actor.Timers
import SpriteStage.Proofs.Animation.Flattening
import SpriteStage.Proofs.Animation.WholeSet
import SpriteStage.Proofs.ByteOrder
import SpriteStage.Proofs.Actor.Reset
import SpriteStage.Proofs.Actor.Failure
import SpriteStage.Proofs.Single.Narrowing
import SpriteStage.Proofs.Step.Grammar
import SpriteStage.Proofs.Sheet
import SpriteStage.Proofs.Scene.Rendering
import SpriteStage.Proofs.Rational
import SpriteStage.Proofs.Easing.Families
import SpriteStage.Proofs.Motion.ShortestTurn
import SpriteStage.Proofs.Mixing
import SpriteStage.Proofs.SheetHistory
