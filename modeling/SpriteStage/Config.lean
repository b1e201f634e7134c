import SpriteStage.Easing.Basic
import SpriteStage.Json.Record

/-!
# Configuration

The settings of an actor's playback, and those of a scene. Every setting has a default, and a text
needs to give only the others.
-/

set_option autoImplicit false

namespace SpriteStage

open Json (Field Reader ReadError)

/-- How an actor plays. -/
structure Config where
  /-- The milliseconds of one duration unit, where an animation is started without its own. -/
  frameTime : Float32 := 150.0
  /-- How many redirections in a row may lead to one frame. -/
  maxRedirects : UInt64 := 64
  /-- How many frames one tick may show. -/
  maxFramesPerTick : UInt64 := 4096
  /-- The seed from which the random source of each actor is made. -/
  seed : UInt32 := 0x9E3779B9
  /-- The easing of motions that name none. -/
  defaultEasing : Easing := .linear
deriving DecidableEq

/-- Reads the exact name of an easing. -/
def Easing.read {ε : Type} : Reader ε Easing := Reader.choice Easing.ofExactName?

namespace Config

/-- The settings that a text has given so far. -/
structure Draft where
  /-- The milliseconds of one duration unit. -/
  frameTime : Option Float32 := none
  /-- How many redirections in a row may lead to one frame. -/
  maxRedirects : Option UInt64 := none
  /-- How many frames one tick may show. -/
  maxFramesPerTick : Option UInt64 := none
  /-- The seed of the random sources. -/
  seed : Option UInt32 := none
  /-- The easing of motions that name none. -/
  defaultEasing : Option Easing := none

/-- The configuration of a draft, with defaults for what it lacks. -/
def Draft.complete (d : Draft) : Config where
  frameTime := d.frameTime.getD 150.0
  maxRedirects := d.maxRedirects.getD 64
  maxFramesPerTick := d.maxFramesPerTick.getD 4096
  seed := d.seed.getD 0x9E3779B9
  defaultEasing := d.defaultEasing.getD .linear

/-- The fields of a configuration. -/
def fields {ε : Type} : List (Field ε Draft) :=
  [.of "frame_time_ms" (fun _ => Reader.single) (·.frameTime) ({ · with frameTime := some · }),
    .of "max_redirects" (fun _ => Reader.natural) (·.maxRedirects)
      ({ · with maxRedirects := some · }),
    .of "max_frames_per_tick" (fun _ => Reader.natural) (·.maxFramesPerTick)
      ({ · with maxFramesPerTick := some · }),
    .of "seed" (fun _ => Reader.word) (·.seed) ({ · with seed := some · }),
    .of "default_easing" (fun _ => Easing.read) (·.defaultEasing)
      ({ · with defaultEasing := some · })]

/-- Reads a configuration. -/
def read {ε : Type} (nesting : Nat) : Reader ε Config :=
  return (← Json.Record.read fields {} nesting).complete

/-- Reads a configuration from the whole of a text. -/
def ofText? (text : String) : Except (ReadError Empty) Config :=
  (read Json.maxNesting).run text

end Config

/-- Where the actors that are not sorted by depth are drawn. -/
inductive UnsortedLayer where
  /-- Behind the sorted ones. -/
  | below
  /-- In front of the sorted ones. -/
  | above
deriving DecidableEq, Repr

namespace UnsortedLayer

/-- The name of the layer. -/
def name : UnsortedLayer → String
  | below => "below"
  | above => "above"

/-- The layer with the given name. -/
def ofName? (name : String) : Option UnsortedLayer :=
  [below, above].find? fun layer => layer.name = name

end UnsortedLayer

/-- How a scene plays. -/
structure SceneConfig where
  /-- How each actor plays. -/
  actor : Config := {}
  /-- Where the actors that are not sorted by depth are drawn. -/
  unsortedLayer : UnsortedLayer := .below
deriving DecidableEq

namespace SceneConfig

/-- The settings that a text has given so far. -/
structure Draft where
  /-- How each actor plays. -/
  actor : Option Config := none
  /-- Where the actors that are not sorted by depth are drawn. -/
  unsortedLayer : Option UnsortedLayer := none

/-- The configuration of a draft, with defaults for what it lacks. -/
def Draft.complete (d : Draft) : SceneConfig where
  actor := d.actor.getD {}
  unsortedLayer := d.unsortedLayer.getD .below

/-- The fields of a scene's configuration. -/
def fields {ε : Type} : List (Field ε Draft) :=
  [.of "actor" Config.read (·.actor) ({ · with actor := some · }),
    .of "unsorted_layer" (fun _ => Reader.choice UnsortedLayer.ofName?) (·.unsortedLayer)
      ({ · with unsortedLayer := some · })]

/-- Reads a scene's configuration. -/
def read {ε : Type} (nesting : Nat) : Reader ε SceneConfig :=
  return (← Json.Record.read fields {} nesting).complete

/-- Reads a scene's configuration from the whole of a text. -/
def ofText? (text : String) : Except (ReadError Empty) SceneConfig :=
  (read Json.maxNesting).run text

end SceneConfig

end SpriteStage
