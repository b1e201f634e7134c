import SpriteStage.Scene.Data
import SpriteStage.Scene.Frame

/-!
# Scenes

A scene has a cast of actors, a timeline of what is done to them, and an order in which they are
drawn. In one tick every event that is due is applied before any actor gets its time, so an
animation that an event starts already gets the time of that tick. An event or an actor that fails
is reported and logged; it never keeps the others from going on.
-/

set_option autoImplicit false

namespace SpriteStage

/-- Actors on a stage, and what happens to them. -/
structure Scene where
  /-- The width in pixels. -/
  width : UInt32
  /-- The height in pixels. -/
  height : UInt32
  /-- How the actors are ordered. -/
  options : SceneOptions
  /-- Where the actors that are not sorted by depth are drawn. -/
  unsortedLayer : UnsortedLayer
  /-- The actors by name, in the order in which they joined. -/
  actors : Table Actor
  /-- The names of the actors that are kept in the order of their depth. -/
  sorted : List String
  /-- The names of the other actors, in the order in which they joined. -/
  unsorted : List String
  /-- What happens when. -/
  timeline : Timeline
  /-- The frames that can be drawn. -/
  sheet : FrameSheet

/-- Does an action to the actor. -/
def Actor.perform (a : Actor) (action : SceneAction) (sheet : FrameSheet) : Outcome Actor Unit :=
  match action with
  | .place target =>
    let node := { a.node with visible := true, position := target.map .ofSingle }
    { a with node := node, placed := true }.showFrame 0 sheet
  | .unplace => .success { a with node := { a.node with visible := false }, placed := false } ()
  | .animate animation reverse frameTime => a.animate animation reverse frameTime sheet
  | .move target duration speed ease =>
    match MoveOptions.ofFields duration speed ease with
    | .error cause => .failure a cause
    | .ok options => a.moveTo (target.map .ofSingle) options

namespace Scene

/-! ## Building -/

/-- Adds one hidden actor for each asset that is named. -/
def cast (library : AssetLibrary) (config : Config) :
    List String → Table Actor → Except SceneError (Table Actor)
  | [], actors => .ok actors
  | pixel :: rest, actors =>
    match library.get? pixel with
    | none => .error (.unknownAsset pixel)
    | some asset =>
      if actors.contains asset.name then .error (.duplicateActor asset.name)
      else
        cast library config rest
          (actors.insert asset.name (.create asset { visible := false } config))

/-- Whether an actor is sorted by depth. -/
def isSorted (options : SceneOptions) (name : String) : Bool :=
  options.sortY && !options.noSort.contains name

/-- What is logged about the names that options give. -/
def optionsLog (options : SceneOptions) (actors : Table Actor) : List LogLine :=
  (options.noSort.filter fun name => !actors.contains name).map fun name =>
    .warning s!"noSort names unknown actor '{name}'"

/-- Builds a scene: the cast first, then the timeline. With it comes what was logged. -/
def create (data : SceneData) (library : AssetLibrary) (sheet : FrameSheet) (config : SceneConfig) :
    List LogLine × Except SceneError Scene :=
  match cast library config.actor data.pixels .empty with
  | .error e => ([], .error e)
  | .ok actors =>
    (optionsLog data.options actors,
      (Timeline.create data.timeline).map fun timeline =>
        { width := data.width
          height := data.height
          options := data.options
          unsortedLayer := config.unsortedLayer
          actors := actors
          sorted := actors.names.filter (isSorted data.options)
          unsorted := actors.names.filter fun name => !isSorted data.options name
          timeline := timeline
          sheet := sheet })

/-- Reads and builds a scene. -/
def ofText (text : String) (library : AssetLibrary) (sheet : FrameSheet) (config : SceneConfig) :
    List LogLine × Except SceneError Scene :=
  match SceneData.ofText? text with
  | .error _ => ([], .error .unreadable)
  | .ok data => create data library sheet config

/-! ## Drawing -/

/-- The names of the actors in the order in which they are drawn, the last in front. -/
def renderOrder (s : Scene) : List String :=
  match s.unsortedLayer with
  | .below => s.unsorted ++ s.sorted
  | .above => s.sorted ++ s.unsorted

/-- Adds the frames of each actor to the sheet. The answer is the number of frames added. -/
def renderSheet (s : Scene) (force : Bool) : Nat × Scene :=
  let (count, sheet) := s.actors.values.foldl
    (fun (count, sheet) actor =>
      let (added, sheet) := actor.render sheet force
      (count + added, sheet))
    (0, s.sheet)
  (count, { s with sheet := sheet })

/-- The rank of the depth of an actor: the lower on the stage, the nearer. -/
def depth (s : Scene) (name : String) : Int :=
  (s.actors.get? name).elim 0 fun actor => actor.node.position.y.rank

/-- Whether an actor may be drawn before another. -/
def isBehind (s : Scene) (a b : String) : Bool := decide (s.depth a ≤ s.depth b)

/-- Whether names are in the order of their depth. -/
def inDepthOrder (s : Scene) : List String → Bool
  | a :: b :: rest => s.isBehind a b && inDepthOrder s (b :: rest)
  | _ => true

/-- Brings the sorted actors into the order of their depth, where actors of one depth stay as they
are. The answer says whether the order changed. -/
def sortDepth (s : Scene) : Bool × Scene :=
  if s.inDepthOrder s.sorted then (false, s)
  else (true, { s with sorted := s.sorted.mergeSort s.isBehind })

/-! ## Events -/

/-- Does an action to a named actor. -/
def apply (s : Scene) (sprite : String) (action : SceneAction) :
    Scene × List LogLine × Except SceneError (List Signal) :=
  match s.actors.get? sprite with
  | none => (s, [], .error (.unknownActor sprite))
  | some actor =>
    let o := actor.perform action s.sheet
    ({ s with actors := s.actors.modify sprite fun _ => o.state }, o.log,
      (o.result.map fun _ => o.signals).mapError (.animation sprite))

/-- Applies events one after the other. -/
def applyEvents : List (TimelineEntry × Nat) → Scene → List EventReport × Scene
  | [], s => ([], s)
  | (entry, index) :: rest, s =>
    let (s, log, result) := s.apply entry.sprite entry.action
    let (reports, s) := applyEvents rest s
    (⟨entry, index, result, log⟩ :: reports, s)

/-! ## Time -/

/-- The ticks of all actors. -/
def actorReports (s : Scene) (elapsed : Float32) : List ActorReport :=
  s.actors.entries.map fun e => ⟨e.1, e.2.tick elapsed s.sheet⟩

/-- Lets time pass for each actor. -/
def tickActors (s : Scene) (elapsed : Float32) : Scene :=
  { s with actors := s.actors.mapWithName fun _ actor => (actor.tick elapsed s.sheet).state }

/-- Lets time pass. With the frame comes what was logged. -/
def tick (s : Scene) (elapsed : Float32) : Scene × List LogLine × SceneFrame :=
  let time := clampElapsed elapsed
  let (events, s) :=
    applyEvents (s.timeline.wait time).due { s with timeline := s.timeline.advance time }
  let actors := s.actorReports time
  let s := s.tickActors time
  let (reordered, s) := if s.options.sortY then s.sortDepth else (false, s)
  (s, elapsedLog elapsed ++ events.flatMap EventReport.lines ++ actors.flatMap ActorReport.lines,
    .ofReports s.timeline.elapsed reordered events actors)

/-- Goes back to the start: every actor is hidden, idle and off the stage, and draws the same random
numbers again. -/
def restart (s : Scene) : Scene :=
  { s with
    timeline := s.timeline.rewind
    actors := s.actors.mapWithName fun _ actor =>
      let actor := actor.reset
      { actor with node := { actor.node with visible := false } } }

end Scene

end SpriteStage
