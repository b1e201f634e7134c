import SpriteStage.Coordinate
import SpriteStage.Json.Record
import SpriteStage.Json.Writer

/-!
# Actions and timeline entries

An action is something a scene does to an actor. An entry of a timeline says when, to which actor,
and what. In JSON an action is an object whose member `type` says which it is, or an array of the
type and the fields; an entry is an object that holds the members of its action beside its own.
-/

set_option autoImplicit false

namespace SpriteStage

open Json (Members Value)

/-- The kinds of action. -/
inductive EventKind where
  | place | unplace | animate | move
deriving DecidableEq, Repr

namespace EventKind

/-- Every kind, in the order of the constructors. -/
def all : List EventKind := [place, unplace, animate, move]

/-- The word for the kind in JSON. -/
def name : EventKind → String
  | place => "place"
  | unplace => "unplace"
  | animate => "animate"
  | move => "move"

/-- The word for the kind in the log. -/
def title : EventKind → String
  | place => "Place"
  | unplace => "Unplace"
  | animate => "Animate"
  | move => "Move"

/-- The kind with the given word. -/
def ofName? (name : String) : Option EventKind := all.find? fun kind => kind.name = name

/-- The kind that a value names. -/
def ofJson? (v : Value) : Option EventKind := v.string?.bind ofName?

/-- The kind that a value names or numbers, as an entry may do. -/
def ofCode? (v : Value) : Option EventKind :=
  match v.natural? with
  | some index => all[index.toNat]?
  | none => ofJson? v

/-- The names of the fields of an action, in the order of the array form. -/
def fieldNames : EventKind → List String
  | place => ["x", "y"]
  | unplace => []
  | animate => ["animate", "reverse", "frameTime"]
  | move => ["x", "y", "duration", "speed", "ease"]

end EventKind

/-- Something that is done to an actor. -/
inductive SceneAction where
  /-- The actor appears at a place. -/
  | place (target : Point Float32)
  /-- The actor disappears. -/
  | unplace
  /-- The actor starts an animation. -/
  | animate (animation : String) (reverse : Bool) (frameTime : Option Float32)
  /-- The actor moves to a place. -/
  | move (target : Point Float32) (duration speed : Option Float32) (ease : Option String)
deriving DecidableEq

namespace SceneAction

/-- The kind of the action. -/
def kind : SceneAction → EventKind
  | place _ => .place
  | unplace => .unplace
  | animate .. => .animate
  | move .. => .move

/-- The place in the members `x` and `y`. -/
def target? (fields : Members) : Option (Point Float32) := do
  return ⟨← fields.required? "x" Value.single?, ← fields.required? "y" Value.single?⟩

/-- The action of a kind with the given fields; other members are passed over. -/
def ofMembers? (kind : EventKind) (fields : Members) : Option SceneAction :=
  match kind with
  | .place => (target? fields).map place
  | .unplace => some unplace
  | .animate => do
    return animate (← fields.required? "animate" Value.string?)
      (← fields.defaulted? "reverse" false Value.bool?)
      (← fields.defaulted? "frameTime" none (Value.optional? Value.single?))
  | .move => do
    return move (← target? fields)
      (← fields.defaulted? "duration" none (Value.optional? Value.single?))
      (← fields.defaulted? "speed" none (Value.optional? Value.single?))
      (← fields.defaulted? "ease" none (Value.optional? Value.string?))

/-- The action that a JSON value denotes. In the array form, fields may be left out at the end. -/
def ofJson? : Value → Option SceneAction
  | .object fields => do
    ofMembers? (← Members.required? fields "type" EventKind.ofJson?) fields
  | .array (kind :: items) => do
    let kind ← EventKind.ofJson? kind
    if items.length ≤ kind.fieldNames.length then ofMembers? kind (kind.fieldNames.zip items)
    else none
  | _ => none

/-- The texts of the fields of an action, absent options left out. -/
def fieldTexts : SceneAction → List (String × List Char)
  | place target => [("x", Decimal.singleText target.x), ("y", Decimal.singleText target.y)]
  | unplace => []
  | animate animation reverse frameTime =>
    [("animate", Json.Quoted.encode animation), ("reverse", Json.boolText reverse)] ++
      (frameTime.map fun x => ("frameTime", Decimal.singleText x)).toList
  | move target duration speed ease =>
    [("x", Decimal.singleText target.x), ("y", Decimal.singleText target.y)] ++
      (duration.map fun x => ("duration", Decimal.singleText x)).toList ++
      (speed.map fun x => ("speed", Decimal.singleText x)).toList ++
      (ease.map fun name => ("ease", Json.Quoted.encode name)).toList

end SceneAction

/-- An action at a time. -/
structure TimelineEntry where
  /-- The time at which the action is due, in milliseconds. -/
  time : Float32
  /-- The name of the actor. -/
  sprite : String
  /-- What is done to the actor. -/
  action : SceneAction
deriving DecidableEq

namespace TimelineEntry

/-- The entry that a JSON value denotes. -/
def ofJson? : Value → Option TimelineEntry
  | .object fields => do
    let kind ← Members.required? fields "type" EventKind.ofCode?
    return {
      time := ← Members.required? fields "time" Value.single?
      sprite := ← Members.required? fields "sprite" Value.string?
      action := ← SceneAction.ofMembers? kind fields }
  | _ => none

/-- The texts of the members of an entry. -/
def fieldTexts (e : TimelineEntry) : List (String × List Char) :=
  [("time", Decimal.singleText e.time), ("sprite", Json.Quoted.encode e.sprite),
    ("type", Json.Quoted.encode e.action.kind.name)] ++ e.action.fieldTexts

end TimelineEntry

end SpriteStage
