import SpriteStage.Json.Record
import SpriteStage.Json.Writer

/-!
# Signals

What an actor reports while it plays: the frames it shows, the redirections it follows, the end of
an animation and the end of a motion. In JSON a signal is an object whose member `kind` says which
it is; reading also takes an array of the kind and the fields.
-/

set_option autoImplicit false

namespace SpriteStage

open Json (Members Reader ReadError Value)

/-- A report of an actor. -/
inductive Signal where
  /-- A frame is shown. -/
  | frame (index : UInt64)
  /-- Playback went back to the first step. -/
  | loop
  /-- Playback went over to another animation. -/
  | link (target : String)
  /-- Playback ran past the last step. -/
  | stop (animation : Option String)
  /-- A motion of the position is at its end. -/
  | moveDone
deriving DecidableEq, Repr

namespace Signal

/-- The name of the kind of signal. -/
def name : Signal → String
  | frame _ => "frame"
  | loop => "loop"
  | link _ => "link"
  | stop _ => "stop"
  | moveDone => "move-done"

/-- Whether a frame is shown. -/
def isFrame : Signal → Bool
  | frame _ => true
  | _ => false

/-- The fields of a signal besides its kind. -/
def members : Signal → Members
  | frame index => [("frame", .ofNatural index)]
  | loop => []
  | link target => [("target", .string target)]
  | stop animation => [("animation", animation.elim .null .string)]
  | moveDone => []

/-- The signal as a JSON value. -/
def toJson (s : Signal) : Value := .object (("kind", .string s.name) :: s.members)

/-- The JSON text of the signal. -/
def text (s : Signal) : String := String.ofList s.toJson.write

/-- The signal of a kind with the given fields; other members are passed over. -/
def ofMembers? (kind : String) (fields : Members) : Option Signal :=
  match kind with
  | "frame" => (fields.required? "frame" Value.natural?).map frame
  | "loop" => some loop
  | "link" => (fields.required? "target" Value.string?).map link
  | "stop" => (fields.defaulted? "animation" none (Value.optional? Value.string?)).map stop
  | "move-done" => some moveDone
  | _ => none

/-- The names of the fields of a kind of signal, in the order of the array form. -/
def fieldNames : (kind : String) → List String
  | "frame" => ["frame"]
  | "link" => ["target"]
  | "stop" => ["animation"]
  | _ => []

/-- The signal that a JSON value denotes. The array form has every field of its kind. -/
def ofJson? : Value → Option Signal
  | .object fields => do
    let kind ← Members.required? fields "kind" Value.string?
    ofMembers? kind (fields.filter (·.1 ≠ "kind"))
  | .array (.string kind :: items) =>
    if items.length = (fieldNames kind).length then ofMembers? kind ((fieldNames kind).zip items)
    else none
  | _ => none

/-- Reads a signal from the whole of a text. -/
def ofText? (text : String) : Except (ReadError Empty) Signal :=
  Reader.run (do Reader.require (ofJson? (← Reader.value Json.maxNesting))) text

end Signal

end SpriteStage
