import SpriteStage.Step.Basic
import SpriteStage.Json.Reader
import SpriteStage.Json.Writer

/-!
# Compact steps

Authors write steps as short JSON values:

* `3` or `[3]`, `[3, 2]`, `[3, [2, 5]]`: a frame, with a duration or a range of durations;
* `[[0, 1, 2], 2]`: a group of frames that share one duration;
* `["unique", [4, 5, 6], 2]`: one of several frames;
* `"loop"` and `["link", "walk"]`: the redirections.

A duration that is missing or absent is one. Items after the last one that a form uses are ignored.
-/

set_option autoImplicit false

namespace SpriteStage

open Json (Value)

/-- Why a JSON value is no compact step. -/
inductive StepFault where
  /-- An array without items. -/
  | empty
  /-- A value that is neither a number, an array nor a known word. -/
  | unsupported (value : Value)
  /-- An array whose first item fits no form. -/
  | unsupportedHead (head : Value)
  /-- A value that is no frame index. -/
  | frameIndex (value : Value)
  /-- A link without a name. -/
  | missingTarget
  /-- A choice without a list. -/
  | missingChoices
  /-- A range whose bounds are not natural numbers of 32 bits. -/
  | rangeBounds
  /-- A value that is no duration. -/
  | unsupportedDuration (value : Value)

/-- The text of the fault. -/
def StepFault.message : StepFault → String
  | .empty => "empty animation step"
  | .unsupported value => "unsupported animation step " ++ value.text
  | .unsupportedHead head => "unsupported animation step head " ++ head.text
  | .frameIndex value => "invalid frame index " ++ value.text
  | .missingTarget => "link step needs a target animation name"
  | .missingChoices => "unique step needs a list of frame choices"
  | .rangeBounds => "range bounds must be non-negative integers"
  | .unsupportedDuration value => "unsupported duration " ++ value.text

namespace FrameDuration

/-- The duration that an item of a compact step denotes; it may be missing. -/
def ofJson : Option Value → Except StepFault FrameDuration
  | none => .ok single
  | some .null => .ok single
  | some (.number n) => .ok (.fixed (Single.ofDouble n.toDouble))
  | some (.array [least, greatest]) =>
    match least.word?, greatest.word? with
    | some least, some greatest => .ok (.range least greatest)
    | _, _ => .error .rangeBounds
  | some other => .error (.unsupportedDuration other)

/-- The compact form of a duration. A whole count is written as an integer, clamped to 64 bits. -/
def toJson : FrameDuration → Value
  | .fixed count =>
    match Single.toInt? count with
    | some n => .number (.ofInt n)
    | none => if count.isFinite then .number (.real (Single.toDouble count)) else .null
  | .range least greatest =>
    .array [.ofNatural least.toUInt64, .ofNatural greatest.toUInt64]

end FrameDuration

namespace AuthoredStep

/-- The frame index that a value denotes. -/
def frameIndex (v : Value) : Except StepFault UInt64 :=
  match v.natural? with
  | some n => .ok n
  | none => .error (.frameIndex v)

/-- The frame indices that values denote; the first that denotes none is the fault. -/
def frameIndices : List Value → Except StepFault (List UInt64)
  | [] => .ok []
  | v :: rest => do
    let index ← frameIndex v
    return index :: (← frameIndices rest)

/-- The step that the items of an array denote. -/
def ofItems : List Value → Except StepFault AuthoredStep
  | [] => .error .empty
  | .string "link" :: rest =>
    match rest with
    | .string target :: _ => .ok (.link target)
    | _ => .error .missingTarget
  | .string "unique" :: rest =>
    match rest with
    | .array choices :: rest => do
      let choices ← frameIndices choices
      return .unique choices (← FrameDuration.ofJson rest.head?)
    | _ => .error .missingChoices
  | .array frames :: rest => do
    let frames ← frameIndices frames
    return .group frames (← FrameDuration.ofJson rest.head?)
  | .number n :: rest => do
    let index ← frameIndex (.number n)
    return .frame index (← FrameDuration.ofJson rest.head?)
  | head :: _ => .error (.unsupportedHead head)

/-- The step that a compact JSON value denotes. -/
def ofJson : Value → Except StepFault AuthoredStep
  | .number n => do return .frame (← frameIndex (.number n)) .single
  | .string "loop" => .ok .loop
  | .array items => ofItems items
  | other => .error (.unsupported other)

/-- The steps that compact JSON values denote; the first that denotes none is the fault. -/
def listOfJson : List Value → Except StepFault (List AuthoredStep)
  | [] => .ok []
  | v :: rest => do
    let step ← ofJson v
    return step :: (← listOfJson rest)

/-- The compact form of a step. -/
def toJson : AuthoredStep → Value
  | .frame index duration => .array [.ofNatural index, duration.toJson]
  | .group frames duration => .array [.array (frames.map .ofNatural), duration.toJson]
  | .loop => .string "loop"
  | .link target => .array [.string "link", .string target]
  | .unique choices duration =>
    .array [.string "unique", .array (choices.map .ofNatural), duration.toJson]

/-- The compact text of a step. -/
def write (s : AuthoredStep) : List Char := s.toJson.write

/-- Reads a compact step. -/
def read (nesting : Nat) : Json.Reader StepFault AuthoredStep := do
  match ofJson (← Json.Reader.value nesting) with
  | .ok step => return step
  | .error fault => Json.Reader.refuse fault

end AuthoredStep

end SpriteStage
