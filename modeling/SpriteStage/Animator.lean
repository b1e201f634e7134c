import SpriteStage.Animation
import SpriteStage.Config
import SpriteStage.Outcome

/-!
# Playback of animations

An animator plays the animations of a set. Time is handed to it; it shows the frames that are due.
Redirections take no time: the step they lead to gets the time that is left over, so frames do not
drift when an animation repeats.

Two budgets bound the work of one tick, whatever the steps are: how many redirections may lead to
one frame, and how many frames one tick may show. `resolveStep` is a single move of the cursor's
step, `resolveWithin` follows redirections within the first budget, and `advanceWithin` shows
frames within the second.
-/

set_option autoImplicit false

namespace SpriteStage

/-- What an animator is playing. -/
structure Playback where
  /-- The steps that are played, or were played last. -/
  steps : Option Sequence := none
  /-- The index of the current step. -/
  cursor : Nat := 0
  /-- The time left for the current frame. The next step is due when none is left. -/
  countdown : Float32 := 0.0
  /-- Whether time moves the animator. -/
  playing : Bool := false
  /-- The name of the animation that is playing; there is none for ad hoc steps. -/
  animation : Option String := none
  /-- The frame that was picked last out of several, in any animation. -/
  lastPick : Option UInt64 := none
  /-- Whether the sprite looks the other way. -/
  mirrored : Bool := false
  /-- The milliseconds of one duration unit. -/
  timeScale : Float32 := 0.0
  /-- The frame on screen. -/
  frame : Option UInt64 := none
deriving DecidableEq

namespace Playback

/-- The name under which ad hoc steps appear in errors. -/
def manualLabel : String := "<manual>"

/-- The name of what is playing, as errors give it. -/
def label (p : Playback) : String := p.animation.getD manualLabel

/-- The sign of the horizontal scale. -/
def flip (p : Playback) : Float32 := if p.mirrored then -1.0 else 1.0

/-- Ends playback; the frame stays on screen. -/
def stop (p : Playback) : Playback := { p with playing := false, animation := none }

/-- The step under the cursor. -/
def step? (p : Playback) : Option AnimationStep := p.steps.bind fun steps => steps[p.cursor]?

/-- The number of steps that are played. -/
def length (p : Playback) : Nat := p.steps.elim 0 List.length

/-- Puts a frame on screen for some time. -/
def showing (p : Playback) (frame : UInt64) (countdown : Float32) : Playback :=
  { p with frame := some frame, countdown := countdown }

/-- Goes back to the first step. -/
def rewound (p : Playback) : Playback := { p with cursor := 0 }

/-- Goes to the first step of a named animation. -/
def switched (p : Playback) (name : String) (steps : Sequence) : Playback :=
  { p with steps := some steps, cursor := 0, animation := some name }

end Playback

/-- A player of animations. -/
structure Animator where
  /-- The animations that can be played by name. -/
  animations : AnimationSet
  /-- What is playing. -/
  playback : Playback := {}
  /-- The source of ranged durations and picked frames. -/
  random : Random
  /-- The time scale of an animation that is started without one. -/
  frameTime : Float32
  /-- How many redirections may lead to one frame. -/
  maxRedirects : Nat
  /-- How many frames one tick may show. -/
  maxFramesPerTick : Nat

/-- What the step under the cursor does. -/
inductive Resolution where
  /-- A frame is shown. -/
  | shown (animator : Animator) (frame : UInt64)
  /-- The cursor is at another step. -/
  | redirected (animator : Animator) (signal : Signal)
  /-- There is no step to go to. -/
  | failed (cause : AnimationError)

namespace Animator

/-- An idle animator. -/
def create (animations : AnimationSet) (config : Config) (random : Random) : Animator where
  animations := animations
  random := random
  frameTime := config.frameTime
  maxRedirects := config.maxRedirects.toNat
  maxFramesPerTick := config.maxFramesPerTick.toNat

/-- Ends playback; the frame stays on screen. -/
def stop (a : Animator) : Animator := { a with playback := a.playback.stop }

/-- Forgets all playback and goes on with another random source. -/
def reset (a : Animator) (random : Random) : Animator :=
  { a with playback := {}, random := random }

/-- Puts a frame on screen and ends playback; the cursor stays where it is. -/
def setFrame (a : Animator) (frame : UInt64) : Animator :=
  { a with playback := { a.playback.stop with frame := some frame } }

/-! ## Steps -/

/-- The choices that may follow the frame that was picked last. -/
def allowed (last : Option UInt64) (choices : List UInt64) : List UInt64 :=
  choices.filter fun c => some c ≠ last

/-- The frames of which one is picked: those that may follow the last pick or, if there are none, all
the choices. -/
def candidates (a : Animator) (choices : List UInt64) : List UInt64 :=
  let fresh := allowed a.playback.lastPick choices
  if fresh = [] then choices else fresh

/-- Picks one of several frames. -/
def pick (a : Animator) (choices : List UInt64) : UInt64 × Animator :=
  let candidates := a.candidates choices
  let (i, random) := a.random.index candidates.length
  let frame := (candidates[i]?).getD (choices.headD 0)
  (frame, { a with random := random, playback := { a.playback with lastPick := some frame } })

/-- Shows a frame for its duration and the time that is left over. -/
def display (a : Animator) (frame : UInt64) (duration : FrameDuration) (leftover : Float32) :
    Animator :=
  let (count, random) := duration.draw a.random
  { a with
    random := random
    playback := a.playback.showing frame (count * a.playback.timeScale + leftover) }

/-- Does what the step under the cursor says. -/
def resolveStep (a : Animator) (leftover : Float32) : Resolution :=
  match a.playback.step? with
  | none => .failed (.emptyAnimation a.playback.label)
  | some (.frame index duration) => .shown (a.display index duration leftover) index
  | some (.unique choices duration) =>
    let (frame, a) := a.pick choices
    .shown (a.display frame duration leftover) frame
  | some .loop => .redirected { a with playback := a.playback.rewound } .loop
  | some (.link target) =>
    match a.animations.get? target with
    | none => .failed (.unknownAnimation target)
    | some steps =>
      .redirected { a with playback := a.playback.switched target steps } (.link target)

/-- Follows redirections, as many as the budget allows, up to the next frame. -/
def resolveWithin (leftover : Float32) (budget : Nat) (a : Animator) : Outcome Animator Unit :=
  match a.resolveStep leftover with
  | .shown b frame => { state := b, signals := [.frame frame], result := .ok () }
  | .failed cause => .failure a cause
  | .redirected b signal =>
    match budget with
    | 0 =>
      { state := b
        signals := [signal]
        result := .error (.degenerateCycle b.playback.label (b.maxRedirects + 1)) }
    | budget + 1 => (resolveWithin leftover budget b).after [signal]

/-- Finds the frame that is due, with the redirections that the animator allows. -/
def resolve (a : Animator) (leftover : Float32) : Outcome Animator Unit :=
  a.resolveWithin leftover a.maxRedirects

/-- The same outcome, where a failure ends playback. -/
def stopOnFailure {α : Type} (o : Outcome Animator α) : Outcome Animator α :=
  match o.result with
  | .ok _ => o
  | .error _ => { o with state := o.state.stop }

/-! ## Starting -/

/-- Starts steps at the first of them, whose frame is shown before any time passes. -/
def launch (a : Animator) (steps : Sequence) (animation : Option String) (reverse : Bool)
    (timeScale : Float32) : Outcome Animator Unit :=
  if timeScale.isFinite = false ∨ timeScale ≤ 0.0 then
    .failure a.stop (.invalidTimeScale timeScale)
  else if steps = [] then
    .failure a.stop (.emptyAnimation (animation.getD Playback.manualLabel))
  else
    let started : Playback :=
      { a.playback with
        steps := some steps
        cursor := 0
        animation := animation
        mirrored := reverse
        timeScale := timeScale
        playing := true }
    stopOnFailure (resolve { a with playback := started } 0.0)

/-- Starts a named animation; without a name that the set knows, the animator is idle. -/
def animate (a : Animator) (name : String) (reverse : Bool) (timeScale : Option Float32) :
    Outcome Animator Unit :=
  match a.animations.get? name with
  | none => .failure a.stop (.unknownAnimation name)
  | some steps => a.launch steps (some name) reverse (timeScale.getD a.frameTime)

/-- Starts compiled steps that have no name. -/
def start (a : Animator) (steps : Sequence) (reverse : Bool) (timeScale : Float32) :
    Outcome Animator Unit :=
  a.launch steps none reverse timeScale

/-- Compiles and starts steps that have no name. Their links lead to animations of the set. -/
def animateManual (a : Animator) (steps : List AuthoredStep) (reverse : Bool)
    (timeScale : Option Float32) : Outcome Animator Unit :=
  match compileAnimation Playback.manualLabel steps with
  | .error cause => .failure a.stop cause
  | .ok compiled => a.launch compiled none reverse (timeScale.getD a.frameTime)

/-! ## Ticking -/

/-- Moves the cursor to the next step. -/
def advanced (a : Animator) : Animator :=
  { a with playback := { a.playback with cursor := a.playback.cursor + 1 } }

/-- Takes time off the countdown. -/
def elapse (a : Animator) (elapsed : Float32) : Animator :=
  { a with playback := { a.playback with countdown := a.playback.countdown - elapsed } }

/-- Shows the frames that are due, as many as the budget allows, after `shown` frames of the same
tick. A frame that leaves the countdown where it was would never end, and is refused too. -/
def advanceWithin (shown budget : Nat) (a : Animator) : Outcome Animator Bool :=
  if a.playback.countdown ≤ 0.0 then
    let next := a.advanced
    if next.playback.length ≤ next.playback.cursor then
      { state := next.stop
        signals := [.stop next.playback.animation]
        result := .ok (decide (0 < shown)) }
    else
      let leftover := next.playback.countdown
      let o := next.resolve leftover
      match o.result with
      | .error cause => { state := o.state.stop, signals := o.signals, result := .error cause }
      | .ok () =>
        let refused : Outcome Animator Bool :=
          { state := o.state.stop
            signals := o.signals
            result := .error (.degenerateCycle o.state.playback.label (shown + 1)) }
        if o.state.playback.countdown ≤ leftover then refused
        else
          match budget with
          | 0 => refused
          | budget + 1 => (advanceWithin (shown + 1) budget o.state).after o.signals
  else .success a (decide (0 < shown))

/-- Lets time pass; the answer says whether another frame is on screen. Running past the last step
ends playback, and a failure leaves the animator idle. -/
def tick (a : Animator) (elapsed : Float32) : Outcome Animator Bool :=
  if elapsed.isFinite = false then .failure a (.invalidElapsed elapsed)
  else if a.playback.playing = false then .success a false
  else (a.elapse elapsed).advanceWithin 0 a.maxFramesPerTick

end Animator

end SpriteStage
