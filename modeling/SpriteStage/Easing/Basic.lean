import SpriteStage.Easing.Curve
import SpriteStage.Single

/-!
# Easings

The easings that motions can name, the names themselves, and the progress of a motion under each.
Time outside a motion counts as its nearest end, so every curve is evaluated on the unit interval
only.
-/

set_option autoImplicit false

namespace SpriteStage

/-- The curves that a motion can follow. -/
inductive Easing where
  | linear
  | quadIn | quadOut | quadInOut
  | cubicIn | cubicOut | cubicInOut
  | quartIn | quartOut | quartInOut
  | quintIn | quintOut | quintInOut
  | sineIn | sineOut | sineInOut
  | expoIn | expoOut | expoInOut
  | circIn | circOut | circInOut
  | elasticIn | elasticOut | elasticInOut
  | backIn | backOut | backInOut
  | bounceIn | bounceOut | bounceInOut
deriving DecidableEq, Repr, Inhabited

namespace Easing

/-- Every easing, in the order of the authoring tool. -/
def all : List Easing :=
  [linear, quadIn, quadOut, quadInOut, cubicIn, cubicOut, cubicInOut, quartIn, quartOut, quartInOut,
    quintIn, quintOut, quintInOut, sineIn, sineOut, sineInOut, expoIn, expoOut, expoInOut,
    circIn, circOut, circInOut, elasticIn, elasticOut, elasticInOut, backIn, backOut, backInOut,
    bounceIn, bounceOut, bounceInOut]

/-- The name under which authors know the easing. -/
def name : Easing → String
  | linear => "linear"
  | quadIn => "easeInQuad"
  | quadOut => "easeOutQuad"
  | quadInOut => "easeInOutQuad"
  | cubicIn => "easeInCubic"
  | cubicOut => "easeOutCubic"
  | cubicInOut => "easeInOutCubic"
  | quartIn => "easeInQuart"
  | quartOut => "easeOutQuart"
  | quartInOut => "easeInOutQuart"
  | quintIn => "easeInQuint"
  | quintOut => "easeOutQuint"
  | quintInOut => "easeInOutQuint"
  | sineIn => "easeInSine"
  | sineOut => "easeOutSine"
  | sineInOut => "easeInOutSine"
  | expoIn => "easeInExpo"
  | expoOut => "easeOutExpo"
  | expoInOut => "easeInOutExpo"
  | circIn => "easeInCirc"
  | circOut => "easeOutCirc"
  | circInOut => "easeInOutCirc"
  | elasticIn => "easeInElastic"
  | elasticOut => "easeOutElastic"
  | elasticInOut => "easeInOutElastic"
  | backIn => "easeInBack"
  | backOut => "easeOutBack"
  | backInOut => "easeInOutBack"
  | bounceIn => "easeInBounce"
  | bounceOut => "easeOutBounce"
  | bounceInOut => "easeInOutBounce"

/-- A name in lower case without dashes and underscores; only these letters have a case here. -/
def plainName (name : String) : List Char :=
  (name.toList.filter fun c => c ≠ '-' ∧ c ≠ '_').map Char.toLower

/-- The easing that an author means by a name: case, dashes and underscores do not matter. -/
def ofName? (name : String) : Option Easing :=
  all.find? fun e => plainName e.name = plainName name

/-- The easing whose name is written exactly so. -/
def ofExactName? (name : String) : Option Easing :=
  all.find? fun e => e.name = name

/-- Sine curve, slow at the start. -/
def sineInAt (u : Float32) : Float32 := 1.0 - (u * Single.pi / 2.0).cos

/-- Sine curve, slow at the end. -/
def sineOutAt (u : Float32) : Float32 := (u * Single.pi / 2.0).sin

/-- Sine curve, slow at both ends. -/
def sineInOutAt (u : Float32) : Float32 := -((Single.pi * u).cos - 1.0) / 2.0

/-- A power of two with a fractional exponent. -/
def twoTo (x : Float32) : Float32 := Float32.pow 2.0 x

/-- Exponential curve, slow at the start. -/
def expoInAt (u : Float32) : Float32 := if u == 0.0 then 0.0 else twoTo (10.0 * u - 10.0)

/-- Exponential curve, slow at the end. -/
def expoOutAt (u : Float32) : Float32 := if u == 1.0 then 1.0 else 1.0 - twoTo (-10.0 * u)

/-- Exponential curve, slow at both ends. -/
def expoInOutAt (u : Float32) : Float32 :=
  if u == 0.0 || u == 1.0 then u
  else if u < 0.5 then twoTo (20.0 * u - 10.0) / 2.0
  else (2.0 - twoTo (-20.0 * u + 10.0)) / 2.0

/-- Quarter circle, slow at the start. -/
def circInAt (u : Float32) : Float32 := 1.0 - (1.0 - u * u).sqrt

/-- Quarter circle, slow at the end. -/
def circOutAt (u : Float32) : Float32 := (1.0 - Scalar.square (u - 1.0)).sqrt

/-- Two quarter circles, slow at both ends. -/
def circInOutAt (u : Float32) : Float32 :=
  if u < 0.5 then (1.0 - (1.0 - Scalar.square (2.0 * u)).sqrt) / 2.0
  else ((1.0 - Scalar.square (-2.0 * u + 2.0)).sqrt + 1.0) / 2.0

/-- Swings up before it leaves. -/
def elasticInAt (u : Float32) : Float32 :=
  if u == 0.0 || u == 1.0 then u
  else
    let pulse : Float32 := 2.0 * Single.pi / 3.0
    let height := -twoTo (10.0 * u - 10.0)
    height * ((u * 10.0 - 10.75) * pulse).sin

/-- Swings out after it arrives. -/
def elasticOutAt (u : Float32) : Float32 :=
  if u == 0.0 || u == 1.0 then u
  else
    let pulse : Float32 := 2.0 * Single.pi / 3.0
    twoTo (-10.0 * u) * ((u * 10.0 - 0.75) * pulse).sin + 1.0

/-- Swings at both ends. -/
def elasticInOutAt (u : Float32) : Float32 :=
  if u == 0.0 || u == 1.0 then u
  else
    let pulse : Float32 := 2.0 * Single.pi / 4.5
    let swing := ((20.0 * u - 11.125) * pulse).sin
    if u < 0.5 then -(twoTo (20.0 * u - 10.0) * swing) / 2.0
    else twoTo (-20.0 * u + 10.0) * swing / 2.0 + 1.0

/-- The curve on the unit interval. -/
def curve : Easing → Float32 → Float32
  | linear => id
  | quadIn => Curve.quadIn
  | quadOut => Curve.quadOut
  | quadInOut => Curve.quadInOut
  | cubicIn => Curve.cubicIn
  | cubicOut => Curve.cubicOut
  | cubicInOut => Curve.cubicInOut
  | quartIn => Curve.quartIn
  | quartOut => Curve.quartOut
  | quartInOut => Curve.quartInOut
  | quintIn => Curve.quintIn
  | quintOut => Curve.quintOut
  | quintInOut => Curve.quintInOut
  | sineIn => sineInAt
  | sineOut => sineOutAt
  | sineInOut => sineInOutAt
  | expoIn => expoInAt
  | expoOut => expoOutAt
  | expoInOut => expoInOutAt
  | circIn => circInAt
  | circOut => circOutAt
  | circInOut => circInOutAt
  | elasticIn => elasticInAt
  | elasticOut => elasticOutAt
  | elasticInOut => elasticInOutAt
  | backIn => Curve.backIn
  | backOut => Curve.backOut
  | backInOut => Curve.backInOut
  | bounceIn => Curve.bounceIn
  | bounceOut => Curve.bounceOut
  | bounceInOut => Curve.bounceInOut

/-- The part of the way that is done when the part `u` of the time has passed. -/
def progress (e : Easing) (u : Float32) : Float32 := e.curve (Single.clampUnit u)

/-- The value at time `t` of a motion from `start` by `delta` that takes `duration`. A motion
without a positive duration is at its end. -/
def apply {V : Type} [Add V] [HMul V Float32 V] (e : Easing) (t : Float32) (start delta : V)
    (duration : Float32) : V :=
  if duration ≤ 0.0 then start + delta else start + delta * e.progress (t / duration)

end Easing

end SpriteStage
