import SpriteStage.Scalar

/-!
# Single-precision numbers

All times, places and angles are binary32 numbers. This module adds the operations on them that
the stage needs and that are exact by definition: conversion to and from double precision, the
integer a number may be, the remainder of a division, the total order of the bit patterns, and the
largest of two numbers when one may be undefined. Each is computed with integers from the sign,
mantissa and exponent of its arguments.
-/

set_option autoImplicit false

namespace SpriteStage.Single

open Float.Model

/-- The single-precision number nearest to the real number that the parts describe. -/
def ofParts (parts : UnpackedFloat) : Float32 :=
  ⟨Float32.Model.pack <|
    match parts with
    | .finite sign mantissa exponent _ => .round .binary32 sign mantissa exponent
    | other => other⟩

/-- The double-precision number nearest to the real number that the parts describe. -/
def toDoubleParts (parts : UnpackedFloat) : Float :=
  ⟨Float.Model.pack <|
    match parts with
    | .finite sign mantissa exponent _ => .round .binary64 sign mantissa exponent
    | other => other⟩

/-- The nearest single-precision number, ties to even; what is too large becomes infinite. -/
def ofDouble (x : Float) : Float32 := ofParts x.toModel.unpack

/-- The same number in double precision. -/
def toDouble (x : Float32) : Float := toDoubleParts x.toModel.unpack

/-- The integer that `x` is, if `x` is finite and has no fractional part. -/
def toInt? (x : Float32) : Option Int :=
  match x.toModel.unpack with
  | .zero _ => some 0
  | .finite sign mantissa exponent _ =>
    if 0 ≤ exponent then some (sign.apply (mantissa <<< exponent.toNat))
    else
      let unit := 1 <<< (-exponent).toNat
      if mantissa % unit = 0 then some (sign.apply (mantissa / unit)) else none
  | _ => none

/-- The remainder of `x` by `y` with the sign of `x`, without any rounding. It is undefined when
`x` is infinite or `y` is zero. -/
def truncatedRem (x y : Float32) : Float32 :=
  match x.toModel.unpack, y.toModel.unpack with
  | .notANumber, _ | _, .notANumber | .infinity _, _ | _, .zero _ => ofParts .notANumber
  | .zero _, _ | _, .infinity _ => x
  | .finite sign m e _, .finite _ n f _ =>
    let least := min e f
    let rest := (m <<< (e - least).toNat) % (n <<< (f - least).toNat)
    if h : 0 < rest then ofParts (.finite sign rest least h) else ofParts (.zero sign)

/-- The remainder of `x` by `y` that is not negative, up to one rounding. -/
def euclideanRem (x y : Float32) : Float32 :=
  let rest := truncatedRem x y
  if rest < 0.0 then rest + y.abs else rest

instance : Scalar Float32 where
  decideLT := Float32.decLt
  euclideanRem := euclideanRem
  magnitude := Float32.abs

/-- The rank of a bit pattern in the total order of all of them: a pattern with the sign bit comes
before one without, and the further from zero a pattern is, the further out it comes. -/
def rankOfBits (bits : UInt32) : Int :=
  let pattern : Int := bits.toNat
  if pattern < 0x80000000 then pattern else 0x7fffffff - pattern

/-- The rank of `x` in the total order of all single-precision numbers: every number has its own
rank, negative zero comes before zero, and the undefined number comes last. -/
def rank (x : Float32) : Int := rankOfBits x.toBits

/-- The larger of two numbers; an undefined one gives way to the other. -/
def larger (x y : Float32) : Float32 :=
  if x.isNaN then y else if y.isNaN then x else if x < y then y else x

/-- The number of the closed unit interval nearest to `x`. Negative zero and the undefined number
stay as they are. -/
def clampUnit (x : Float32) : Float32 :=
  let raised := if x < 0.0 then 0.0 else x
  if 1.0 < raised then 1.0 else raised

/-- Half a turn in radians. -/
def pi : Float32 := 3.1415927

end SpriteStage.Single
