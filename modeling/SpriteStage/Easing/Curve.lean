import SpriteStage.Scalar

/-!
# Polynomial curves

A curve maps the part of a motion's time that has passed to the part of its way that is done. The
curves of this module are made of the four operations and constants, so they are formulas over any
scalar. Each family has a curve that starts slowly, one that ends slowly, and one that does both,
with its two halves joined in the middle.
-/

set_option autoImplicit false

namespace SpriteStage.Curve

open Scalar

universe u

variable {α : Type u} [Scalar α]

/-- Quadratic, slow at the start. -/
def quadIn (u : α) : α := u * u

/-- Quadratic, slow at the end. -/
def quadOut (u : α) : α := 1.0 - (1.0 - u) * (1.0 - u)

/-- Quadratic, slow at both ends. -/
def quadInOut (u : α) : α :=
  if u < 0.5 then 2.0 * u * u else 1.0 - square (-2.0 * u + 2.0) / 2.0

/-- Cubic, slow at the start. -/
def cubicIn (u : α) : α := u * u * u

/-- Cubic, slow at the end. -/
def cubicOut (u : α) : α := 1.0 - cube (1.0 - u)

/-- Cubic, slow at both ends. -/
def cubicInOut (u : α) : α :=
  if u < 0.5 then 4.0 * u * u * u else 1.0 - cube (-2.0 * u + 2.0) / 2.0

/-- Of the fourth degree, slow at the start. -/
def quartIn (u : α) : α := fourth u

/-- Of the fourth degree, slow at the end. -/
def quartOut (u : α) : α := 1.0 - fourth (1.0 - u)

/-- Of the fourth degree, slow at both ends. -/
def quartInOut (u : α) : α :=
  if u < 0.5 then 8.0 * fourth u else 1.0 - fourth (-2.0 * u + 2.0) / 2.0

/-- Of the fifth degree, slow at the start. -/
def quintIn (u : α) : α := fifth u

/-- Of the fifth degree, slow at the end. -/
def quintOut (u : α) : α := 1.0 - fifth (1.0 - u)

/-- Of the fifth degree, slow at both ends. -/
def quintInOut (u : α) : α :=
  if u < 0.5 then 16.0 * fifth u else 1.0 - fifth (-2.0 * u + 2.0) / 2.0

/-- How far a curve of the back family overshoots. -/
def overshoot : α := 1.70158

/-- Draws back before it starts. -/
def backIn (u : α) : α :=
  let leading : α := overshoot + 1.0
  leading * u * u * u - overshoot * u * u

/-- Overshoots before it ends. -/
def backOut (u : α) : α :=
  let leading : α := overshoot + 1.0
  1.0 + leading * cube (u - 1.0) + overshoot * square (u - 1.0)

/-- Draws back at the start and overshoots at the end, both by more than the simple curves. -/
def backInOut (u : α) : α :=
  let wide : α := overshoot * 1.525
  if u < 0.5 then square (2.0 * u) * ((wide + 1.0) * 2.0 * u - wide) / 2.0
  else (square (2.0 * u - 2.0) * ((wide + 1.0) * (u * 2.0 - 2.0) + wide) + 2.0) / 2.0

/-- Bounces on the target: four parabolas, each lower than the one before. -/
def bounceOut (u : α) : α :=
  let steep : α := 7.5625
  let span : α := 2.75
  if u < 1.0 / span then steep * u * u
  else if u < 2.0 / span then
    let v := u - 1.5 / span
    steep * v * v + 0.75
  else if u < 2.5 / span then
    let v := u - 2.25 / span
    steep * v * v + 0.9375
  else
    let v := u - 2.625 / span
    steep * v * v + 0.984375

/-- Bounces at the start. -/
def bounceIn (u : α) : α := 1.0 - bounceOut (1.0 - u)

/-- Bounces at both ends. -/
def bounceInOut (u : α) : α :=
  if u < 0.5 then (1.0 - bounceOut (1.0 - 2.0 * u)) / 2.0
  else (1.0 + bounceOut (2.0 * u - 1.0)) / 2.0

end SpriteStage.Curve
