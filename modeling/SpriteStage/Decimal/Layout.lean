import SpriteStage.Decimal.Shortest

/-!
# Layouts of decimals

A layout says how a shortest decimal is written: for which magnitudes digit by digit and for which
with an exponent, whether a whole number keeps a point, and which of two equally near decimals is
meant. The stage writes three kinds of number, and each has its layout here.
-/

set_option autoImplicit false

namespace SpriteStage.Decimal

/-- How a decimal is written. -/
structure Layout where
  /-- The least and the greatest power of ten of a leading digit that is written without an
  exponent; `none` if an exponent is never written. -/
  plain : Option (Int × Int)
  /-- Whether a whole number written without an exponent ends in a point and a zero. -/
  pointed : Bool
  /-- Which of two equally near decimals is written. -/
  tie : Tie

/-- Numbers inside messages have no exponent, no needless point, and a tie goes up. -/
def messageLayout : Layout := ⟨none, false, .up⟩

/-- Double-precision numbers in JSON text. -/
def doubleLayout : Layout := ⟨some (-5, 15), true, .even⟩

/-- Single-precision numbers in JSON text. -/
def singleLayout : Layout := ⟨some (-6, 12), true, .even⟩

/-- The digits of a natural number, most significant first. -/
def numeral (n : Nat) : List Char := Nat.toDigits 10 n

/-- The decimal `digits × 10 ^ place` written out in full. -/
def writePlain (pointed : Bool) (digits : List Char) (place : Int) : List Char :=
  if 0 ≤ place then
    digits ++ List.replicate place.toNat '0' ++ (if pointed then ['.', '0'] else [])
  else
    let fraction := (-place).toNat
    if fraction < digits.length then
      digits.take (digits.length - fraction) ++ '.' :: digits.drop (digits.length - fraction)
    else '0' :: '.' :: List.replicate (fraction - digits.length) '0' ++ digits

/-- The same decimal with one digit before the point and an exponent that has a sign. -/
def writeScientific (digits : List Char) (exponent : Int) : List Char :=
  let fraction := if digits.length ≤ 1 then [] else '.' :: digits.drop 1
  digits.take 1 ++ fraction ++ 'e' :: (if exponent < 0 then '-' else '+') :: numeral exponent.natAbs

/-- The text of a finite number in a layout. -/
def Layout.write (layout : Layout) (b : Binary) : List Char :=
  let d := shortest layout.tie b
  let digits := numeral d.value
  let exponent := d.place + digits.length - 1
  let isPlain :=
    match layout.plain with
    | none => true
    | some (least, greatest) => least ≤ exponent ∧ exponent ≤ greatest
  (if b.negative then ['-'] else []) ++
    (if isPlain then writePlain layout.pointed digits d.place else writeScientific digits exponent)

/-- A single-precision number as messages show it. -/
def messageText (x : Float32) : String :=
  match Binary.ofSingle? x with
  | some b => String.ofList (messageLayout.write b)
  | none => if x.isNaN then "NaN" else if x < 0.0 then "-inf" else "inf"

/-- A double-precision number in JSON text; what is not finite is written as nothing. -/
def doubleText (x : Float) : List Char :=
  match Binary.ofDouble? x with
  | some b => doubleLayout.write b
  | none => "null".toList

/-- A single-precision number in JSON text; what is not finite is written as nothing. -/
def singleText (x : Float32) : List Char :=
  match Binary.ofSingle? x with
  | some b => singleLayout.write b
  | none => "null".toList

end SpriteStage.Decimal
