import DeskCalculator.Double.Shortest

/-!
# `DeskCalculator.Double.Text`: numbers as text

A number is written as its shortest decimal in positional notation, never
with an exponent, and with a point only where there is a fraction. Infinity
and the number that is none are written as the numerals that spell them, so
whatever is written can be read again. A minus sign stands before all
negative ones but the last, which is written without one whatever its sign
bit is.
-/

set_option autoImplicit false

namespace DeskCalculator.Double

/-- The decimal digits of a natural, without leading zeros. Zero has one
digit. -/
def digits (n : Nat) : List Char := Nat.toDigits 10 n

/-- The digits of a fraction of `scale` places. Zeros in front of it count,
so they are put there; a fraction of zero is written with none but these. -/
def places (scale fraction : Nat) : List Char :=
  let written := if fraction = 0 then [] else digits fraction
  List.replicate (scale - written.length) '0' ++ written

/-- The digits of a fraction of `scale` places, without the zeros at its
end. -/
def fractionDigits (scale fraction : Nat) : List Char :=
  ((places scale fraction).reverse.dropWhile (· = '0')).reverse

/-- Positional notation: the whole part, then a point and the fraction if
there is one. The whole part is written even where it is zero. -/
def Decimal.text (d : Decimal) : List Char :=
  let unit := Nat.pow 10 d.scale
  let fraction := fractionDigits d.scale (d.coefficient % unit)
  digits (d.coefficient / unit) ++ if fraction.isEmpty then [] else '.' :: fraction

/-- The text of a magnitude. Infinity has no decimal, and is written by its
name. -/
def magnitudeText (p : Nat) : List Char :=
  if p = infinitePattern then infinityNumeral else (shortest p).text

/-- The text of a number. Its sign is written, also that of minus zero; the
number that is none has no sign. -/
def chars (x : Float) : List Char :=
  if x.isNaN then nanNumeral
  else if isNegative x then '-' :: magnitudeText (pattern x)
  else magnitudeText (pattern x)

/-- The text of a number, as a string. -/
def text (x : Float) : String := String.ofList (chars x)

/-- Zero keeps its sign, a whole number has no point, and no size calls for
an exponent. -/
example : text (Float.ofBits 0x8000000000000000) = "-0" ∧
    text (Float.ofBits 0x3FF0000000000000) = "1" ∧
    text (Float.ofBits 0x3FB999999999999A) = "0.1" ∧
    text (Float.ofBits 0x44B52D02C7E14AF6) = "100000000000000000000000" := by decide +kernel

/-- Exactly `689859190435053.25`, which lies halfway between the two
shortest decimals that read back: the larger one is written. -/
example : text (Float.ofBits 0x43039B62DFED676A) = "689859190435053.3" := by decide +kernel

end DeskCalculator.Double
