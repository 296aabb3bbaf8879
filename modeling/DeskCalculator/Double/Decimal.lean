import DeskCalculator.Double.Pattern

/-!
# `DeskCalculator.Double.Decimal`: decimals and the nearest number to one

A decimal is a whole coefficient over a power of ten. `nearest` rounds a
quotient to the closest pattern, a tie going to the even one, in exact
arithmetic on naturals, so a decimal of any length is rounded once.
`ofNumeral` reads the spelling of a numeral as a number.

What rounding has to achieve is said over the rationals, as `RoundsTo` in
`Proofs/Double/Value.lean`. It does not mention patterns, steps or quanta.
-/

set_option autoImplicit false

namespace DeskCalculator.Double

/-- The decimal `coefficient / 10 ^ scale`. The same number has many of
these, as zeros can be put at its end. -/
structure Decimal where
  coefficient : Nat
  scale : Nat := 0
  deriving Repr, DecidableEq

/-- The quotient rounded to the nearest natural, a half going to the even
neighbour. What is left over is compared with half of the denominator, so
there is no fraction in it. -/
def roundHalfEven (num den : Nat) : Nat :=
  let floor := num / den
  match compare (2 * (num % den)) den with
  | .lt => floor
  | .gt => floor + 1
  | .eq => floor + floor % 2

/-- The pattern nearest to `num / den`, ties to the even pattern.

In quanta the quotient is `num * 2 ^ 1074 / den`. Its step is the one that
leaves a significand of 53 bits, or none where the quotient is small. Adding
the rounded significand to the binades below carries into the next binade by
itself, and all from halfway to `2 ^ 1024` on ends at infinity. -/
def nearest (num den : Nat) : Nat :=
  let quanta := num * Nat.pow 2 1074
  let step := (quanta / den).log2 - 52
  -- The significand has its leading bit, which is why the step counts one
  -- binade less.
  min infinitePattern (step * binade + roundHalfEven quanta (den * Nat.pow 2 step))

/-- The pattern nearest to a decimal. A decimal has no sign, and neither has
a pattern. -/
def Decimal.pattern (d : Decimal) : Nat := nearest d.coefficient (Nat.pow 10 d.scale)

/-- The number nearest to a decimal. That it is nearest in the sense of the
format is `Decimal.roundsTo_toNumber`. -/
def Decimal.toNumber (d : Decimal) : Float := ofPattern d.pattern

/-! ### Numerals -/

/-- The value of a decimal digit. Of other characters nothing is asked. -/
def digitValue (c : Char) : Nat := c.toNat - '0'.toNat

/-- The digits read so far of a long row: the value `high * scale + low`.
The last ones are kept apart, in `low`, so that the long part is multiplied
once for many digits. A numeral of a hundred thousand digits would take too
long otherwise. -/
structure DigitRun where
  high : Nat := 0
  scale : Nat := 1
  low : Nat := 0

namespace DigitRun

/-- The natural that the digits read so far spell. The other operations are
compared by it. -/
def value (run : DigitRun) : Nat := run.high * run.scale + run.low

/-- One more digit, kept apart. No long number is touched. -/
def push (run : DigitRun) (c : Char) : DigitRun :=
  { run with scale := run.scale * 10, low := run.low * 10 + digitValue c }

/-- The digits kept apart join the others if they are many. The bound is
what fits in a machine word, so that keeping them apart is cheap. -/
def join (run : DigitRun) : DigitRun :=
  if run.scale < Nat.pow 10 18 then run else { high := run.value }

/-- A digit multiplies the value by ten and adds its own. -/
theorem value_push (run : DigitRun) (c : Char) :
    (run.push c).value = run.value * 10 + digitValue c := by
  simp [value, push, Nat.add_mul, Nat.mul_assoc, Nat.add_assoc]

/-- Joining changes no value. -/
theorem value_join (run : DigitRun) : run.join.value = run.value := by
  unfold join
  split
  · rfl
  · simp [value]

/-- One more digit. -/
def read (run : DigitRun) (c : Char) : DigitRun := (run.push c).join

end DigitRun

/-- The natural that a row of decimal digits spells. `digitsValue_concat` is
the usual equation for it, and proofs use only that. -/
def digitsValue (digits : List Char) : Nat := (digits.foldl DigitRun.read {}).value

/-- No digits spell zero. -/
@[simp] theorem digitsValue_nil : digitsValue [] = 0 := rfl

/-- A digit behind others multiplies their value by ten and adds its own. -/
theorem digitsValue_concat (digits : List Char) (c : Char) :
    digitsValue (digits ++ [c]) = digitsValue digits * 10 + digitValue c := by
  rw [digitsValue, List.foldl_append]
  exact (DigitRun.value_join _).trans (DigitRun.value_push _ c)

/-- The decimal spelled by digits with at most one point among them. -/
def Decimal.ofDigits (numeral : List Char) : Decimal :=
  let whole := numeral.takeWhile (· ≠ '.')
  let fraction := (numeral.dropWhile (· ≠ '.')).drop 1
  { coefficient := digitsValue (whole ++ fraction), scale := fraction.length }

/-- The spelling of the number that is none. It is read and written
alike. -/
def nanNumeral : List Char := ['.', 'n', 'a', 'n']

/-- The spelling of infinity. -/
def infinityNumeral : List Char := ['.', 'i', 'n', 'f']

/-- The number that a numeral spells. The two names are looked at first, as
they have a point and would be read as digits otherwise. -/
def ofNumeral (numeral : List Char) : Float :=
  if numeral = nanNumeral then nan
  else if numeral = infinityNumeral then infinity
  else (Decimal.ofDigits numeral).toNumber

/-- Whether a numeral is a decimal in positional notation: digits, at least
one, and at most one point before, between or behind them. -/
def isPositional (numeral : List Char) : Bool :=
  let digits := numeral.takeWhile (· ≠ '.') ++ (numeral.dropWhile (· ≠ '.')).drop 1
  !digits.isEmpty && digits.all Char.isDigit

/-- The number that a numeral spells, if it spells one. For what the
tokenizer takes as a number it always does (`ofNumeral?_of_spells`). -/
def ofNumeral? (numeral : List Char) : Option Float :=
  if numeral = nanNumeral ∨ numeral = infinityNumeral ∨ isPositional numeral then
    some (ofNumeral numeral)
  else none

/-- A tie goes to the even significand, at the bottom of the range as
elsewhere: half a quantum is zero, one and a half quanta are two. -/
example : nearest 1 (2 ^ 1075) = 0 ∧ nearest 3 (2 ^ 1075) = 2 ∧
    nearest (2 ^ 53 + 1) 1 = nearest (2 ^ 53) 1 := by decide +kernel

/-- Halfway between the largest finite magnitude and `2 ^ 1024` is infinity
already. -/
example : nearest (2 ^ 1024 - 2 ^ 970) 1 = infinitePattern ∧
    nearest (2 ^ 1024 - 2 ^ 970 - 1) 1 = infinitePattern - 1 := by decide +kernel

end DeskCalculator.Double
