/-!
# `DeskCalculator.Double.Pattern`: the bit patterns of non-negative doubles

The sign bit apart, the bits of a binary64 number are a natural number, its
*pattern*. Patterns are ordered as the magnitudes that they stand for, and
every finite magnitude is a whole number of quanta of `2 ^ -1074`:

* `units p` is the magnitude of pattern `p`, counted in quanta.
* `infinitePattern` is the pattern of infinity. Read as if it were finite it
  stands for `2 ^ 1024`, the next magnitude after the largest finite one, so
  rounding needs no case of its own there.
* `ofPattern` and `pattern` go between patterns and numbers; `isNegative` is
  the sign bit.

So reading and writing numbers is arithmetic on naturals. That the magnitude
of a pattern is the value of the number that has its bits is proved in
`Proofs/Double/Value.lean`, where the value is computed from the fields of
the format.
-/

set_option autoImplicit false

namespace DeskCalculator.Double

/-- The width of a binade: how many patterns share one exponent. It is the
number of fractions. -/
def binade : Nat := Nat.pow 2 52

/-- The pattern of infinity; every smaller pattern is finite, and every
larger one is no number. -/
def infinitePattern : Nat := 2047 * binade

/-- The step of a pattern: the distance from its magnitude to the next one
is `2 ^ step p` quanta. The lowest two binades, subnormal and normal, share
the step of one quantum. -/
def step (p : Nat) : Nat := p / binade - 1

/-- The significand of a pattern, with the leading bit that normal patterns
leave out. -/
def significand (p : Nat) : Nat := p - step p * binade

/-- The magnitude of a pattern in quanta of `2 ^ -1074`. It is defined for
every natural, also for those from infinity on, which makes it strictly
increasing without exception. -/
def units (p : Nat) : Nat := significand p * Nat.pow 2 (step p)

/-- The pattern of a number: its bits without the sign. Patterns are in the
order of the magnitudes that they stand for. -/
def pattern (x : Float) : Nat := x.toBits.toNat % Nat.pow 2 63

/-- Whether the sign bit is set, as it is in minus zero. What is no number
has no sign here, since a `Float` made of such a pattern has lost it. -/
def isNegative (x : Float) : Bool := Nat.pow 2 63 ≤ x.toBits.toNat

/-- The non-negative number of a pattern. It is meant for patterns up to
that of infinity; those above it give the number that is none. -/
def ofPattern (p : Nat) : Float := Float.ofBits (UInt64.ofNat p)

/-- Positive infinity. -/
def infinity : Float := ofPattern infinitePattern

/-- The one number that is no number. There are many patterns for it, and a
`Float` made of any of them is this one. -/
def nan : Float := ofPattern (infinitePattern + binade / 2)

/-- The magnitudes of the patterns around the first steps: subnormal
patterns count quanta, and so does the first normal binade; the next one
counts pairs. -/
example : units 1 = 1 ∧ units binade = 2 ^ 52 ∧ units (2 * binade) = 2 ^ 53 ∧
    units (2 * binade + 1) = 2 ^ 53 + 2 := by decide

end DeskCalculator.Double
