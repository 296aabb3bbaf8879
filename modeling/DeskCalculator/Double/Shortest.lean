import DeskCalculator.Double.Decimal

/-!
# `DeskCalculator.Double.Shortest`: the shortest decimal of a number

Of the decimals that read back as a given number, `shortest` is one with the
fewest significant digits, and of those the nearest. The search tries one
grid of decimals after the other, from one significant digit on: on each it
looks at the two neighbours of the exact value only, since every point of a
grid that reads back lies beyond or on one of them.

Every finite magnitude is a whole number over a power of two, hence over the
same power of ten: the last grid holds the value itself, so the search
always ends with a decimal that reads back.

All grids are inside the one of the exact value, as multiples of a power of
ten, so all candidates have the scale of the exact value. Zeros at the end
of a candidate are dropped when it is written.
-/

set_option autoImplicit false

namespace DeskCalculator.Double

/-- The decimal that is exactly the magnitude of a finite pattern, which is
its significand times `2 ^ (step p - 1074)`. Each missing power of two is a
decimal place, and is made up for by a power of five. -/
def exactDecimal (p : Nat) : Decimal :=
  let places := 1074 - step p
  { coefficient := significand p * Nat.pow 2 (step p - 1074) * Nat.pow 5 places, scale := places }

/-- How many decimal digits a natural has, zero having one. The grids to be
searched are those below this count. -/
def digitCount (n : Nat) : Nat := (Nat.toDigits 10 n).length

/-- The decimal on the grid of multiples of `10 ^ exponent / 10 ^
exact.scale` that reads back as `p` and is nearest to `exact`; none if no
point of the grid reads back. Of two equally near the larger is taken. -/
def nearestOnGrid (p : Nat) (exact : Decimal) (exponent : Nat) : Option Decimal :=
  let unit := Nat.pow 10 exponent
  let below := exact.coefficient / unit * unit
  let above := below + unit
  let readsBack := fun coefficient => (Decimal.mk coefficient exact.scale).pattern == p
  -- What reads back has no gaps, so no point further away has to be tried.
  let found := match readsBack below, readsBack above with
    | true, true =>
      some (if exact.coefficient - below < above - exact.coefficient then below else above)
    | true, false => some below
    | false, true => some above
    | false, false => none
  found.map fun coefficient => { exact with coefficient }

/-- The shortest decimal that reads back as the finite pattern `p`: the
first one found on the grids, from the one of one significant digit on, or
the exact one if there is none. -/
def shortest (p : Nat) : Decimal :=
  let exact := exactDecimal p
  let exponents := (List.range (digitCount exact.coefficient)).reverse
  (exponents.findSome? (nearestOnGrid p exact)).getD exact

end DeskCalculator.Double
