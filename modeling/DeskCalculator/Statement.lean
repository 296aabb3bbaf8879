import DeskCalculator.Environment
import DeskCalculator.Operator

/-!
# `DeskCalculator.Statement`: a statement of which one operand is still missing

While a text is read from left to right, what was read of a statement is
always a row of parts that wait for the operand to come, one inside the
other:

    a = b = 1 + 2 * - 3 4 ^ □

The names to assign, the sum so far, the product so far, the sign, the
factors so far and the power so far: of each there is at most one, since an
operator first settles all that binds as tightly as itself. `Statement` is
that row. The functions from `powerValue` to `value` settle it from the
inside out, once the operand is known. So no tree is built of a statement,
and no stack: of each level, one number and one operation are enough.

`Proofs/Run/Levels.lean` says the same for all levels at once, which is how
proofs about the grammar use it.
-/

set_option autoImplicit false

namespace DeskCalculator

/-- An operation with its left operand, waiting for the right one. There may
be none. -/
abbrev Pending := Option (BinaryOperator × Number)

/-- The value of a waiting operation, given its right operand; that operand
alone if nothing waits. -/
def Pending.settle : Pending → Number → Number
  | none, right => right
  | some (operator, left), right => operator.apply left right

/-- What was read of a statement and waits for an operand. One field for
each kind of operation, as no more than one of each can wait at a time. -/
structure Statement where
  /-- The names to assign the value to, the last one read first. -/
  targets : List String := []
  sum : Pending := none
  product : Pending := none
  negated : Bool := false
  /-- Factors that stand side by side, which bind tighter than the sign. -/
  factors : Pending := none
  power : Pending := none
  deriving DecidableEq

namespace Statement

/-! ### Settling -/

/-- The value of the power that ends with the operand `x`. A power leans to
the left, so what waits is the power so far. -/
def powerValue (s : Statement) (x : Number) : Number := s.power.settle x

/-- The value of the row of factors that ends with the operand `x`. -/
def termValue (s : Statement) (x : Number) : Number := s.factors.settle (s.powerValue x)

/-- The value of the row of factors with its sign, which binds looser than
the factors: `-2 3` is minus six, and so is `-2 ^ 2` minus four. -/
def signedValue (s : Statement) (x : Number) : Number :=
  if s.negated then -s.termValue x else s.termValue x

/-- The value of the product that ends with the operand `x`. The sum around
it may go on. -/
def productValue (s : Statement) (x : Number) : Number := s.product.settle (s.signedValue x)

/-- The value of the whole statement, if the operand `x` ends it. -/
def value (s : Statement) (x : Number) : Number := s.sum.settle (s.productValue x)

/-- The environment after the value was assigned, to the last name first.
All names get one value, so the order shows only in what is listed as
written (`Proofs/Run/Writes.lean`). -/
def assign (s : Statement) (value : Number) (env : Environment) : Environment :=
  s.targets.foldl (fun env name => env.set name value) env

/-! ### Going on

Each takes the operand that was missing and waits for another one behind an
operator. -/

/-- Waits for an exponent. What binds tighter than a power is known: nothing
waits inside. -/
def awaitExponent (s : Statement) (x : Number) : Statement :=
  { s with power := some (.pow, s.powerValue x) }

/-- Waits for another factor beside the ones before. The power before it is
settled. -/
def awaitFactor (s : Statement) (x : Number) : Statement :=
  { s with factors := some (.mul, s.termValue x), power := none }

/-- Waits for the right side of a multiplication or division. What was in
the row of factors is settled with its sign, and the right side may have a
sign of its own. -/
def awaitProduct (s : Statement) (operator : BinaryOperator) (x : Number) : Statement :=
  { targets := s.targets, sum := s.sum, product := some (operator, s.productValue x) }

/-- Waits for the right side of an addition or subtraction. Everything but
the names is settled. -/
def awaitSum (s : Statement) (operator : BinaryOperator) (x : Number) : Statement :=
  { targets := s.targets, sum := some (operator, s.value x) }

/-! ### Where the operand stands -/

/-- Whether the operand may have a sign: it is the first of its row of
factors. There is one sign at most, and none behind `^` or beside another
factor. -/
def allowsSign (s : Statement) : Bool := !s.negated && s.factors.isNone && s.power.isNone

/-- Whether nothing but names to assign was read, so that another name may
follow. A name anywhere else is read at once. -/
def allowsTarget (s : Statement) : Bool := s.allowsSign && s.sum.isNone && s.product.isNone

end Statement

end DeskCalculator
