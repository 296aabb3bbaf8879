import DeskCalculator.Number

/-!
# `DeskCalculator.Operator`: operations between two numbers

Arithmetic is that of IEEE 754 doubles: dividing by zero and overflowing
give infinities, and where there is no value the result is no number.
Nothing here fails, so an evaluation fails only over the form of its text or
over a variable.

An operation is data, and not a function, so that a state of a run that
holds one can be compared. `sequence` is an operation like the others: both
operands are evaluated, and the first value is thrown away.
-/

set_option autoImplicit false

namespace DeskCalculator

/-- An operation between two numbers that are known already. Which marks
stand for it, and how tight it binds, is no matter of the operation:
`Kind.operator?` and `Level` say so. -/
inductive BinaryOperator where
  | add
  | sub
  | mul
  | div
  /-- Exponentiation. -/
  | pow
  /-- One after the other: the value of the second. -/
  | sequence
  deriving Repr, DecidableEq

/-- The result of an operation on its left and right operand. The four of
arithmetic make a signalling operand quiet, a power looks at it, and a
sequence passes it on (`Number`). -/
def BinaryOperator.apply : BinaryOperator → Number → Number → Number
  | .add, left, right => .arithmetic (· + ·) left right
  | .sub, left, right => .arithmetic (· - ·) left right
  | .mul, left, right => .arithmetic (· * ·) left right
  | .div, left, right => .arithmetic (· / ·) left right
  | .pow, left, right => .pow left right
  | .sequence, _, right => right

end DeskCalculator
