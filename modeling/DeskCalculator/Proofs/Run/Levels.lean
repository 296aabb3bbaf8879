import DeskCalculator.Grammar
import DeskCalculator.Statement

/-!
# `DeskCalculator.Proofs.Run.Levels`: a statement seen from a level of the grammar

An operand that is read extends everything that waits for it at its own
level or at a tighter one, and leaves the looser operations waiting. Seen
from a level, a statement is therefore two things: what still waits
(`clear`) and the value of what does not (`valueAt`). For each of the four
levels of operators there is at most one operation that waits, so both are
read off the record.

* `clear_clear`, `valueAt_clear`: settling to a tighter level first changes
  nothing.
* `valueAt_of_clear`: where nothing waits at a level, an operand is its own
  value there.
* `clear_hold`, `valueAt_hold`: an operation that begins to wait at one of
  the four levels that have one stays out of the way of tighter levels, and
  is the last one of its own.

The proofs are by cases on the levels, which are few; the rest of the
development argues with levels and never looks at the fields of a statement.
An operator of the source that came in at a new level would be a case here
and nowhere else.
-/

set_option autoImplicit false

namespace DeskCalculator.Statement

/-- What waits for an expression of the level that is being read: nothing
that binds as tightly as the level itself. A sum, an assignment and a
sequence leave nothing but the names to assign. -/
def clear (level : Level) (s : Statement) : Statement :=
  match level with
  | .primary => s
  | .power => { s with power := none }
  | .term => { s with factors := none, power := none }
  | .signed => { s with negated := false, factors := none, power := none }
  | .product => { targets := s.targets, sum := s.sum }
  | .sum | .assignment | .sequence => { targets := s.targets }

/-- The value of the expression of the level that ends with the operand `x`:
what `clear` takes away, applied to it. -/
def valueAt (level : Level) (s : Statement) (x : Number) : Number :=
  match level with
  | .primary => x
  | .power => s.powerValue x
  | .term => s.termValue x
  | .signed => s.signedValue x
  | .product => s.productValue x
  | .sum | .assignment | .sequence => s.value x

/-- The statement with an operation that waits at a level. The other levels
have none, and there the statement is left as it is. -/
def hold (level : Level) (operator : BinaryOperator) (x : Number) (s : Statement) : Statement :=
  match level with
  | .power => { s with power := some (operator, x) }
  | .term => { s with factors := some (operator, x) }
  | .product => { s with product := some (operator, x) }
  | .sum => { s with sum := some (operator, x) }
  | _ => s

/-! ### Settling in two steps

Levels are compared by their rank. The looser level has the smaller one, so
`level.rank ≤ tighter.rank` reads from the outside in. -/

/-- Clearing a tighter level first makes no difference, since the looser one
takes away all that it does. -/
theorem clear_clear {level tighter : Level} (h : level.rank ≤ tighter.rank) (s : Statement) :
    (s.clear tighter).clear level = s.clear level := by
  -- Where the levels are in this order, both sides are the same record.
  cases level <;> cases tighter <;> first | rfl | (simp [Level.rank] at h)

/-- Where a level is clear, the tighter ones are, because less is taken away
for them. -/
theorem clear_of_clear {level tighter : Level} (h : level.rank ≤ tighter.rank) {s : Statement}
    (hs : s.clear level = s) : s.clear tighter = s := by
  rw [← hs]
  cases level <;> cases tighter <;> first | rfl | (simp [Level.rank] at h)

/-- Settling to a tighter level first makes no difference: the value there
is the operand that the looser operations have waited for. -/
theorem valueAt_clear {level tighter : Level} (h : level.rank ≤ tighter.rank) (s : Statement)
    (x : Number) : (s.clear tighter).valueAt level (s.valueAt tighter x) = s.valueAt level x := by
  cases level <;> cases tighter <;> first | rfl | (simp [Level.rank] at h)

/-- Where nothing waits, an operand is its own value. So an expression of
one operand is one of every level. -/
theorem valueAt_of_clear {level : Level} {s : Statement} (hs : s.clear level = s) (x : Number) :
    s.valueAt level x = x := by
  -- Rewriting backwards makes the fields that are clear explicit, and the
  -- value computes.
  rw [← hs]
  cases level <;> rfl

/-- The names to assign wait outside all levels, and no level takes them
away. They can be added without touching what is said of the levels. -/
theorem clear_targets (level : Level) (s : Statement) (names : List String) :
    { s with targets := names }.clear level = { s.clear level with targets := names } := by
  cases level <;> rfl

/-- The names to assign are no part of a value. They get it in the end, when
the statement has it. -/
theorem valueAt_targets (level : Level) (s : Statement) (names : List String) (x : Number) :
    { s with targets := names }.valueAt level x = s.valueAt level x := by
  cases level <;> rfl

/-! ### Holding an operation -/

/-- The levels that hold an operation are below an assignment. Below it
there are no names to assign that an expression could leave behind
(`Took.names_nil`). -/
theorem sum_le_of_mem {level : Level} (h : level ∈ [.power, .term, .product, .sum]) :
    Level.sum.rank ≤ level.rank := by
  revert h
  cases level <;> simp [Level.rank]

/-- An operation that waits at a level is cleared with it. So the row is as
it was before, once the operation is settled. -/
theorem clear_hold_self (level : Level) (operator : BinaryOperator) (x : Number) (s : Statement) :
    (s.hold level operator x).clear level = s.clear level := by
  cases level <;> rfl

/-- An operation that waits at a level is not cleared with a tighter one. So
the right side of an operator, which is tighter, is read with its left side
undisturbed. -/
theorem clear_hold {level tighter : Level} (h : level.rank < tighter.rank) {s : Statement}
    (hs : s.clear level = s) (operator : BinaryOperator) (x : Number) :
    (s.hold level operator x).clear tighter = s.hold level operator x := by
  rw [← hs]
  cases level <;> cases tighter <;> first | rfl | (simp [Level.rank] at h)

/-- The operation that waits is the last one of its level: nothing was there
before, by `hs`, so the value is this operation on the two operands. -/
theorem valueAt_hold {level : Level} (h : level ∈ [.power, .term, .product, .sum])
    {s : Statement} (hs : s.clear level = s) (operator : BinaryOperator) (x y : Number) :
    (s.hold level operator x).valueAt level y = operator.apply x y := by
  rw [← hs]
  cases level <;> first | rfl | (simp at h)

/-! ### Where an operand can be more than a factor -/

/-- A sign can stand where no factor was read. Ties the test of the model to
the levels: the state that awaits a signed expression is one that allows the
sign. -/
theorem allowsSign_of_clear {s : Statement} (h : s.clear .signed = s) : s.allowsSign = true := by
  rw [← h]
  rfl

/-- A name to assign can stand where nothing else was read in its statement,
other names apart. -/
theorem allowsTarget_of_clear {s : Statement} (h : s.clear .assignment = s) :
    s.allowsTarget = true := by
  rw [← h]
  rfl

end DeskCalculator.Statement
