import DeskCalculator.Diagnostic
import DeskCalculator.Environment

/-!
# `DeskCalculator.Outcome`: how an evaluation ends

An evaluation ends with a value or with an error, and with the variables as
they are then: what was assigned before an error stays assigned. What is an
error at all depends on the policy.

An `Outcome` is this end as it is seen from outside, with the environment
beside either result. A `Failure` is an error on its way there. It carries
its environment itself, so that a failing run is an `Except` whose later
steps need not be looked at.
-/

set_option autoImplicit false

namespace DeskCalculator

/-- What to do about an operand or a closing parenthesis that is missing.
For a variable without a value, and for input that is left over, there is no
choice. -/
inductive Policy where
  /-- Stop with the complaint. -/
  | abort
  /-- Keep the first complaint, put the number that is none in the place of
  the operand, and go on. A character that starts no token is skipped. -/
  | substituteNan
  deriving Repr, DecidableEq

/-- What a successful run yields: the value of the last statement, and the
first complaint if the text was not in order. -/
structure Evaluation where
  value : Number
  diagnostic : Option Diagnostic
  deriving DecidableEq

/-- The end of a run, and the variables as they are then. That these are
there in either case is why a calculator can keep what was assigned before
an error. -/
structure Outcome where
  result : Except EvalError Evaluation
  environment : Environment

/-- Whether two runs end alike can be decided. It is written out because the
core library compares no results of type `Except`. -/
instance : DecidableEq Outcome
  | ⟨.ok a, env⟩, ⟨.ok b, env'⟩ => decidable_of_iff (a = b ∧ env = env') (by simp)
  | ⟨.error a, env⟩, ⟨.error b, env'⟩ => decidable_of_iff (a = b ∧ env = env') (by simp)
  | ⟨.ok _, _⟩, ⟨.error _, _⟩ => isFalse (by simp)
  | ⟨.error _, _⟩, ⟨.ok _, _⟩ => isFalse (by simp)

/-- A run that failed: why, and the variables as they are then. What was
assigned before the failure stays assigned, so a calculator goes on with
these. -/
structure Failure where
  error : EvalError
  environment : Environment
  deriving DecidableEq

end DeskCalculator
