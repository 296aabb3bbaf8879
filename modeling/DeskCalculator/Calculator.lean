import DeskCalculator.Evaluation

/-!
# `DeskCalculator.Calculator`: a calculator that remembers

A calculator is its options, its variables, and the complaint that its last
evaluation put up with. `calculate` evaluates one text; what it assigns is
there for the next one, unless the calculator forgets its variables each
time. A calculator that forgets them does so at the beginning of an
evaluation, so they can be listed until then.
-/

set_option autoImplicit false

namespace DeskCalculator

/-- How a calculator evaluates. The options are those of the calculator and
not of an evaluation, so they stay as they are. -/
structure Options where
  policy : Policy := .abort
  /-- Keep the variables from one evaluation to the next. -/
  persist : Bool := true
  deriving Repr, DecidableEq

/-- A calculator between two evaluations. It is a value: an evaluation makes
another one, and whoever has kept the old one can go on with that. -/
structure Calculator where
  options : Options := {}
  environment : Environment := .empty
  /-- The complaint in spite of which the last evaluation succeeded. -/
  diagnostic : Option Diagnostic := none
  deriving DecidableEq

namespace Calculator

/-- The variables with which the next evaluation starts. They are forgotten
here, and not where the last evaluation ended. -/
def initial (c : Calculator) : Environment :=
  if c.options.persist then c.environment else .empty

/-- The result of evaluating a text, and the calculator after it. A failed
evaluation leaves no complaint behind, but it leaves what it assigned. -/
def calculate (c : Calculator) (text : String) : Except EvalError Number × Calculator :=
  let outcome := evaluate c.options.policy text c.initial
  match outcome.result with
  | .ok evaluation =>
    (.ok evaluation.value,
      { c with environment := outcome.environment, diagnostic := evaluation.diagnostic })
  | .error error =>
    (.error error, { c with environment := outcome.environment, diagnostic := none })

end Calculator

/-- The result of evaluating one text on its own, with the policy that stops
at a complaint and no variables. -/
def calculate (text : String) : Except EvalError Number :=
  (Calculator.calculate {} text).1

end DeskCalculator
