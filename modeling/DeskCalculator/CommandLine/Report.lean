import DeskCalculator.CommandLine.Request

/-!
# `DeskCalculator.CommandLine.Report`: what is said about one text

Every run of the program evaluates texts: the one that it is given as an
argument, those that a script consists of, or those that are typed in. What
it says about one of them does not depend on where the text comes from.
`evaluateLine` makes a `Report` of it: the value or the failure, a warning
where a complaint was put up with, and the list of the variables if it is
asked for.

Lines of output and lines of complaint are kept apart, each without its end
mark, because they go to different places. `unlines` puts the end marks
behind them when they are written.
-/

set_option autoImplicit false

namespace DeskCalculator.CommandLine

/-- What is said about one text. The defaults are those of a blank line,
about which there is nothing to say: nothing is written, and that is a
success. -/
structure Report where
  output : List String := []
  errors : List String := []
  succeeded : Bool := true
  deriving Repr, DecidableEq

/-- Lines as text, each with an end mark. It is undone by `Text.lines` if no
line has an end mark in it (`lines_unlines`). -/
def unlines (lines : List String) : String := String.join (lines.map (· ++ "\n"))

/-- The lines that list the variables, in the order of the bindings. They
are indented, so that they are told apart from the value above them. An
indent is no more than a gap between tokens, so each line can be evaluated
again, as an assignment. -/
def listing (env : Environment) : List String :=
  env.bindings.map fun (name, value) => "  " ++ name ++ " = " ++ Number.text value

/-- Evaluates a text and reports on it. The variables are listed behind a
failure too, as the evaluation has left them. -/
def evaluateLine (mode : Mode) (c : Calculator) (text : String) : Report × Calculator :=
  let (result, c) := c.calculate text
  -- The variables of after the evaluation, not of before.
  let listed := if mode.listing then listing c.environment else []
  match result with
  | .ok value =>
    ({ output := Number.text value :: listed
       errors := (c.diagnostic.map fun d => "warning: " ++ d.message).toList }, c)
  | .error error =>
    ({ output := listed, errors := [error.message], succeeded := false }, c)

end DeskCalculator.CommandLine
