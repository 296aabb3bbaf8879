import DeskCalculator.Token.Kind

/-!
# `DeskCalculator.Diagnostic`: what can be wrong with a text

A `Diagnostic` is a complaint about the form of a text. An evaluation fails
with one, or because a variable has no value (`EvalError`). A complaint can
also be put up with, and then accompanies a value; a variable without a
value never is.

Each of them holds its cause and the byte offset at which it shows.
`message` is the one place where a cause is put into words, so whatever is
proved about causes is proved about messages as well.
-/

set_option autoImplicit false

namespace DeskCalculator

/-- A complaint about the form of a text. The first two are about something
that is missing, and can be put up with; input that is left over never
is. -/
inductive Diagnostic where
  /-- A token of a kind that cannot stand here, and the kinds that could. -/
  | unexpectedToken (expected : List Kind) (found : Kind) (offset : Nat)
  /-- A character that starts no token. -/
  | unexpectedCharacter (lexeme : String) (offset : Nat)
  /-- A token after the end of a complete expression. -/
  | trailingInput (found : Kind) (offset : Nat)
  deriving Repr, DecidableEq

/-- Where every message begins: the place that it is about. A line of
complaint is recognised by these words
(`Proofs/CommandLine/Account.lean`). -/
def messageAt (offset : Nat) (text : String) : String :=
  "Error at offset " ++ offset.repr ++ ": " ++ text

namespace Diagnostic

/-- The byte offset of the complaint. It is that of the token complained
about. -/
def offset : Diagnostic → Nat
  | unexpectedToken _ _ offset => offset
  | unexpectedCharacter _ offset => offset
  | trailingInput _ offset => offset

/-- A choice of kinds: one is named alone, any other number in a row. A
complaint expects one kind or three, so the words for none are never
seen. -/
def oneOf : List Kind → String
  | [kind] => kind.describe
  | kinds => "one of " ++ ", ".intercalate (kinds.map Kind.describe)

/-- The complaint in words. Its only piece of the text is the lexeme, so a
message about one line is one line. -/
def message : Diagnostic → String
  | unexpectedToken expected found offset =>
    messageAt offset ("Unexpected " ++ found.describe ++ ", expected " ++ oneOf expected ++ ".")
  | unexpectedCharacter lexeme offset =>
    messageAt offset ("Unexpected character '" ++ lexeme ++ "'.")
  | trailingInput found offset =>
    messageAt offset ("Extra input after expression, starting with " ++ found.describe ++ ".")

end Diagnostic

/-- Why an evaluation failed. There is nothing else that can go wrong:
arithmetic does not fail. -/
inductive EvalError where
  | malformed (diagnostic : Diagnostic)
  /-- A variable without a value, and where it is read. -/
  | undefinedVariable (name : String) (offset : Nat)
  deriving Repr, DecidableEq

namespace EvalError

/-- The byte offset at which the failure shows. -/
def offset : EvalError → Nat
  | malformed diagnostic => diagnostic.offset
  | undefinedVariable _ offset => offset

/-- The failure in words. -/
def message : EvalError → String
  | malformed diagnostic => diagnostic.message
  | undefinedVariable name offset => messageAt offset ("Unknown variable '" ++ name ++ "'.")

end EvalError

end DeskCalculator
