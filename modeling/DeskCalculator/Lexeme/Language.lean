import DeskCalculator.Lexeme

/-!
# `DeskCalculator.Lexeme.Language`: what the tokens of a kind can look like

The languages of the rules in `Lexeme`, said without measuring anything:
`Spells kind text` holds if `text`, all of it, is a spelling of a token of
that kind. It says nothing about what comes before or behind, and nothing
about which of several beginnings of a text is taken. Statements about the
tokens of a text are made in terms of it, so that they do not quote the
rules that they are about.
-/

set_option autoImplicit false

namespace DeskCalculator.Lexeme

/-- Decimal digits, at least one. Leading zeros are allowed, also in front
of a point. -/
def IsDigits (text : List Char) : Prop := text ≠ [] ∧ ∀ c ∈ text, isDigit c = true

/-- The spellings of each kind. There are five ways to spell a number, one
to spell a name, and one for each entry of the table of fixed spellings;
nothing spells an unknown character or the mark at the end. -/
inductive Spells : Kind → List Char → Prop where
  | integer {whole : List Char} : IsDigits whole → Spells .number whole
  | decimal {whole fraction : List Char} :
      IsDigits whole → IsDigits fraction → Spells .number (whole ++ '.' :: fraction)
  | fraction {fraction : List Char} : IsDigits fraction → Spells .number ('.' :: fraction)
  | nan : Spells .number Double.nanNumeral
  | infinity : Spells .number Double.infinityNumeral
  | identifier {first : Char} {rest : List Char} :
      isLetter first = true → (∀ c ∈ rest, isWordChar c = true) →
        Spells .identifier (first :: rest)
  | fixed {spelling : String} {kind : Kind} :
      (spelling, kind) ∈ Kind.spellings → Spells kind spelling.toList

end DeskCalculator.Lexeme
