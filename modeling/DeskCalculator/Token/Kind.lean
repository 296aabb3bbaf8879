import DeskCalculator.Operator

/-!
# `DeskCalculator.Token.Kind`: the kinds of tokens

The kinds, the table of the fixed spellings, and what a kind means to the
grammar: whether it can start a factor, and which operation it stands for.
The two comparisons and the two shifts have spellings and no operation: they
are tokens that no sentence contains.

The rules that read a token and the words that messages use for it both take
its spelling from the table `spellings`, so they cannot disagree.
-/

set_option autoImplicit false

namespace DeskCalculator

/-- What a token is. Complaints speak of kinds only, and so does most of
what decides a step. -/
inductive Kind where
  | number
  | identifier
  | shiftRight
  | shiftLeft
  | assign
  | greater
  | less
  | caret
  | star
  | slash
  | plus
  | minus
  | semicolon
  | openParen
  | closeParen
  /-- A character that starts no token. -/
  | unknown
  /-- The mark after the last token. -/
  | endOfInput
  deriving Repr, DecidableEq

namespace Kind

/-- The fixed spellings, each with its kind. The two spellings of two
characters begin with one of a single character; that the longer one is
taken is no matter of this order, since `Lexeme.munch` takes the longest. -/
def spellings : List (String × Kind) :=
  [(">>", shiftRight), ("<<", shiftLeft), ("=", assign), (">", greater), ("<", less), ("^", caret),
    ("*", star), ("/", slash), ("+", plus), ("-", minus), (";", semicolon), ("(", openParen),
    (")", closeParen)]

/-- The one spelling of a kind that has a fixed one. Numbers and identifiers
have many, and an unknown character and the mark at the end have none. -/
def spelling? (kind : Kind) : Option String :=
  (spellings.find? fun entry => entry.2 = kind).map Prod.fst

/-- The kinds that can start a factor, in the order in which messages name
them. They are what is expected where an operand is missing, although a sign
or an assignment may begin one as well. -/
def factorStarts : List Kind := [identifier, number, openParen]

/-- Whether a token of this kind can start a factor. Behind a factor such a
token starts another one, with no mark between them. -/
def startsFactor (kind : Kind) : Bool := factorStarts.contains kind

/-- The operation that a kind stands for. An assignment is none: its left
side has no value. -/
def operator? : Kind → Option BinaryOperator
  | plus => some .add
  | minus => some .sub
  | star => some .mul
  | slash => some .div
  | caret => some .pow
  | semicolon => some .sequence
  | _ => none

/-- The name of a kind in messages: its spelling in quotes, or words where
it has none. -/
def describe : Kind → String
  | number => "number"
  | identifier => "identifier"
  | unknown => "unknown character"
  | endOfInput => "end of input"
  | kind => "'" ++ kind.spelling?.getD "" ++ "'"

end Kind

end DeskCalculator
