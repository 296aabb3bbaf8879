import DeskCalculator.Token

/-!
# `DeskCalculator.Lexeme`: which characters make one token

A table of rules, each a kind and the length of the longest beginning of a
text that spells it. `munch` takes the longest beginning that any rule
allows, or one character that starts no token. Each rule measures on its
own, so a rule that is left halfway (the point of `5.x`) costs nothing: the
others still stand.

What the rules are for is said without them in `Lexeme/Language.lean`, and
`Proofs/Lexeme/Munch.lean` proves that the longest beginning which is a
spelling is the one taken.
-/

set_option autoImplicit false

namespace DeskCalculator.Lexeme

/-! ### Characters -/

/-- A decimal digit; digits of other scripts are no digits here. -/
def isDigit (c : Char) : Bool := '0' ≤ c && c ≤ '9'

/-- A character that can begin an identifier: an ASCII letter or the low
line. -/
def isLetter (c : Char) : Bool := ('A' ≤ c && c ≤ 'Z') || ('a' ≤ c && c ≤ 'z') || c = '_'

/-- A character that can go on an identifier. -/
def isWordChar (c : Char) : Bool := isLetter c || isDigit c

/-! ### Rules -/

/-- How many characters at the beginning of a text satisfy `p`. All rules
but those of fixed words are made of this. -/
def runLength (p : Char → Bool) (text : List Char) : Nat := (text.takeWhile p).length

/-- Digits. -/
def integerLength (text : List Char) : Nat := runLength isDigit text

/-- A point and digits. A point alone is nothing, and leaves `5.` to the
digits before it. -/
def fractionLength : List Char → Nat
  | '.' :: rest =>
    let places := runLength isDigit rest
    if places = 0 then 0 else places + 1
  | _ => 0

/-- Digits, a point and digits, all three of which have to be there. -/
def decimalLength (text : List Char) : Nat :=
  let whole := runLength isDigit text
  let fraction := fractionLength (text.drop whole)
  if whole = 0 ∨ fraction = 0 then 0 else whole + fraction

/-- A letter, then letters and digits. -/
def identifierLength : List Char → Nat
  | c :: rest => if isLetter c then runLength isWordChar rest + 1 else 0
  | [] => 0

/-- One fixed spelling, which is taken as a whole or not at all. -/
def wordLength (word text : List Char) : Nat := if word.isPrefixOf text then word.length else 0

/-- A kind and the length of the longest beginning of a text that spells it,
zero if none does. No spelling is empty, so zero can stand for none. -/
structure Rule where
  kind : Kind
  length : List Char → Nat

/-- All rules. No text is spelled by rules of two kinds, so their order does
not matter: of two rules that take equally many characters, both are of one
kind. -/
def rules : List Rule :=
  [⟨.number, integerLength⟩, ⟨.number, decimalLength⟩, ⟨.number, fractionLength⟩,
    ⟨.number, wordLength Double.nanNumeral⟩, ⟨.number, wordLength Double.infinityNumeral⟩,
    ⟨.identifier, identifierLength⟩]
  ++ Kind.spellings.map fun entry => ⟨entry.2, wordLength entry.1.toList⟩

/-- The kind and length found by the rule that goes furthest, of several the
first one; length zero if none applies. -/
def furthest (text : List Char) : Kind × Nat :=
  rules.foldl
    (fun best rule =>
      let length := rule.length text
      if best.2 < length then (rule.kind, length) else best)
    (.unknown, 0)

/-- The kind and length of the first token of a text that is not empty and
begins with no gap. Of an unknown character it takes one, and the next one
is a token of its own. -/
def munch (text : List Char) : Kind × Nat :=
  let best := furthest text
  if best.2 = 0 then (.unknown, 1) else best

/-- What a token of a kind carries, given the characters that it covers. A
numeral that spells no number would be left unknown. No rule for numbers
takes such a numeral, so this does not happen, but the definition does not
have to know that. -/
def content (kind : Kind) (lexeme : List Char) : Content :=
  match kind with
  | .number =>
    match Double.ofNumeral? lexeme with
    | some x => .number (.double x)
    | none => .bare .unknown
  | .identifier => .identifier (String.ofList lexeme)
  | kind => .bare kind

end DeskCalculator.Lexeme
