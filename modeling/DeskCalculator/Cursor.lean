import DeskCalculator.Lexeme
import DeskCalculator.Text.Bytes

/-!
# `DeskCalculator.Cursor`: reading a text token by token

A cursor is what is left of a text and the byte offset at which it stands.
`next?` reads the next token, if there is one; `tokens` reads them all, and
`tokenize` adds the mark after the last.

A token is read from what is left of the text alone. What was read before it
shows in the offsets only, and this is what makes the tokens of a text that
is put together from two the tokens of both.

A `Reader` is a cursor that can also be run to its end like a stream:
reading token by token goes on giving the mark for ever, while the stream
gives it once and is then over. Readers are values, so a copy goes its own
way.
-/

set_option autoImplicit false

namespace DeskCalculator

open Text (byteLength)

/-- A space or a tab: what may stand between tokens. An end of a line is
none, so it is an unknown character like any other that begins no token. -/
def isGap (c : Char) : Bool := c = ' ' || c = '\t'

/-- A place in a text. The offset is counted in bytes and the rest in
characters; that both are about one place is `Cursor.StandsIn`, and is not
asked of the structure so that a proof can start a cursor anywhere. -/
structure Cursor where
  /-- The text from here on. -/
  rest : List Char
  /-- How many bytes lie before. -/
  offset : Nat := 0
  deriving Repr, DecidableEq

namespace Cursor

/-- The beginning of a text. -/
def ofText (text : String) : Cursor := { rest := text.toList }

/-- The cursor moved over the next `count` characters, or to the end if
there are not so many. -/
def advance (c : Cursor) (count : Nat) : Cursor :=
  { rest := c.rest.drop count, offset := c.offset + byteLength (c.rest.take count) }

/-- The cursor moved over the gap before the next token. -/
def skipGap (c : Cursor) : Cursor := c.advance (c.rest.takeWhile isGap).length

/-- The next token and the cursor behind it; none at the end. The gap in
front of it is in no token. -/
def next? (c : Cursor) : Option (Token × Cursor) :=
  let start := c.skipGap
  if start.rest.isEmpty then none
  else
    let (kind, length) := Lexeme.munch start.rest
    let stop := start.advance length
    some
      ({ start := start.offset, stop := stop.offset
         content := Lexeme.content kind (start.rest.take length) }, stop)

/-- The next token, at the end the mark, and the cursor behind it. At the
end the cursor moves over the last gap and no further, so the mark is given
again and again. -/
def next (c : Cursor) : Token × Cursor :=
  c.next?.getD (Token.endOfInput c.skipGap.offset, c.skipGap)

/-- At most `bound` further tokens, behind those in `read`, which are in
reverse. The bound makes the recursion structural, and the tokens read so
far are handed down so that it is a loop. -/
def collect : Nat → Cursor → List Token → List Token
  | 0, _, read => read.reverse
  | bound + 1, c, read =>
    match c.next? with
    | none => read.reverse
    | some (t, c) => collect bound c (t :: read)

/-- All tokens from here on. A token covers a character, so there are no
more of them than characters, and the bound is never what ends the reading.
`tokens_eq_cons` and `tokens_eq_nil` are the equations without a bound. -/
def tokens (c : Cursor) : List Token := c.collect c.rest.length []

end Cursor

/-- All tokens of a text and the mark after the last one. The mark stands
behind the gap at the end, at the length of the text. -/
def tokenize (text : String) : List Token :=
  (Cursor.ofText text).tokens ++ [Token.endOfInput (byteLength text.toList)]

/-- A cursor over a text, together with whether its stream is over. The text
is kept because the mark that `drain` gives stands at its end. -/
structure Reader where
  text : String
  cursor : Cursor := Cursor.ofText text
  ended : Bool := false

namespace Reader

/-- The next token, or the mark as often as it is asked for at the end. This
leaves the stream as it is. -/
def read (r : Reader) : Token × Reader :=
  let (t, cursor) := r.cursor.next
  (t, { r with cursor })

/-- The next token of the stream. The mark is the last one. -/
def next? (r : Reader) : Option Token × Reader :=
  if r.ended then (none, r)
  else
    let (t, r) := r.read
    (some t, { r with ended := t.kind = .endOfInput })

/-- All that is left of the stream. It is what `next?` yields one after the
other (`drain_eq_next?`), read in one go. -/
def drain (r : Reader) : List Token × Reader :=
  if r.ended then ([], r)
  else
    let stop := byteLength r.text.toList
    (r.cursor.tokens ++ [Token.endOfInput stop], { r with cursor := ⟨[], stop⟩, ended := true })

end Reader

end DeskCalculator
