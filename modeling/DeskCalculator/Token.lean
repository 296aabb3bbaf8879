import DeskCalculator.Token.Kind

/-!
# `DeskCalculator.Token`: tokens

A token is its content and the span of bytes that it covers. Numbers and
identifiers carry what they spell; of all other tokens the kind says
everything. What a run computes depends on the contents of its tokens only.
The spans are there for what it reports, and a token whose span is another
one is complained about elsewhere.

Two tokens are *alike* if they cover the same span and their contents
compare equal, numbers as numbers: zero is like minus zero, and the number
that is none is not even like itself.
-/

set_option autoImplicit false

namespace DeskCalculator

/-- What a token carries. `bare` is for the kinds without a payload, and
only with these does the tokenizer use it (`kind_of_content_bare`). -/
inductive Content where
  | number (value : Number)
  | identifier (name : String)
  /-- A kind and nothing else. -/
  | bare (kind : Kind)
  deriving DecidableEq

namespace Content

/-- The kind of what is carried. It is all that the grammar looks at, apart
from the payload of an operand. -/
def kind : Content → Kind
  | number _ => .number
  | identifier _ => .identifier
  | bare kind => kind

/-- Equality with numbers compared as numbers. -/
def alike : Content → Content → Bool
  | number x, number y => x.alike y
  | identifier m, identifier n => m = n
  | bare k, bare l => k = l
  | _, _ => false

end Content

/-- The bytes of a piece of a text: the offsets of the first one and of the
one after the last. Nothing here says that the offsets are in order or that
they lie between characters; for the tokens of a text this is a theorem. -/
structure Span where
  start : Nat
  stop : Nat
  deriving DecidableEq

/-- A piece of a text: the bytes that it covers and its content. The
characters themselves are not kept; who wants to quote them takes them from
the text (`slice`). -/
structure Token extends Span where
  content : Content
  deriving DecidableEq

namespace Token

/-- A token that carries a number. -/
def number (value : Number) (span : Span) : Token := { span with content := .number value }

/-- A token that carries a name. -/
def identifier (name : String) (span : Span) : Token := { span with content := .identifier name }

/-- A token that carries nothing. -/
def bare (kind : Kind) (span : Span) : Token := { span with content := .bare kind }

/-- The mark after the last token of a text of the given length in bytes. It
covers nothing, and is where a text is complained about that ends too
early. -/
def endOfInput (length : Nat) : Token := bare .endOfInput ⟨length, length⟩

/-- The kind of a token. -/
def kind (t : Token) : Kind := t.content.kind

/-- The number that a token carries. -/
def number? (t : Token) : Option Number :=
  match t.content with
  | .number value => some value
  | _ => none

/-- The name that a token carries. -/
def identifier? (t : Token) : Option String :=
  match t.content with
  | .identifier name => some name
  | _ => none

/-- Same span, and contents that compare equal. -/
def alike (s t : Token) : Bool :=
  s.content.alike t.content && s.toSpan = t.toSpan

end Token

end DeskCalculator
