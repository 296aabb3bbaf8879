import DeskCalculator.Text.Blank

/-!
# `DeskCalculator.Text.Line`: the lines of a text

A text is cut into lines in two ways, one for each way in which lines reach
the program.

* What is typed in arrives line by line, as bytes. `byteLines` is this
  division of the input: a line ends behind its end mark, and what follows
  the last mark is a line of its own unless it is empty. `lines` divides
  characters in the same way, and `content` is what is left of a line
  without the marks at its end. Nothing is lost by the division
  (`flatten_cutBehind`).
* A script is there as a whole. `entries` takes what stands *between* its
  end marks, without the carriage returns in front of them, and drops what
  is blank.

`Proofs/Text/Lines.lean` shows that both ways find the same texts to
evaluate.
-/

set_option autoImplicit false

namespace DeskCalculator.Text

/-! ### Cutting behind a mark -/

/-- One item put before the pieces of what follows it: a piece of its own if
it is an end mark, and else the beginning of the first piece. -/
def cutStep {α : Type} (isEnd : α → Bool) (item : α) (pieces : List (List α)) : List (List α) :=
  if isEnd item then [item] :: pieces
  else
    match pieces with
    | [] => [[item]]
    | piece :: pieces => (item :: piece) :: pieces

/-- The pieces of a list cut behind each item that is an end mark. It is
generic in the items, so that characters and bytes are cut by one definition
and have one theory. -/
def cutBehind {α : Type} (isEnd : α → Bool) (items : List α) : List (List α) :=
  items.foldr (cutStep isEnd) []

/-- The lines of a text, with their end marks. -/
def lines (text : List Char) : List (List Char) := cutBehind (· = '\n') text

/-- The lines of a row of bytes, with their end marks. In UTF-8 no other
character holds the byte of the end mark. -/
def byteLines (bytes : List UInt8) : List (List UInt8) := cutBehind (· = 0x0A) bytes

/-- A step adds its item in front. -/
theorem flatten_cutStep {α : Type} (isEnd : α → Bool) (item : α) (pieces : List (List α)) :
    (cutStep isEnd item pieces).flatten = item :: pieces.flatten := by
  unfold cutStep
  split
  · rfl
  · cases pieces <;> rfl

/-- The pieces put together are the list. Nothing is lost by cutting, end
marks included. -/
theorem flatten_cutBehind {α : Type} (isEnd : α → Bool) (items : List α) :
    (cutBehind isEnd items).flatten = items := by
  induction items with
  | nil => rfl
  | cons item items ih =>
      rw [cutBehind, List.foldr_cons, flatten_cutStep]
      exact congrArg (item :: ·) ih

/-- The lines of a text that ends without a mark, and of one that ends with
two. -/
example : lines ['a', '\r', '\n', 'b'] = [['a', '\r', '\n'], ['b']] ∧
    lines ['a', '\n', '\n'] = [['a', '\n'], ['\n']] := by decide

/-! ### What is evaluated -/

/-- A character that ends a line, alone or with others. Each of them at the
end of a line is taken off. -/
def isLineEnd (c : Char) : Bool := c = '\n' || c = '\r'

/-- A line without the characters that end it. All of them are dropped, also
several carriage returns in a row. -/
def content (line : List Char) : List Char := (line.reverse.dropWhile isLineEnd).reverse

/-- A row of characters without the carriage returns at its end. -/
def dropReturns (piece : List Char) : List Char := (piece.reverse.dropWhile (· = '\r')).reverse

/-- The texts that a script has evaluated: what stands between its end
marks, without the carriage returns at its end, unless it is blank. Where a
script ends with a mark there is nothing behind it, and that is blank. -/
def entries (text : List Char) : List (List Char) :=
  ((text.splitOn '\n').map dropReturns).filter fun line => !isBlank line

end DeskCalculator.Text
