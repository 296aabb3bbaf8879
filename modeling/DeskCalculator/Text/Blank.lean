/-!
# `DeskCalculator.Text.Blank`: white space

The code points with the Unicode property `White_Space`, which make up a
blank line. The gaps between tokens are narrower: see `isGap`.
-/

set_option autoImplicit false

namespace DeskCalculator.Text

/-- The ranges of code points that are white space, both ends included. They
are those of the Unicode property, written out, since the library knows the
ASCII ones only. -/
def whiteSpaceRanges : List (Nat × Nat) :=
  [(0x0009, 0x000D), (0x0020, 0x0020), (0x0085, 0x0085), (0x00A0, 0x00A0), (0x1680, 0x1680),
    (0x2000, 0x200A), (0x2028, 0x2029), (0x202F, 0x202F), (0x205F, 0x205F), (0x3000, 0x3000)]

/-- Whether a character is white space. -/
def isWhiteSpace (c : Char) : Bool :=
  whiteSpaceRanges.any fun range => range.1 ≤ c.toNat && c.toNat ≤ range.2

/-- Whether a row of characters is blank. A row without characters is. -/
def isBlank (text : List Char) : Bool := text.all isWhiteSpace

/-- The ranges hold 25 code points. -/
example : (whiteSpaceRanges.map fun range => range.2 + 1 - range.1).sum = 25 := by decide

end DeskCalculator.Text
