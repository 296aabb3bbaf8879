import DeskCalculator.Double.Text

/-!
# `DeskCalculator.Number`: the numbers of the calculator

Every binary64 number, with two that are no numbers: the quiet one, which
arithmetic yields where there is no value, and the signalling one, which no
text spells and no arithmetic yields, but which a variable can be given from
outside. They differ in one operation. A power whose base is one, or whose
exponent is zero, is one whatever the other operand, even if that is no
number; but a signalling operand is an error, and its result is no number.
Moving a number about, and changing its sign, leaves it as it is; all other
arithmetic makes it quiet.
-/

set_option autoImplicit false

namespace DeskCalculator

/-- A number, the two that are none included. It is what tokens carry, what
variables are bound to and what a text has as its value. -/
inductive Number where
  /-- A double. If it is no number, it is the quiet one. -/
  | double (x : Float)
  /-- The signalling one that is no number. -/
  | signalling
  deriving DecidableEq

namespace Number

/-- The double of a number; the signalling one becomes quiet. For all that
computes with a number, compares it or writes it. -/
def toDouble : Number → Float
  | double x => x
  | signalling => Double.nan

/-- The quiet one that is no number. -/
def nan : Number := double Double.nan

/-- Whether a pattern is that of a signalling one: no number, and without
the highest bit of the fraction. The patterns that are no number begin
behind that of infinity, so what is left to test is that they end before the
first quiet one. -/
def isSignallingPattern (p : Nat) : Bool :=
  Double.infinitePattern < p && p < Double.infinitePattern + Double.binade / 2

/-- The number of the given bits. Only here can a signalling one come in. It
is kept apart as a constructor, because a `Float` does not show which bits
it was made of once it is no number. -/
def ofBits (bits : UInt64) : Number :=
  if isSignallingPattern (bits.toNat % Nat.pow 2 63) then signalling else double (Float.ofBits bits)

/-! ### Arithmetic -/

/-- The number with the other sign. What is no number stays what it is: a
sign is no arithmetic. -/
def neg : Number → Number
  | double x => double (-x)
  | signalling => signalling

instance : Neg Number := ⟨neg⟩

/-- An operation on the doubles. It makes a signalling operand quiet before
the operation sees it. -/
def arithmetic (operation : Float → Float → Float) (x y : Number) : Number :=
  double (operation x.toDouble y.toDouble)

/-- The power of a base. Unlike the other operations it cannot treat a
signalling operand as a quiet one: one to the power of a quiet one is one,
and of a signalling one it is no number. -/
def pow : Number → Number → Number
  | double x, double y => double (Float.pow x y)
  | _, _ => nan

/-- Whether two numbers compare equal. Zero equals minus zero, and what is
no number equals nothing. So this is no equivalence, and it is `=` that
theorems about equal results are stated with. -/
def alike (x y : Number) : Bool := x.toDouble == y.toDouble

/-! ### Text -/

/-- The text of a number. The two that are none are written alike. -/
def text (x : Number) : String := Double.text x.toDouble

/-- The lowest bit alone makes no quiet one; the highest bit of the fraction
does, whatever the sign. -/
example : ofBits 0x7FF0000000000001 = signalling ∧ ofBits 0xFFF7FFFFFFFFFFFF = signalling ∧
    ofBits 0x7FF8000000000000 = nan ∧ ofBits 0xFFF8000000000001 = nan ∧
    ofBits 0x7FF0000000000000 = double Double.infinity := by decide +kernel

end Number

end DeskCalculator
