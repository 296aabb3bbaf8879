import DeskCalculator.Proofs.Double.Bits
import DeskCalculator.Proofs.Double.Nearest
import DeskCalculator.Proofs.Double.Numeral

/-!
# `DeskCalculator.Proofs.Double.ReadBack`: a number that is written is read back

The text of a decimal is cut at its point into the digits of its whole part
and those of its fraction. The zeros left out at the end of the fraction are
a power of ten in both the coefficient and the scale, which rounding does
not see.

What is read need not be the decimal that was written, and this module does
not say that it is. Both round to the same pattern, and that is enough for
the number to come back.

* `Decimal.cut_text`, `Decimal.pattern_text`: what is read of the text of a
  decimal rounds to the same pattern as the decimal itself.
* `spells_magnitudeText`, `ofNumeral_magnitudeText`: so a magnitude is
  written as a number, and that number is the magnitude again.
* `written_chars`: every number is written as the spelling of one, with a
  sign where it has to be negated.
-/

set_option autoImplicit false

namespace DeskCalculator.Double

open Lexeme (IsDigits Spells)

/-! ### Digits

What digits spell, in the terms of the library. -/

/-- The digits of a natural are digits, and there is one at least, as zero
is written with one. -/
theorem isDigits_digits (n : Nat) : IsDigits (digits n) :=
  ⟨Nat.toDigits_ne_nil, fun _ hc => Nat.isDigit_of_mem_toDigits (by decide) (by decide) hc⟩

/-- The digits of a natural spell it. From the digits of the library to
those that numerals are read by. -/
@[simp] theorem digitsValue_digits (n : Nat) : digitsValue (digits n) = n := by
  rw [digitsValue_eq, digits, Nat.ofDigitChars_ten_toDigits]

/-- Digits behind others are worth as much less as there are of them. A
numeral is cut at its point by this. -/
theorem digitsValue_append (a b : List Char) :
    digitsValue (a ++ b) = digitsValue a * 10 ^ b.length + digitsValue b := by
  rw [digitsValue_eq, digitsValue_eq, digitsValue_eq, Nat.ofDigitChars_append,
    Nat.ofDigitChars_eq_ofDigitChars_zero, Nat.mul_comm]

/-- Zeros are worth nothing. They are written in front of a fraction that
begins with some. -/
@[simp] theorem digitsValue_zeros (k : Nat) : digitsValue (List.replicate k '0') = 0 := by
  rw [digitsValue_eq, Nat.ofDigitChars_replicate_zero, Nat.mul_zero]

/-! ### The fraction

A fraction is written with zeros in front of it and without zeros behind
it. -/

/-- The places of a fraction are digits that spell it. The bound says that
it fits: without it there would be no room for zeros in front, and the
subtraction that counts them would be cut off. -/
theorem places_spec (scale : Nat) {fraction : Nat} (h : fraction < 10 ^ scale) :
    (places scale fraction).length = scale ∧ digitsValue (places scale fraction) = fraction ∧
      ∀ c ∈ places scale fraction, c.isDigit = true := by
  -- What is written of the fraction, behind the zeros that fill it up:
  -- nothing at all if it is zero.
  have hwritten : ∃ written, places scale fraction
        = List.replicate (scale - written.length) '0' ++ written ∧
      written.length ≤ scale ∧ digitsValue written = fraction ∧
        ∀ c ∈ written, c.isDigit = true := by
    refine ⟨if fraction = 0 then [] else digits fraction, rfl, ?_⟩
    split
    · next hzero => exact ⟨Nat.zero_le _, hzero.symm, List.forall_mem_nil _⟩
    · next hzero =>
        -- A fraction that is not zero has a place.
        have hscale : 0 < scale := by
          refine Nat.pos_of_ne_zero fun hs => ?_
          rw [hs, Nat.pow_zero] at h
          omega
        exact ⟨(Nat.length_toDigits_le_iff (by decide) hscale).mpr h, digitsValue_digits fraction,
          (isDigits_digits fraction).2⟩
  obtain ⟨written, hplaces, hlength, hvalue, hdigits⟩ := hwritten
  rw [hplaces]
  refine ⟨?_, ?_, fun c hc => ?_⟩
  · rw [List.length_append, List.length_replicate, Nat.sub_add_cancel hlength]
  · rw [digitsValue_append, digitsValue_zeros, hvalue, Nat.zero_mul, Nat.zero_add]
  · rcases List.mem_append.mp hc with hc | hc
    · rw [List.eq_of_mem_replicate hc]
      rfl
    · exact hdigits c hc

/-- The digits of a fraction are its places without zeros at their end. They
are found from behind, so the places are reversed twice. -/
theorem exists_zeros (scale fraction : Nat) :
    ∃ k, places scale fraction = fractionDigits scale fraction ++ List.replicate k '0' := by
  let zeros := (places scale fraction).reverse.takeWhile (· = '0')
  have hzeros : zeros.reverse = List.replicate zeros.length '0' := by
    refine List.eq_replicate_iff.mpr ⟨List.length_reverse, fun c hc => ?_⟩
    simpa using List.mem_takeWhile_imp (List.mem_reverse.mp hc)
  refine ⟨zeros.length, ?_⟩
  rw [← hzeros, fractionDigits, ← List.reverse_append, List.takeWhile_append_dropWhile,
    List.reverse_reverse]

/-! ### Decimals

A decimal is written in two parts, and the same two parts are read. -/

namespace Decimal

variable (d : Decimal)

/-- The digits of the fraction of a decimal. -/
def fraction : List Char := fractionDigits d.scale (d.coefficient % Nat.pow 10 d.scale)

/-- The digits of the whole part of a decimal. It is written even if it is
zero. -/
def whole : List Char := digits (d.coefficient / Nat.pow 10 d.scale)

/-- The whole part of a decimal has a digit, so it may stand in front of a
point. -/
theorem isDigits_whole : IsDigits d.whole := isDigits_digits _

/-- The text of a decimal is its whole part, and its fraction behind a point
if there is one. This names the two parts that the definition computes in
passing. -/
theorem text_eq : d.text = d.whole ++ if d.fraction.isEmpty then [] else '.' :: d.fraction := rfl

/-- With some zeros behind them, the digits of a decimal are those of its
coefficient. How many zeros were left out is not said, only that the scale
accounts for them. -/
theorem exists_digitsValue :
    ∃ k, d.fraction.length + k = d.scale ∧
      digitsValue (d.whole ++ d.fraction) * 10 ^ k = d.coefficient ∧
        ∀ c ∈ d.fraction, c.isDigit = true := by
  have hlt : d.coefficient % 10 ^ d.scale < 10 ^ d.scale := Nat.mod_lt _ (Nat.pow_pos (by decide))
  obtain ⟨hlength, hvalue, hdigits⟩ := places_spec d.scale hlt
  obtain ⟨k, hk⟩ := exists_zeros d.scale (d.coefficient % 10 ^ d.scale)
  have hk : places d.scale (d.coefficient % 10 ^ d.scale)
      = d.fraction ++ List.replicate k '0' := hk
  refine ⟨k, ?_, ?_, fun c hc => hdigits c (hk ▸ List.mem_append_left _ hc)⟩
  · rw [← hlength, hk, List.length_append, List.length_replicate]
  · calc digitsValue (d.whole ++ d.fraction) * 10 ^ k
        = digitsValue (d.whole ++ (d.fraction ++ List.replicate k '0')) := by
          rw [← List.append_assoc, digitsValue_append _ (List.replicate k '0'), digitsValue_zeros,
            List.length_replicate, Nat.add_zero]
      _ = d.coefficient / 10 ^ d.scale * 10 ^ d.scale + d.coefficient % 10 ^ d.scale := by
          rw [← hk, digitsValue_append, hlength, hvalue, whole, digitsValue_digits]
          rfl
      _ = d.coefficient := Nat.div_add_mod' _ _

/-- The text of a decimal is cut between its whole part and its fraction, so
the same two parts are read of it. -/
theorem cut_text : Cut d.text d.whole d.fraction := by
  obtain ⟨k, -, -, hdigits⟩ := d.exists_digitsValue
  have hwhole := d.isDigits_whole.2
  rw [text_eq]
  cases hfraction : d.fraction with
  | nil => simpa using Cut.whole hwhole
  | cons c fraction => exact .point hwhole (hfraction ▸ hdigits)

/-- The text of a decimal spells a number, as an integer if there is no
fraction. -/
theorem spells_text : Spells .number d.text := by
  obtain ⟨k, -, -, hdigits⟩ := d.exists_digitsValue
  have hwhole := d.isDigits_whole
  rw [text_eq]
  cases hfraction : d.fraction with
  | nil => simpa using Spells.integer hwhole
  | cons c fraction => exact .decimal hwhole ⟨List.cons_ne_nil _ _, hfraction ▸ hdigits⟩

/-- What is read of the text of a decimal rounds to the same pattern. The
decimal that is read may have fewer places: it lacks the zeros at the end,
which make numerator and denominator the same factor larger. -/
theorem pattern_text : (ofDigits d.text).pattern = d.pattern := by
  obtain ⟨k, hscale, hvalue, -⟩ := d.exists_digitsValue
  have hpos : 0 < 10 ^ k := Nat.pow_pos (by decide)
  rw [d.cut_text.ofDigits, pattern, pattern, ← nearest_mul _ _ hpos, hvalue]
  refine congrArg (nearest d.coefficient) ?_
  show 10 ^ d.fraction.length * 10 ^ k = 10 ^ d.scale
  rw [← Nat.pow_add, hscale]

end Decimal

/-! ### Magnitudes

The magnitude of a number is written as its shortest decimal, or by its
name. -/

/-- A numeral with a cut is not one of the two that are names. So it is read
as a decimal. -/
theorem Cut.ofNumeral {numeral whole fraction : List Char} (h : Cut numeral whole fraction) :
    ofNumeral numeral = (Decimal.ofDigits numeral).toNumber := by
  have hname : ∀ name, (name = nanNumeral ∨ name = infinityNumeral) → numeral ≠ name := by
    rintro name hname rfl
    have hdigits := h.digits
    rw [← h.parts.1, ← h.parts.2] at hdigits
    -- Both names have a letter behind their point, which is no digit.
    rcases hname with rfl | rfl
    · exact Bool.false_ne_true (hdigits 'n' (by decide))
    · exact Bool.false_ne_true (hdigits 'n' (by decide))
  rw [Double.ofNumeral, if_neg (hname _ (.inl rfl)), if_neg (hname _ (.inr rfl))]

/-- A magnitude is written as a number: the name of infinity, or the
shortest decimal. -/
theorem spells_magnitudeText (p : Nat) : Spells .number (magnitudeText p) := by
  rw [magnitudeText]
  split
  · exact .infinity
  · exact (shortest p).spells_text

/-- A magnitude that is written is read back. That the shortest decimal
rounds to its pattern is `pattern_shortest`. -/
theorem ofNumeral_magnitudeText {p : Nat} (hp : p ≤ infinitePattern) :
    ofNumeral (magnitudeText p) = ofPattern p := by
  rw [magnitudeText]
  split
  · next hinfinite =>
      rw [hinfinite]
      rfl
  · rw [(shortest p).cut_text.ofNumeral, Decimal.toNumber, Decimal.pattern_text,
      pattern_shortest hp]

/-! ### Numbers -/

/-- The characters are a spelling of the number, or a sign and a spelling of
the negated number. The sign is no part of a numeral: where the text is
evaluated, it is a token of its own, and negates what follows. -/
inductive Written (x : Float) : List Char → Prop where
  | unsigned {numeral : List Char} : Spells .number numeral → ofNumeral numeral = x →
      Written x numeral
  | signed {numeral : List Char} : Spells .number numeral → -ofNumeral numeral = x →
      Written x ('-' :: numeral)

/-- What is written of a number is read back as that number, the one that is
none included. -/
theorem written_chars (x : Float) : Written x (chars x) := by
  rw [chars]
  split
  · next hnan => exact .unsigned .nan (eq_nan hnan).symm
  · next hnumber =>
      have hpattern : pattern x ≤ infinitePattern := pattern_le (Bool.not_eq_true _ ▸ hnumber)
      split
      · -- The sign is taken off before the magnitude is written, and is
        -- applied to what is read.
        next hnegative =>
          refine .signed (spells_magnitudeText _) ?_
          rw [ofNumeral_magnitudeText hpattern, neg_ofPattern_pattern hnegative]
      · next hpositive =>
          refine .unsigned (spells_magnitudeText _) ?_
          rw [ofNumeral_magnitudeText hpattern,
            ofPattern_pattern (Bool.not_eq_true _ ▸ hpositive)]

end DeskCalculator.Double
