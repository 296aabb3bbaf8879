import DeskCalculator.Lexeme.Language
import Mathlib.Data.List.Induction
import Mathlib.Data.List.TakeWhile

/-!
# `DeskCalculator.Proofs.Double.Numeral`: what a numeral spells

A numeral is cut at its point, if it has one: `Cut` says what stands before
and behind it. What is read of a numeral depends on these two rows of digits
only (`Cut.ofDigits`, `Cut.isPositional`), so nothing else has to be said
about the search for the point.

* `ofNumeral?_of_spells`: every spelling of a number is read as one.
* `digitsValue_eq`: the digits read with the long part kept apart are the
  digits read one by one.
* `spelledDigits`, `spelledPlaces`: the decimal that a numeral spells.
-/

set_option autoImplicit false

namespace DeskCalculator.Double

open Lexeme (IsDigits Spells)

/-- The digits of a numeral before and behind its point. A whole number has
no point. Either row may be empty, so this covers spellings that begin or
end with the point. -/
inductive Cut : List Char → List Char → List Char → Prop where
  | whole {whole : List Char} : (∀ c ∈ whole, c.isDigit = true) → Cut whole whole []
  | point {whole fraction : List Char} : (∀ c ∈ whole, c.isDigit = true) →
      (∀ c ∈ fraction, c.isDigit = true) → Cut (whole ++ '.' :: fraction) whole fraction

namespace Cut

variable {numeral whole fraction : List Char}

/-- Where a numeral is cut. Everything about a numeral is said of what
stands in front of the cut and behind it. -/
theorem parts (h : Cut numeral whole fraction) :
    numeral.takeWhile (· ≠ '.') = whole ∧ (numeral.dropWhile (· ≠ '.')).drop 1 = fraction := by
  -- A digit is no point, so the point is where the digits end.
  have hpoint : ∀ {digits : List Char}, (∀ c ∈ digits, c.isDigit = true) →
      ∀ c ∈ digits, decide (c ≠ '.') = true := by
    intro digits hdigits c hc
    refine decide_eq_true fun hpoint => ?_
    have := hdigits c hc
    rw [hpoint] at this
    cases this
  cases h with
  | whole hwhole =>
      rw [List.takeWhile_eq_self_iff.mpr (hpoint hwhole),
        List.dropWhile_eq_nil_iff.mpr (hpoint hwhole)]
      exact ⟨rfl, rfl⟩
  | point hwhole hfraction =>
      rw [List.takeWhile_append_of_pos (hpoint hwhole),
        List.dropWhile_append_of_pos (hpoint hwhole)]
      simp

/-- All characters but the point are digits. A numeral has at most one
point, so behind the cut there is none. -/
theorem digits (h : Cut numeral whole fraction) : ∀ c ∈ whole ++ fraction, c.isDigit = true := by
  intro c hc
  cases h with
  | whole hwhole => exact hwhole c (by simpa using hc)
  | point hwhole hfraction => exact (List.mem_append.mp hc).elim (hwhole c) (hfraction c)

/-- What the digits spell. -/
theorem ofDigits (h : Cut numeral whole fraction) :
    Decimal.ofDigits numeral
      = { coefficient := digitsValue (whole ++ fraction), scale := fraction.length } := by
  rw [Decimal.ofDigits, h.parts.1, h.parts.2]

/-- A numeral that is cut is positional if there is a digit. A point alone
is no numeral, and the lexer yields none. -/
theorem isPositional (h : Cut numeral whole fraction) (hne : whole ++ fraction ≠ []) :
    isPositional numeral = true := by
  rw [Double.isPositional, h.parts.1, h.parts.2, Bool.and_eq_true, List.all_eq_true]
  exact ⟨by simpa using hne, h.digits⟩

end Cut

/-- A spelling of a number has a name or is cut at its point. It is the only
place where the five ways of spelling a number are gone through. -/
theorem cut_of_spells {lexeme : List Char} (h : Spells .number lexeme) :
    lexeme = nanNumeral ∨ lexeme = infinityNumeral ∨
      ∃ whole fraction, whole ++ fraction ≠ [] ∧ Cut lexeme whole fraction := by
  generalize hkind : Kind.number = kind at h
  cases h with
  | nan => exact .inl rfl
  | infinity => exact .inr (.inl rfl)
  | integer digits =>
      exact .inr (.inr ⟨lexeme, [], by simpa using digits.1, .whole digits.2⟩)
  | decimal hwhole hfraction =>
      exact .inr (.inr ⟨_, _, by simp [hwhole.1], .point hwhole.2 hfraction.2⟩)
  | @fraction digits hdigits =>
      exact .inr (.inr ⟨[], digits, hdigits.1, .point (List.forall_mem_nil _) hdigits.2⟩)
  | identifier first rest => cases hkind
  | fixed entry =>
      -- No fixed spelling is a number.
      subst hkind
      revert entry
      simp [Kind.spellings]

/-- A spelling of a number is read as that number. So no token of the kind
of numbers is left without one, and the fallback of `Lexeme.content` is
never used. -/
theorem ofNumeral?_of_spells {lexeme : List Char} (h : Spells .number lexeme) :
    ofNumeral? lexeme = some (ofNumeral lexeme) := by
  refine if_pos ?_
  rcases cut_of_spells h with hnan | hinfinity | ⟨whole, fraction, hne, hcut⟩
  · exact .inl hnan
  · exact .inr (.inl hinfinity)
  · exact .inr (.inr (hcut.isPositional hne))

/-- The digits read with the long part kept apart are the digits read one by
one. The right side is the library's, and its lemmas are available for the
left side with this. -/
theorem digitsValue_eq (digits : List Char) :
    digitsValue digits = Nat.ofDigitChars 10 digits 0 := by
  induction digits using List.reverseRecOn with
  | nil => rfl
  | append_singleton digits c ih =>
      rw [digitsValue_concat, ih, Nat.ofDigitChars_append, Nat.ofDigitChars_cons,
        Nat.ofDigitChars_nil, Nat.mul_comm]
      rfl

/-! ### Spelled decimals

What a numeral spells is said here by filtering its digits, which is not how
it is read. Statements about numerals are made in these terms. -/

/-- The natural that the digits of a numeral spell, with or without a point
among them. -/
def spelledDigits (numeral : List Char) : ℕ := Nat.ofDigitChars 10 (numeral.filter Char.isDigit) 0

/-- How many digits of a numeral stand behind its point, if it has one. -/
def spelledPlaces (numeral : List Char) : ℕ :=
  ((numeral.dropWhile (· ≠ '.')).filter Char.isDigit).length

/-- The digits of a numeral, and those behind its point. The point is the
only character of a numeral that is no digit, so filtering and cutting find
the same. -/
theorem Cut.filter_isDigit {numeral whole fraction : List Char} (h : Cut numeral whole fraction) :
    numeral.filter Char.isDigit = whole ++ fraction ∧
      (numeral.dropWhile (· ≠ '.')).filter Char.isDigit = fraction := by
  -- What is dropped in front of the point is the whole part.
  have hsplit : whole ++ numeral.dropWhile (· ≠ '.') = numeral := by
    rw [← h.parts.1, List.takeWhile_append_dropWhile]
  cases h with
  | whole hwhole =>
      rw [List.append_right_eq_self.mp hsplit, List.filter_eq_self.mpr hwhole, List.append_nil]
      exact ⟨rfl, rfl⟩
  | point hwhole hfraction =>
      have hpoint : Char.isDigit '.' ≠ true := by decide
      rw [List.append_cancel_left hsplit, List.filter_append, List.filter_cons_of_neg hpoint,
        List.filter_eq_self.mpr hwhole, List.filter_eq_self.mpr hfraction]
      exact ⟨rfl, rfl⟩

end DeskCalculator.Double
