import DeskCalculator.Proofs.Double.ReadBack
import DeskCalculator.Proofs.Double.Value
import DeskCalculator.Proofs.Tokens.Tiling

/-!
# `DeskCalculator.Proofs.Tokens.Numeral`: the number that a token carries

A token that is a number carries the double that its characters are rounded
to: they are read as a decimal, whose coefficient is spelled by the digits
(`spelledDigits`), and whose scale is how many of them stand behind the
point (`spelledPlaces`). However many digits there are, the decimal is
rounded once: `tokenize_rounds`.

That a decimal is rounded to nearest is proved in `Proofs.Double.Value`;
what a spelling is as a decimal comes from `Proofs.Double.Numeral`. Here the
two are put together for a token of a text. The names of NaN and infinity
spell numbers too, but no decimals, and are excluded by hypotheses.
-/

set_option autoImplicit false

namespace DeskCalculator

open Lexeme (Spells)

namespace Double

/-- A spelling of a number that is no name is rounded to its number. The
spelling is cut at its point; `spelledDigits` goes by the characters and
knows nothing of the cut, so the two have to be compared. -/
theorem roundsTo_ofNumeral {numeral : List Char} (h : Spells .number numeral)
    (hnan : numeral ≠ nanNumeral) (hinfinity : numeral ≠ infinityNumeral) :
    RoundsTo (spelledDigits numeral / 10 ^ spelledPlaces numeral) (ofNumeral numeral) := by
  rcases cut_of_spells h with heq | heq | ⟨whole, fraction, -, hcut⟩
  · exact absurd heq hnan
  · exact absurd heq hinfinity
  · obtain ⟨hdigits, hplaces⟩ := hcut.filter_isDigit
    rw [spelledDigits, spelledPlaces, hdigits, hplaces, ← digitsValue_eq, hcut.ofNumeral,
      hcut.ofDigits]
    exact Decimal.roundsTo_toNumber ⟨digitsValue (whole ++ fraction), fraction.length⟩

end Double

/-- A lexeme that carries a number spells it. An unknown character carries
none, so there is no fallback that could give a number to a token. -/
theorem Lexeme.Lexed.spells_number {lexeme rest : List Char} {content : Content}
    (h : Lexed rest lexeme content) (hkind : content.kind = .number) :
    Spells .number lexeme ∧ content = .number (.double (Double.ofNumeral lexeme)) := by
  cases h with
  | @spelled kind lexeme spells longest =>
      obtain rfl := (content_kind_of_spells spells).symm.trans hkind
      exact ⟨spells, content_of_spells_number spells⟩
  | unknown unspelled solid => cases hkind

/-- A token that is a number carries the double nearest to what it spells.
The two names of numbers apart, its characters are digits, with a point
among them at most; as the quotient of the natural that the digits spell and
the power of ten of those behind the point, they are rounded to nearest,
ties to even. -/
theorem tokenize_rounds (text : String) {t : Token} (ht : t ∈ tokenize text)
    (hkind : t.kind = .number) (hnan : slice text t ≠ ".nan".toList)
    (hinfinity : slice text t ≠ ".inf".toList) :
    ∃ x, t.content = .number (.double x) ∧
      Double.RoundsTo
        (Double.spelledDigits (slice text t) / 10 ^ Double.spelledPlaces (slice text t)) x := by
  rcases List.mem_append.mp ht with ht | ht
  · obtain ⟨before, lexeme, rest, hcovers, hlexed⟩ :=
      Cursor.covers_of_mem (Cursor.standsIn_ofText text) t ht
    obtain ⟨hspells, hcontent⟩ := hlexed.spells_number hkind
    rw [hcovers.slice_eq] at hnan hinfinity ⊢
    exact ⟨_, hcontent, Double.roundsTo_ofNumeral hspells hnan hinfinity⟩
  · -- The mark at the end is no number.
    obtain rfl := List.mem_singleton.mp ht
    cases hkind

/-- Halfway between two doubles, of which the smaller one has the even
mantissa. -/
theorem tokenize_rounds_instance :
    Double.RoundsTo (Double.spelledDigits "9007199254740993.0".toList /
      10 ^ Double.spelledPlaces "9007199254740993.0".toList) (Float.ofBits 0x4340000000000000) := by
  let t : Token := ⟨⟨2, 20⟩, .number (.double (Float.ofBits 0x4340000000000000))⟩
  have hslice : slice "a 9007199254740993.0" t = "9007199254740993.0".toList := by decide +kernel
  obtain ⟨x, hx, hrounds⟩ := tokenize_rounds "a 9007199254740993.0" (t := t) (by decide +kernel) rfl
    (by rw [hslice]; decide) (by rw [hslice]; decide)
  rw [hslice] at hrounds
  cases hx
  exact hrounds

end DeskCalculator
