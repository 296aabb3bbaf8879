import DeskCalculator.Proofs.Double.ReadBack
import DeskCalculator.Proofs.Double.Shortest

/-!
# `DeskCalculator.Proofs.Double.Positional`: how a number is written

A number is written without an exponent, whatever its size, and without a
digit that says nothing: no zero in front of the whole part, none at the end
of the fraction, and no point without a fraction (`Positional`).

The main statement is `text_shortest`: a finite number other than zero is
written as its sign and a text of this form, and what the text spells is the
shortest decimal that reads back (`WritesMagnitude`). That `shortest` finds
this decimal is known from `Proofs.Double.Shortest` (`shortest_spec`). What
is left for this module is the way from a decimal to its text:

* `Decimal.positional_text`, `Decimal.spelled_text`: the text of a decimal
  is of this form, and spells the decimal with as many significant digits as
  the coefficient has. So what holds of the decimal holds of what is
  printed.
* `Positional.point_iff`: in such a text there is a point just where it
  spells no natural.
* `Decimal.whole_eq_zero`: below one a single zero stands in front of the
  point. Since a decimal that is short can be larger than the number it
  stands for, this needs that reading is monotone.

Zero, the infinities and NaN are not numbers with a shortest decimal, hence
the two hypotheses of the main statement. How they are written is seen
directly from `chars`.
-/

set_option autoImplicit false

namespace DeskCalculator.Double

open Lexeme (IsDigits)

/-! ### Positional notation

What a numeral has to look like, and what it spells, said without how it is
written. -/

/-- The digits of a whole part. The second field rules out a zero in front
of other digits: a text with a leading zero would spell the same number and
not be the one that is printed. -/
structure IsWhole (whole : List Char) : Prop where
  isDigits : IsDigits whole
  leading : whole.head? = some '0' → whole = ['0']

/-- Positional notation without a digit too many: a whole part, and a
fraction behind a point if there is one, which does not end with a zero.
There is no constructor with an exponent, nor one without a whole part,
although the second could be read (`.5`). -/
inductive Positional : List Char → Prop where
  | whole {whole : List Char} : IsWhole whole → Positional whole
  | fraction {whole fraction : List Char} : IsWhole whole → IsDigits fraction →
      fraction.getLast? ≠ some '0' → Positional (whole ++ '.' :: fraction)

/-- The rational that a numeral spells: all its digits as one natural,
divided by ten for each place behind the point. It is read off the text
alone, so that `WritesMagnitude` speaks about what is printed and not about
the decimal it was printed from. -/
def spelledValue (numeral : List Char) : ℚ := spelledDigits numeral / 10 ^ spelledPlaces numeral

/-! ### The digits of a natural

The library writes a natural without a zero in front. Together with dropped
zeros behind the point, this is what makes the notation one without a digit
too many. -/

/-- Only zero is written with a zero in front. Induction on the natural: all
digits but the last one are those of a tenth of it, and the first digit is
theirs as long as there are any. -/
theorem eq_zero_of_head?_digits (n : ℕ) (h : (digits n).head? = some '0') : n = 0 := by
  induction n using Nat.strongRecOn with
  | ind n ih =>
      unfold digits at h
      rw [Nat.toDigits_eq_if (by decide)] at h
      split at h
      · next hlt =>
          -- a single digit
          interval_cases n <;> first | rfl | cases h
      · next hge =>
          rw [List.head?_append_of_ne_nil _ Nat.toDigits_ne_nil] at h
          have hzero := ih (n / 10) (by omega) h
          omega

/-- The digits of a natural are a whole part, which is how `Decimal.text`
writes what stands in front of the point. -/
theorem isWhole_digits (n : ℕ) : IsWhole (digits n) where
  isDigits := isDigits_digits n
  leading h := by
    rw [eq_zero_of_head?_digits n h]
    rfl

/-- A last digit that is no zero is what is left of the natural by ten. For
`Positional.point_iff`: a fraction with such a last digit is no natural,
however long it is. -/
theorem digitsValue_mod_ten (digits : List Char) {c : Char} (hdigit : c.isDigit = true)
    (hc : c ≠ '0') : digitsValue (digits ++ [c]) % 10 ≠ 0 := by
  have hbounds : 48 ≤ c.toNat ∧ c.toNat ≤ 57 := by
    simpa [Char.isDigit, UInt32.le_iff_toNat_le] using hdigit
  have hne : c.toNat ≠ 48 := fun h => hc (Char.ext (UInt32.toNat_inj.mp h))
  rw [digitsValue_concat]
  show (_ * 10 + (c.toNat - 48)) % 10 ≠ 0
  omega

namespace Decimal

variable (d : Decimal)

/-- The fraction of a decimal does not end with a zero. Its zeros are
dropped from the right, so if anything is left then the last character is
one that was not dropped. -/
theorem getLast?_fraction : d.fraction.getLast? ≠ some '0' := by
  have hfraction : d.fraction
      = (places d.scale (d.coefficient % Nat.pow 10 d.scale)).rdropWhile (· = '0') := rfl
  -- `List.rdropWhile` has to be seen before the question can be put to it.
  rw [hfraction]
  intro h
  by_cases hne : (places d.scale (d.coefficient % Nat.pow 10 d.scale)).rdropWhile (· = '0') = []
  · rw [hne] at h
    cases h
  · rw [List.getLast?_eq_some_getLast hne] at h
    exact List.rdropWhile_last_not _ _ hne (decide_eq_true (Option.some.inj h))

/-- A decimal is written in positional notation. -/
theorem positional_text : Positional d.text := by
  have hwhole : IsWhole d.whole := isWhole_digits _
  obtain ⟨k, -, -, hdigits⟩ := d.exists_digitsValue
  rw [text_eq]
  cases hfraction : d.fraction with
  | nil => simpa using Positional.whole hwhole
  | cons c fraction =>
      exact .fraction hwhole ⟨List.cons_ne_nil _ _, hfraction ▸ hdigits⟩
        (hfraction ▸ d.getLast?_fraction)

/-- The text of a decimal spells it, with as many significant digits. The
text may leave out zeros that the coefficient has at its end: the
coefficient is what is spelled, times a power of ten that goes out of the
quotient and counts for no significant digit. -/
theorem spelled_text : spelledValue d.text = d.value ∧
    significantDigits (spelledDigits d.text) = significantDigits d.coefficient := by
  obtain ⟨k, hscale, hvalue, -⟩ := d.exists_digitsValue
  obtain ⟨hdigits, hplaces⟩ := d.cut_text.filter_isDigit
  have hspelled : spelledDigits d.text = digitsValue (d.whole ++ d.fraction) := by
    rw [spelledDigits, hdigits, digitsValue_eq]
  -- `k` zeros of the coefficient are left out, and the scale is larger by
  -- `k`.
  constructor
  · rw [spelledValue, spelledPlaces, hplaces, hspelled, value, ← hvalue, ← hscale]
    push_cast
    rw [pow_add, mul_div_mul_right _ _ (by positivity)]
  · rw [hspelled, ← hvalue, significantDigits_mul_pow]

end Decimal

/-- A text in positional notation has a point just where it spells no
natural. With a fraction its last digit is no zero, so by
`digitsValue_mod_ten` the natural of all digits is no multiple of ten, which
it would have to be for the quotient to be a natural. -/
theorem Positional.point_iff {numeral : List Char} (h : Positional numeral) :
    '.' ∈ numeral ↔ ¬∃ n : ℕ, spelledValue numeral = n := by
  cases h with
  | whole hwhole =>
      have hplaces := (Cut.whole hwhole.isDigits.2).filter_isDigit.2
      refine iff_of_false (fun hmem => ?_) (not_not.mpr ⟨spelledDigits numeral, ?_⟩)
      · exact absurd (hwhole.isDigits.2 _ hmem) (by decide)
      · rw [spelledValue, spelledPlaces, hplaces, List.length_nil, pow_zero, div_one]
  | @fraction whole fraction hwhole hfraction hlast =>
      refine iff_of_true (by simp) ?_
      rintro ⟨n, hn⟩
      obtain ⟨hdigits, hplaces⟩ := (Cut.point hwhole.isDigits.2 hfraction.2).filter_isDigit
      obtain ⟨front, c, rfl⟩ := (List.eq_nil_or_concat' fraction).resolve_left hfraction.1
      have hc : c ≠ '0' := by
        rintro rfl
        exact hlast (by simp)
      -- The last digit is left of the whole by ten.
      have hmod := digitsValue_mod_ten (whole ++ front) (hfraction.2 c (by simp)) hc
      rw [spelledValue, spelledDigits, spelledPlaces, hdigits, hplaces, ← digitsValue_eq,
        ← List.append_assoc, List.length_append, List.length_singleton,
        div_eq_iff (by positivity)] at hn
      -- If the text spelled a natural, ten would go into the digits once
      -- for each place.
      have hwhole : digitsValue (whole ++ front ++ [c]) = n * 10 ^ (front.length + 1) := by
        exact_mod_cast hn
      rw [hwhole, Nat.pow_succ, ← Nat.mul_assoc, Nat.mul_mod_left] at hmod
      exact hmod rfl

/-! ### Magnitudes below one

A number below one has a zero in front of the point. It is the decimal that
has to be below one, and that is known because one reads back as itself. -/

/-- One reads back as the pattern whose magnitude is one. Evaluated by the
kernel: the decimal and the pattern are closed terms. -/
theorem pattern_one :
    (Decimal.mk 1 0).pattern = 1023 * binade ∧ units (1023 * binade) = oneUnits := by
  decide +kernel

/-- What reads back as a magnitude below one is below one. A decimal from
one on would be read as at least the pattern of one, because reading is
monotone (`Decimal.pattern_mono`). The comparison of the decimal with the
magnitude itself would not do: the shortest decimal may be the larger of the
two. -/
theorem Decimal.value_lt_one {d : Decimal} (h : units d.pattern < oneUnits) : d.value < 1 := by
  obtain ⟨hone, hunits⟩ := pattern_one
  by_contra hle
  have hvalue : (Decimal.mk 1 0).value ≤ d.value := by
    unfold Decimal.value at hle ⊢
    simpa using hle
  have hmono := units_strictMono.monotone (Decimal.pattern_mono hvalue)
  rw [hone, hunits] at hmono
  omega

/-- Below one the whole part is zero, since the coefficient has then no
digit left of its scale. -/
theorem Decimal.whole_eq_zero {d : Decimal} (h : d.value < 1) : d.whole = ['0'] := by
  have hlt : d.coefficient < 10 ^ d.scale := by
    unfold Decimal.value at h
    rw [div_lt_one (by positivity)] at h
    exact_mod_cast h
  unfold Decimal.whole
  rw [Nat.pow_eq, Nat.div_eq_of_lt hlt]
  rfl

/-! ### Numbers

The text of a number: a sign, and the notation of its shortest decimal. -/

/-- The exact decimal of a finite number is its magnitude. With this the
comparison of `shortest_spec`, which is with the exact decimal, becomes one
with the number. -/
theorem abs_value_eq {x : Float} (h : pattern x < infinitePattern) :
    |value x| = (exactDecimal (pattern x)).value := by
  refine mul_right_cancel₀ oneUnits_pos.ne' ?_
  rw [value_exactDecimal, ← abs_value_mul_oneUnits h, abs_mul, abs_of_pos oneUnits_pos]

/-- A finite number is zero just where its pattern is, the sign apart.
`text_shortest` is about numbers other than zero, `shortest_spec` about
patterns other than zero. -/
theorem value_eq_zero_iff {x : Float} (h : pattern x < infinitePattern) :
    value x = 0 ↔ pattern x = 0 := by
  have hquanta := abs_value_mul_oneUnits h
  constructor
  · intro hzero
    rw [hzero, zero_mul, abs_zero] at hquanta
    exact units_strictMono.injective (by exact_mod_cast hquanta.symm)
  · intro hzero
    rw [hzero, show units 0 = 0 from rfl, Nat.cast_zero, abs_eq_zero] at hquanta
    exact (mul_eq_zero.mp hquanta).resolve_right oneUnits_pos.ne'

/-- A finite number is written as its sign and the text of the shortest
decimal: of the four cases of `chars` the one that is left without NaN and
the infinities. The sign is that of the bit, so a negative zero has one
too. -/
theorem chars_eq {x : Float} (h : x.isFinite = true) :
    chars x = (if isNegative x then ['-'] else []) ++ (shortest (pattern x)).text := by
  have hnumber : ¬x.isNaN = true := by
    intro hnan
    rw [eq_nan hnan] at h
    exact absurd h (by decide +kernel)
  unfold chars magnitudeText
  rw [if_neg hnumber, if_neg (isFinite_iff.mp h).ne]
  split
  · exact List.singleton_append.symm
  · exact (List.nil_append _).symm

/-- The numeral is how the magnitude of a number is to be written. The sign
is not part of it: it stands in front of the numeral, and reading takes it
as an operator.

What reads back is stated with the relation `RoundsTo`, for every decimal
and not only for those that `shortest` tries. -/
structure WritesMagnitude (x : Float) (numeral : List Char) : Prop where
  positional : Positional numeral
  whole : |value x| < 1 → numeral.takeWhile (· ≠ '.') = ['0']
  /-- There is a point just where the number, as it is written, is not a
  natural. -/
  point : '.' ∈ numeral ↔ ¬∃ n : ℕ, spelledValue numeral = n
  readsBack : RoundsTo (spelledValue numeral) x.abs
  /-- No decimal that reads back has fewer significant digits. -/
  fewest : ∀ d : Decimal, RoundsTo d.value x.abs →
    significantDigits (spelledDigits numeral) ≤ significantDigits d.coefficient
  /-- None with as many of them is nearer. -/
  nearest : ∀ d : Decimal, RoundsTo d.value x.abs →
    significantDigits d.coefficient = significantDigits (spelledDigits numeral) →
      |spelledValue numeral - (|value x|)| ≤ |d.value - (|value x|)|

/-- A number is written as the shortest decimal that reads back. A sign
stands in front just where the sign bit is set. Behind it the magnitude
stands in positional notation, without an exponent and without a digit too
many. Of all decimals that are rounded to the magnitude, none has fewer
significant digits, and of those with as many none is nearer. -/
theorem text_shortest (x : Float) (hfinite : x.isFinite = true) (hnonzero : value x ≠ 0) :
    ∃ numeral, (Number.double x).text.toList = (if isNegative x then ['-'] else []) ++ numeral ∧
      WritesMagnitude x numeral := by
  have hp := isFinite_iff.mp hfinite
  have habs := abs_value_eq hp
  have hpos : 0 < pattern x := Nat.pos_of_ne_zero fun hzero =>
    hnonzero ((value_eq_zero_iff hp).mpr hzero)
  obtain ⟨hvalue, hdigits⟩ := (shortest (pattern x)).spelled_text
  have hpattern := pattern_shortest hp.le
  refine ⟨(shortest (pattern x)).text, ?_, ?_⟩
  · show (String.ofList (chars x)).toList = _
    rw [String.toList_ofList, chars_eq hfinite]
  · refine
      { positional := (shortest (pattern x)).positional_text
        whole := fun hone => ?_
        point := (shortest (pattern x)).positional_text.point_iff
        readsBack := ?_
        fewest := fun d hd => ?_
        nearest := fun d hd hsame => ?_ }
    · -- Below one: compared in units of the smallest number, where the
      -- magnitude is a natural.
      rw [(shortest (pattern x)).cut_text.parts.1]
      refine Decimal.whole_eq_zero (Decimal.value_lt_one ?_)
      have hquanta := mul_lt_mul_of_pos_right hone oneUnits_pos
      rw [habs, value_exactDecimal, one_mul] at hquanta
      rw [hpattern]
      exact_mod_cast hquanta
    · rw [hvalue, abs_eq]
      exact (Decimal.pattern_eq_iff hp.le).mp hpattern
    · -- No competitor has fewer digits, and (below) none with as many is
      -- nearer.
      rw [abs_eq, ← Decimal.pattern_eq_iff hp.le] at hd
      rw [hdigits]
      exact (shortest_spec hp.le hpos hd).1
    · rw [abs_eq, ← Decimal.pattern_eq_iff hp.le] at hd
      rw [hdigits] at hsame
      rw [hvalue, habs]
      exact (shortest_spec hp.le hpos hd).2 hsame

/-- The double after that of `0.3`: it takes `0.30000000000000004` to tell
them apart, and no decimal with fewer than these 17 digits is read back as
it. -/
theorem text_shortest_digits :
    let x := Float.ofBits 0x3FD3333333333334
    (Number.double x).text = "0.30000000000000004" ∧
      ∀ d : Decimal, RoundsTo d.value x.abs → 17 ≤ significantDigits d.coefficient := by
  intro x
  have hfinite : x.isFinite = true := by decide +kernel
  have hnonzero : value x ≠ 0 := by
    rw [Ne, value_eq_zero_iff (isFinite_iff.mp hfinite)]
    decide +kernel
  obtain ⟨numeral, htext, hwrites⟩ := text_shortest x hfinite hnonzero
  have hwritten : (Number.double x).text = "0.30000000000000004" := by decide +kernel
  have hpositive : isNegative x = false := by decide +kernel
  have hnumeral : numeral = "0.30000000000000004".toList := by
    rw [hwritten, hpositive] at htext
    exact htext.symm
  have hdigits : significantDigits (spelledDigits numeral) = 17 := by
    rw [hnumeral]
    decide +kernel
  exact ⟨hwritten, fun d hd => hdigits ▸ hwrites.fewest d hd⟩

end DeskCalculator.Double
