import DeskCalculator.Proofs.Double.Bits
import DeskCalculator.Proofs.Double.Rounding

/-!
# `DeskCalculator.Proofs.Double.Value`: the double that a rational is rounded to

A finite double stands for a rational: its mantissa with its sign, times a
power of two. This module says of it what patterns and quanta were made for.

`value` is computed from the fields that the library unpacks, and not from
the pattern. So the link between patterns and numbers, which everything that
reads and writes numbers relies on, is a theorem here, and `RoundsTo` can be
read by someone who knows the format and not this project.

* `value`, `mantissa`: what a double stands for, read off its unpacked form.
  `unpack_finite` is that form for a pattern, so a magnitude is its quanta
  (`abs_value_mul_oneUnits`).
* `RoundsTo`: rounding to nearest, ties to even, with gradual underflow and
  with overflow from halfway behind the largest finite double on.
  `RoundsTo.unique`: no rational is rounded to two doubles. `RoundsTo.mono`:
  a larger one is rounded to no smaller double.
* `Decimal.roundsTo_toNumber`: a decimal is rounded to its number.
-/

set_option autoImplicit false

namespace DeskCalculator.Double

open Float.Model (Format UnpackedFloat)
open Float.Model.UnpackedFloat

/-- The rational that a finite double stands for. A double that is not
finite stands for none, and is given zero. -/
def value (x : Float) : ℚ :=
  match unpack Format.binary64 (bits x) with
  | .finite sign mantissa exponent _ => sign.apply mantissa * 2 ^ exponent
  | _ => 0

/-- The mantissa of a finite double, with the leading bit that normal
doubles leave out. -/
def mantissa (x : Float) : ℕ :=
  match unpack Format.binary64 (bits x) with
  | .finite _ mantissa _ _ => mantissa
  | _ => 0

/-! ### Values and patterns

The library unpacks a double by its fields: sign, exponent and fraction. A
pattern has the last two in one natural, so the fields are its quotient and
remainder by the width of a binade. -/

/-- The sign of a double, as the library unpacks it. Zero has one too. -/
def sign (x : Float) : Sign := Sign.ofBitVec (unpackSign (bits x))

/-- The sign is the highest bit. From the form of the library to the test of
the model. -/
theorem sign_eq (x : Float) : sign x = if isNegative x then .negative else .positive := by
  have hlt : (bits x).toNat < 2 ^ 64 := (bits x).isLt
  have hbit := toNat_unpackSign (bits x)
  have hzero : unpackSign (bits x) = 0#1 ↔ (unpackSign (bits x)).toNat = 0 := BitVec.toNat_inj.symm
  have hnegative : isNegative x = true ↔ 2 ^ 63 ≤ (bits x).toNat := decide_eq_true_iff
  rw [sign, Sign.ofBitVec]
  by_cases h : 2 ^ 63 ≤ (bits x).toNat
  · rw [if_pos (hnegative.mpr h), if_neg (fun h' => by have := hzero.mp h'; omega)]
  · rw [if_neg (fun h' => h (hnegative.mp h')), if_pos (hzero.mpr (by omega))]

/-- The exponent field and the fraction of a double are its pattern. The
exponent field counts binades, and so the three cases of the format, lowest,
largest and in between, are ranges of patterns. -/
theorem fields_pattern (x : Float) :
    (unpackExponent (bits x)).toNat = pattern x / binade ∧
      (unpackMantissa (bits x)).toNat = pattern x % binade := by
  have hexponent := toNat_unpackExponent (bits x)
  have hmantissa := toNat_unpackMantissa (bits x)
  rw [pattern_eq, show binade = 2 ^ 52 from rfl]
  omega

/-- The largest exponent is that of infinity and all patterns above it.
These are the doubles that are not finite. -/
theorem unpackExponent_eq_max {x : Float} :
    unpackExponent (bits x) = -1#11 ↔ infinitePattern ≤ pattern x := by
  have hexponent := (fields_pattern x).1
  have hlt : pattern x < 2 ^ 63 := Nat.mod_lt _ (Nat.two_pow_pos 63)
  have hmax : unpackExponent (bits x) = -1#11 ↔ (unpackExponent (bits x)).toNat = 2047 :=
    BitVec.toNat_inj.symm
  rw [hmax, show infinitePattern = 2047 * 2 ^ 52 from rfl]
  rw [show binade = 2 ^ 52 from rfl] at hexponent
  omega

/-- The lowest exponent is that of all patterns in the first binade. There
the format has no leading bit. -/
theorem unpackExponent_eq_zero {x : Float} :
    unpackExponent (bits x) = 0#11 ↔ pattern x / binade = 0 := by
  rw [← (fields_pattern x).1]
  exact BitVec.toNat_inj.symm

/-- At the lowest exponent there are zero and the subnormal doubles, which
have no leading bit. -/
theorem unpack_lowest {x : Float} (h : pattern x / binade = 0) :
    (pattern x = 0 ∧ unpack Format.binary64 (bits x) = .zero (sign x)) ∨
      ∃ hpos, unpack Format.binary64 (bits x)
        = .finite (sign x) (significand (pattern x)) (step (pattern x) - (1074 : ℕ)) hpos := by
  obtain ⟨hexponent, hmantissa⟩ := fields_pattern x
  rw [show binade = 2 ^ 52 from rfl] at h hexponent hmantissa
  have hmax : unpackExponent (bits x) ≠ -1#11 := by
    rw [Ne, unpackExponent_eq_max, show infinitePattern = 2047 * 2 ^ 52 from rfl]
    omega
  have hempty : unpackMantissa (bits x) = 0#52 ↔ pattern x % 2 ^ 52 = 0 := by
    rw [← hmantissa]
    exact BitVec.toNat_inj.symm
  have hbias : (Format.binary64.exponentBias : ℤ) = 1023 := rfl
  simp only [unpack, if_neg hmax, if_pos (unpackExponent_eq_zero.mpr h), hbias]
  -- Without a fraction the pattern is zero; with one the double is
  -- subnormal, of the lowest step.
  by_cases hfraction : pattern x % 2 ^ 52 = 0
  · rw [dif_pos (hempty.mpr hfraction)]
    exact .inl ⟨by omega, rfl⟩
  · rw [dif_neg (fun h => hfraction (hempty.mp h))]
    have hstep : step (pattern x) = 0 := by
      rw [step, show binade = 2 ^ 52 from rfl]
      omega
    have hsignificand : significand (pattern x) = (unpackMantissa (bits x)).toNat := by
      have := step_add_significand (pattern x)
      rw [hstep] at this
      omega
    refine .inr ⟨by omega, ?_⟩
    simp only [hexponent, h, hstep, hsignificand]
    rfl

/-- At all other exponents there are the normal doubles, which have one. The
exponent in the result is the step, moved by the bias of the format and the
width of the fraction. -/
theorem unpack_normal {x : Float} (hfinite : pattern x < infinitePattern)
    (h : pattern x / binade ≠ 0) :
    ∃ hpos, unpack Format.binary64 (bits x)
      = .finite (sign x) (significand (pattern x)) (step (pattern x) - (1074 : ℕ)) hpos := by
  obtain ⟨hexponent, hmantissa⟩ := fields_pattern x
  have hmax : unpackExponent (bits x) ≠ -1#11 :=
    fun hmax => absurd hfinite (Nat.not_lt.mpr (unpackExponent_eq_max.mp hmax))
  have hzero : unpackExponent (bits x) ≠ 0#11 := fun hzero => h (unpackExponent_eq_zero.mp hzero)
  have hbias : (Format.binary64.exponentBias : ℤ) = 1023 := rfl
  rw [show binade = 2 ^ 52 from rfl] at h hexponent hmantissa
  have hstep : step (pattern x) + 1 = pattern x / 2 ^ 52 := by
    rw [step, show binade = 2 ^ 52 from rfl]
    omega
  -- The leading bit is put in front of the fraction, which is as wide as a
  -- binade.
  have hbit : (1#1 ++ unpackMantissa (bits x)).toNat = 2 ^ 52 + pattern x % 2 ^ 52 := by
    rw [← hmantissa]
    show 2 ^ 52 ||| (unpackMantissa (bits x)).toNat = _
    rw [Nat.or_comm, Nat.or_two_pow_eq_add_of_lt (unpackMantissa (bits x)).isLt, Nat.add_comm]
  have hsignificand : significand (pattern x) = 2 ^ 52 + pattern x % 2 ^ 52 := by
    have := step_add_significand (pattern x)
    rw [show binade = 2 ^ 52 from rfl] at this
    omega
  have hshift : ((pattern x / 2 ^ 52 : ℕ) : ℤ) - (1023 + 52) = step (pattern x) - (1074 : ℕ) := by
    omega
  refine ⟨by omega, ?_⟩
  simp only [unpack, if_neg hmax, if_neg hzero, hbias, hexponent, hbit, hsignificand, ← hshift]
  rfl

/-- A finite pattern is unpacked as its significand, at its step. Zero is a
case of its own, because the format has a form of its own for it. -/
theorem unpack_finite {x : Float} (h : pattern x < infinitePattern) :
    (pattern x = 0 ∧ unpack Format.binary64 (bits x) = .zero (sign x)) ∨
      ∃ hpos, unpack Format.binary64 (bits x)
        = .finite (sign x) (significand (pattern x)) (step (pattern x) - (1074 : ℕ)) hpos := by
  by_cases hzero : pattern x / binade = 0
  · exact unpack_lowest hzero
  · exact .inr (unpack_normal h hzero)

/-- The mantissa of a finite double is the significand of its pattern. So
the two are even together, which is all that ties ask about. -/
theorem mantissa_eq {x : Float} (h : pattern x < infinitePattern) :
    mantissa x = significand (pattern x) := by
  rcases unpack_finite h with ⟨hzero, hunpack⟩ | ⟨hpos, hunpack⟩
  · rw [mantissa, hunpack, hzero]
    rfl
  · rw [mantissa, hunpack]

/-- A power of two is a whole number of smaller ones. Counts in quanta are
free of the negative exponents of values. -/
theorem two_zpow_sub (m n : ℕ) : (2 : ℚ) ^ ((m : ℤ) - n) * Nat.pow 2 n = Nat.pow 2 m := by
  simp only [Nat.pow_eq, Nat.cast_pow, Nat.cast_ofNat]
  rw [← zpow_natCast, ← zpow_natCast, ← zpow_add₀ two_ne_zero, sub_add_cancel]

/-- A finite double is as many quanta as its pattern says, with its sign.
The bridge from values, which are rationals, to patterns. -/
theorem value_mul_oneUnits {x : Float} (h : pattern x < infinitePattern) :
    value x * oneUnits = (sign x).apply (units (pattern x)) := by
  rcases unpack_finite h with ⟨hzero, hunpack⟩ | ⟨hpos, hunpack⟩
  · rw [value, hunpack, hzero]
    show (0 : ℚ) * oneUnits = (sign x).apply 0
    rw [zero_mul]
    cases sign x <;> rfl
  · simp only [value, hunpack]
    rw [oneUnits, mul_assoc, two_zpow_sub, units]
    cases sign x <;> simp [Sign.apply]

/-- The magnitude of a finite double in quanta. For a double that is to be
written, whose sign is written apart. -/
theorem abs_value_mul_oneUnits {x : Float} (h : pattern x < infinitePattern) :
    |value x * oneUnits| = units (pattern x) := by
  rw [value_mul_oneUnits h]
  cases sign x <;> simp [Sign.apply]

/-- There are quanta in one. Every comparison of values is made in quanta,
and is divided by this at its end. -/
theorem oneUnits_pos : (0 : ℚ) < oneUnits := Nat.cast_pos.mpr (Nat.pow_pos two_pos)

/-- A double is finite if its pattern is below that of infinity. Whichever
sign it has. -/
theorem isFinite_iff {x : Float} : x.isFinite = true ↔ pattern x < infinitePattern := by
  have hunpack : x.isFinite = (unpack Format.binary64 (bits x)).isFinite := rfl
  rw [hunpack]
  constructor
  · intro hfinite
    by_contra hle
    -- From infinity on, the exponent is the one of no finite double.
    have hmax := unpackExponent_eq_max.mpr (Nat.le_of_not_lt hle)
    rw [unpack] at hfinite
    simp only [hmax, if_true] at hfinite
    split at hfinite <;> cases hfinite
  · intro h
    rcases unpack_finite h with ⟨-, hunpack⟩ | ⟨hpos, hunpack⟩ <;> rw [hunpack] <;> rfl

section Magnitudes

variable {p : ℕ} (hp : p ≤ infinitePattern)
include hp

/-- The bits of the number of a pattern. Infinity is included, and with it
every pattern that `nearest` yields. -/
theorem toNat_bits_ofPattern : (ofPattern p).toBits.toNat = p := by
  have hlt : p < 2 ^ 63 := hp.trans_lt (by decide)
  have hnat : (UInt64.ofNat p).toNat = p := Nat.mod_eq_of_lt (hlt.trans (by decide))
  -- The pattern is that of a number, so its bits are kept.
  have hmod : (UInt64.ofNat p).toNat % 2 ^ 63 ≤ infinitePattern := by
    rw [hnat, Nat.mod_eq_of_lt hlt]
    exact hp
  rw [ofPattern, toBits_ofBits hmod, hnat]

/-- The number of a pattern has that pattern. So patterns up to that of
infinity and numbers without a sign correspond to each other. -/
theorem pattern_ofPattern : pattern (ofPattern p) = p := by
  rw [pattern, toNat_bits_ofPattern hp]
  exact Nat.mod_eq_of_lt (hp.trans_lt (by decide))

/-- The number of a pattern has no sign, as patterns are below the bit for
it. -/
theorem isNegative_ofPattern : isNegative (ofPattern p) = false := by
  rw [isNegative, toNat_bits_ofPattern hp]
  exact decide_eq_false (Nat.not_le.mpr (hp.trans_lt (by decide)))

end Magnitudes

/-- A finite double without a sign is its magnitude. The form for what was
rounded, as numerals have no sign. -/
theorem value_of_positive {x : Float} (h : pattern x < infinitePattern)
    (hpositive : isNegative x = false) : value x * oneUnits = units (pattern x) := by
  rw [value_mul_oneUnits h, sign_eq, hpositive]
  rfl

/-- A finite double with a sign is its negated magnitude. Needed for the
doubles that a rounded one is compared with. -/
theorem value_of_negative {x : Float} (h : pattern x < infinitePattern)
    (hnegative : isNegative x = true) : value x * oneUnits = -units (pattern x) := by
  rw [value_mul_oneUnits h, sign_eq, hnegative]
  simp [Sign.apply]

/-- The number of a finite pattern is finite, and is its quanta. It supplies
doubles to compare with. -/
theorem value_ofPattern {p : ℕ} (hp : p < infinitePattern) :
    (ofPattern p).isFinite = true ∧ value (ofPattern p) * oneUnits = units p := by
  have hpattern := pattern_ofPattern hp.le
  have hfinite : pattern (ofPattern p) < infinitePattern := hpattern.symm ▸ hp
  refine ⟨isFinite_iff.mpr hfinite, ?_⟩
  rw [value_of_positive hfinite (isNegative_ofPattern hp.le), hpattern]

/-! ### Rounding

What it is to be rounded to nearest, said of values alone. The comparison
with patterns is `roundsTo_of_closest`, and everything behind it follows
from the definition. -/

/-- The largest finite double: that of the last pattern below infinity. Only
used to say where rounding overflows. -/
def largest : Float := ofPattern (infinitePattern - 1)

/-- The largest finite double in quanta. Computed from its pattern, so that
no double has to be evaluated. -/
theorem value_largest : value largest * oneUnits = units (infinitePattern - 1) :=
  (value_ofPattern (by decide)).2

/-- Halfway between the largest finite double and the power of two that
would come next. -/
def halfway : ℚ := (value largest + 2 ^ 1024) / 2

/-- It is where rounding overflows. The left side is said in terms of
doubles and the right side in terms of patterns. -/
theorem halfway_mul_oneUnits : halfway * oneUnits = overflow := by
  have hnext : 2 ^ 1024 * oneUnits = units infinitePattern := by decide +kernel
  have hnext : (2 ^ 1024 * oneUnits : ℚ) = units infinitePattern := by exact_mod_cast hnext
  rw [halfway, overflow, div_mul_eq_mul_div, add_mul, value_largest, hnext]

/-- The double that the rational `q`, which is not negative, is rounded to:
the nearest one, of two that are as near the one whose mantissa is even.
From halfway behind the largest finite one on it is infinity.

`nearest` and `even` range over all finite doubles, with either sign. That
the double itself has no sign decides between zero and minus zero, which are
as near to everything as each other. -/
structure RoundsTo (q : ℚ) (x : Float) : Prop where
  positive : isNegative x = false
  infinite : halfway ≤ q → x = infinity
  finite : q < halfway → x.isFinite = true
  nearest : q < halfway → ∀ y : Float, y.isFinite = true → |q - value x| ≤ |q - value y|
  even : q < halfway → ∀ y : Float, y.isFinite = true → y ≠ x → |q - value y| = |q - value x| →
    Even (mantissa x)

/-- Distances in quanta. Turns the comparison in `RoundsTo` into the one in
`Closest`. -/
theorem abs_sub_value_mul (q : ℚ) (x : Float) :
    |q * oneUnits - value x * oneUnits| = |q - value x| * oneUnits := by
  rw [← sub_mul, abs_mul, abs_of_pos oneUnits_pos]

/-- The double of the closest pattern is the nearest one, since a double
with a sign is no nearer than its magnitude. Here `q` must not be negative.
The pattern is compared with those of all doubles, and two doubles of one
pattern are compared by their signs. -/
theorem roundsTo_of_closest {q : ℚ} (hq : 0 ≤ q) (hbelow : q < halfway) {p : ℕ}
    (hp : p < infinitePattern) (h : Closest (q * oneUnits) p) : RoundsTo q (ofPattern p) := by
  obtain ⟨hfinite, hvalue⟩ := value_ofPattern hp
  have hmantissa : mantissa (ofPattern p) = significand p := by
    rw [mantissa_eq (isFinite_iff.mp hfinite), pattern_ofPattern hp.le]
  have hquanta : 0 ≤ q * oneUnits := mul_nonneg hq oneUnits_pos.le
  have hdistance : |q - value (ofPattern p)| * oneUnits = |q * oneUnits - units p| := by
    rw [← abs_sub_value_mul, hvalue]
  -- A double is no nearer than its magnitude.
  have hmagnitude : ∀ y : Float, y.isFinite = true →
      |q * oneUnits - units (pattern y)| ≤ |q - value y| * oneUnits := by
    intro y hy
    rw [← abs_sub_value_mul, ← abs_value_mul_oneUnits (isFinite_iff.mp hy)]
    conv_lhs => rw [← abs_of_nonneg hquanta]
    exact abs_abs_sub_abs_le _ _
  refine ⟨isNegative_ofPattern hp.le, fun h => absurd hbelow (not_lt.mpr h), fun _ => hfinite,
    fun _ y hy => ?_, fun _ y hy hne heq => ?_⟩
  · refine le_of_mul_le_mul_right ?_ oneUnits_pos
    rw [hdistance]
    exact (h.le (pattern y)).trans (hmagnitude y hy)
  · -- A double that is as near has a magnitude that is as close.
    have hsame : |q * oneUnits - units (pattern y)| = |q * oneUnits - units p| := by
      refine le_antisymm ((hmagnitude y hy).trans_eq ?_) (h.le (pattern y))
      rw [heq, hdistance]
    rw [hmantissa]
    by_cases hpattern : pattern y = p
    · -- The same magnitude with a sign is as near only if it is zero, since
      -- zero is no nearer.
      have hnegative : isNegative y = true := by
        refine Bool.eq_true_of_not_eq_false fun hpositive => hne ?_
        rw [← hpattern, ofPattern_pattern hpositive]
      have hfar := h.le 0
      rw [← hdistance, ← heq, ← abs_sub_value_mul,
        value_of_negative (isFinite_iff.mp hy) hnegative, hpattern, sub_neg_eq_add,
        show ((units 0 : ℕ) : ℚ) = 0 from Nat.cast_zero, sub_zero, abs_of_nonneg hquanta,
        abs_of_nonneg (add_nonneg hquanta (Nat.cast_nonneg _)), add_le_iff_nonpos_right] at hfar
      have hzero : units p = units 0 := Nat.le_zero.mp (by exact_mod_cast hfar)
      rw [units_strictMono.injective hzero]
      decide
    · exact h.even (pattern y) hpattern hsame

/-- Of two finite doubles without a sign, the one with the larger pattern is
the larger one. -/
theorem value_lt_value {x y : Float} (hx : isNegative x = false) (hy : isNegative y = false)
    (hfinite : y.isFinite = true) (h : pattern x < pattern y) : value x < value y := by
  have hlast := isFinite_iff.mp hfinite
  refine lt_of_mul_lt_mul_right ?_ oneUnits_pos.le
  rw [value_of_positive (h.trans hlast) hx, value_of_positive hlast hy]
  exact_mod_cast units_strictMono h

/-- Two doubles that a rational is rounded to do not differ: with even
mantissas, they would have a double between them that is nearer than one of
them. Only one direction is proved, and `unique` uses it twice. -/
theorem RoundsTo.pattern_le {q : ℚ} {x y : Float} (hx : RoundsTo q x) (hy : RoundsTo q y)
    (hbelow : q < halfway) : pattern y ≤ pattern x := by
  by_contra hlt
  have hfinite := hy.finite hbelow
  have hlast := isFinite_iff.mp hfinite
  have hne : x ≠ y := fun heq => hlt (heq ▸ Nat.le_refl _)
  -- Each is as near as the other one.
  have hequal : |q - value y| = |q - value x| :=
    le_antisymm (hy.nearest hbelow x (hx.finite hbelow)) (hx.nearest hbelow y hfinite)
  have hevenx := hx.even hbelow y hfinite hne.symm hequal
  have heveny := hy.even hbelow x (hx.finite hbelow) hne hequal.symm
  rw [mantissa_eq (isFinite_iff.mp (hx.finite hbelow)), even_significand] at hevenx
  rw [mantissa_eq hlast, even_significand] at heveny
  -- Both patterns are even, so they are not neighbours.
  have hnext : pattern x + 1 < pattern y := by
    refine lt_of_le_of_ne (by omega) fun heq => ?_
    rw [← heq] at heveny
    exact Nat.even_add_one.mp heveny hevenx
  obtain ⟨hbetween, -⟩ := value_ofPattern (hnext.trans hlast)
  have hpattern := pattern_ofPattern (hnext.trans hlast).le
  have hpositive := isNegative_ofPattern (hnext.trans hlast).le
  have habove := value_lt_value hx.positive hpositive hbetween (by omega)
  have hunder := value_lt_value hpositive hy.positive hfinite (by omega)
  have hleft := hx.nearest hbelow _ hbetween
  have hright := hy.nearest hbelow _ hbetween
  -- On whichever side of the double between them the rational is, that one
  -- is nearer than one of the two.
  rcases le_total (value (ofPattern (pattern x + 1))) q with h | h
  · rw [abs_of_nonneg (by linarith), abs_of_nonneg (by linarith)] at hleft
    linarith
  · rw [abs_of_nonpos (by linarith), abs_of_nonpos (by linarith)] at hright
    linarith

/-- No rational is rounded to two doubles. So the conditions describe the
rounding completely, ties and overflow included. -/
theorem RoundsTo.unique {q : ℚ} {x y : Float} (hx : RoundsTo q x) (hy : RoundsTo q y) : x = y := by
  rcases lt_or_ge q halfway with hbelow | habove
  · have hpattern := le_antisymm (hy.pattern_le hx hbelow) (hx.pattern_le hy hbelow)
    rw [← ofPattern_pattern hx.positive, ← ofPattern_pattern hy.positive, hpattern]
  · rw [hx.infinite habove, hy.infinite habove]

/-- What is no nearer to the smaller one of two rationals is no further down
than halfway between them. -/
theorem add_le_of_abs_sub_le {a b z : ℚ} (hab : a < b) (h : |z - b| ≤ |z - a|) :
    a + b ≤ 2 * z := by
  rcases le_total a z with hz | hz
  · rw [abs_of_nonneg (sub_nonneg.mpr hz)] at h
    linarith [neg_abs_le (z - b)]
  · rw [abs_of_nonpos (sub_nonpos.mpr hz), abs_of_nonpos (by linarith)] at h
    linarith

/-- A larger rational is rounded to no smaller double. Only halfway between
two doubles could it be otherwise, and there the rationals are the same. -/
theorem RoundsTo.mono {q q' : ℚ} (hle : q ≤ q') {x y : Float} (hx : RoundsTo q x)
    (hy : RoundsTo q' y) : pattern x ≤ pattern y := by
  rcases lt_or_ge q' halfway with hbelow | habove
  · by_contra hlt
    have hfinite := hx.finite (hle.trans_lt hbelow)
    have hvalue := value_lt_value hy.positive hx.positive hfinite (Nat.lt_of_not_le hlt)
    have hupper := add_le_of_abs_sub_le hvalue
      (hx.nearest (hle.trans_lt hbelow) y (hy.finite hbelow))
    -- The other bound is the same fact for the negated rationals.
    have hlower : -value x + -value y ≤ 2 * -q' := by
      refine add_le_of_abs_sub_le (neg_lt_neg hvalue) ?_
      rw [neg_sub_neg, neg_sub_neg, abs_sub_comm, abs_sub_comm (value x)]
      exact hy.nearest hbelow x hfinite
    obtain rfl : q = q' := by linarith
    exact hlt (hy.pattern_le hx hbelow)
  · rw [hy.infinite habove, infinity, pattern_ofPattern (Nat.le_refl _)]
    rcases lt_or_ge q halfway with hbelow | habove
    · exact (isFinite_iff.mp (hx.finite hbelow)).le
    · rw [hx.infinite habove, infinity, pattern_ofPattern (Nat.le_refl _)]

/-- A decimal is rounded to its number. This is the specification of reading
numbers: `toNumber` computes with naturals what `RoundsTo` says over the
rationals. -/
theorem Decimal.roundsTo_toNumber (d : Decimal) :
    RoundsTo (d.coefficient / 10 ^ d.scale) d.toNumber := by
  have hden : 0 < Nat.pow 10 d.scale := Nat.pow_pos (by decide)
  have hquotient : (d.coefficient / 10 ^ d.scale : ℚ)
      = d.coefficient / (Nat.pow 10 d.scale : ℕ) := by
    rw [Nat.pow_eq]
    push_cast
    rfl
  have hq : (0 : ℚ) ≤ d.coefficient / (Nat.pow 10 d.scale : ℕ) := by positivity
  rw [hquotient, toNumber, pattern]
  rcases lt_or_ge (d.coefficient / (Nat.pow 10 d.scale : ℕ) : ℚ) halfway with hbelow | habove
  · have hoverflow := mul_lt_mul_of_pos_right hbelow oneUnits_pos
    rw [halfway_mul_oneUnits] at hoverflow
    obtain ⟨hfinite, hclosest⟩ := nearest_closest d.coefficient hden hoverflow
    exact roundsTo_of_closest hq hbelow hfinite hclosest
  · -- From halfway on only the first two fields say something.
    have hoverflow := mul_le_mul_of_nonneg_right habove oneUnits_pos.le
    rw [halfway_mul_oneUnits] at hoverflow
    rw [nearest_eq_infinitePattern d.coefficient hden hoverflow]
    exact ⟨isNegative_ofPattern (Nat.le_refl _), fun _ => rfl,
      fun h => absurd h (not_lt.mpr habove), fun h => absurd h (not_lt.mpr habove),
      fun h => absurd h (not_lt.mpr habove)⟩

end DeskCalculator.Double
