import DeskCalculator.Proofs.Double.Nearest
import Mathlib.Tactic.FieldSimp
import Mathlib.Tactic.Linarith
import Mathlib.Tactic.Positivity

/-!
# `DeskCalculator.Proofs.Double.Rounding`: the pattern nearest to a quotient

`nearest` rounds a quotient once, to a whole number of steps, and never
compares it with two neighbours. This module says what comes of it. The
magnitudes are counted in quanta, as `units` does, so that all of them are
naturals; only the quotient is a rational.

The argument is one about whole numbers of steps. At the step at which a
quotient is rounded, every magnitude is such a whole number, or it is
smaller than all those with a full significand, and those are too far away
(`units_cases`, `lt_abs_sub_units`). So the closest magnitude is the closest
whole number of steps, and that is what rounding to the nearest natural
finds.

* `abs_sub_roundHalfEven`, `le_abs_sub`: a rounded quotient is one half away
  at most, and so no other natural is closer.
* `units_strictMono`, `units_cases`: larger patterns have larger magnitudes,
  and a magnitude is a whole number of steps or lies below all those with a
  full significand.
* `closest_unbounded`: as if there were no infinity, the pattern that
  `nearest` computes is the closest one, and has an even significand if
  another one is as close (`Closest`).
* `nearest_eq_infinitePattern`, `nearest_closest`: from halfway between the
  largest finite magnitude and the next one on, `nearest` is infinity, and
  below it is finite and the closest one.
-/

set_option autoImplicit false

namespace DeskCalculator.Double

/-! ### Naturals

Rounding a rational to a natural, and how far other naturals are away.
Nothing here is about doubles. -/

/-- A rounded quotient is one half away at most, and it is even if it is as
far as that. The three cases are those of the comparison that decides where
it is rounded. -/
theorem abs_sub_roundHalfEven (num : ℕ) {den : ℕ} (hden : 0 < den) :
    |(num / den : ℚ) - roundHalfEven num den| ≤ 1 / 2 ∧
      (|(num / den : ℚ) - roundHalfEven num den| = 1 / 2 → Even (roundHalfEven num den)) := by
  have hpos : (0 : ℚ) < den := Nat.cast_pos.mpr hden
  -- The quotient is a natural and a part below one, which decides where it
  -- is rounded.
  have hquotient : (num / den : ℚ) = (num / den : ℕ) + (num % den : ℕ) / den := by
    rw [div_eq_iff hpos.ne', add_mul, div_mul_cancel₀ _ hpos.ne']
    exact_mod_cast (Nat.div_add_mod' num den).symm
  have hpart : (0 : ℚ) ≤ (num % den : ℕ) / den := by positivity
  have hbelow : ((num % den : ℕ) / den : ℚ) < 1 :=
    (div_lt_one hpos).mpr (Nat.cast_lt.mpr (Nat.mod_lt _ hden))
  rw [hquotient, roundHalfEven]
  cases hcompare : compare (2 * (num % den)) den with
  | lt =>
      have hlt : ((num % den : ℕ) / den : ℚ) < 1 / 2 := by
        rw [div_lt_div_iff₀ hpos two_pos]
        have := Nat.compare_eq_lt.mp hcompare
        exact_mod_cast (by omega : num % den * 2 < 1 * den)
      rw [add_sub_cancel_left, abs_of_nonneg hpart]
      exact ⟨hlt.le, fun h => absurd h hlt.ne⟩
  | gt =>
      have hgt : (1 / 2 : ℚ) < (num % den : ℕ) / den := by
        rw [div_lt_div_iff₀ two_pos hpos]
        have := Nat.compare_eq_gt.mp hcompare
        exact_mod_cast (by omega : 1 * den < num % den * 2)
      have habs : |((num / den : ℕ) + (num % den : ℕ) / den : ℚ) - (num / den + 1 : ℕ)|
          = 1 - (num % den : ℕ) / den := by
        rw [Nat.cast_succ, add_sub_add_left_eq_sub, abs_sub_comm, abs_of_pos (sub_pos.mpr hbelow)]
      rw [habs]
      exact ⟨by linarith, fun h => by linarith⟩
  | eq =>
      have hhalf : ((num % den : ℕ) / den : ℚ) = 1 / 2 := by
        rw [div_eq_div_iff hpos.ne' two_ne_zero]
        have := Nat.compare_eq_eq.mp hcompare
        exact_mod_cast (by omega : num % den * 2 = 1 * den)
      -- The two naturals around the half are neighbours, and the even one
      -- is taken.
      have heven : Even (num / den + num / den % 2) := Nat.even_iff.mpr (by omega)
      rw [hhalf, Nat.cast_add, add_sub_add_left_eq_sub]
      refine ⟨le_of_eq ?_, fun _ => heven⟩
      rcases Nat.mod_two_eq_zero_or_one (num / den) with h | h <;> rw [h] <;> norm_num

/-- What is one half away from a natural at most is no closer to another
one, and as close only if it is one half away. This is the triangle
inequality, as two naturals are at least one apart. -/
theorem le_abs_sub {z : ℚ} {r : ℕ} (h : |z - r| ≤ 1 / 2) {k : ℕ} (hk : k ≠ r) :
    |z - r| ≤ |z - k| ∧ (|z - k| = |z - r| → |z - r| = 1 / 2) := by
  have hapart : (1 : ℚ) ≤ |(k : ℚ) - r| := by
    have hne : (k : ℤ) - r ≠ 0 := sub_ne_zero.mpr (Nat.cast_injective.ne hk)
    exact_mod_cast Int.one_le_abs hne
  have htriangle : |(k : ℚ) - r| ≤ |z - k| + |z - r| := by
    rw [abs_sub_comm z k]
    exact abs_sub_le _ _ _
  exact ⟨by linarith, fun heq => by linarith⟩

/-- A natural above a quotient is no smaller than what the quotient is
rounded to. Together with the next lemma it keeps a rounded significand
within the bounds of the quotient. -/
theorem rounded_le {z : ℚ} {r k : ℕ} (h : |z - r| ≤ 1 / 2) (hz : z < k) : r ≤ k := by
  by_contra hlt
  have hlt : (k : ℚ) + 1 ≤ r := by exact_mod_cast Nat.lt_of_not_le hlt
  linarith [(abs_le.mp h).1]

/-- A natural that is no larger than a quotient is no larger than what that
is rounded to. -/
theorem le_rounded {z : ℚ} {r k : ℕ} (h : |z - r| ≤ 1 / 2) (hz : k ≤ z) : k ≤ r := by
  by_contra hlt
  have hlt : (r : ℚ) + 1 ≤ k := by exact_mod_cast Nat.lt_of_not_le hlt
  linarith [(abs_le.mp h).2]

/-! ### Magnitudes

Patterns in quanta: they are increasing, and at each step they are multiples
of its width or small. -/

/-- The significand of a pattern is below the width of two binades. With
this the units of a pattern are bounded by its step. -/
theorem significand_lt (p : ℕ) : significand p < 2 * binade := by
  rcases significand_cases p with ⟨-, hsignificand, hlt⟩ | ⟨-, hlt⟩
  · rw [hsignificand]
    exact hlt
  · exact hlt

/-- Where there is a step, the significand is full: a pattern above the
first two binades has its leading bit. -/
theorem binade_le_significand {p : ℕ} (h : step p ≠ 0) : binade ≤ significand p := by
  rcases significand_cases p with ⟨hstep, -⟩ | ⟨hle, -⟩
  · exact absurd hstep h
  · exact hle

/-- Below the step of another pattern a magnitude stays below all those with
a full significand. -/
theorem units_lt {p n : ℕ} (h : step p < n) : units p < binade * 2 ^ n := by
  have hpow : 2 ^ (step p + 1) ≤ 2 ^ n := Nat.pow_le_pow_right two_pos h
  calc units p = significand p * 2 ^ step p := rfl
    _ < 2 * binade * 2 ^ step p :=
      Nat.mul_lt_mul_of_pos_right (significand_lt p) (Nat.two_pow_pos _)
    _ = binade * 2 ^ (step p + 1) := by ring
    _ ≤ binade * 2 ^ n := Nat.mul_le_mul_left _ hpow

/-- A larger pattern has a larger magnitude. Patterns of different steps are
in different binades; at one step, it is the significands that differ. -/
theorem units_strictMono : StrictMono units := by
  intro p p' hlt
  have hstep : step p ≤ step p' := by
    rw [step, step]
    have := Nat.div_le_div_right (c := binade) hlt.le
    omega
  rcases hstep.lt_or_eq with hstep | hstep
  · calc units p < binade * 2 ^ step p' := units_lt hstep
      _ ≤ units p' := Nat.mul_le_mul_right _ (binade_le_significand (by omega))
  · -- With the same step, the significands are as far apart as the
    -- patterns.
    have hsignificand : significand p < significand p' := by
      have hp := step_add_significand p
      have hp' := step_add_significand p'
      rw [← hstep] at hp'
      omega
    rw [units, units, hstep]
    exact Nat.mul_lt_mul_of_pos_right hsignificand (Nat.two_pow_pos _)

/-- The significand of a pattern is even if the pattern is, since a binade
has an even width. Ties are broken by the significand, and neighbours are
told apart by the pattern. -/
theorem even_significand (p : ℕ) : Even (significand p) ↔ Even p := by
  have hbinade : Even (step p * binade) := Even.mul_left (by decide) _
  conv_rhs => rw [← step_add_significand p]
  rw [Nat.even_add, iff_true_left hbinade]

/-- A magnitude is a whole number of steps, or it lies below all magnitudes
that have a full significand at that step. -/
theorem units_cases (p n : ℕ) : (∃ k, units p = k * 2 ^ n) ∨ 0 < n ∧ units p < binade * 2 ^ n := by
  rcases Nat.lt_or_ge (step p) n with hlt | hle
  · exact .inr ⟨by omega, units_lt hlt⟩
  · refine .inl ⟨significand p * 2 ^ (step p - n), ?_⟩
    rw [Nat.mul_assoc, ← Nat.pow_add, Nat.sub_add_cancel hle]
    rfl

/-- A significand above the binades of its step. If it does not fit, it
carries into the next binade, and is even there. This is why `nearest` needs
no case for a significand that is rounded up to the next power of two. -/
theorem units_carry {n r : ℕ} (hle : r ≤ 2 * binade) (hfull : 0 < n → binade ≤ r) :
    units (n * binade + r) = r * 2 ^ n ∧ (Even r → Even (significand (n * binade + r))) := by
  rw [show binade = 2 ^ 52 from rfl] at *
  rcases hle.lt_or_eq with hlt | rfl
  · have hstep : step (n * 2 ^ 52 + r) = n := by
      rw [step, show binade = 2 ^ 52 from rfl]
      omega
    have hsignificand : significand (n * 2 ^ 52 + r) = r := by
      rw [significand, hstep, show binade = 2 ^ 52 from rfl, Nat.add_sub_cancel_left]
    rw [units, hstep, hsignificand]
    exact ⟨rfl, id⟩
  · -- The significand that does not fit is the smallest full one of the
    -- next step.
    have hstep : step (n * 2 ^ 52 + 2 * 2 ^ 52) = n + 1 := by
      rw [step, show binade = 2 ^ 52 from rfl]
      omega
    have hsignificand : significand (n * 2 ^ 52 + 2 * 2 ^ 52) = 2 ^ 52 := by
      rw [significand, hstep, show binade = 2 ^ 52 from rfl]
      omega
    rw [units, hstep, hsignificand]
    refine ⟨?_, fun _ => by decide⟩
    show 2 ^ 52 * 2 ^ (n + 1) = 2 * 2 ^ 52 * 2 ^ n
    ring

/-! ### The closest pattern

A quotient is scaled to steps, rounded to a natural, and scaled back. That
no other pattern is closer follows from the two sections before. -/

/-- The pattern whose magnitude is closest to `q` quanta. Its significand is
even if another pattern is as close. All naturals are patterns here, also
those from infinity on, as if the binades went on for ever. -/
structure Closest (q : ℚ) (p : ℕ) : Prop where
  le (p' : ℕ) : |q - units p| ≤ |q - units p'|
  even (p' : ℕ) : p' ≠ p → |q - units p'| = |q - units p| → Even (significand p)

section Steps

variable {z : ℚ} {n r : ℕ}

/-- Distances in steps are as many times the width of a step in quanta.
Rounding is done in steps, and values are compared in quanta. -/
theorem abs_sub_mul_pow (z k : ℚ) (n : ℕ) : |z * 2 ^ n - k * 2 ^ n| = |z - k| * 2 ^ n := by
  rw [← sub_mul, abs_mul, abs_of_pos (pow_pos two_pos n : (0 : ℚ) < 2 ^ n)]

/-- A magnitude that is no whole number of steps is further away than the
rounded quotient, since the smallest full one is not closer than that. -/
theorem lt_abs_sub_units (hround : |z - r| ≤ 1 / 2) (hfull : binade ≤ z) {p : ℕ}
    (hp : units p < binade * 2 ^ n) : |z - r| * 2 ^ n < |z * 2 ^ n - units p| := by
  have hpow : (0 : ℚ) < 2 ^ n := pow_pos two_pos n
  have hp : (units p : ℚ) < binade * 2 ^ n := by exact_mod_cast hp
  -- The rounded quotient is as close as any natural, so also as the
  -- smallest full significand.
  have hle : |z - r| ≤ z - binade := by
    rw [← abs_of_nonneg (sub_nonneg.mpr hfull)]
    by_cases hk : binade = r
    · rw [hk]
    · exact (le_abs_sub hround hk).1
  calc |z - r| * 2 ^ n ≤ (z - binade) * 2 ^ n := mul_le_mul_of_nonneg_right hle hpow.le
    _ = z * 2 ^ n - binade * 2 ^ n := sub_mul _ _ _
    _ < z * 2 ^ n - units p := sub_lt_sub_left hp _
    _ ≤ |z * 2 ^ n - units p| := le_abs_self _

/-- A quotient `z` of steps that is rounded to `r` of them is closest to the
pattern with that significand. -/
theorem closest_of_rounded (hround : |z - r| ≤ 1 / 2) (htie : |z - r| = 1 / 2 → Even r)
    (hlt : z < 2 * binade) (hfull : 0 < n → binade ≤ z) : Closest (z * 2 ^ n) (n * binade + r) := by
  have hpow : (0 : ℚ) < 2 ^ n := pow_pos two_pos n
  obtain ⟨hunits, heven⟩ := units_carry (rounded_le hround (by exact_mod_cast hlt))
    (fun hn => le_rounded hround (hfull hn))
  have hdistance : |z * 2 ^ n - units (n * binade + r)| = |z - r| * 2 ^ n := by
    rw [hunits, ← abs_sub_mul_pow]
    push_cast
    rfl
  -- The distance to a magnitude that is a whole number of steps, in steps.
  have hwhole : ∀ {p' k : ℕ}, units p' = k * 2 ^ n →
      |z * 2 ^ n - units p'| = |z - k| * 2 ^ n := by
    intro p' k hk
    rw [hk, ← abs_sub_mul_pow]
    push_cast
    rfl
  constructor
  · intro p'
    rw [hdistance]
    rcases units_cases p' n with ⟨k, hk⟩ | ⟨hn, hbelow⟩
    · rw [hwhole hk]
      refine mul_le_mul_of_nonneg_right ?_ hpow.le
      by_cases hkr : k = r
      · rw [hkr]
      · exact (le_abs_sub hround hkr).1
    · exact (lt_abs_sub_units hround (hfull hn) hbelow).le
  · intro p' hne heq
    rw [hdistance] at heq
    rcases units_cases p' n with ⟨k, hk⟩ | ⟨hn, hbelow⟩
    · -- Another pattern has another magnitude, hence another number of
      -- steps.
      have hkr : k ≠ r := by
        rintro rfl
        exact hne (units_strictMono.injective (hk.trans hunits.symm))
      rw [hwhole hk] at heq
      exact heven (htie ((le_abs_sub hround hkr).2 (mul_right_cancel₀ hpow.ne' heq)))
    · exact absurd heq (lt_abs_sub_units hround (hfull hn) hbelow).ne'

end Steps

/-- A number of quanta fills the significands at the step at which it is
rounded, and does not overfill them. At the lowest step there is no lower
bound: there, significands need not be full. -/
theorem quotient_bounds (quanta : ℕ) {den : ℕ} (hden : 0 < den) :
    let n := (quanta / den).log2 - 52
    quanta < 2 * binade * (den * 2 ^ n) ∧ (0 < n → binade * (den * 2 ^ n) ≤ quanta) := by
  intro n
  have hlt : quanta / den < 2 ^ ((quanta / den).log2 + 1) := Nat.lt_log2_self
  rw [show binade = 2 ^ 52 from rfl]
  constructor
  · have hpow : 2 ^ ((quanta / den).log2 + 1) ≤ 2 ^ (53 + n) :=
      Nat.pow_le_pow_right two_pos (by omega)
    have hquanta : quanta < 2 ^ (53 + n) * den :=
      (Nat.div_lt_iff_lt_mul hden).mp (hlt.trans_le hpow)
    calc quanta < 2 ^ (53 + n) * den := hquanta
      _ = 2 * 2 ^ 52 * (den * 2 ^ n) := by ring
  · intro hn
    -- Above the lowest step the quotient is large, so its logarithm is not
    -- that of zero.
    have hne : quanta / den ≠ 0 := by
      intro hzero
      have : n = 0 := by simp only [n, hzero, Nat.log2_zero, Nat.zero_sub]
      omega
    have hle : 2 ^ (52 + n) ≤ quanta / den := by
      rw [show 52 + n = (quanta / den).log2 by omega]
      exact Nat.log2_self_le hne
    calc 2 ^ 52 * (den * 2 ^ n) = 2 ^ (52 + n) * den := by ring
      _ ≤ quanta := (Nat.le_div_iff_mul_le hden).mp hle

/-- What a number of quanta is rounded to as if there were no infinity: the
rounded significand above the binades of its step. -/
def unbounded (quanta den : ℕ) : ℕ :=
  let step := (quanta / den).log2 - 52
  step * binade + roundHalfEven quanta (den * Nat.pow 2 step)

/-- It is the closest pattern of all. The quotient is scaled to steps,
rounded there, and scaled back. -/
theorem closest_unbounded (quanta : ℕ) {den : ℕ} (hden : 0 < den) :
    Closest (quanta / den) (unbounded quanta den) := by
  let n := (quanta / den).log2 - 52
  obtain ⟨hupper, hlower⟩ := quotient_bounds quanta hden
  have hsteps : 0 < den * 2 ^ n := Nat.mul_pos hden (Nat.two_pow_pos n)
  have hpos : (0 : ℚ) < (den * 2 ^ n : ℕ) := Nat.cast_pos.mpr hsteps
  -- The quotient in quanta is the quotient in steps, times the width of a
  -- step.
  have hscale : (quanta / den : ℚ) = quanta / (den * 2 ^ n : ℕ) * 2 ^ n := by
    have : (den : ℚ) ≠ 0 := Nat.cast_ne_zero.mpr hden.ne'
    push_cast
    field_simp
  obtain ⟨hround, htie⟩ := abs_sub_roundHalfEven quanta hsteps
  rw [hscale]
  refine closest_of_rounded hround htie ?_ fun hn => ?_
  · exact (div_lt_iff₀ hpos).mpr (by exact_mod_cast hupper)
  · exact (le_div_iff₀ hpos).mpr (by exact_mod_cast hlower hn)

/-! ### Infinity

The pattern of infinity is where the finite ones end, and a tie with the
largest of them is decided for it. -/

/-- The number of quanta halfway between the largest finite magnitude and
the one that the pattern of infinity would have if it were finite. -/
def overflow : ℚ := (units (infinitePattern - 1) + units infinitePattern) / 2

/-- The magnitude of infinity would be larger than all finite ones, so there
is a halfway between it and the largest of these. -/
theorem units_largest_lt : (units (infinitePattern - 1) : ℚ) < units infinitePattern :=
  Nat.cast_lt.mpr (units_strictMono (by decide))

/-- Nothing from halfway on is closest to a finite pattern. Halfway itself
is decided by the tie, and the last finite pattern is odd. -/
theorem Closest.infinite {q : ℚ} {p : ℕ} (h : Closest q p) (hq : overflow ≤ q) :
    infinitePattern ≤ p := by
  by_contra hlt
  have hle : p ≤ infinitePattern - 1 := by omega
  have hlast := units_largest_lt
  have hp : (units p : ℚ) ≤ units (infinitePattern - 1) := by
    exact_mod_cast units_strictMono.monotone hle
  rw [overflow] at hq
  -- The pattern of infinity is a pattern like any other here, and `p` is no
  -- further than it.
  have hfar := h.le infinitePattern
  rw [abs_of_nonneg (by linarith : 0 ≤ q - units p)] at hfar
  rcases le_abs'.mp hfar with hfar | hfar
  · -- Exactly halfway the largest finite one is as close, but its
    -- significand is odd.
    have heq : (units p : ℚ) = units (infinitePattern - 1) := by linarith
    have hpattern : p = infinitePattern - 1 := units_strictMono.injective (by exact_mod_cast heq)
    have hodd := h.even infinitePattern (by omega) (by
      rw [abs_of_nonneg (by linarith : 0 ≤ q - units p), abs_of_nonpos (by linarith)]
      linarith)
    rw [hpattern] at hodd
    exact absurd hodd (by decide)
  · linarith

/-- Nothing below halfway is closest to infinity. The last finite pattern
would be closer. -/
theorem Closest.finite {q : ℚ} {p : ℕ} (h : Closest q p) (hq : q < overflow) :
    p < infinitePattern := by
  by_contra hle
  have hlast := units_largest_lt
  have hp : (units infinitePattern : ℚ) ≤ units p := by
    exact_mod_cast units_strictMono.monotone (Nat.le_of_not_lt hle)
  rw [overflow] at hq
  -- Here it is the largest finite one that would be closer.
  have hfar := h.le (infinitePattern - 1)
  rw [abs_of_nonpos (by linarith : q - units p ≤ 0)] at hfar
  rcases le_abs'.mp hfar with hfar | hfar <;> linarith

/-- How many quanta make one: a quantum is the smallest subnormal double. -/
def oneUnits : ℕ := Nat.pow 2 1074

/-- Infinity bounds what is rounded: `nearest` is the closest pattern as if
there were no infinity, or that of infinity if this is smaller. -/
theorem nearest_eq (num den : ℕ) :
    nearest num den = min infinitePattern (unbounded (num * oneUnits) den) := by
  delta nearest unbounded oneUnits
  rfl

section Nearest

variable (num : ℕ) {den : ℕ} (hden : 0 < den)
include hden

/-- A quotient, counted in quanta, is closest to what it is rounded to. Any
other unit would do as well, so the scale is a variable. -/
theorem closest_quotient (scale : ℕ) :
    Closest (num / den * scale) (unbounded (num * scale) den) := by
  have hquotient : (num / den * scale : ℚ) = (num * scale : ℕ) / den := by
    push_cast
    ring
  rw [hquotient]
  exact closest_unbounded _ hden

/-- From halfway on a quotient is rounded to infinity. The tie at halfway
goes there as well, since the last finite significand is odd. -/
theorem nearest_eq_infinitePattern (h : overflow ≤ num / den * oneUnits) :
    nearest num den = infinitePattern := by
  rw [nearest_eq, Nat.min_eq_left ((closest_quotient num hden oneUnits).infinite h)]

/-- Below that it is rounded to the closest finite pattern. Here the bound
of `nearest` has no effect. -/
theorem nearest_closest (h : num / den * oneUnits < overflow) :
    nearest num den < infinitePattern ∧ Closest (num / den * oneUnits) (nearest num den) := by
  have hclosest := closest_quotient num hden oneUnits
  have hfinite := hclosest.finite h
  rw [nearest_eq, Nat.min_eq_right hfinite.le]
  exact ⟨hfinite, hclosest⟩

end Nearest

end DeskCalculator.Double
