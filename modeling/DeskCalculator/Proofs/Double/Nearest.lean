import DeskCalculator.Double.Shortest
import Mathlib.Tactic.Ring

/-!
# `DeskCalculator.Proofs.Double.Nearest`: the decimals that read back

A finite pattern stands for a whole number of quanta, `units`, so a quotient
that is this number is rounded to the pattern itself. That is why writing a
number and reading it again leads back to it: the exact decimal is such a
quotient, and a decimal is only written if it was tried.

Nothing here says that `nearest` yields what is nearest. This is the subject
of `Proofs/Double/Rounding.lean`, and reading back does not depend on it.

* `nearest_mul`: `nearest` sees the quotient, not the two numbers that it is
  given as.
* `nearest_units`: a quotient that a pattern stands for is nearest to that
  pattern.
* `pattern_exactDecimal`: in particular the exact decimal of a pattern reads
  back.
* `pattern_shortest`: so does the shortest one, since a grid is only left
  with a decimal that does, and after the last grid there is the exact one.
-/

set_option autoImplicit false

namespace DeskCalculator.Double

/-! ### Rounding a quotient

`nearest` is a function of a fraction, and here it is shown to be one of the
quotient: a common factor changes nothing. -/

/-- A common factor of both numbers does not count: quotient and comparison
with the half stay. -/
theorem roundHalfEven_mul (num den : Nat) {k : Nat} (hk : 0 < k) :
    roundHalfEven (num * k) (den * k) = roundHalfEven num den := by
  have hcompare : compare (2 * (num % den * k)) (den * k) = compare (2 * (num % den)) den := by
    rw [← Nat.mul_assoc, Nat.compare_eq_ite_lt, Nat.compare_eq_ite_lt]
    simp only [Nat.mul_lt_mul_right hk]
  rw [roundHalfEven, roundHalfEven, Nat.mul_div_mul_right _ _ hk, Nat.mul_mod_mul_right, hcompare]

/-- A quotient that is a natural is not rounded. There is no remainder to
compare. -/
theorem roundHalfEven_exact (m : Nat) {den : Nat} (hden : 0 < den) :
    roundHalfEven (m * den) den = m := by
  rw [roundHalfEven, Nat.mul_mod_left, Nat.mul_div_cancel _ hden]
  have hcompare : compare (2 * 0) den = .lt := Nat.compare_eq_lt.mpr (by omega)
  rw [hcompare]

/-- A common factor of both numbers does not count. A numeral may end with
zeros behind its point; these are such a factor. -/
theorem nearest_mul (num den : Nat) {k : Nat} (hk : 0 < k) :
    nearest (num * k) (den * k) = nearest num den := by
  simp only [nearest]
  rw [Nat.mul_right_comm num k, Nat.mul_div_mul_right _ _ hk, Nat.mul_right_comm den k,
    roundHalfEven_mul _ _ hk]

/-! ### What a pattern stands for

Every pattern is what its own magnitude is rounded to, so each number can be
read back from some decimal. -/

/-- Patterns count quanta up to the second binade, and from there on the
significand has 53 bits. -/
theorem significand_cases (p : Nat) :
    (step p = 0 ∧ significand p = p ∧ p < 2 ^ 53) ∨
      (2 ^ 52 ≤ significand p ∧ significand p < 2 ^ 53) := by
  rw [significand, step, show binade = 2 ^ 52 from rfl]
  omega

/-- A pattern is its significand above the binades of its step. Subtracting
them loses nothing: a step is never larger than the number of binades below
the pattern. -/
theorem step_add_significand (p : Nat) : step p * binade + significand p = p := by
  rw [significand, step, show binade = 2 ^ 52 from rfl]
  omega

/-- The step of a pattern is the one at which its magnitude is rounded.
`nearest` computes it from the size of the quotient, and the pattern knows
it from its exponent. -/
theorem log2_units (p : Nat) : (units p).log2 - 52 = step p := by
  rcases significand_cases p with ⟨hstep, hsignificand, hlt⟩ | ⟨hle, hlt⟩
  · rw [units, hstep, hsignificand, show p * Nat.pow 2 0 = p from Nat.mul_one p]
    by_cases hp : p = 0
    · rw [hp]
      rfl
    · have := (Nat.log2_lt hp).mpr hlt
      omega
  · have hpos : 0 < 2 ^ step p := Nat.two_pow_pos _
    have hlog : (significand p * 2 ^ step p).log2 = 52 + step p := by
      refine (Nat.log2_eq_iff (Nat.ne_of_gt (Nat.mul_pos (by omega) hpos))).mpr ⟨?_, ?_⟩
      · rw [Nat.pow_add]
        exact Nat.mul_le_mul_right _ hle
      · rw [Nat.add_right_comm, Nat.pow_add]
        exact Nat.mul_lt_mul_of_pos_right hlt hpos
    rw [units]
    show (significand p * 2 ^ step p).log2 - 52 = step p
    omega

/-- A quotient that a pattern stands for is nearest to that pattern.
Infinity is allowed, as the bound on the result is not in its way. -/
theorem nearest_units {p num den : Nat} (hp : p ≤ infinitePattern) (hden : 0 < den)
    (h : num * Nat.pow 2 1074 = units p * den) : nearest num den = p := by
  have hround : units p * den = significand p * (den * Nat.pow 2 (step p)) := by
    rw [units, Nat.mul_assoc, Nat.mul_comm den]
  have hpos : 0 < den * Nat.pow 2 (step p) := Nat.mul_pos hden (Nat.two_pow_pos _)
  simp only [nearest, h]
  rw [Nat.mul_div_cancel _ hden, log2_units, hround, roundHalfEven_exact _ hpos,
    step_add_significand, Nat.min_eq_right hp]

/-- The powers of ten behind the point, for `m` times `2 ^ (a - n)`. Either
`a` or `n` is the larger one, and one of the two differences is zero. The
naturals are variables here, so that nothing is tempted to compute with
exponents of a thousand. -/
theorem mul_pow_sub (m a n : Nat) :
    m * Nat.pow 2 (a - n) * Nat.pow 5 (n - a) * Nat.pow 2 n
      = m * Nat.pow 2 a * Nat.pow 10 (n - a) := by
  simp only [Nat.pow_eq]
  have htwo : 2 ^ (a - n) * 2 ^ n = 2 ^ a * 2 ^ (n - a) := by
    rw [← Nat.pow_add, ← Nat.pow_add]
    congr 1
    omega
  calc m * 2 ^ (a - n) * 5 ^ (n - a) * 2 ^ n
      = m * (2 ^ (a - n) * 2 ^ n) * 5 ^ (n - a) := by ring
    _ = m * 2 ^ a * (2 * 5) ^ (n - a) := by
      rw [htwo, Nat.mul_pow]
      ring

/-- The exact decimal of a pattern is its quanta. Multiplied out, as
`nearest` takes a quotient apart, and so without a division. -/
theorem exactDecimal_mul (p : Nat) :
    (exactDecimal p).coefficient * Nat.pow 2 1074
      = units p * Nat.pow 10 (exactDecimal p).scale := by
  rw [exactDecimal, units]
  generalize 1074 = places
  exact mul_pow_sub _ _ places

/-- The exact decimal of a pattern reads back. So there is a decimal that
does, and a search for the shortest one can fall back on it. -/
theorem pattern_exactDecimal {p : Nat} (hp : p ≤ infinitePattern) : (exactDecimal p).pattern = p :=
  nearest_units hp (Nat.pow_pos (Nat.zero_lt_succ 9)) (exactDecimal_mul p)

/-! ### The search

What is found by the search was tested to read back. -/

/-- What is found on a grid reads back. Nothing is used of which point it
is: each was tried before it was taken. -/
theorem pattern_nearestOnGrid {p exponent : Nat} {exact d : Decimal}
    (h : nearestOnGrid p exact exponent = some d) : d.pattern = p := by
  rw [nearestOnGrid] at h
  obtain ⟨coefficient, hfound, rfl⟩ := Option.map_eq_some_iff.mp h
  -- One of the two neighbours was taken, and either was tried before.
  split at hfound
  · next hbelow habove =>
      obtain rfl := Option.some.inj hfound
      split
      · exact beq_iff_eq.mp hbelow
      · exact beq_iff_eq.mp habove
  · next hbelow habove =>
      obtain rfl := Option.some.inj hfound
      exact beq_iff_eq.mp hbelow
  · next hbelow habove =>
      obtain rfl := Option.some.inj hfound
      exact beq_iff_eq.mp habove
  · cases hfound

/-- The shortest decimal of a pattern reads back. Either it was found on a
grid, where it was tried, or no grid had one and it is the exact one. -/
theorem pattern_shortest {p : Nat} (hp : p ≤ infinitePattern) : (shortest p).pattern = p := by
  simp only [shortest]
  cases hfound : List.findSome? _ _ with
  | none => exact pattern_exactDecimal hp
  | some d =>
      obtain ⟨exponent, -, hgrid⟩ := List.exists_of_findSome?_eq_some hfound
      exact pattern_nearestOnGrid hgrid

end DeskCalculator.Double
