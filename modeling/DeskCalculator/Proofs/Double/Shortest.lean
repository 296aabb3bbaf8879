import DeskCalculator.Proofs.Double.Value

/-!
# `DeskCalculator.Proofs.Double.Shortest`: no decimal that reads back is shorter or nearer

The search looks at two points of each grid only. That is enough for two
reasons. What reads back as one pattern has no gaps, since a larger decimal
reads back as no smaller pattern (`Decimal.pattern_mono`). And a decimal
with few significant digits lies on the grid or far below it, so it is never
strictly between the two points (`outside_of_grid`). So if such a decimal
reads back, then one of the two points does, which is between it and the
exact value.

Nothing is assumed about how wide the interval of what reads back is, or
whether its ends belong to it. At a power of two the two halves of it differ
in width, and at its ends a tie decides; both are in `RoundsTo`, and only
that rounding is monotone is used of it.

* `Decimal.value`, `significantDigits`: what a decimal stands for, and how
  many digits it takes.
* `exists_neighbour`: for each decimal with few digits that reads back, one
  of the two points reads back and is no further away.
* `nearestOnGrid_none`, `nearestOnGrid_some`: what a grid says about all
  decimals with few digits.
* `shortest_spec`: the shortest decimal has the fewest digits of all that
  read back, and of those with as many it is the nearest.
-/

set_option autoImplicit false

namespace DeskCalculator.Double

/-! ### Decimals

Decimals are compared as rationals, and reading back is monotone in them.
This is all that the search needs of rounding. -/

namespace Decimal

variable (d d' : Decimal)

/-- The rational that a decimal stands for. Decimals of different scales can
stand for the same one. -/
def value : ℚ := d.coefficient / 10 ^ d.scale

/-- Decimals are compared at a common scale, as naturals. So comparisons
need no division, and `omega` and `gcongr` apply. -/
theorem value_le_iff :
    d.value ≤ d'.value ↔ d.coefficient * 10 ^ d'.scale ≤ d'.coefficient * 10 ^ d.scale := by
  unfold value
  rw [div_le_div_iff₀ (by positivity) (by positivity)]
  exact_mod_cast Iff.rfl

/-- At the same scale, decimals are as far apart as their coefficients. All
points of a grid have the scale of the exact decimal. -/
theorem abs_value_sub (h : d.scale = d'.scale) :
    |d.value - d'.value| = |(d.coefficient : ℚ) - d'.coefficient| / 10 ^ d'.scale := by
  unfold value
  rw [h, ← sub_div, abs_div, abs_of_pos (by positivity : (0 : ℚ) < 10 ^ d'.scale)]

/-- No decimal reads back as more than infinity: rounding has this bound
built in. -/
theorem pattern_le : d.pattern ≤ infinitePattern := Nat.min_le_left _ _

variable {d d'}

/-- A larger decimal reads back as no smaller pattern. So the decimals that
read back as one pattern are an interval, and a point between two of them is
one too. -/
theorem pattern_mono (h : d.value ≤ d'.value) : d.pattern ≤ d'.pattern := by
  have hmono := RoundsTo.mono h d.roundsTo_toNumber d'.roundsTo_toNumber
  unfold toNumber at hmono
  rwa [pattern_ofPattern d.pattern_le, pattern_ofPattern d'.pattern_le] at hmono

/-- What lies between two decimals that read back does, too. One of them
will be the exact decimal, and the other one a decimal that competes with
it. -/
theorem pattern_of_between {p : ℕ} {a c : Decimal} (ha : a.pattern = p) (hc : c.pattern = p)
    (had : a.value ≤ d.value) (hdc : d.value ≤ c.value) : d.pattern = p :=
  le_antisymm (hc ▸ pattern_mono hdc) (ha ▸ pattern_mono had)

/-- A decimal reads back as a pattern if it is rounded to its number.
Reading back is what the search tests, and rounding is what statements are
about. -/
theorem pattern_eq_iff {p : ℕ} (hp : p ≤ infinitePattern) :
    d.pattern = p ↔ RoundsTo d.value (ofPattern p) := by
  constructor
  · rintro rfl
    exact d.roundsTo_toNumber
  · intro h
    -- No rational is rounded to two doubles.
    have hsame : ofPattern d.pattern = ofPattern p := d.roundsTo_toNumber.unique h
    rw [← pattern_ofPattern d.pattern_le, hsame, pattern_ofPattern hp]

/-- Nothing but zero reads back from no digits. So whatever reads back as a
pattern above zero has at least one significant digit. -/
theorem pattern_of_zero (h : d.coefficient = 0) : d.pattern = 0 := by
  unfold pattern
  refine nearest_units (Nat.zero_le _) (Nat.pow_pos (by decide)) ?_
  rw [h, Nat.zero_mul]
  exact (Nat.zero_mul _).symm

end Decimal

/-- The exact decimal of a pattern is its magnitude. Distances to a double
are therefore distances to this decimal. -/
theorem value_exactDecimal (p : ℕ) : (exactDecimal p).value * oneUnits = units p := by
  have hpow : (0 : ℚ) < 10 ^ (exactDecimal p).scale := by positivity
  unfold Decimal.value oneUnits
  rw [div_mul_eq_mul_div, div_eq_iff hpow.ne']
  exact_mod_cast exactDecimal_mul p

/-! ### Significant digits

Digits are counted on the coefficient alone, so a decimal has as many at
every scale. -/

/-- How many significant digits a natural has: those without the zeros at
its end. The library lists the lowest digit first, so these zeros are at the
beginning of its list. Zero has none. -/
def significantDigits (n : ℕ) : ℕ := ((Nat.digits 10 n).dropWhile (· = 0)).length

/-- Zeros at the end do not count, so a decimal has as many significant
digits at any scale. -/
theorem significantDigits_mul_pow (n k : ℕ) :
    significantDigits (n * 10 ^ k) = significantDigits n := by
  rcases Nat.eq_zero_or_pos n with rfl | hn
  · rw [Nat.zero_mul]
  · unfold significantDigits
    rw [Nat.mul_comm, Nat.digits_base_pow_mul (by decide) hn,
      List.dropWhile_append_of_pos fun c hc => decide_eq_true (List.eq_of_mem_replicate hc)]

/-- A natural below a power of ten has no more digits than that has zeros.
Zeros at its end make them fewer still. -/
theorem significantDigits_le {n k : ℕ} (h : n < 10 ^ k) : significantDigits n ≤ k :=
  (List.dropWhile_suffix _).length_le.trans ((Nat.digits_length_le_iff (by decide) n).mpr h)

/-- A natural is its significant digits with zeros behind them. The form in
which a decimal with few digits is compared with a grid. -/
theorem exists_significant (n : ℕ) : ∃ m j, n = m * 10 ^ j ∧ m < 10 ^ significantDigits n := by
  let zeros := (Nat.digits 10 n).takeWhile (· = 0)
  let rest := (Nat.digits 10 n).dropWhile (· = 0)
  have hzeros : zeros = List.replicate zeros.length 0 :=
    List.eq_replicate_iff.mpr ⟨rfl, fun c hc => by simpa using List.mem_takeWhile_imp hc⟩
  have hdigits : ∀ c ∈ rest, c < 10 := fun c hc =>
    Nat.digits_lt_base (by decide) ((List.dropWhile_suffix _).subset hc)
  refine ⟨Nat.ofDigits 10 rest, zeros.length, ?_,
    Nat.ofDigits_lt_base_pow_length (by decide) hdigits⟩
  calc n = Nat.ofDigits 10 (zeros ++ rest) := by
        rw [List.takeWhile_append_dropWhile, Nat.ofDigits_digits]
    _ = Nat.ofDigits 10 rest * 10 ^ zeros.length := by
        rw [Nat.ofDigits_append, hzeros, Nat.ofDigits_replicate_zero, List.length_replicate]
        ring

/-! ### Grids

The grid of an exponent has the points that are multiples of `10 ^
exponent`, in units of the last place of the exact decimal. -/

section Grid

variable (exact : Decimal) (exponent : ℕ)

/-- The last point of a grid that is not above the exact decimal. It is the
exact decimal if that is a point of the grid. -/
def lower : Decimal :=
  { exact with coefficient := exact.coefficient / 10 ^ exponent * 10 ^ exponent }

/-- The point of the grid after that. It may have one digit more than the
exact decimal, as in `9.9` and `10`. -/
def upper : Decimal :=
  { exact with coefficient := exact.coefficient / 10 ^ exponent * 10 ^ exponent + 10 ^ exponent }

/-- The exact decimal is between these two points, and may be the lower one.
The difference is what is compared to find the nearer one. -/
theorem between_points :
    (lower exact exponent).coefficient ≤ exact.coefficient ∧
      exact.coefficient < (upper exact exponent).coefficient := by
  have hpow : 0 < 10 ^ exponent := Nat.pow_pos (by decide)
  have hdiv := Nat.div_add_mod' exact.coefficient (10 ^ exponent)
  have hmod := Nat.mod_lt exact.coefficient hpow
  unfold lower upper
  dsimp only
  omega

/-- How far the lower point is away, in units of the last place of the exact
decimal. -/
theorem abs_lower_sub : |(lower exact exponent).value - exact.value|
    = (exact.coefficient - (lower exact exponent).coefficient : ℕ) / 10 ^ exact.scale := by
  rw [Decimal.abs_value_sub (lower exact exponent) exact rfl, abs_sub_comm,
    ← Nat.cast_sub (between_points exact exponent).1, Nat.abs_cast]

/-- How far the upper point is away, in the same units. `nearestOnGrid`
compares the two as naturals. -/
theorem abs_upper_sub : |(upper exact exponent).value - exact.value|
    = ((upper exact exponent).coefficient - exact.coefficient : ℕ) / 10 ^ exact.scale := by
  rw [Decimal.abs_value_sub (upper exact exponent) exact rfl,
    ← Nat.cast_sub (between_points exact exponent).2.le, Nat.abs_cast]

variable {exact exponent} {digits : ℕ}

/-- A decimal with few digits is on the grid or below all of the points that
matter, so it is not strictly between the two points around the exact
decimal. `digits` is how many digits the exact decimal has, and "few" are
those that a point of the grid has room for. A decimal on a finer grid than
that can only have so few digits if it is smaller than the power of ten
below the exact one. -/
theorem outside_of_grid (hexact : 10 ^ (digits - 1) ≤ exact.coefficient) (hlt : exponent < digits)
    {d : Decimal} (hd : significantDigits d.coefficient + exponent ≤ digits) :
    d.value ≤ (lower exact exponent).value ∨ (upper exact exponent).value ≤ d.value := by
  obtain ⟨m, j, hm, hbelow⟩ := exists_significant d.coefficient
  rw [Decimal.value_le_iff, Decimal.value_le_iff, hm]
  unfold lower upper
  dsimp only
  rcases Nat.lt_or_ge (j + exact.scale) (d.scale + exponent) with hfine | hcoarse
  · -- It lies on a finer grid, so it is below the power of ten with which
    -- the exact one begins.
    left
    have hfirst : 10 ^ (digits - 1 - exponent) ≤ exact.coefficient / 10 ^ exponent := by
      rw [Nat.le_div_iff_mul_le (Nat.pow_pos (by decide)), ← Nat.pow_add,
        Nat.sub_add_cancel (by omega)]
      exact hexact
    calc m * 10 ^ j * 10 ^ exact.scale
        ≤ 10 ^ significantDigits d.coefficient * 10 ^ j * 10 ^ exact.scale := by gcongr
      _ = 10 ^ (significantDigits d.coefficient + (j + exact.scale)) := by ring
      _ ≤ 10 ^ (digits - 1 - exponent + exponent + d.scale) :=
          Nat.pow_le_pow_right (by decide) (by omega)
      _ = 10 ^ (digits - 1 - exponent) * 10 ^ exponent * 10 ^ d.scale := by ring
      _ ≤ exact.coefficient / 10 ^ exponent * 10 ^ exponent * 10 ^ d.scale := by gcongr
  · -- It is a point of the grid.
    obtain ⟨i, hi⟩ := Nat.exists_eq_add_of_le hcoarse
    have hpoint : m * 10 ^ j * 10 ^ exact.scale = m * 10 ^ i * 10 ^ exponent * 10 ^ d.scale := by
      rw [Nat.mul_assoc, ← Nat.pow_add, hi]
      ring
    rw [hpoint]
    -- Points of the grid are compared by their numbers, and the lower point
    -- has that of the exact decimal.
    rcases Nat.lt_or_ge (exact.coefficient / 10 ^ exponent) (m * 10 ^ i) with habove | hunder
    · right
      rw [← Nat.succ_mul]
      gcongr
      exact habove
    · left
      gcongr

end Grid

/-! ### The search

What the search finds on one grid, on which grid it ends, and that both
together are the shortest and the nearest. -/

section Search

variable {p exponent digits : ℕ} {exact : Decimal}

/-- Where a decimal with few digits reads back, one of the two points does,
too, and is no further away. It is the point on the same side of the exact
decimal, which lies between the two. -/
theorem exists_neighbour (hexact : 10 ^ (digits - 1) ≤ exact.coefficient)
    (hback : exact.pattern = p) (hlt : exponent < digits) {d : Decimal}
    (hd : significantDigits d.coefficient + exponent ≤ digits) (hp : d.pattern = p) :
    ∃ n, (n = lower exact exponent ∨ n = upper exact exponent) ∧ n.pattern = p ∧
      |n.value - exact.value| ≤ |d.value - exact.value| := by
  obtain ⟨hle, hlast⟩ := between_points exact exponent
  have hlower : (lower exact exponent).value ≤ exact.value :=
    (Decimal.value_le_iff _ _).mpr (Nat.mul_le_mul_right _ hle)
  have hupper : exact.value ≤ (upper exact exponent).value :=
    (Decimal.value_le_iff _ _).mpr (Nat.mul_le_mul_right _ hlast.le)
  -- Below the lower point, that one is between the two; above the upper
  -- point, it is the other one.
  rcases outside_of_grid hexact hlt hd with h | h
  · refine ⟨_, .inl rfl, Decimal.pattern_of_between hp hback h hlower, ?_⟩
    rw [abs_of_nonpos (by linarith), abs_of_nonpos (by linarith)]
    linarith
  · refine ⟨_, .inr rfl, Decimal.pattern_of_between hback hp hupper h, ?_⟩
    rw [abs_of_nonneg (by linarith), abs_of_nonneg (by linarith)]
    linarith

/-- Nothing is found on a grid only if neither point reads back. With
`exists_neighbour` no decimal with so few digits reads back then. -/
theorem nearestOnGrid_none (h : nearestOnGrid p exact exponent = none) {n : Decimal}
    (hn : n = lower exact exponent ∨ n = upper exact exponent) : n.pattern ≠ p := by
  unfold nearestOnGrid at h
  rw [Option.map_eq_none_iff] at h
  split at h
  · cases h
  · cases h
  · cases h
  · next hbelow habove =>
      rcases hn with rfl | rfl
      · exact beq_eq_false_iff_ne.mp hbelow
      · exact beq_eq_false_iff_ne.mp habove

/-- What is found on a grid is one of the two points, and if both read back
the nearer one. -/
theorem nearestOnGrid_some {d : Decimal} (h : nearestOnGrid p exact exponent = some d) :
    (d = lower exact exponent ∨ d = upper exact exponent) ∧
      ∀ n, n = lower exact exponent ∨ n = upper exact exponent → n.pattern = p →
        |d.value - exact.value| ≤ |n.value - exact.value| := by
  have hpow : (0 : ℚ) < 10 ^ exact.scale := by positivity
  unfold nearestOnGrid at h
  obtain ⟨coefficient, hfound, rfl⟩ := Option.map_eq_some_iff.mp h
  -- Both points read back, only the lower one, only the upper one, or
  -- neither.
  split at hfound
  · next hbelow habove =>
      obtain rfl := Option.some.inj hfound
      split
      · next hnearer =>
          refine ⟨.inl rfl, ?_⟩
          rintro n (rfl | rfl) -
          · exact le_refl _
          · show |(lower exact exponent).value - _| ≤ _
            rw [abs_lower_sub, abs_upper_sub, div_le_div_iff_of_pos_right hpow]
            exact_mod_cast hnearer.le
      · next hfurther =>
          refine ⟨.inr rfl, ?_⟩
          rintro n (rfl | rfl) -
          · show |(upper exact exponent).value - _| ≤ _
            rw [abs_lower_sub, abs_upper_sub, div_le_div_iff_of_pos_right hpow]
            exact_mod_cast Nat.le_of_not_lt hfurther
          · exact le_refl _
  · next hbelow habove =>
      obtain rfl := Option.some.inj hfound
      refine ⟨.inl rfl, ?_⟩
      rintro n (rfl | rfl) hn
      · exact le_refl _
      · exact absurd hn (beq_eq_false_iff_ne.mp habove)
  · next hbelow habove =>
      obtain rfl := Option.some.inj hfound
      refine ⟨.inr rfl, ?_⟩
      rintro n (rfl | rfl) hn
      · exact absurd hn (beq_eq_false_iff_ne.mp hbelow)
      · exact le_refl _
  · cases hfound

/-- What is found among the naturals below `n`, the largest one first, is
found at one of them and at none above it. -/
theorem exists_of_findSome?_reverse_range {α : Type} {f : ℕ → Option α} {n : ℕ} {x : α}
    (h : (List.range n).reverse.findSome? f = some x) :
    ∃ i < n, f i = some x ∧ ∀ larger, i < larger → larger < n → f larger = none := by
  obtain ⟨before, i, after, hsplit, hfound, hbefore⟩ := List.findSome?_eq_some_iff.mp h
  have hmem : ∀ j, j ∈ before ++ i :: after ↔ j < n := by
    intro j
    rw [← hsplit, List.mem_reverse, List.mem_range]
  have hsorted : (before ++ i :: after).Pairwise (· > ·) := by
    rw [← hsplit, List.pairwise_reverse]
    exact List.pairwise_lt_range
  have hafter := (List.pairwise_cons.mp (List.pairwise_append.mp hsorted).2.1).1
  refine ⟨i, (hmem i).mp (by simp), hfound, fun larger hlarger hlt => ?_⟩
  -- What stands behind it is smaller, so all that is larger was tried
  -- before.
  rcases List.mem_append.mp ((hmem larger).mpr hlt) with hearlier | hother
  · exact hbefore larger hearlier
  · rcases List.mem_cons.mp hother with rfl | hlater
    · exact absurd hlarger (Nat.lt_irrefl _)
    · exact absurd (hafter larger hlater) (Nat.lt_asymm hlarger)

/-- The first decimal that is found is the shortest one. On the last grid
there is the exact decimal itself, so one is found. The grids before the one
where it is found are the coarser ones. -/
theorem shortest_found (hp : p ≤ infinitePattern) :
    ∃ exponent < digitCount (exactDecimal p).coefficient,
      nearestOnGrid p (exactDecimal p) exponent = some (shortest p) ∧
      ∀ larger, exponent < larger → larger < digitCount (exactDecimal p).coefficient →
        nearestOnGrid p (exactDecimal p) larger = none := by
  have hfound : (List.range (digitCount (exactDecimal p).coefficient)).reverse.findSome?
      (nearestOnGrid p (exactDecimal p)) ≠ none := by
    intro hnone
    -- On the grid of single places the lower point is the exact decimal.
    have hlast : lower (exactDecimal p) 0 = exactDecimal p := by
      unfold lower
      rw [Nat.pow_zero, Nat.div_one, Nat.mul_one]
    have hcount : 0 < digitCount (exactDecimal p).coefficient :=
      List.length_pos_iff.mpr Nat.toDigits_ne_nil
    have hzero := List.findSome?_eq_none_iff.mp hnone 0
      (List.mem_reverse.mpr (List.mem_range.mpr hcount))
    exact nearestOnGrid_none hzero (.inl rfl)
      ((congrArg Decimal.pattern hlast).trans (pattern_exactDecimal hp))
  obtain ⟨d, hfound⟩ := Option.ne_none_iff_exists'.mp hfound
  have hshortest : shortest p = d := by
    simp only [shortest, hfound]
    rfl
  rw [hshortest]
  exact exists_of_findSome?_reverse_range hfound

/-- The points of a grid have as few digits as it has places for. So the
point that was found is one of the decimals that the lemmas above are
about. -/
theorem significantDigits_point (hexact : exact.coefficient < 10 ^ digits) (hlt : exponent < digits)
    {n : Decimal} (hn : n = lower exact exponent ∨ n = upper exact exponent) :
    significantDigits n.coefficient + exponent ≤ digits := by
  have hplaces : 10 ^ digits = 10 ^ (digits - exponent) * 10 ^ exponent := by
    rw [← Nat.pow_add, Nat.sub_add_cancel hlt.le]
  have hquotient : exact.coefficient / 10 ^ exponent < 10 ^ (digits - exponent) := by
    rw [Nat.div_lt_iff_lt_mul (Nat.pow_pos (by decide)), ← hplaces]
    exact hexact
  rcases hn with rfl | rfl
  · have hle := significantDigits_le hquotient
    show significantDigits (exact.coefficient / 10 ^ exponent * 10 ^ exponent) + exponent ≤ digits
    rw [significantDigits_mul_pow]
    omega
  · show significantDigits (exact.coefficient / 10 ^ exponent * 10 ^ exponent + 10 ^ exponent)
      + exponent ≤ digits
    rw [← Nat.succ_mul, significantDigits_mul_pow]
    -- The upper point is one place further, and may have one digit more
    -- than the lower one.
    rcases Nat.lt_or_eq_of_le (Nat.succ_le_of_lt hquotient) with hless | hcarry
    · have hle := significantDigits_le hless
      omega
    · -- The last place carries into a power of ten, which has one digit.
      have hone := significantDigits_le (show 1 < 10 ^ 1 by decide)
      rw [hcarry, ← Nat.one_mul (10 ^ _), significantDigits_mul_pow]
      omega

/-- A natural is between two powers of ten, as its digits say. The lower
bound is why a decimal on a finer grid is too small to matter. -/
theorem pow_digitCount {n : ℕ} (hn : 0 < n) :
    10 ^ (digitCount n - 1) ≤ n ∧ n < 10 ^ digitCount n := by
  have hpos : 0 < digitCount n := List.length_pos_iff.mpr Nat.toDigits_ne_nil
  have hiff : ∀ {k : ℕ}, 0 < k → (digitCount n ≤ k ↔ n < 10 ^ k) := fun hk =>
    Nat.length_toDigits_le_iff (by decide) hk
  refine ⟨?_, (hiff hpos).mp (Nat.le_refl _)⟩
  by_cases hone : digitCount n = 1
  · rw [hone]
    exact hn
  · have hmore := mt (hiff (k := digitCount n - 1) (by omega)).mpr (by omega)
    omega

/-- The shortest decimal is the shortest and the nearest. No decimal that
reads back has fewer significant digits, and none with as many of them is
nearer. Zero is left out: it is written with a digit that is not
significant. -/
theorem shortest_spec (hp : p ≤ infinitePattern) (hpos : 0 < p) {d : Decimal} (hd : d.pattern = p) :
    significantDigits (shortest p).coefficient ≤ significantDigits d.coefficient ∧
      (significantDigits d.coefficient = significantDigits (shortest p).coefficient →
        |(shortest p).value - (exactDecimal p).value| ≤ |d.value - (exactDecimal p).value|) := by
  have hback := pattern_exactDecimal hp
  have hexact : 0 < (exactDecimal p).coefficient := by
    refine Nat.pos_of_ne_zero fun hzero => hpos.ne' ?_
    rw [← hback, Decimal.pattern_of_zero hzero]
  obtain ⟨hfirst, hlast⟩ := pow_digitCount hexact
  obtain ⟨exponent, hlt, hgrid, hcoarser⟩ := shortest_found hp
  obtain ⟨hpoint, hnearest⟩ := nearestOnGrid_some hgrid
  -- The decimal that is found has room for its digits, and so have those
  -- that compete with it.
  have hfew := significantDigits_point hlast hlt hpoint
  constructor
  · by_contra hfewer
    -- A decimal with fewer digits would have been found on the grid before,
    -- unless it had none.
    by_cases hgrids : exponent + 1 < digitCount (exactDecimal p).coefficient
    · obtain ⟨n, hn, hreads, -⟩ := exists_neighbour hfirst hback hgrids (d := d) (by omega) hd
      exact nearestOnGrid_none (hcoarser _ (Nat.lt_succ_self _) hgrids) hn hreads
    · obtain ⟨m, j, hm, hbelow⟩ := exists_significant d.coefficient
      rw [show significantDigits d.coefficient = 0 by omega, Nat.pow_zero, Nat.lt_one_iff] at hbelow
      rw [hbelow, Nat.zero_mul] at hm
      rw [← hd, Decimal.pattern_of_zero hm] at hpos
      omega
  · intro hsame
    obtain ⟨n, hn, hreads, hnear⟩ := exists_neighbour hfirst hback hlt (d := d) (by omega) hd
    exact (hnearest n hn hreads).trans hnear

end Search

end DeskCalculator.Double
