import DeskCalculator.Number
import Mathlib

/-!
# `DeskCalculator.Proofs.Double.Bits`: a number is its sign and its pattern

The bits of a number are its sign bit above its pattern, and the pattern is
the exponent above the fraction. There is one number that is none, and it
has no sign.

The library defines a double by packing and unpacking the fields of its
format. The rest of this project speaks of patterns, which are naturals.
This module goes from one to the other and is the only one that opens the
fields; behind it, a number is a sign and a natural.

Mathlib is imported as a whole here, because the lemmas on packed and
unpacked forms are in none of its modules.

* `eq_nan`: the number that is none.
* `pattern_le`: every other number has the pattern of a magnitude.
* `toBits_ofBits`, `ofBits_eq_nan`: bits, and the bits of the number that
  they stand for.
* `ofPattern_pattern`, `neg_ofPattern_pattern`: a number without a sign is
  its magnitude, and a number with one is the negated magnitude. `abs_eq`:
  the magnitude of any number.
* `Number.toDouble_ofBits`, `Number.alike_ofBits`: the number of any bits
  has these bits and equals itself, unless it is none.
-/

set_option autoImplicit false

namespace DeskCalculator.Double

open Float.Model (Format)
open Float.Model.UnpackedFloat

/-! ### Fields

The three fields of the format as quotients and remainders of the bits. -/

section Fields

variable (b b' : BitVec Format.binary64.numBits)

/-- The exponent stands above the fraction. With the fields as naturals,
what is said of them below is left to `omega`. -/
theorem toNat_unpackExponent : (unpackExponent b).toNat = b.toNat / 2 ^ 52 % 2 ^ 11 := by
  rw [unpackExponent_def, BitVec.extractLsb'_toNat, Nat.shiftRight_eq_div_pow]

/-- The fraction stands at the bottom. -/
theorem toNat_unpackMantissa : (unpackMantissa b).toNat = b.toNat % 2 ^ 52 := by
  rw [unpackMantissa_def, BitVec.extractLsb'_toNat, Nat.shiftRight_zero]

/-- The sign stands at the top. It is one bit, and no pattern has it. -/
theorem toNat_unpackSign : (unpackSign b).toNat = b.toNat / 2 ^ 63 % 2 := by
  rw [unpackSign_def, BitVec.extractLsb'_toNat, Nat.shiftRight_eq_div_pow]
  rfl

variable {b b'}

/-- The largest exponent with a fraction is what stands above the pattern of
infinity. So whether bits are those of a number is a comparison of
naturals. -/
theorem above_iff :
    unpackExponent b = -1#_ ∧ unpackMantissa b ≠ 0#_ ↔ infinitePattern < b.toNat % 2 ^ 63 := by
  have hexponent := toNat_unpackExponent b
  have hmantissa := toNat_unpackMantissa b
  have hmax : unpackExponent b = -1#_ ↔ (unpackExponent b).toNat = 2047 := BitVec.toNat_inj.symm
  have hzero : unpackMantissa b = 0#_ ↔ (unpackMantissa b).toNat = 0 := BitVec.toNat_inj.symm
  show _ ↔ 2047 * 2 ^ 52 < b.toNat % 2 ^ 63
  rw [Ne, hmax, hzero]
  omega

/-- Bits with the same exponent and fraction and the other sign are those of
the negated number. -/
theorem unpack_eq_neg (hexponent : unpackExponent b = unpackExponent b')
    (hmantissa : unpackMantissa b = unpackMantissa b')
    (hsign : Sign.ofBitVec (unpackSign b) = -Sign.ofBitVec (unpackSign b')) :
    unpack Format.binary64 b = (unpack Format.binary64 b').neg := by
  simp only [unpack, hexponent, hmantissa, hsign]
  -- Each kind of number is negated by its sign alone.
  split
  · split <;> rfl
  · split
    · split <;> rfl
    · rfl

/-- Bits with the same exponent and fraction and without a sign are those of
the magnitude. The two cases are apart because a negation depends on both
signs and a magnitude on none. -/
theorem unpack_eq_abs (hexponent : unpackExponent b = unpackExponent b')
    (hmantissa : unpackMantissa b = unpackMantissa b')
    (hsign : Sign.ofBitVec (unpackSign b) = .positive) :
    unpack Format.binary64 b = (unpack Format.binary64 b').abs := by
  simp only [unpack, hexponent, hmantissa, hsign]
  split
  · split <;> rfl
  · split
    · split <;> rfl
    · rfl

end Fields

/-! ### Numbers

A `Float` is made of its bits, but all patterns that are no number make the
same one. So bits and numbers are in correspondence up to that. -/

/-- The bits of a number, as the library takes them apart. The model has
them as a `UInt64`. -/
def bits (x : Float) : BitVec Format.binary64.numBits := x.toBits.toBitVec

/-- The bits of a number are those of no other one. So equations between
numbers are proved of bits, also where a comparison of doubles would fail:
zero and minus zero are two numbers. -/
theorem bits_injective {x y : Float} (h : bits x = bits y) : x = y :=
  Float.toBits_inj.mp (UInt64.toBitVec_inj.mp h)

/-- The bits of the number that is none. The library packs all that is none
into these. -/
theorem bits_nan : bits nan = packedNaN Format.binary64 := by decide +kernel

/-- There is one number that is none. The bits of a number are packed from
its fields, and all that is none is packed into the same bits. -/
theorem eq_nan {x : Float} (h : x.isNaN = true) : x = nan :=
  bits_injective (((isNaN_unpack_iff_of_valid x.toModel.valid).mp h).trans bits_nan.symm)

/-- The pattern of a number is its bits without the highest one. True by
definition; it is what connects patterns with the fields. -/
theorem pattern_eq (x : Float) : pattern x = (bits x).toNat % 2 ^ 63 := rfl

/-- The largest exponent goes with no fraction, unless there is no number.
Not true of bits in general: the library only makes numbers of valid
ones. -/
theorem mantissa_eq_zero {x : Float} (h : x.isNaN = false)
    (hexponent : unpackExponent (bits x) = -1#_) : unpackMantissa (bits x) = 0#_ := by
  by_contra hmantissa
  have hnan := x.toModel.valid.eq_packedNaN hexponent hmantissa
  have := (isNaN_unpack_iff_of_valid x.toModel.valid).mpr hnan
  exact Bool.false_ne_true (h.symm.trans this)

/-- Every number but the one that is none has the pattern of a magnitude. So
the bound that theorems on patterns ask for is there for all numbers that
are written. -/
theorem pattern_le {x : Float} (h : x.isNaN = false) : pattern x ≤ infinitePattern := by
  rw [pattern_eq]
  refine Nat.le_of_not_lt fun hlt => ?_
  obtain ⟨hexponent, hmantissa⟩ := above_iff.mpr hlt
  exact hmantissa (mantissa_eq_zero h hexponent)

/-- A number without a sign is its magnitude. For a numeral that was read,
which never has a sign. -/
theorem ofPattern_pattern {x : Float} (h : isNegative x = false) : ofPattern (pattern x) = x := by
  have hsign : (bits x).toNat < 2 ^ 63 := by
    have : ¬2 ^ 63 ≤ x.toBits.toNat := of_decide_eq_false h
    exact Nat.lt_of_not_le this
  have hbits : UInt64.ofNat (pattern x) = x.toBits := by
    rw [pattern_eq, Nat.mod_eq_of_lt hsign]
    exact UInt64.ofNat_toNat
  rw [ofPattern, hbits, Float.ofBits_toBits]

/-! ### Signs

Negation changes one bit of a number. It is done by the library on unpacked
forms, so what comes of it for the bits has to be proved. -/

/-- The bits of a negated number. By definition: a number is unpacked,
negated and packed again. -/
theorem bits_neg (x : Float) :
    bits (-x) = pack Format.binary64 (unpack Format.binary64 (bits x)).neg := rfl

/-- Bits that are no other form of the number that is none are the bits of
their number. Valid bits are those that packing can yield. -/
theorem bits_ofBits {u : UInt64} (h : Format.binary64.Valid u.toBitVec) :
    bits (Float.ofBits u) = u.toBitVec := pack_unpack_of_valid h

/-- Bits that are those of a magnitude, the sign apart, are the bits of
their number. -/
theorem toBits_ofBits {u : UInt64} (h : u.toNat % 2 ^ 63 ≤ infinitePattern) :
    (Float.ofBits u).toBits = u := by
  refine UInt64.toBitVec_inj.mp (bits_ofBits ⟨fun hexponent hmantissa => ?_⟩)
  exact absurd h (Nat.not_le.mpr (above_iff.mp ⟨hexponent, hmantissa⟩))

/-- All other bits are those of no number. With `toBits_ofBits` it covers
all bits, as a natural is at most the bound or above it. -/
theorem ofBits_eq_nan {u : UInt64} (h : infinitePattern < u.toNat % 2 ^ 63) :
    Float.ofBits u = nan := by
  obtain ⟨hexponent, hmantissa⟩ := above_iff.mpr h
  have hunpack : unpack Format.binary64 u.toBitVec = .notANumber := by
    simp only [unpack, hexponent, hmantissa, if_true, if_false]
  refine bits_injective ?_
  show pack Format.binary64 (unpack Format.binary64 u.toBitVec) = _
  rw [hunpack, bits_nan]
  rfl

/-- The bits of the magnitude of a number. For a number that is none they
need not be valid, so what follows is about bits and not about the number of
these bits. -/
def magnitude (x : Float) : BitVec Format.binary64.numBits := (UInt64.ofNat (pattern x)).toBitVec

section Magnitude

variable (x : Float)

/-- The bits of the magnitude are those of the number without the highest
one. -/
theorem toNat_magnitude : (magnitude x).toNat = (bits x).toNat % 2 ^ 63 := by
  show pattern x % 2 ^ 64 = _
  rw [pattern_eq]
  omega

/-- The magnitude has the exponent of the number, since the exponent lies
below the bit that is dropped. -/
theorem unpackExponent_magnitude : unpackExponent (magnitude x) = unpackExponent (bits x) := by
  refine BitVec.eq_of_toNat_eq ?_
  rw [toNat_unpackExponent, toNat_unpackExponent, toNat_magnitude]
  omega

/-- The magnitude has the fraction of the number, for the same reason. -/
theorem unpackMantissa_magnitude : unpackMantissa (magnitude x) = unpackMantissa (bits x) := by
  refine BitVec.eq_of_toNat_eq ?_
  rw [toNat_unpackMantissa, toNat_unpackMantissa, toNat_magnitude]
  omega

/-- The magnitude has no sign. Its bits are below the highest one. -/
theorem unpackSign_magnitude : unpackSign (magnitude x) = 0#1 := by
  refine BitVec.eq_of_toNat_eq ?_
  rw [toNat_unpackSign, toNat_magnitude]
  show _ = 0
  omega

/-- The magnitude of a number is that of its pattern. Also of the number
that is none, which is its own magnitude. -/
theorem abs_eq : x.abs = ofPattern (pattern x) := by
  have hsign : Sign.ofBitVec (unpackSign (magnitude x)) = .positive := by
    rw [unpackSign_magnitude]
    rfl
  refine bits_injective ?_
  show pack Format.binary64 (unpack Format.binary64 (bits x)).abs
    = pack Format.binary64 (unpack Format.binary64 (magnitude x))
  rw [unpack_eq_abs (unpackExponent_magnitude x) (unpackMantissa_magnitude x) hsign]

variable {x}

/-- The sign of a number with one, as the field that the library has for
it. -/
theorem unpackSign_bits (h : isNegative x = true) : unpackSign (bits x) = 1#1 := by
  have hle : 2 ^ 63 ≤ (bits x).toNat := of_decide_eq_true h
  have hlt : (bits x).toNat < 2 ^ 64 := (bits x).isLt
  refine BitVec.eq_of_toNat_eq ?_
  rw [toNat_unpackSign]
  show _ = 1
  omega

/-- The magnitude of a number with a sign is a number. Without the sign this
is not so, as the number that is none has no sign and is its own
magnitude. -/
theorem valid_magnitude (h : isNegative x = true) : Format.binary64.Valid (magnitude x) := by
  refine ⟨fun hmax hfraction => ?_⟩
  rw [unpackExponent_magnitude] at hmax
  rw [unpackMantissa_magnitude] at hfraction
  -- The number that is none has no sign.
  have hnan : bits x = packedNaN Format.binary64 := x.toModel.valid.eq_packedNaN hmax hfraction
  have hle : 2 ^ 63 ≤ (bits x).toNat := of_decide_eq_true h
  have : (bits x).toNat = 0x7FF8000000000000 := congrArg BitVec.toNat hnan
  omega

/-- A number with a sign is its magnitude, negated. With `ofPattern_pattern`
it is how every number but the one that is none is taken apart where it is
written or read. -/
theorem neg_ofPattern_pattern (h : isNegative x = true) : -ofPattern (pattern x) = x := by
  have hsign : Sign.ofBitVec (unpackSign (bits x)) = -Sign.ofBitVec (unpackSign (magnitude x)) := by
    rw [unpackSign_bits h, unpackSign_magnitude]
    rfl
  have hunpack : unpack Format.binary64 (bits x) = (unpack Format.binary64 (magnitude x)).neg :=
    unpack_eq_neg (unpackExponent_magnitude x).symm (unpackMantissa_magnitude x).symm hsign
  refine bits_injective ?_
  calc bits (-ofPattern (pattern x))
      = pack Format.binary64 (unpack Format.binary64 (magnitude x)).neg := by
        rw [bits_neg, ofPattern, bits_ofBits (valid_magnitude h), magnitude]
    _ = pack Format.binary64 (unpack Format.binary64 (bits x)) := by rw [hunpack]
    _ = bits x := pack_unpack_of_valid x.toModel.valid

end Magnitude

end DeskCalculator.Double

/-! ### The numbers of all bits -/

namespace DeskCalculator.Number

/-- The doubles of all bits: a number has these bits, and else it is the
quiet one. Both kinds of no number are covered, the signalling one and the
quiet one. -/
theorem toDouble_ofBits (bits : UInt64) :
    if Double.infinitePattern < bits.toNat % 2 ^ 63 then (ofBits bits).toDouble = Double.nan
    else (ofBits bits).toDouble.toBits = bits := by
  split
  · next habove =>
      rw [ofBits]
      split
      · rfl
      · exact Double.ofBits_eq_nan habove
  · next hbelow =>
      have hquiet : isSignallingPattern (bits.toNat % Nat.pow 2 63) = false := by
        rw [isSignallingPattern, Bool.and_eq_false_iff]
        exact .inl (decide_eq_false hbelow)
      rw [ofBits, hquiet]
      exact Double.toBits_ofBits (Nat.le_of_not_lt hbelow)

/-- The number of some bits compares equal to itself unless it is none. -/
theorem alike_ofBits (bits : UInt64) :
    (ofBits bits).alike (ofBits bits) = true ↔ bits.toNat % 2 ^ 63 ≤ Double.infinitePattern := by
  have hdouble := toDouble_ofBits bits
  have hnan : Double.nan = Float.nan := Double.eq_nan (by decide +kernel) |>.symm
  rw [alike, Float.beq_self_iff, ← hnan]
  split at hdouble
  · next habove =>
      rw [hdouble]
      exact ⟨fun h => absurd rfl h, fun hle => absurd habove (Nat.not_lt.mpr hle)⟩
  · next hbelow =>
      refine ⟨fun _ => Nat.le_of_not_lt hbelow, fun hle heq => ?_⟩
      -- The bits of no number are above those of infinity.
      rw [heq] at hdouble
      rw [← hdouble] at hle
      exact absurd hle (by decide +kernel)

end DeskCalculator.Number
