import DeskCalculator.Proofs.Text.Lines

/-!
# `DeskCalculator.Proofs.Text.Order`: bytes are in the order of characters

Texts are compared character by character. Comparing their bytes leads to
the same order (`encode_lt`), so what is sorted by name is sorted by the
bytes of the names.

For two characters whose codes are as long, the first byte that differs is
larger in the code of the larger character, since the bytes are the digits
of the code point, the highest ones first. And the first byte of a longer
code is larger than that of any shorter one, so no code begins another one,
and what follows does not count (`encodeChar_append_lt`).

Only one direction is stated. Both orders are linear, so the other one
follows from it.
-/

set_option autoImplicit false

namespace DeskCalculator.Text

/-- The four lengths of a code: below each bound, the bytes hold the digits
of the code point to the base 64, the first byte above a mark of the length
and the others above `0x80`. The library masks the first digit as well. The
bounds show that there is nothing to mask, and without the mask the digits
are plain quotients and remainders. -/
theorem encodeChar_cases (c : Char) :
    (c.toNat < 0x80 ∧ String.utf8EncodeChar c = [.ofNat c.toNat]) ∨
      (0x80 ≤ c.toNat ∧ c.toNat < 0x800 ∧
        String.utf8EncodeChar c = [.ofNat (c.toNat / 64 + 0xC0), .ofNat (c.toNat % 64 + 0x80)]) ∨
      (0x800 ≤ c.toNat ∧ c.toNat < 0x10000 ∧
        String.utf8EncodeChar c
          = [.ofNat (c.toNat / 4096 + 0xE0), .ofNat (c.toNat / 64 % 64 + 0x80),
              .ofNat (c.toNat % 64 + 0x80)]) ∨
      (0x10000 ≤ c.toNat ∧ c.toNat < 0x110000 ∧
        String.utf8EncodeChar c
          = [.ofNat (c.toNat / 262144 + 0xF0), .ofNat (c.toNat / 4096 % 64 + 0x80),
              .ofNat (c.toNat / 64 % 64 + 0x80), .ofNat (c.toNat % 64 + 0x80)]) := by
  have hbound : c.toNat < 0x110000 := by
    have := c.valid
    simp only [UInt32.isValidChar, Nat.isValidChar] at this
    show c.val.toNat < 0x110000
    omega
  unfold String.utf8EncodeChar
  rw [show c.val.toNat = c.toNat from rfl]
  dsimp only
  split
  · exact .inl ⟨by omega, rfl⟩
  · split
    · refine .inr (.inl ⟨by omega, by omega, ?_⟩)
      rw [Nat.mod_eq_of_lt (by omega : c.toNat / 64 < 0x20)]
    · split
      · refine .inr (.inr (.inl ⟨by omega, by omega, ?_⟩))
        rw [Nat.mod_eq_of_lt (by omega : c.toNat / 4096 < 0x10)]
      · refine .inr (.inr (.inr ⟨by omega, hbound, ?_⟩))
        rw [Nat.mod_eq_of_lt (by omega : c.toNat / 262144 < 0x08)]

/-- The bytes of a smaller character come first, whatever follows them. What
follows is part of the statement because comparing texts does not stop at
the last byte of a character: this has to be decided before it. -/
theorem encodeChar_append_lt {c d : Char} (h : c < d) (s t : List UInt8) :
    String.utf8EncodeChar c ++ s < String.utf8EncodeChar d ++ t := by
  have hlt : c.toNat < d.toNat := UInt32.lt_iff_toNat_lt.mp h
  rcases encodeChar_cases c with ⟨hc, hbytes⟩ | ⟨hc, hc', hbytes⟩ | ⟨hc, hc', hbytes⟩ |
      ⟨hc, hc', hbytes⟩ <;>
    rcases encodeChar_cases d with ⟨hd, hbytes'⟩ | ⟨hd, hd', hbytes'⟩ | ⟨hd, hd', hbytes'⟩ |
      ⟨hd, hd', hbytes'⟩
  -- The first byte decides unless both codes are as long; then the first
  -- digit that differs does. All bytes are below 256, so they are compared
  -- as the naturals that they were made of.
  all_goals
    rw [hbytes, hbytes']
    simp only [List.cons_append, List.nil_append, List.cons_lt_cons_iff, UInt8.lt_iff_toNat_lt,
      ← UInt8.toNat_inj, UInt8.toNat_ofNat']
    simp (disch := omega) only [Nat.mod_eq_of_lt]
    omega

/-- The bytes of a smaller text come first. Induction over the proof that it
is smaller: one text is at its end, or the first characters are the same, or
the first one is smaller. -/
theorem encode_lt {a b : List Char} (h : a < b) : encode a < encode b := by
  induction h with
  | @nil c rest =>
      obtain ⟨first, others, hbytes⟩ :=
        List.exists_cons_of_ne_nil (l := encode (c :: rest)) (by simp [encode])
      rw [hbytes]
      exact List.nil_lt_cons first others
  | @cons c a b hrest ih =>
      show String.utf8EncodeChar c ++ encode a < String.utf8EncodeChar c ++ encode b
      exact List.append_left_lt ih
  | @rel c a d b hlt => exact encodeChar_append_lt hlt (encode a) (encode b)

end DeskCalculator.Text
