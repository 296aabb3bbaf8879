/-!
# `DeskCalculator.Text.Bytes`: the bytes of a text

A text is a row of characters. Places in it are counted in the bytes of its
UTF-8 form, because that is how messages give them: `byteLength` counts
them, and `byteSlice` finds the characters between two such places.
`byteSlice_append` is what is needed of slices: the one between two places
that lie between characters. `decode?` reads a row of bytes as a text, if it
is one.

Proofs work on rows of characters and split these (`a ++ (b ++ c)`). A byte
offset is then the `byteLength` of what stands before, and no proof computes
with positions inside a character.
-/

set_option autoImplicit false

namespace DeskCalculator.Text

/-- The number of bytes of a row of characters. The sum is a fold from the
left, so a long text is no deep recursion. -/
def byteLength (text : List Char) : Nat := text.foldl (fun n c => n + c.utf8Size) 0

/-- The characters that begin at byte `start` and end at byte `stop`. A
place inside a character stands for the one behind it. -/
def byteSlice : List Char → Nat → Nat → List Char
  | [], _, _ => []
  | c :: rest, start, stop =>
    if stop = 0 then []
    else if start = 0 then c :: byteSlice rest 0 (stop - c.utf8Size)
    else byteSlice rest (start - c.utf8Size) (stop - c.utf8Size)

/-- The characters that bytes encode, if they encode any. Bytes that are no
UTF-8 are refused as a whole, and nothing is put in the place of the wrong
ones. -/
def decode? (bytes : List UInt8) : Option (List Char) :=
  (String.fromUTF8? ⟨bytes.toArray⟩).map String.toList

/-! ### Counting -/

/-- The count goes on from what was counted before. The fold adds from the
left, and this turns it into the sum that the equations below are about. -/
theorem foldl_utf8Size (text : List Char) (n : Nat) :
    text.foldl (fun n c => n + c.utf8Size) n = n + byteLength text := by
  induction text generalizing n with
  | nil => rfl
  | cons c rest ih =>
      have hstart := ih (0 + c.utf8Size)
      rw [byteLength, List.foldl_cons, List.foldl_cons, hstart, ih]
      omega

@[simp] theorem byteLength_nil : byteLength [] = 0 := rfl

@[simp] theorem byteLength_cons (c : Char) (rest : List Char) :
    byteLength (c :: rest) = c.utf8Size + byteLength rest := by
  rw [byteLength, List.foldl_cons, foldl_utf8Size, Nat.zero_add]

@[simp] theorem byteLength_append (a b : List Char) :
    byteLength (a ++ b) = byteLength a + byteLength b := by
  rw [byteLength, List.foldl_append, foldl_utf8Size]
  rfl

/-- A character has a byte at least, so a text has no more characters than
bytes. -/
theorem length_le_byteLength (text : List Char) : text.length ≤ byteLength text := by
  induction text with
  | nil => exact Nat.le_refl 0
  | cons c rest ih =>
      have := c.utf8Size_pos
      rw [byteLength_cons, List.length_cons]
      omega

/-! ### Cutting out -/

/-- From the beginning of a text on, a slice takes whole characters. -/
theorem byteSlice_zero (a b : List Char) : byteSlice (a ++ b) 0 (byteLength a) = a := by
  induction a with
  | nil => cases b <;> simp [byteSlice]
  | cons c a ih =>
      have hpos := c.utf8Size_pos
      rw [List.cons_append, byteSlice, if_neg (by rw [byteLength_cons]; omega), if_pos rfl,
        byteLength_cons, Nat.add_sub_cancel_left, ih]

/-- The slice between the end of one part of a text and the end of the next
is that next part. What stands behind is left open. Tokens are quoted with
this: the first part is all before the token, and the second one its
characters. -/
theorem byteSlice_append (a b c : List Char) :
    byteSlice (a ++ (b ++ c)) (byteLength a) (byteLength a + byteLength b) = b := by
  induction a with
  | nil =>
      have := byteSlice_zero b c
      simpa using this
  | cons x a ih =>
      have hpos := x.utf8Size_pos
      rw [List.cons_append, byteSlice, if_neg (by rw [byteLength_cons]; omega),
        if_neg (by rw [byteLength_cons]; omega), byteLength_cons, Nat.add_sub_cancel_left,
        Nat.add_assoc, Nat.add_sub_cancel_left, ih]

end DeskCalculator.Text
