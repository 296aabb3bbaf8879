import DeskCalculator.Proofs.Tokens.Tiling

/-!
# `DeskCalculator.Proofs.Tokens.Join`: the tokens of two texts with a semicolon between them

Some marks are a token wherever they stand, and go on no other one
(`Lexeme.Alone`), so a text that goes on with such a mark has the same
tokens before it (`Cursor.tokens_mark`). A semicolon is one, so the tokens
of `a;b` are those of `a`, the semicolon, and those of `b`
(`tokens_ofText_join`). The tokens of `b` stand further behind, by the bytes
of `a` and one (`Token.shift`, `tokens_shift`), and cover the same
characters as before (`slice_join_left`, `slice_join_right`).

`Proofs.Calculator.Batch` runs the two texts one behind the other with it,
and needs the characters too, since complaints quote them. A closing
parenthesis is another such mark: `Proofs.Run.Unclosed` adds some at the end
of a text.
-/

set_option autoImplicit false

namespace DeskCalculator

open Text (byteLength byteSlice)

/-- The token, further behind by some bytes. What it carries does not
change, as it was read from the same characters. -/
def Token.shift (bytes : Nat) (t : Token) : Token :=
  { start := t.start + bytes, stop := t.stop + bytes, content := t.content }

/-! ### Marks that stand alone -/

namespace Lexeme

/-- A mark that is a token of its kind wherever it stands: it goes on no
spelling, and nothing goes on with it. The first field keeps the tokens
before it as they are, the second the mark itself. -/
structure Alone (mark : Char) (kind : Kind) : Prop where
  separates : Separates mark
  lexed (rest : List Char) : Lexed rest [mark] (.bare kind)

/-- A spelling of one character stands alone if that character begins and
goes on no longer one. The hypotheses list what could go on with it or be
gone on by it: words, numerals and shifts. -/
theorem alone_of_spells {mark : Char} {kind : Kind} (h : Spells kind [mark])
    (hbare : content kind [mark] = .bare kind) (hword : isWordChar mark = false)
    (hpoint : mark ≠ '.') (hless : mark ≠ '<') (hgreater : mark ≠ '>') : Alone mark kind where
  separates := by
    intro kind' lexeme hspells hmem
    rcases hspells.tail_chars mark hmem with hmark | hmark | hmark | hmark
    · cases hword.symm.trans hmark
    · exact hpoint hmark
    · exact hless hmark
    · exact hgreater hmark
  lexed rest := hbare ▸ .of_mark h hword hpoint hless hgreater rest

/-- A semicolon stands alone. It joins two texts without a token that
reaches over it. -/
theorem alone_semicolon : Alone ';' .semicolon :=
  alone_of_spells (.fixed (show (";", Kind.semicolon) ∈ Kind.spellings by decide)) rfl (by decide)
    (by decide) (by decide) (by decide)

/-- A closing parenthesis stands alone. Needed where some are put behind a
text. -/
theorem alone_closeParen : Alone ')' .closeParen :=
  alone_of_spells (.fixed (show (")", Kind.closeParen) ∈ Kind.spellings by decide)) rfl (by decide)
    (by decide) (by decide) (by decide)

end Lexeme

namespace Cursor

/-! ### The tokens of both texts -/

/-- Where the text goes on with a mark that stands alone, the tokens before
it are the same, and it is the next one. The cursor behind the mark reads
what follows as if it were a text of its own, only further behind. Induction
along the tokens before the mark. -/
theorem tokens_mark {mark : Char} {kind : Kind} (hmark : Lexeme.Alone mark kind) (c : Cursor)
    (rest : List Char) :
    (Cursor.mk (c.rest ++ mark :: rest) c.offset).tokens
      = c.tokens ++ .bare kind ⟨c.stop, c.stop + mark.utf8Size⟩ ::
          (Cursor.mk rest (c.stop + mark.utf8Size)).tokens := by
  refine read_induction
    (motive := fun c ts => (Cursor.mk (c.rest ++ mark :: rest) c.offset).tokens
      = ts ++ .bare kind ⟨c.stop, c.stop + mark.utf8Size⟩ ::
          (Cursor.mk rest (c.stop + mark.utf8Size)).tokens)
    (fun c hnone => ?nil) (fun c c' t hnext ih => ?cons) c
  case nil =>
    -- Only a gap is left before the mark.
    have hblank := next?_eq_none_iff.mp hnone
    have hnext := next?_append hblank (hmark.lexed rest) c.offset
    rw [Text.byteLength_cons, Text.byteLength_nil, Nat.add_zero] at hnext
    exact tokens_eq_cons hnext
  case cons =>
    have hstop := next?_stop hnext
    obtain ⟨offset, hblank, hlexed⟩ := next?_eq_some_iff.mp hnext
    rw [hstop] at ih
    -- The mark does not go on with the lexeme, which is therefore the next
    -- token here too.
    have hlexed' := hlexed.append hmark.separates rest
    have hnext' := next?_append hblank hlexed' offset
    rw [List.cons_append, ← ih]
    simp only [List.append_assoc] at hnext' ⊢
    exact tokens_eq_cons hnext'

/-- The tokens of a text that stands further behind. Where a cursor stands
decides nothing but the places of the tokens. Induction along them. -/
theorem tokens_shift (c : Cursor) (bytes : Nat) :
    (Cursor.mk c.rest (c.offset + bytes)).tokens = c.tokens.map (Token.shift bytes) := by
  refine read_induction (motive := fun c ts =>
      (Cursor.mk c.rest (c.offset + bytes)).tokens = ts.map (Token.shift bytes))
    (fun c hnone => ?nil) (fun c c' t hnext ih => ?cons) c
  case nil =>
    have hblank := next?_eq_none_iff.mp hnone
    exact tokens_eq_nil (next?_eq_none_iff.mpr hblank)
  case cons =>
    obtain ⟨offset, hblank, hlexed⟩ := next?_eq_some_iff.mp hnext
    have hnext' := next?_append hblank hlexed (offset + bytes)
    rw [List.map_cons, ← ih]
    simp only [Token.shift, Nat.add_right_comm _ bytes] at hnext' ⊢
    exact tokens_eq_cons hnext'

end Cursor

/-! ### Two texts -/

section Join

variable (a b : String)

/-- The characters of the two texts, with those of the semicolon between
them. Offsets of the second text are counted behind these. -/
theorem toList_join : (a ++ ";" ++ b).toList = a.toList ++ ';' :: b.toList := by simp

/-- The tokens of the two texts. No assumption on either: the first may end
within an expression, and the second may begin with anything. -/
theorem tokens_ofText_join :
    (Cursor.ofText (a ++ ";" ++ b)).tokens
      = (Cursor.ofText a).tokens ++
          .bare .semicolon ⟨byteLength a.toList, byteLength a.toList + 1⟩ ::
            (Cursor.ofText b).tokens.map (Token.shift (byteLength a.toList + 1)) := by
  have hjoin := (Cursor.ofText a).tokens_mark Lexeme.alone_semicolon b.toList
  have hshift := (Cursor.ofText b).tokens_shift (byteLength a.toList + 1)
  have hstop : (Cursor.ofText a).stop = byteLength a.toList := Nat.zero_add _
  rw [hstop, show ';'.utf8Size = 1 from rfl] at hjoin
  rw [← hshift, Cursor.ofText, toList_join]
  simpa only [Cursor.ofText, Nat.zero_add] using hjoin

/-- The bytes of the two texts, as the second one sees them: its own, and
those it was shifted by. -/
theorem byteLength_join :
    byteLength (a ++ ";" ++ b).toList = byteLength b.toList + (byteLength a.toList + 1) := by
  rw [toList_join, Text.byteLength_append, Text.byteLength_cons, show ';'.utf8Size = 1 from rfl]
  omega

variable {a b} {t : Token}

/-- A token of the first text covers the same characters in both. They stand
at the same place, and what was added stands behind them. -/
theorem slice_join_left (h : t ∈ (Cursor.ofText a).tokens) :
    slice (a ++ ";" ++ b) t = slice a t := by
  obtain ⟨before, lexeme, rest, hcovers, -⟩ :=
    Cursor.covers_of_mem (Cursor.standsIn_ofText a) t h
  have hcovers' : Covers (a ++ ";" ++ b) t before lexeme (rest ++ ';' :: b.toList) := by
    refine ⟨?_, hcovers.start, hcovers.stop⟩
    rw [toList_join, hcovers.split]
    simp only [List.append_assoc]
  rw [hcovers.slice_eq, hcovers'.slice_eq]

/-- A token of the second text covers the same characters where it stands in
both. Its place has moved by as many bytes as there are characters before
the second text. -/
theorem slice_join_right (h : t ∈ (Cursor.ofText b).tokens) :
    slice (a ++ ";" ++ b) (t.shift (byteLength a.toList + 1)) = slice b t := by
  obtain ⟨before, lexeme, rest, hcovers, -⟩ :=
    Cursor.covers_of_mem (Cursor.standsIn_ofText b) t h
  have hbytes : byteLength (a.toList ++ ';' :: before)
      = byteLength before + (byteLength a.toList + 1) := by
    rw [Text.byteLength_append, Text.byteLength_cons, show ';'.utf8Size = 1 from rfl]
    omega
  have hcovers' : Covers (a ++ ";" ++ b) (t.shift (byteLength a.toList + 1))
      (a.toList ++ ';' :: before) lexeme rest := by
    refine ⟨?_, ?_, ?_⟩
    · rw [toList_join, hcovers.split]
      simp only [List.append_assoc, List.cons_append]
    · rw [hbytes, ← hcovers.start]
      rfl
    · rw [hbytes, Nat.add_right_comm, ← hcovers.stop]
      rfl
  rw [hcovers.slice_eq, hcovers'.slice_eq]

end Join

end DeskCalculator
