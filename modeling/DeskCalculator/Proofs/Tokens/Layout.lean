import DeskCalculator.Proofs.Tokens.Tiling
import Mathlib.Data.List.Forall2

/-!
# `DeskCalculator.Proofs.Tokens.Layout`: the tokens of a text with other gaps

A lexeme is the longest one at its place, so it is the longest one as well
where nothing follows it, and a gap goes on no lexeme. So the lexemes of a
text can be put apart by any gaps, and the tokens of the new text are these
lexemes again, where they were put (`tokenize_layout`).

* `layout` and `spans`: a text that is made of gaps and lexemes, and where
  the lexemes stand in it.
* `Spacing`: gaps and lexemes that make up a text with the lexemes of a
  given one. Where the given text has no gap between two lexemes, the new
  one must have one, since `1` and `.5` side by side are another lexeme than
  `1` before `.5`. That is why a gap may be empty only before the first
  lexeme and before the end.
* `Cursor.tokens_layout`: the tokens of such a text, by induction on the
  pieces.

Nothing is assumed about the given text: it may have characters that spell
nothing, and these are lexemes as well. `Proofs.Run.Layout` goes on to what
is evaluated.
-/

set_option autoImplicit false

namespace DeskCalculator

open Text (byteLength byteSlice)

namespace Lexeme.Lexed

variable {lexeme rest : List Char} {content : Content}

/-- A lexeme stays one if nothing follows it. Every beginning of the lexeme
is a beginning of the text that it was read in, so none of them can be
longer. -/
theorem alone (h : Lexed rest lexeme content) : Lexed [] lexeme content := by
  cases h with
  | spelled spells longest =>
      refine .spelled spells fun kind longer hstarts hspells => ?_
      rw [List.append_nil] at hstarts
      exact longest kind longer (hstarts.trans (List.prefix_append _ rest)) hspells
  | @unknown c unspelled solid =>
      refine .unknown (fun kind longer hstarts hspells => ?_) solid
      exact unspelled kind longer (hstarts.trans (List.prefix_append [c] rest)) hspells

/-- A lexeme stays one if a gap follows it. With `alone` a lexeme may be
taken from one text to another: first all that followed it is taken away,
then a gap and what comes behind it is added. -/
theorem before_gap (h : Lexed [] lexeme content) (hrest : ∀ c ∈ rest.head?, isGap c = true) :
    Lexed rest lexeme content := by
  cases rest with
  | nil => exact h
  | cons c rest => exact h.append (separates_of_isGap (hrest c rfl)) rest

end Lexeme.Lexed

/-! ### Texts made of gaps and lexemes -/

/-- The text of pieces one behind the other, each a gap and the lexeme
behind it. The piece of the mark has an empty lexeme, and its gap is what
the text ends with. -/
def layout (pieces : List (List Char × List Char)) : List Char :=
  pieces.flatMap fun piece => piece.1 ++ piece.2

/-- The bytes that the lexemes of pieces cover, if the first piece stands
behind `place` bytes. Computed from the pieces alone, so that it says where
lexemes are put before any token is read. -/
def spans : Nat → List (List Char × List Char) → List Span
  | _, [] => []
  | place, (gap, lexeme) :: pieces =>
    let start := place + byteLength gap
    let stop := start + byteLength lexeme
    ⟨start, stop⟩ :: spans stop pieces

section Layout

variable {pieces : List (List Char × List Char)}

/-- The first piece stands before the others. The equation for inductions
over the pieces of a text. -/
@[simp] theorem layout_cons (gap lexeme : List Char) (pieces : List (List Char × List Char)) :
    layout ((gap, lexeme) :: pieces) = gap ++ (lexeme ++ layout pieces) := by
  rw [layout, List.flatMap_cons, List.append_assoc]
  rfl

/-- Pieces stand behind the ones before. Used to split off the piece of the
mark. -/
theorem layout_append (a b : List (List Char × List Char)) :
    layout (a ++ b) = layout a ++ layout b := List.flatMap_append

/-- The lexemes of pieces stand behind the text of the ones before.
Induction on the ones before, for every place that they begin at. -/
theorem spans_append (a b : List (List Char × List Char)) :
    ∀ place, spans place (a ++ b) = spans place a ++ spans (place + byteLength (layout a)) b := by
  induction a with
  | nil => intro place; rfl
  | cons piece a ih =>
      obtain ⟨gap, lexeme⟩ := piece
      intro place
      simp only [List.cons_append, spans, ih, layout_cons, Text.byteLength_append, Nat.add_assoc]

/-- The characters between the places of the lexemes are the lexemes.
Induction on the pieces, with the text before them as a parameter: a lexeme
of the first piece is part of it for the next ones. -/
theorem byteSlice_spans (pieces : List (List Char × List Char)) :
    ∀ before : List Char, (spans (byteLength before) pieces).map
        (fun span => byteSlice (before ++ layout pieces) span.start span.stop)
      = pieces.map Prod.snd := by
  induction pieces with
  | nil => intro before; rfl
  | cons piece pieces ih =>
      obtain ⟨gap, lexeme⟩ := piece
      intro before
      have hfirst := Text.byteSlice_append (before ++ gap) lexeme (layout pieces)
      have hothers := ih (before ++ (gap ++ lexeme))
      simp only [Text.byteLength_append, List.append_assoc] at hfirst hothers
      simp only [spans, List.map_cons, layout_cons, Nat.add_assoc] at hfirst ⊢
      rw [hfirst, hothers]

/-- The text behind a lexeme begins with a gap, if the pieces behind it all
do. Where there are none, it is the gap at the end, or nothing. -/
theorem isGap_head? (hblank : ∀ piece ∈ pieces, ∀ c ∈ piece.1, isGap c = true)
    (hapart : ∀ piece ∈ pieces, piece.1 ≠ []) {last : List Char}
    (hlast : ∀ c ∈ last, isGap c = true) : ∀ c ∈ (layout pieces ++ last).head?, isGap c = true := by
  cases pieces with
  | nil => exact fun c hc => hlast c (List.mem_of_mem_head? hc)
  | cons piece pieces =>
      obtain ⟨gap, lexeme⟩ := piece
      have hgap := hblank _ List.mem_cons_self
      obtain ⟨first, gap, rfl⟩ := List.exists_cons_of_ne_nil (hapart _ List.mem_cons_self)
      rintro _ ⟨⟩
      exact hgap first List.mem_cons_self

end Layout

/-! ### Their tokens -/

/-- Lists with the same images are related item by item. For lists of pieces
and of tokens, which are compared by their lexemes. -/
theorem forall₂_of_map_eq {α β γ : Type} {f : α → γ} {g : β → γ} {as : List α} {bs : List β}
    (h : as.map f = bs.map g) : List.Forall₂ (fun a b => f a = g b) as bs := by
  have hequal : List.Forall₂ Eq (as.map f) (bs.map g) := by
    rw [List.forall₂_eq_eq_eq]
    exact h
  exact List.forall₂_map_right_iff.mp (List.forall₂_map_left_iff.mp hequal)

/-- The tokens of pieces are the lexemes where they stand, if there is a gap
between any two. Induction on the pieces. The first one needs no gap, and
what comes behind the last one is `last`.

The lexemes are asked for with nothing behind them (`Lexed []`): what really
follows is a gap, by the other hypotheses. -/
theorem Cursor.tokens_layout {pieces : List (List Char × List Char)} {ts : List Token}
    (h : List.Forall₂ (fun piece t => Lexeme.Lexed [] piece.2 t.content) pieces ts)
    (hblank : ∀ piece ∈ pieces, ∀ c ∈ piece.1, isGap c = true)
    (hapart : ∀ piece ∈ pieces.tail, piece.1 ≠ []) {last : List Char}
    (hlast : ∀ c ∈ last, isGap c = true) :
    ∀ offset, let tokens := (Cursor.mk (layout pieces ++ last) offset).tokens
      tokens.map Token.content = ts.map Token.content ∧
        tokens.map Token.toSpan = spans offset pieces := by
  induction h with
  | nil =>
      intro offset
      have hnone : (Cursor.mk last offset).next? = none := next?_eq_none_iff.mpr hlast
      show (Cursor.mk last offset).tokens.map _ = _ ∧ (Cursor.mk last offset).tokens.map _ = _
      rw [tokens_eq_nil hnone]
      exact ⟨rfl, rfl⟩
  | @cons piece t pieces ts hlexed hpieces ih =>
      intro offset
      obtain ⟨gap, lexeme⟩ := piece
      obtain ⟨hgap, hblanks⟩ := List.forall_mem_cons.mp hblank
      -- What follows the lexeme is a gap or the end.
      have hnext := next?_append hgap (hlexed.before_gap (isGap_head? hblanks hapart hlast)) offset
      obtain ⟨hcontents, hspans⟩ := ih hblanks
        (fun piece hmem => hapart piece (List.mem_of_mem_tail hmem))
        (offset + byteLength gap + byteLength lexeme)
      have htext : layout ((gap, lexeme) :: pieces) ++ last
          = gap ++ (lexeme ++ (layout pieces ++ last)) := by
        rw [layout_cons, List.append_assoc, List.append_assoc]
      rw [htext, tokens_eq_cons hnext]
      exact ⟨congrArg (t.content :: ·) hcontents, congrArg (_ :: ·) hspans⟩

/-- Gaps and lexemes that make up a text with the lexemes of the given one:
each lexeme stands behind a gap, and so does the end of the text, of which
the mark covers nothing. -/
structure Spacing (text : String) (pieces : List (List Char × List Char)) : Prop where
  lexemes : pieces.map Prod.snd = (tokenize text).map (slice text)
  blank : ∀ piece ∈ pieces, ∀ c ∈ piece.1, c = ' ' ∨ c = '\t'
  /-- Only before the first lexeme and before the end there may be
  nothing. -/
  apart : ∀ piece ∈ pieces.tail.dropLast, piece.1 ≠ []

section Spacing

variable {text : String} {pieces : List (List Char × List Char)}

/-- The gaps are what the lexer skips. The statement of `Spacing` names the
two characters, the lexer has a test. -/
theorem Spacing.isGap (h : Spacing text pieces) :
    ∀ piece ∈ pieces, ∀ c ∈ piece.1, isGap c = true := by
  intro piece hpiece c hc
  simpa [DeskCalculator.isGap] using h.blank piece hpiece c hc

/-- The last piece is that of the mark, and the ones before are those of the
other tokens. The gaps between the lexemes are then those of `front` but its
first, which is how `tokens_layout` wants them. -/
theorem Spacing.exists_front (h : Spacing text pieces) :
    ∃ front last, pieces = front ++ [(last, [])] ∧
      front.map Prod.snd = (Cursor.ofText text).tokens.map (slice text) ∧
      ∀ piece ∈ front.tail, piece.1 ≠ [] := by
  have hmark : slice text (Token.endOfInput (byteLength text.toList)) = [] :=
    (covers_endOfInput text).slice_eq
  have hlexemes := h.lexemes
  rw [tokenize, List.map_append, List.map_singleton, hmark] at hlexemes
  obtain ⟨front, _, rfl, hfront, hend⟩ := List.map_eq_append_iff.mp hlexemes
  obtain ⟨⟨last, _⟩, _, rfl, hlexeme, hnil⟩ := List.map_eq_cons_iff.mp hend
  obtain rfl := List.map_eq_nil_iff.mp hnil
  obtain rfl : _ = [] := hlexeme
  refine ⟨front, last, rfl, hfront, fun piece hpiece => h.apart piece ?_⟩
  cases front with
  | nil => cases hpiece
  | cons first front => simpa using hpiece

/-- A token is a lexeme, whatever follows it in the text. What it covers and
what it carries is all that has to be known of it in another text. -/
theorem lexed_slice {t : Token} (h : t ∈ (Cursor.ofText text).tokens) :
    Lexeme.Lexed [] (slice text t) t.content := by
  obtain ⟨before, lexeme, rest, hcovers, hlexed⟩ :=
    Cursor.covers_of_mem (Cursor.standsIn_ofText text) t h
  rw [hcovers.slice_eq]
  exact hlexed.alone

/-- The tokens of a text with other gaps carry the same, stand where their
lexemes were put, and cover these lexemes. The mark is among them: it stands
behind the last gap. -/
theorem tokenize_layout (h : Spacing text pieces) :
    let text' := String.ofList (layout pieces)
    (tokenize text').map Token.content = (tokenize text).map Token.content ∧
      (tokenize text').map Token.toSpan = spans 0 pieces ∧
      (tokenize text').map (slice text') = (tokenize text).map (slice text) := by
  intro text'
  have hchars : text'.toList = layout pieces := String.toList_ofList
  -- All but what the tokens cover, which can be computed from where they
  -- stand.
  have hspans : (tokenize text').map Token.content = (tokenize text).map Token.content ∧
      (tokenize text').map Token.toSpan = spans 0 pieces := by
    obtain ⟨front, last, hpieces, hfront, hapart⟩ := h.exists_front
    have hgaps := h.isGap
    rw [hpieces] at hgaps hchars
    have hlayout : layout (front ++ [(last, [])]) = layout front ++ last := by
      rw [layout_append, layout_cons]
      exact congrArg (layout front ++ ·) (List.append_nil last)
    -- The pieces and the tokens go together one by one, so each piece has
    -- the lexeme of its token.
    have hlexed : List.Forall₂ (fun piece t => Lexeme.Lexed [] piece.2 t.content) front
        (Cursor.ofText text).tokens := by
      obtain ⟨hlength, hslices⟩ := List.forall₂_iff_zip.mp (forall₂_of_map_eq hfront)
      refine List.forall₂_iff_zip.mpr ⟨hlength, fun {piece t} hmem => ?_⟩
      rw [hslices hmem]
      exact lexed_slice (List.of_mem_zip hmem).2
    obtain ⟨hcontents, hspans⟩ := Cursor.tokens_layout hlexed
      (fun piece hpiece => hgaps piece (List.mem_append_left _ hpiece)) hapart
      (hgaps (last, []) (List.mem_append_right _ List.mem_cons_self)) 0
    have htext : Cursor.ofText text' = ⟨layout front ++ last, 0⟩ := by
      rw [Cursor.ofText, hchars, hlayout]
    constructor
    · rw [tokenize, tokenize, List.map_append, List.map_append, htext, hcontents]
      rfl
    · rw [tokenize, List.map_append, htext, hspans, hpieces, spans_append, hchars, hlayout]
      simp [spans, Token.endOfInput, Token.bare]
  refine ⟨hspans.1, hspans.2, ?_⟩
  -- The new tokens stand at `spans`, and between those places there are the
  -- lexemes.
  have hslices := byteSlice_spans pieces []
  rw [Text.byteLength_nil, ← hspans.2, List.map_map] at hslices
  rw [← h.lexemes, ← hslices, List.nil_append, ← hchars]
  rfl

end Spacing

end DeskCalculator
