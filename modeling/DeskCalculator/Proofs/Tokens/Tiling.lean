import DeskCalculator.Proofs.Tokens.Stream
import Mathlib.Data.String.Basic

/-!
# `DeskCalculator.Proofs.Tokens.Tiling`: tokens and gaps make up the text

Every token covers some characters of its text (`Covers`), and what lies
between the tokens is gaps. Main statements:

* `tokenize_tiles`: the tokens of a text and the gaps between them, put
  together, are the text, and `Tiling` lists what else holds of their spans
  and of what they carry.
* `tokenize_longest`: a token covers the longest beginning of the rest of
  the text that spells a token, and has the kind that it spells; where no
  beginning does, the token is unknown and covers one character.

Both follow the cursor along the text: `StandsIn` says that it stands at a
character of the text, with as many bytes before it as it counts. A token
that is read there covers its lexeme (`Cursor.Reads.covers`), and from this
the induction along the tokens gives all of them (`Cursor.covers_of_mem`)
and the gaps between them (`Cursor.gaps_tokens`).

The spans of tokens count bytes, the lexer goes by characters.
`Text.byteLength` is the bridge, and `Text.byteSlice` cuts a text at places
that are known to lie between characters. Later modules use `slice` for what
a token covers and never count bytes themselves.
-/

set_option autoImplicit false

namespace DeskCalculator

open Text (byteLength byteSlice)

/-! ### Bytes

Offsets are counted in bytes, and strings of the library are too. What a
model of characters says about bytes is compared with that. -/

namespace Text

/-- The bytes of a text are those of its characters. The left side is what
the model counts, the right side what the text is stored in. -/
theorem byteLength_toList (text : String) : byteLength text.toList = text.utf8ByteSize := by
  have hlist : ∀ chars : List Char, byteLength chars = String.utf8Len chars := by
    intro chars
    induction chars with
    | nil => rfl
    | cons c chars ih => rw [byteLength_cons, ih, String.utf8Len_cons, Nat.add_comm]
  rw [hlist, ← String.utf8ByteSize_ofList, String.ofList_toList]

/-- A character begins behind every beginning of a text, or the text ends
there. -/
theorem isValid_byteLength {text : String} {before rest : List Char}
    (h : text.toList = before ++ rest) :
    String.Pos.Raw.IsValid text ⟨byteLength before⟩ := by
  refine String.Pos.Raw.isValid_iff_exists_append.mpr
    ⟨String.ofList before, String.ofList rest, ?_, ?_⟩
  · rw [← String.ofList_append, ← h, String.ofList_toList]
  · have hbytes := byteLength_toList (String.ofList before)
    rw [String.toList_ofList] at hbytes
    rw [hbytes]
    rfl

end Text

/-! ### What a token covers

A token has two offsets, and the text between them is its lexeme. -/

/-- The token covers the characters `lexeme` of the text, between `before`
and `rest`. Stated with the characters on both sides, because from them the
two places can be computed, and not the other way round without knowing that
the places lie between characters. -/
structure Covers (text : String) (t : Token) (before lexeme rest : List Char) : Prop where
  split : text.toList = before ++ (lexeme ++ rest)
  start : t.start = byteLength before
  stop : t.stop = byteLength before + byteLength lexeme

/-- The characters that a token covers, cut out at its two places.
`Covers.slice_eq` is how to compute it. -/
def slice (text : String) (t : Token) : List Char := byteSlice text.toList t.start t.stop

section Covers

variable {text : String} {t : Token} {before lexeme rest : List Char}

/-- The characters that a token covers are those between its two places. The
form in which offsets in bytes give back what was written. -/
theorem Covers.slice_eq (h : Covers text t before lexeme rest) : slice text t = lexeme := by
  rw [slice, h.split, h.start, h.stop, Text.byteSlice_append]

/-- A token starts and stops between characters. An offset inside a
character would be no place to cut the text at. -/
theorem Covers.isValid (h : Covers text t before lexeme rest) :
    String.Pos.Raw.IsValid text ⟨t.start⟩ ∧ String.Pos.Raw.IsValid text ⟨t.stop⟩ := by
  constructor
  · rw [h.start]
    exact Text.isValid_byteLength h.split
  · rw [h.stop, ← Text.byteLength_append]
    exact Text.isValid_byteLength (h.split.trans (List.append_assoc before lexeme rest).symm)

end Covers

namespace Cursor

/-- The cursor stands at a character of the text, or at its end. The
invariant of the inductions along the tokens below: what is before it is
forgotten by the cursor and comes back here. -/
def StandsIn (c : Cursor) (text : String) : Prop :=
  ∃ before, text.toList = before ++ c.rest ∧ c.offset = byteLength before

/-- A cursor begins at the first character. What holds of a cursor that
stands in a text can so be used for the whole of it. -/
theorem standsIn_ofText (text : String) : (ofText text).StandsIn text := ⟨[], rfl, rfl⟩

/-- A token that is read covers its lexeme, and the cursor stands behind it.
One step of the invariant. -/
theorem Reads.covers {c c' : Cursor} {t : Token} {text : String} (h : Reads c t c')
    (hc : c.StandsIn text) :
    c'.StandsIn text ∧
      ∃ before lexeme, Covers text t before lexeme c'.rest ∧
        Lexeme.Lexed c'.rest lexeme t.content := by
  cases h with
  | @intro gap lexeme rest content offset blank lexed =>
      obtain ⟨before, hsplit, hoffset⟩ := hc
      obtain rfl : offset = byteLength before := hoffset
      refine ⟨⟨before ++ (gap ++ lexeme), ?_, ?_⟩, before ++ gap, lexeme, ⟨?_, ?_, ?_⟩, lexed⟩
      · rw [hsplit]
        simp only [List.append_assoc]
      · simp only [Text.byteLength_append, Nat.add_assoc]
      · rw [hsplit]
        simp only [List.append_assoc]
      · rw [Text.byteLength_append]
      · rw [Text.byteLength_append]

/-- Every token of a text is a lexeme of it. The way from a token to what is
known about lexemes, for all modules that look at the characters of one
token. -/
theorem covers_of_mem {text : String} {c : Cursor} (hc : c.StandsIn text) :
    ∀ t ∈ c.tokens, ∃ before lexeme rest, Covers text t before lexeme rest ∧
      Lexeme.Lexed rest lexeme t.content := by
  revert hc
  refine read_induction (motive := fun c ts => c.StandsIn text → ∀ t ∈ ts,
      ∃ before lexeme rest, Covers text t before lexeme rest ∧ Lexeme.Lexed rest lexeme t.content)
    (fun c _ _ t ht => by cases ht) (fun c c' u hnext ih hc t ht => ?_) c
  obtain ⟨hc', before, lexeme, hcovers, hlexed⟩ := (next?_eq_some_iff.mp hnext).covers hc
  rcases List.mem_cons.mp ht with rfl | ht
  · exact ⟨before, lexeme, c'.rest, hcovers, hlexed⟩
  · exact ih hc' t ht

end Cursor

/-- The mark covers nothing, at the end of the text. With it the mark needs
no case of its own in `tokenize_tiles`. -/
theorem covers_endOfInput (text : String) :
    Covers text (Token.endOfInput (byteLength text.toList)) text.toList [] [] :=
  ⟨by simp, rfl, rfl⟩

/-! ### The longest match

What the rule of the longest match asks of a token, said of the text
alone. -/

/-- Some beginning of a text spells a token. The empty beginning spells
none, and is excluded here so that this can be seen without
`Spells.ne_nil`. -/
def BeginsSpelling (text : List Char) : Prop :=
  ∃ kind start, start ≠ [] ∧ start <+: text ∧ Lexeme.Spells kind start

/-- What a token of the given kind has to cover at the beginning of a text.
There is one field for either case, and the two cases exclude each other. -/
structure LongestMatch (text : List Char) (kind : Kind) (lexeme : List Char) : Prop where
  /-- The longest beginning that spells a token, if there is one, and its
  kind is the kind that it spells. -/
  spelled : BeginsSpelling text →
    lexeme <+: text ∧ Lexeme.Spells kind lexeme ∧
      ∀ kind' start, start <+: text → Lexeme.Spells kind' start → start.length ≤ lexeme.length
  /-- Otherwise one character, of one to four bytes. -/
  unknown : ¬BeginsSpelling text →
    kind = .unknown ∧ lexeme <+: text ∧ lexeme.length = 1 ∧ 1 ≤ byteLength lexeme ∧
      byteLength lexeme ≤ 4

/-- A lexeme is the longest match. `Lexed` bounds the beginnings that spell
a token by the length of the lexeme, or by zero. -/
theorem Lexeme.Lexed.longestMatch {lexeme rest : List Char} {content : Content}
    (h : Lexed rest lexeme content) : LongestMatch (lexeme ++ rest) content.kind lexeme := by
  cases h with
  | spelled spells longest =>
      rw [content_kind_of_spells spells]
      exact ⟨fun _ => ⟨List.prefix_append _ _, spells, longest⟩,
        fun hnone => absurd ⟨_, _, spells.ne_nil, List.prefix_append _ _, spells⟩ hnone⟩
  | @unknown c unspelled solid =>
      refine ⟨fun ⟨kind, start, hne, hstart, hspells⟩ => ?_,
        fun _ => ⟨rfl, List.prefix_append _ _, rfl, ?_⟩⟩
      · exact absurd (unspelled kind start hstart hspells)
          (Nat.not_le.mpr (List.length_pos_iff.mpr hne))
      · simpa using ⟨c.utf8Size_pos, c.utf8Size_le_four⟩

/-- No text is spelled in two kinds, and every token but the mark covers the
longest match at the beginning of the rest of the text. The first part makes
the kind of a longest match unique. -/
theorem tokenize_longest :
    (∀ kind kind' lexeme, Lexeme.Spells kind lexeme → Lexeme.Spells kind' lexeme → kind = kind') ∧
      ∀ (text : String) (t : Token), t ∈ tokenize text → t.kind ≠ .endOfInput →
        ∃ before lexeme rest,
          Covers text t before lexeme rest ∧ LongestMatch (lexeme ++ rest) t.kind lexeme := by
  refine ⟨fun _ _ _ h h' => h.kind_unique h', fun text t ht hkind => ?_⟩
  rcases List.mem_append.mp ht with ht | ht
  · obtain ⟨before, lexeme, rest, hcovers, hlexed⟩ :=
      Cursor.covers_of_mem (Cursor.standsIn_ofText text) t ht
    exact ⟨before, lexeme, rest, hcovers, hlexed.longestMatch⟩
  · obtain rfl := List.mem_singleton.mp ht
    exact absurd rfl hkind

/-- The point behind a number that has one already begins no spelling if a
name breaks off behind it, and a shift is longer than a comparison. -/
theorem tokenize_longest_instances :
    (∃ before lexeme rest, Covers "1.2.na" ⟨⟨3, 4⟩, .bare .unknown⟩ before lexeme rest ∧
        LongestMatch (lexeme ++ rest) .unknown lexeme) ∧
      ∃ before lexeme rest, Covers "x >>> 2" ⟨⟨2, 4⟩, .bare .shiftRight⟩ before lexeme rest ∧
        LongestMatch (lexeme ++ rest) .shiftRight lexeme :=
  ⟨tokenize_longest.2 "1.2.na" ⟨⟨3, 4⟩, .bare .unknown⟩ (by decide +kernel) (by decide),
    tokenize_longest.2 "x >>> 2" ⟨⟨2, 4⟩, .bare .shiftRight⟩ (by decide +kernel) (by decide)⟩

/-! ### The tiling

Gaps and lexemes in turn, from the beginning to the end. -/

/-- The characters before each token, from the end of the one before it on.
There is one gap for each token, empty where two tokens touch; that of the
mark is what the text ends with. -/
def gaps (text : String) : Nat → List Token → List (List Char)
  | _, [] => []
  | place, t :: tokens => byteSlice text.toList place t.start :: gaps text t.stop tokens

/-- How tokens with their gaps make up a text. Each token covers what is
between two gaps, and the mark stands behind the last one. -/
structure Tiling (text : String) (tokens : List Token) : Prop where
  /-- The mark is the last token, and the only one of its kind and without a
  character. -/
  mark : ∃ front, tokens = front ++ [Token.endOfInput text.utf8ByteSize] ∧
    ∀ t ∈ front, t.kind ≠ .endOfInput ∧ t.start < t.stop
  ordered : tokens.Pairwise fun t u => t.stop ≤ u.start
  /-- No token begins or ends within the bytes of a character. -/
  boundaries : ∀ t ∈ tokens,
    String.Pos.Raw.IsValid text ⟨t.start⟩ ∧ String.Pos.Raw.IsValid text ⟨t.stop⟩
  blank : ∀ gap ∈ gaps text 0 tokens, ∀ c ∈ gap, c = ' ' ∨ c = '\t'
  solid : ∀ t ∈ tokens, ∀ c ∈ slice text t, c ≠ ' ' ∧ c ≠ '\t'
  lossless : (List.zipWith (· ++ ·) (gaps text 0 tokens) (tokens.map (slice text))).flatten
    = text.toList
  /-- Numbers and identifiers carry what they spell, and the other tokens
  nothing. -/
  carried : ∀ t ∈ tokens,
    match t.kind with
    | .number => ∃ x, t.content = .number x
    | .identifier => t.content = .identifier (String.ofList (slice text t))
    | kind => t.content = .bare kind
  /-- No spelling of a number fails to be read as one. -/
  numeral : ∀ t ∈ tokens, Lexeme.Spells .number (slice text t) →
    ∃ x, Double.ofNumeral? (slice text t) = some x ∧ t.content = .number (.double x)

/-- Numbers and identifiers carry what their lexeme spells, and the other
lexemes nothing. The second half says more of numbers: the numeral is read,
so the number is not made up. -/
theorem Lexeme.Lexed.carries {lexeme rest : List Char} {content : Content}
    (h : Lexed rest lexeme content) :
    (match content.kind with
      | .number => ∃ x, content = .number x
      | .identifier => content = .identifier (String.ofList lexeme)
      | kind => content = .bare kind) ∧
      (Spells .number lexeme →
        ∃ x, Double.ofNumeral? lexeme = some x ∧ content = .number (.double x)) := by
  cases h with
  | @spelled kind lexeme spells longest =>
      refine ⟨?_, fun hnumber => ?_⟩
      · rw [content_kind_of_spells spells]
        cases kind with
        | number => exact ⟨_, content_of_spells_number spells⟩
        | _ => rfl
      · obtain rfl := spells.kind_unique hnumber
        exact ⟨_, Double.ofNumeral?_of_spells spells, content_of_spells_number spells⟩
  | @unknown c unspelled solid =>
      exact ⟨rfl, fun hnumber => absurd (unspelled _ _ (List.prefix_append [c] rest) hnumber)
        (Nat.not_succ_le_zero 0)⟩

/-- A token of a text that carries nothing is neither a number nor an
identifier nor the mark. So a token that a rule of the grammar looks for by
its kind alone is none of those that carry something. -/
theorem kind_of_content_bare {text : String} {t : Token} (ht : t ∈ (Cursor.ofText text).tokens)
    {kind : Kind} (hcontent : t.content = .bare kind) :
    kind ≠ .number ∧ kind ≠ .identifier ∧ kind ≠ .endOfInput := by
  obtain ⟨lexeme, rest, hlexed⟩ := Cursor.lexed_of_mem t ht
  rw [hcontent] at hlexed
  refine ⟨?_, ?_, hlexed.kind_ne_endOfInput⟩
  · rintro rfl
    obtain ⟨x, hx⟩ := hlexed.carries.1
    cases hx
  · rintro rfl
    cases hlexed.carries.1

/-- The gaps from a cursor on are blank, and with the tokens between them
they are the rest of the text. Induction along the tokens; the mark closes
the list, so that the last gap is seen as well. -/
theorem Cursor.gaps_tokens {text : String} {c : Cursor} (hc : c.StandsIn text) :
    let tokens := c.tokens ++ [Token.endOfInput (byteLength text.toList)]
    (∀ gap ∈ gaps text c.offset tokens, ∀ x ∈ gap, isGap x = true) ∧
      (List.zipWith (· ++ ·) (gaps text c.offset tokens) (tokens.map (slice text))).flatten
        = c.rest := by
  revert hc
  refine read_induction (motive := fun c ts => c.StandsIn text →
    let tokens := ts ++ [Token.endOfInput (byteLength text.toList)]
    (∀ gap ∈ gaps text c.offset tokens, ∀ x ∈ gap, isGap x = true) ∧
      (List.zipWith (· ++ ·) (gaps text c.offset tokens) (tokens.map (slice text))).flatten
        = c.rest) (fun c hnone hc => ?nil) (fun c c' t hnext ih hc => ?cons) c
  case nil =>
    -- No token is left: all the rest is the gap before the mark.
    obtain ⟨before, hsplit, hoffset⟩ := hc
    have hgap : byteSlice text.toList c.offset (byteLength text.toList) = c.rest := by
      have := Text.byteSlice_append before c.rest []
      rwa [List.append_nil, ← hsplit, ← Text.byteLength_append, ← hsplit, ← hoffset] at this
    have hgaps : gaps text c.offset [Token.endOfInput (byteLength text.toList)] = [c.rest] :=
      congrArg (· :: []) hgap
    have hmark := (covers_endOfInput text).slice_eq
    simp only [List.nil_append, hgaps]
    refine ⟨?_, by simp [hmark]⟩
    intro gap hgap
    obtain rfl := List.mem_singleton.mp hgap
    exact next?_eq_none_iff.mp hnone
  case cons =>
    have hreads := next?_eq_some_iff.mp hnext
    obtain ⟨hblanks, hflatten⟩ := ih (hreads.covers hc).1
    cases hreads with
    | @intro gap lexeme rest content offset blank lexed =>
        obtain ⟨before, hsplit, hoffset⟩ := hc
        obtain rfl : offset = byteLength before := hoffset
        have hgap : byteSlice text.toList (byteLength before) (byteLength before + byteLength gap)
            = gap := by
          rw [hsplit, Text.byteSlice_append]
        have hslice : byteSlice text.toList (byteLength before + byteLength gap)
            (byteLength before + byteLength gap + byteLength lexeme) = lexeme := by
          have := Text.byteSlice_append (before ++ gap) lexeme rest
          rwa [Text.byteLength_append, List.append_assoc, ← hsplit] at this
        -- The gap and the lexeme come first, and what follows is the text
        -- behind the token.
        simp only [List.cons_append, gaps, List.map_cons, List.zipWith_cons_cons, List.flatten_cons,
          slice, hgap, hslice, List.append_assoc]
        refine ⟨?_, congrArg (fun rest => gap ++ (lexeme ++ rest)) hflatten⟩
        rintro g (_ | ⟨_, hg⟩)
        · exact blank
        · exact hblanks g hg

/-- The tokens of a text and the gaps between them make up the text. Every
field comes from what one token covers (`hcovers`) or from the induction
along the tokens (`hgaps`). -/
theorem tokenize_tiles (text : String) : Tiling text (tokenize text) := by
  have hlength : (Cursor.ofText text).stop = byteLength text.toList := Nat.zero_add _
  -- The mark covers nothing, and every other token a lexeme.
  have hcovers : ∀ t ∈ tokenize text, ∃ before lexeme rest, Covers text t before lexeme rest ∧
      (Lexeme.Lexed rest lexeme t.content ∨ lexeme = [] ∧ t.content = .bare .endOfInput) := by
    intro t ht
    rcases List.mem_append.mp ht with ht | ht
    · obtain ⟨before, lexeme, rest, hcovers, hlexed⟩ :=
        Cursor.covers_of_mem (Cursor.standsIn_ofText text) t ht
      exact ⟨before, lexeme, rest, hcovers, .inl hlexed⟩
    · obtain rfl := List.mem_singleton.mp ht
      exact ⟨_, _, _, covers_endOfInput text, .inr ⟨rfl, rfl⟩⟩
  have hgaps := Cursor.gaps_tokens (Cursor.standsIn_ofText text)
  refine ⟨?mark, ?ordered, ?boundaries, ?blank, ?solid, hgaps.2, ?carried, ?numeral⟩
  case mark =>
    refine ⟨(Cursor.ofText text).tokens, by rw [← Text.byteLength_toList]; rfl,
      fun t ht => ⟨?_, ?_⟩⟩
    · exact Cursor.kind_ne_endOfInput _ t ht
    · exact ((Cursor.ofText text).tokens_within t ht).2.1
  case ordered =>
    rw [tokenize, List.pairwise_append]
    refine ⟨(Cursor.ofText text).tokens_ordered, List.pairwise_singleton _ _, fun t ht u hu => ?_⟩
    obtain rfl := List.mem_singleton.mp hu
    exact hlength ▸ ((Cursor.ofText text).tokens_within t ht).2.2
  case boundaries =>
    intro t ht
    obtain ⟨before, lexeme, rest, hcovers, -⟩ := hcovers t ht
    exact hcovers.isValid
  case blank =>
    intro gap hgap c hc
    simpa [isGap] using hgaps.1 gap hgap c hc
  case solid =>
    intro t ht c hc
    obtain ⟨before, lexeme, rest, hcovers, hlexed | ⟨rfl, -⟩⟩ := hcovers t ht
    · rw [hcovers.slice_eq] at hc
      simpa [isGap] using hlexed.not_isGap c hc
    · rw [hcovers.slice_eq] at hc
      cases hc
  -- The fields about single tokens, each by whether the token is the mark.
  case carried =>
    intro t ht
    obtain ⟨before, lexeme, rest, hcovers, hlexed | ⟨rfl, hcontent⟩⟩ := hcovers t ht
    · rw [hcovers.slice_eq]
      exact hlexed.carries.1
    · rw [Token.kind, hcontent]
      rfl
  case numeral =>
    intro t ht
    obtain ⟨before, lexeme, rest, hcovers, hlexed | ⟨rfl, -⟩⟩ := hcovers t ht
    · rw [hcovers.slice_eq]
      exact hlexed.carries.2
    · rw [hcovers.slice_eq]
      exact fun hnumber => absurd rfl hnumber.ne_nil

end DeskCalculator
