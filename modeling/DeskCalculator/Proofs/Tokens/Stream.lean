import DeskCalculator.Cursor
import DeskCalculator.Proofs.Lexeme.Munch

/-!
# `DeskCalculator.Proofs.Tokens.Stream`: the tokens of a text, one behind the other

`Cursor.tokens` collects tokens up to a bound, in reverse. Seen from outside
it is a plain recursion: `tokens_eq_nil` and `tokens_eq_cons` are its two
equations, and `Cursor.read_induction` is the induction that goes with them.
It holds because a token covers a character at least, so what is left of the
text gets shorter. Proofs about all tokens of a text use these three and
leave the bound alone.

* `Cursor.next?_eq_some_iff`: what one token is. A cursor reads the longest
  spelling behind a gap (`Lexeme.Lexed`, `Cursor.Reads`), so proofs take a
  text apart and never run the lexer.
* `Cursor.next_eq`: the same seen from a reader that goes on asking behind
  the last token, where it gets the mark again and again.
* `Cursor.tokens_within`, `Cursor.tokens_ordered`: every token lies between
  the place of the cursor and the end of the text, covers a byte at least,
  and ends before the next one starts.
* `tokenize_ordered`: with the mark behind them, each starts before the
  next. So a place in a text is the start of one token at most
  (`eq_of_start_eq`), and a complaint that names a place names a token.
* `Cursor.kind_ne_endOfInput`: the mark is the only token of its kind. A run
  that stops at the mark has seen all the tokens.

The lemmas of `Lexeme.Lexed` are what a proof may know about one lexeme: its
characters, what it carries, and that what is written behind it does not
matter if it is kept apart.
-/

set_option autoImplicit false

namespace DeskCalculator

open Text (byteLength)

namespace Lexeme

/-- A character that is in no word and in no fixed spelling is in no
spelling. Asked of blanks and of line ends, which no token covers. -/
theorem Spells.not_mem {kind : Kind} {lexeme : List Char} (h : Spells kind lexeme) {c : Char}
    (hword : isWordChar c = false) (hpoint : c ≠ '.')
    (hfixed : ∀ entry ∈ Kind.spellings, c ∉ entry.1.toList) : c ∉ lexeme := by
  have hless : c ≠ '<' := by
    rintro rfl
    exact hfixed ("<", .less) (by decide) (by decide)
  have hgreater : c ≠ '>' := by
    rintro rfl
    exact hfixed (">", .greater) (by decide) (by decide)
  intro hc
  obtain ⟨first, rest, rfl, hbegins⟩ := h.begins
  rcases List.mem_cons.mp hc with rfl | hc
  · -- It would be a spelling of its own.
    cases hbegins with
    | numeral hfirst => grind [isWordChar]
    | word hfirst => grind [isWordChar]
    | fixed entry => exact hfixed _ entry (by rw [String.toList_ofList]; exact hc)
  · -- Behind the first character: it would have to be one of those that go
    -- on a spelling.
    rcases h.tail_chars c hc with h | h | h | h
    · rw [hword] at h; cases h
    · exact hpoint h
    · exact hless h
    · exact hgreater h

/-- No spelling has a space or a tab in it. So a gap between two lexemes is
seen as one, wherever it is put. -/
theorem Spells.not_isGap {kind : Kind} {lexeme : List Char} (h : Spells kind lexeme) :
    ∀ c ∈ lexeme, isGap c = false := by
  intro c hc
  refine Bool.eq_false_iff.mpr fun hgap => ?_
  rw [isGap, Bool.or_eq_true, decide_eq_true_eq, decide_eq_true_eq] at hgap
  rcases hgap with rfl | rfl <;> exact h.not_mem (by decide) (by decide) (by decide) hc

/-- A gap goes on no spelling, and may be put between any two lexemes. -/
theorem separates_of_isGap {c : Char} (h : isGap c = true) : Separates c := by
  intro kind lexeme hspells hmem
  have hsolid := hspells.not_isGap c (List.mem_of_mem_tail hmem)
  exact Bool.false_ne_true (hsolid.symm.trans h)

/-- The longest beginning of a text that spells a token, and what it
carries; or the one character that begins none. `rest` is what follows it.

The second case excludes gaps: a space begins no spelling either, but it is
skipped and makes no unknown token. -/
inductive Lexed (rest : List Char) : List Char → Content → Prop where
  | spelled {kind : Kind} {lexeme : List Char} (spells : Spells kind lexeme)
      (longest : Bounds (lexeme ++ rest) lexeme.length) :
      Lexed rest lexeme (content kind lexeme)
  | unknown {c : Char} (unspelled : Bounds (c :: rest) 0) (solid : isGap c = false) :
      Lexed rest [c] (.bare .unknown)

namespace Lexed

variable {lexeme rest : List Char} {content' : Content}

/-- A lexeme stays one if a separating character follows the text. The
longest beginning cannot become longer by what no spelling goes on with. -/
theorem append (h : Lexed rest lexeme content') {c : Char} (hc : Separates c)
    (after : List Char) : Lexed (rest ++ c :: after) lexeme content' := by
  cases h with
  | spelled spells longest =>
      refine .spelled spells ?_
      rw [← List.append_assoc]
      exact longest.append (List.append_ne_nil_of_left_ne_nil spells.ne_nil _) hc after
  | unknown unspelled solid =>
      exact .unknown (unspelled.append (List.cons_ne_nil _ _) hc after) solid

/-- A lexeme is not empty. So each token takes something off the text, and
the stream comes to its end. -/
theorem ne_nil (h : Lexed rest lexeme content') : lexeme ≠ [] := by
  cases h with
  | spelled spells longest => exact spells.ne_nil
  | unknown unspelled solid => exact List.cons_ne_nil _ _

/-- A spelling that no other one goes on is a lexeme, at the end of a text
or where a separating character follows. For the texts that the proofs write
themselves, such as a line of a listing. -/
theorem of_spells {kind : Kind} (h : Spells kind lexeme)
    (hrest : ∀ c ∈ rest.head?, Separates c) : Lexed rest lexeme (content kind lexeme) := by
  have hbounds : Bounds lexeme lexeme.length := fun _ _ hstarts _ => hstarts.length_le
  refine .spelled h ?_
  cases rest with
  | nil => rwa [List.append_nil]
  | cons c rest => exact hbounds.append h.ne_nil (hrest c rfl) rest

/-- A mark that begins no longer spelling is a lexeme, whatever follows.
Parentheses and `=` are put directly before names and numbers, where nothing
separates. -/
theorem of_mark {kind : Kind} {c : Char} (h : Spells kind [c]) (hword : isWordChar c = false)
    (hpoint : c ≠ '.') (hless : c ≠ '<') (hgreater : c ≠ '>') (rest : List Char) :
    Lexed rest [c] (content kind [c]) := by
  refine .spelled h fun kind' longer hstarts hspells => ?_
  obtain ⟨first, tail, rfl⟩ := List.exists_cons_of_ne_nil hspells.ne_nil
  obtain ⟨rfl, -⟩ := List.cons_prefix_cons.mp hstarts
  obtain rfl := hspells.eq_singleton hword hpoint hless hgreater
  exact Nat.le_refl 1

/-- A lexeme has no gap in it, so where a gap begins a lexeme has ended. -/
theorem not_isGap (h : Lexed rest lexeme content') : ∀ c ∈ lexeme, isGap c = false := by
  cases h with
  | spelled spells longest => exact spells.not_isGap
  | unknown unspelled solid =>
      intro c hc
      obtain rfl := List.mem_singleton.mp hc
      exact solid

/-- A lexeme is no mark behind the last token: no rule and no entry of the
table has that kind. -/
theorem kind_ne_endOfInput (h : Lexed rest lexeme content') : content'.kind ≠ .endOfInput := by
  cases h with
  | @spelled kind lexeme spells longest =>
      rw [content_kind_of_spells spells]
      rintro rfl
      obtain ⟨first, rest, -, hbegins⟩ := spells.begins
      cases hbegins with
      | fixed entry => revert entry; simp [Kind.spellings]
  | unknown unspelled solid => exact (fun h => by cases h)

/-- A lexeme that spells no token is one character. The first case of
`Lexed` is excluded, since no spelling is of the unknown kind. -/
theorem eq_singleton_of_unknown (h : Lexed rest lexeme content')
    (hkind : content'.kind = .unknown) : ∃ c, lexeme = [c] := by
  cases h with
  | @spelled kind lexeme spells longest =>
      obtain rfl : kind = .unknown := (content_kind_of_spells spells).symm.trans hkind
      obtain ⟨first, rest, -, hbegins⟩ := spells.begins
      cases hbegins with
      | fixed entry => revert entry; simp [Kind.spellings]
  | @unknown c unspelled solid => exact ⟨c, rfl⟩

/-- A lexeme carries no signalling number: a numeral is read as a double,
and NaN as the quiet one. For `Proofs.Run.Writes`, where a value that is
read is written to the environment. -/
theorem ne_signalling (h : Lexed rest lexeme content') : content' ≠ .number .signalling := by
  cases h with
  | @spelled kind lexeme spells longest =>
      cases kind with
      | number => rw [content_of_spells_number spells]; intro h; cases h
      | _ => intro h; cases h
  | unknown unspelled solid => intro h; cases h

/-- A lexeme that carries a name is spelled like it. So the name is an
identifier, and is a slice of the text. -/
theorem spells_name {name : String} (h : Lexed rest lexeme (.identifier name)) :
    lexeme = name.toList ∧ Spells .identifier name.toList := by
  -- The index of `Lexed` has to be a variable for the cases.
  generalize hcontent : Content.identifier name = content' at h
  cases h with
  | @spelled kind lexeme spells longest =>
      obtain rfl : Kind.identifier = kind :=
        (congrArg Content.kind hcontent).trans (content_kind_of_spells spells)
      obtain rfl := Content.identifier.inj hcontent
      rw [String.toList_ofList]
      exact ⟨rfl, spells⟩
  | unknown unspelled solid => cases hcontent

/-- A text that begins with no gap begins with a lexeme, of one sort or the
other. -/
theorem exists_of_not_isGap {first : Char} (h : isGap first = false) (text : List Char) :
    ∃ lexeme rest content', first :: text = lexeme ++ rest ∧ Lexed rest lexeme content' := by
  cases munch_cases (first :: text) with
  | spelled kind lexeme rest split spells longest result =>
      exact ⟨lexeme, rest, _, split, .spelled spells (split ▸ longest)⟩
  | unknown unspelled result => exact ⟨[first], text, _, rfl, .unknown unspelled h⟩

/-- A lexeme is munched: its length is what `munch` goes forward, its kind
decides what it carries. -/
theorem munch_eq (h : Lexed rest lexeme content') :
    (munch (lexeme ++ rest)).2 = lexeme.length ∧
      content (munch (lexeme ++ rest)).1 lexeme = content' := by
  cases h with
  | spelled spells longest => rw [munch_eq_of_spells spells longest]; exact ⟨rfl, rfl⟩
  | @unknown c unspelled solid =>
      cases munch_cases ([c] ++ rest) with
      | unknown unspelled' result => rw [result]; exact ⟨rfl, rfl⟩
      | spelled kind lexeme rest' split spells longest result =>
          exact absurd (unspelled kind lexeme ⟨rest', split.symm⟩ spells)
            (Nat.not_le.mpr (List.length_pos_iff.mpr spells.ne_nil))

end Lexed

end Lexeme

namespace Cursor

variable {c c' : Cursor} {t : Token}

/-! ### One token

What one call of `next?` does: it passes a gap, takes the longest lexeme,
and stands behind it. -/

/-- The byte behind the last one of the text. Reading does not change it
(`next?_stop`). -/
def stop (c : Cursor) : Nat := c.offset + byteLength c.rest

/-- A cursor over a gap and a lexeme reads the lexeme as a token. The
offsets count bytes, while gap and lexeme are lists of characters. -/
inductive Reads : Cursor → Token → Cursor → Prop where
  | intro {gap lexeme rest : List Char} {content : Content} (offset : Nat)
      (blank : ∀ c ∈ gap, isGap c = true) (lexed : Lexeme.Lexed rest lexeme content) :
      Reads ⟨gap ++ (lexeme ++ rest), offset⟩
        { start := offset + byteLength gap
          stop := offset + byteLength gap + byteLength lexeme
          content }
        ⟨rest, offset + byteLength gap + byteLength lexeme⟩

/-- The cursor behind a gap. The second hypothesis says that the gap ends
where `rest` begins. -/
theorem skipGap_append {gap rest : List Char} (hgap : ∀ c ∈ gap, isGap c = true)
    (hrest : ∀ c ∈ rest.head?, isGap c = false) (offset : Nat) :
    (Cursor.mk (gap ++ rest) offset).skipGap = ⟨rest, offset + byteLength gap⟩ := by
  have htake : (gap ++ rest).takeWhile isGap = gap := by
    rw [List.takeWhile_append_of_pos hgap]
    cases rest with
    | nil => simp
    | cons c rest => rw [List.takeWhile_cons_of_neg (by simp [hrest c rfl]), List.append_nil]
  rw [skipGap, htake, advance, List.drop_left, List.take_left]

/-- Every cursor stands before a gap, which may be empty. For a proof that
starts from an arbitrary cursor and needs the form that `skipGap_append` and
`next?_append` ask for. -/
theorem exists_gap (c : Cursor) :
    ∃ gap rest, c.rest = gap ++ rest ∧ (∀ x ∈ gap, isGap x = true) ∧
      ∀ x ∈ rest.head?, isGap x = false := by
  refine ⟨c.rest.takeWhile isGap, c.rest.dropWhile isGap,
    List.takeWhile_append_dropWhile.symm, fun _ hx => List.mem_takeWhile_imp hx, fun x hx => ?_⟩
  have := List.head?_dropWhile_not isGap c.rest
  rw [Option.mem_def.mp hx] at this
  simpa using this

/-- A lexeme behind a gap is the next token. One half of
`next?_eq_some_iff`, for texts that are put together from gaps and
lexemes. -/
theorem next?_append {gap lexeme rest : List Char} {content : Content}
    (hblank : ∀ c ∈ gap, isGap c = true) (hlexed : Lexeme.Lexed rest lexeme content)
    (offset : Nat) :
    (Cursor.mk (gap ++ (lexeme ++ rest)) offset).next?
      = some
          ({ start := offset + byteLength gap
             stop := offset + byteLength gap + byteLength lexeme
             content },
            ⟨rest, offset + byteLength gap + byteLength lexeme⟩) := by
  obtain ⟨hlength, hcontent⟩ := hlexed.munch_eq
  obtain ⟨first, lexeme, rfl⟩ := List.exists_cons_of_ne_nil hlexed.ne_nil
  have hhead : ∀ c ∈ (first :: lexeme ++ rest).head?, isGap c = false := by
    rintro _ ⟨⟩
    exact hlexed.not_isGap first List.mem_cons_self
  rw [next?, skipGap_append hblank hhead]
  simp only [advance, hlength, hcontent, List.drop_left, List.take_left]
  rfl

/-- A cursor reads a token just where a lexeme comes next. From left to
right this is an inversion: the text is taken apart into a gap, a lexeme and
a rest. -/
theorem next?_eq_some_iff : c.next? = some (t, c') ↔ Reads c t c' := by
  constructor
  · intro h
    obtain ⟨gap, rest, hsplit, hblank, hhead⟩ := c.exists_gap
    obtain ⟨text, offset⟩ := c
    obtain rfl : text = gap ++ rest := hsplit
    -- Behind the gap the text has ended, or a lexeme begins.
    cases rest with
    | nil =>
        rw [next?, skipGap_append hblank hhead] at h
        cases h
    | cons first text =>
        obtain ⟨lexeme, rest, content, hsplit, hlexed⟩ :=
          Lexeme.Lexed.exists_of_not_isGap (hhead first rfl) text
        rw [hsplit, next?_append hblank hlexed] at h
        obtain ⟨rfl, rfl⟩ := Prod.mk.inj (Option.some.inj h)
        rw [hsplit]
        exact .intro offset hblank hlexed
  · rintro ⟨offset, hblank, hlexed⟩
    exact next?_append hblank hlexed offset

/-- There is no next token just where nothing but a gap is left. -/
theorem next?_eq_none_iff : c.next? = none ↔ ∀ x ∈ c.rest, isGap x = true := by
  obtain ⟨gap, rest, hsplit, hblank, hhead⟩ := c.exists_gap
  obtain ⟨text, offset⟩ := c
  obtain rfl : text = gap ++ rest := hsplit
  rw [next?, skipGap_append hblank hhead]
  cases rest with
  | nil => simpa using hblank
  | cons first text =>
      have hfirst := hhead first rfl
      constructor
      · intro h
        cases h
      · intro h
        have := h first (List.mem_append_right gap List.mem_cons_self)
        rw [hfirst] at this
        cases this

/-- A cursor that reads a token stays over the same text, that is, before
the same end. -/
theorem next?_stop (h : c.next? = some (t, c')) : c'.stop = c.stop := by
  obtain ⟨offset, hblank, hlexed⟩ := next?_eq_some_iff.mp h
  simp only [stop, Text.byteLength_append]
  omega

/-- Reading a token leaves less of the text. The measure of every recursion
along the tokens. -/
theorem next?_length_lt (h : c.next? = some (t, c')) : c'.rest.length < c.rest.length := by
  obtain ⟨offset, hblank, hlexed⟩ := next?_eq_some_iff.mp h
  have := List.length_pos_iff.mpr hlexed.ne_nil
  simp only [List.length_append]
  omega

/-- A token starts where the cursor stands or behind a gap, covers a byte at
least, and ends where the cursor goes on. -/
theorem next?_within (h : c.next? = some (t, c')) :
    c.offset ≤ t.start ∧ t.start < t.stop ∧ t.stop = c'.offset := by
  obtain ⟨offset, hblank, hlexed⟩ := next?_eq_some_iff.mp h
  have hpos := List.length_pos_iff.mpr hlexed.ne_nil
  have hbytes := Text.length_le_byteLength
  exact ⟨Nat.le_add_right _ _, Nat.lt_add_of_pos_right (hpos.trans_le (hbytes _)), rfl⟩

/-! ### All tokens

The list of all tokens, as a recursion along the text, and what follows for
each of them by induction. -/

/-- What was read before stands before what is collected, and a bound that
is large enough does not count. Induction on the bound, for every cursor and
whatever was read: in the step both change. -/
theorem collect_eq (bound : Nat) :
    ∀ (c : Cursor) (read : List Token), c.rest.length ≤ bound →
      collect bound c read = read.reverse ++ c.tokens := by
  induction bound using Nat.strongRecOn with
  | _ bound ih =>
      intro c read hbound
      rw [tokens]
      cases hnext : c.next? with
      | none => cases bound <;> cases hlength : c.rest.length <;> simp [collect, hnext]
      | some p =>
          obtain ⟨t, c'⟩ := p
          -- Both bounds go down by one, and both stay above the length of
          -- what is left.
          have hlt := next?_length_lt hnext
          obtain ⟨n, hn⟩ : ∃ n, c.rest.length = n + 1 := ⟨c.rest.length - 1, by omega⟩
          obtain ⟨m, rfl⟩ : ∃ m, bound = m + 1 := ⟨bound - 1, by omega⟩
          rw [hn, collect, collect, hnext]
          show collect m c' (t :: read) = read.reverse ++ collect n c' [t]
          rw [ih m (by omega) c' _ (by omega), ih n (by omega) c' _ (by omega)]
          simp

/-- There are no tokens where there is no next one. The first equation of
`Cursor.tokens`. -/
theorem tokens_eq_nil (h : c.next? = none) : c.tokens = [] := by
  rw [tokens]
  cases c.rest.length <;> simp [collect, h]

/-- The next token is the first of all, and the others are those of the
cursor behind it. The second equation of `Cursor.tokens`. -/
theorem tokens_eq_cons (h : c.next? = some (t, c')) : c.tokens = t :: c'.tokens := by
  have hlt := next?_length_lt h
  obtain ⟨n, hn⟩ : ∃ n, c.rest.length = n + 1 := ⟨c.rest.length - 1, by omega⟩
  rw [tokens, hn, collect, h]
  show collect n c' [t] = _
  rw [collect_eq n c' _ (by omega)]
  rfl

/-- What is read next is the first of all tokens, and the cursor behind it
has the others. Where there is none, it is the mark, and the cursor stays at
the end. So a reader may ask as often as it likes, and gets the mark from
the end of the text on. -/
theorem next_eq (c : Cursor) :
    c.next.1 = c.tokens.headD (Token.endOfInput c.stop) ∧ c.next.2.tokens = c.tokens.tail ∧
      c.next.2.stop = c.stop := by
  cases hnext : c.next? with
  | some p =>
      rw [next, hnext, tokens_eq_cons hnext]
      exact ⟨rfl, rfl, next?_stop hnext⟩
  | none =>
      have hskip : c.skipGap = ⟨[], c.stop⟩ := by
        have hgap := @skipGap_append c.rest [] (next?_eq_none_iff.mp hnext)
          (fun x hx => by cases hx) c.offset
        rwa [List.append_nil] at hgap
      rw [next, hnext, tokens_eq_nil hnext, hskip]
      exact ⟨rfl, rfl, rfl⟩

/-- What the tokens of a text carry that begins with a gap and a lexeme. The
offset does not count, so the hypothesis on the rest is for every offset. -/
theorem contents_append {gap lexeme rest : List Char} {content : Content}
    (hblank : ∀ c ∈ gap, isGap c = true) (hlexed : Lexeme.Lexed rest lexeme content)
    {contents : List Content}
    (hrest : ∀ offset, (Cursor.mk rest offset).tokens.map Token.content = contents)
    (offset : Nat) :
    (Cursor.mk (gap ++ (lexeme ++ rest)) offset).tokens.map Token.content
      = content :: contents := by
  rw [tokens_eq_cons (next?_append hblank hlexed offset), List.map_cons, hrest]

/-- A text without characters has no tokens. The mark at the end is not
counted among them here. -/
theorem contents_nil (offset : Nat) : (Cursor.mk [] offset).tokens.map Token.content = [] := rfl

/-- Induction along the tokens of a text: a cursor without a next token, and
a cursor that reads a token with the statement known for the cursor behind
it. -/
theorem read_induction {motive : Cursor → List Token → Prop}
    (nil : ∀ c : Cursor, c.next? = none → motive c [])
    (cons : ∀ (c c' : Cursor) (t : Token), c.next? = some (t, c') → motive c' c'.tokens →
      motive c (t :: c'.tokens)) (c : Cursor) : motive c c.tokens := by
  induction hlength : c.rest.length using Nat.strongRecOn generalizing c with
  | _ n ih =>
      cases hnext : c.next? with
      | none =>
          rw [tokens_eq_nil hnext]
          exact nil c hnext
      | some p =>
          rw [tokens_eq_cons hnext]
          exact cons c p.2 p.1 hnext (ih _ (hlength ▸ next?_length_lt hnext) p.2 rfl)

/-- A token lies between the place of the cursor and the end of the text.
Induction along the tokens: the end is the same for both cursors, the place
moves on. -/
theorem tokens_within (c : Cursor) :
    ∀ t ∈ c.tokens, c.offset ≤ t.start ∧ t.start < t.stop ∧ t.stop ≤ c.stop := by
  refine read_induction
    (motive := fun c ts => ∀ t ∈ ts, c.offset ≤ t.start ∧ t.start < t.stop ∧ t.stop ≤ c.stop)
    (fun c _ t ht => by cases ht) (fun c c' u hnext ih t ht => ?_) c
  -- The text ends at the same byte for both cursors, and what comes next
  -- starts behind `u`.
  have hu := next?_within hnext
  have hend : c'.offset ≤ c'.stop := Nat.le_add_right _ _
  rw [next?_stop hnext] at ih hend
  rcases List.mem_cons.mp ht with rfl | ht
  · omega
  · have := ih t ht
    omega

/-- A token ends before the next one starts. Only the first token has to be
compared with the others, and all of them lie behind the place of the next
cursor. -/
theorem tokens_ordered (c : Cursor) : c.tokens.Pairwise (fun t u => t.stop ≤ u.start) := by
  refine read_induction (motive := fun _ ts => ts.Pairwise (fun t u => t.stop ≤ u.start))
    (fun c _ => .nil) (fun c c' t hnext ih => List.pairwise_cons.mpr ⟨fun u hu => ?_, ih⟩) c
  rw [(next?_within hnext).2.2]
  exact (c'.tokens_within u hu).1

/-- A token starts before the next one does, since none is empty. -/
theorem tokens_start_lt (c : Cursor) : c.tokens.Pairwise (fun t u => t.start < u.start) := by
  refine List.Pairwise.imp_of_mem ?_ c.tokens_ordered
  intro t u ht _ hle
  exact Nat.lt_of_lt_of_le (c.tokens_within t ht).2.1 hle

/-- Every token is a lexeme, with something behind it. For what a token
carries the rest does not matter. -/
theorem lexed_of_mem {c : Cursor} :
    ∀ t ∈ c.tokens, ∃ lexeme rest, Lexeme.Lexed rest lexeme t.content := by
  refine read_induction
    (motive := fun _ ts => ∀ t ∈ ts, ∃ lexeme rest, Lexeme.Lexed rest lexeme t.content)
    (fun c _ t ht => by cases ht) (fun c c' u hnext ih t ht => ?_) c
  rcases List.mem_cons.mp ht with rfl | ht
  · obtain ⟨offset, hblank, hlexed⟩ := next?_eq_some_iff.mp hnext
    exact ⟨_, _, hlexed⟩
  · exact ih t ht

/-- No token has the kind of the mark behind the last one. -/
theorem kind_ne_endOfInput (c : Cursor) : ∀ t ∈ c.tokens, t.kind ≠ .endOfInput := by
  intro t ht
  obtain ⟨lexeme, rest, hlexed⟩ := lexed_of_mem t ht
  exact hlexed.kind_ne_endOfInput

end Cursor

/-! ### A whole text

With the mark behind the tokens. -/

/-- The tokens of a text and the mark start one after the other, also where
the text ends with a gap. -/
theorem tokenize_ordered (text : String) :
    (tokenize text).Pairwise (fun t u => t.start < u.start) := by
  rw [tokenize, List.pairwise_append]
  refine ⟨(Cursor.ofText text).tokens_start_lt, List.pairwise_singleton _ _, ?_⟩
  intro t ht u hu
  obtain rfl := List.mem_singleton.mp hu
  -- The mark stands behind the last byte, where no token starts.
  have hlast : (Cursor.ofText text).stop = byteLength text.toList := Nat.zero_add _
  obtain ⟨-, hbytes, hstop⟩ := (Cursor.ofText text).tokens_within t ht
  rw [hlast] at hstop
  exact Nat.lt_of_lt_of_le hbytes hstop

/-- A place in a text is the start of one token at most. Used to tell from
the place of a complaint which token it is about. -/
theorem eq_of_start_eq {text : String} {i j : Nat} {t u : Token}
    (ht : (tokenize text)[i]? = some t) (hu : (tokenize text)[j]? = some u)
    (h : t.start = u.start) : i = j := by
  obtain ⟨hi, rfl⟩ := List.getElem?_eq_some_iff.mp ht
  obtain ⟨hj, rfl⟩ := List.getElem?_eq_some_iff.mp hu
  have hordered := List.pairwise_iff_getElem.mp (tokenize_ordered text)
  rcases Nat.lt_trichotomy i j with hlt | heq | hlt
  · have := hordered i j hi hj hlt
    omega
  · exact heq
  · have := hordered j i hj hi hlt
    omega

end DeskCalculator
