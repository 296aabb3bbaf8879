import DeskCalculator.Proofs.Double.Numeral

/-!
# `DeskCalculator.Proofs.Lexeme.Munch`: the longest beginning that spells a token

`Lexeme.rules` measures texts, and `Lexeme.Spells` says what is there to be
measured. The two agree rule by rule: what a rule measures is spelled
(`exists_prefix_of_rule`), and what is spelled is measured by some rule
(`exists_rule_of_spells`). From there on no proof looks at a rule, so that a
rule that changes is a matter for those two lemmas:

* `munch_cases`: `munch` takes the longest beginning of a text that spells a
  token, with the kind of that token; or one unknown character, if no
  beginning does.
* `munch_eq_of_spells`: nothing else does what the first case says, since no
  text is spelled in two kinds (`Spells.kind_unique`). The order of the
  rules, which decides between rules that measure the same, decides nothing
  therefore.
* `Bounds.append`: what follows a text does not count if it begins with a
  character that goes on no spelling. With it a text can be put together
  from lexemes and gaps, and still be read as them (`Proofs.Tokens.Layout`,
  `Proofs.Tokens.Join`).

Nothing is assumed about the text. That two spellings of one kind may be
beginnings of each other (`1`, `1.5`) is why "longest" has to be said at
all.
-/

set_option autoImplicit false

namespace DeskCalculator.Lexeme

/-! ### Characters of spellings

Which characters a spelling of a kind begins and goes on with. This is what
tells the kinds apart, and where a spelling has to end. -/

/-- A letter is no digit. The two ranges of codes do not meet, and the
underscore lies between them. -/
theorem isDigit_of_isLetter {c : Char} (h : isLetter c = true) : isDigit c = false := by
  simp only [isLetter, isDigit, Bool.or_eq_true, Bool.and_eq_true, decide_eq_true_eq,
    Bool.and_eq_false_iff, decide_eq_false_iff_not, Char.le_def, UInt32.le_iff_toNat_le] at h ⊢
  rcases h with (h | h) | rfl
  · simp at h ⊢; omega
  · simp at h ⊢; omega
  · decide

/-- The fixed spellings are made of characters that no other rule knows. So
a text that begins with one of them is spelled by its entry of the table or
not at all. -/
theorem spellings_chars :
    ∀ entry ∈ Kind.spellings, entry.1.toList ≠ [] ∧
      ∀ c ∈ entry.1.toList, isWordChar c = false ∧ c ≠ '.' := by
  simp [Kind.spellings, isWordChar, isDigit, isLetter]

/-- Only the second half of a shift goes on a fixed spelling. Together with
the characters of words and numerals these are all that a spelling can go on
with (`Spells.tail_chars`). -/
theorem spellings_tail :
    ∀ entry ∈ Kind.spellings, ∀ c ∈ entry.1.toList.tail, c = '<' ∨ c = '>' := by
  simp [Kind.spellings]

/-- The other fixed spellings are single characters. Parentheses and the
sign `=` are among them, and stay tokens of their own whatever is written
behind them. -/
theorem spellings_head :
    ∀ entry ∈ Kind.spellings, ∀ c ∈ entry.1.toList.head?,
      c ≠ '<' → c ≠ '>' → entry.1.toList = [c] := by
  simp [Kind.spellings]

/-- No two kinds have a fixed spelling in common. Decided over the table,
entry against entry. -/
theorem spellings_unique :
    ∀ entry ∈ Kind.spellings, ∀ entry' ∈ Kind.spellings,
      entry.1 = entry'.1 → entry.2 = entry'.2 := by
  decide

/-- How a text begins, by the kind that it spells. The three ways exclude
each other by the first character, which is what `Spells.kind_unique` rests
on. -/
inductive Begins (text : List Char) (first : Char) : Kind → Prop where
  | numeral : isDigit first = true ∨ first = '.' → Begins text first .number
  | word : isLetter first = true → Begins text first .identifier
  | fixed {kind : Kind} : (String.ofList text, kind) ∈ Kind.spellings →
      isWordChar first = false → first ≠ '.' → Begins text first kind

/-- A spelling is not empty and begins as its kind does. Most that later
proofs need to know of a spelling is its first character, so they go through
this lemma and not through the rules. -/
theorem Spells.begins {kind : Kind} {text : List Char} (h : Spells kind text) :
    ∃ first rest, text = first :: rest ∧ Begins text first kind := by
  cases h with
  | integer digits =>
      obtain ⟨first, rest, rfl⟩ := List.exists_cons_of_ne_nil digits.1
      exact ⟨first, rest, rfl, .numeral (.inl (digits.2 first List.mem_cons_self))⟩
  | decimal whole fraction =>
      obtain ⟨first, rest, rfl⟩ := List.exists_cons_of_ne_nil whole.1
      exact ⟨first, _, rfl, .numeral (.inl (whole.2 first List.mem_cons_self))⟩
  | fraction digits => exact ⟨'.', _, rfl, .numeral (.inr rfl)⟩
  | nan => exact ⟨'.', _, rfl, .numeral (.inr rfl)⟩
  | infinity => exact ⟨'.', _, rfl, .numeral (.inr rfl)⟩
  | identifier first rest => exact ⟨_, _, rfl, .word first⟩
  | @fixed spelling kind entry =>
      -- The table is consulted once, for all fixed spellings.
      obtain ⟨hne, hchars⟩ := spellings_chars _ entry
      obtain ⟨first, rest, hlist⟩ := List.exists_cons_of_ne_nil hne
      obtain ⟨hword, hpoint⟩ := hchars first (hlist ▸ List.mem_cons_self)
      exact ⟨first, rest, hlist, .fixed (by rwa [String.ofList_toList]) hword hpoint⟩

/-- The empty text spells nothing, so a token covers a character at least.
This is why reading the tokens of a text comes to an end. -/
theorem Spells.ne_nil {kind : Kind} {text : List Char} (h : Spells kind text) : text ≠ [] := by
  obtain ⟨first, rest, rfl, -⟩ := h.begins
  exact List.cons_ne_nil _ _

/-- What a spelling goes on with, behind its first character. Whatever is
not in this list separates (`Separates`). -/
theorem Spells.tail_chars {kind : Kind} {text : List Char} (h : Spells kind text) :
    ∀ c ∈ text.tail, isWordChar c = true ∨ c = '.' ∨ c = '<' ∨ c = '>' := by
  have hdigits : ∀ {digits : List Char}, IsDigits digits → ∀ c ∈ digits, isWordChar c = true :=
    fun hdigits c hc => by rw [isWordChar, hdigits.2 c hc, Bool.or_true]
  intro c hc
  cases h with
  | integer digits => exact .inl (hdigits digits c (List.mem_of_mem_tail hc))
  | decimal whole fraction =>
      rcases List.mem_append.mp (List.mem_of_mem_tail hc) with hc | hc
      · exact .inl (hdigits whole c hc)
      · rcases List.mem_cons.mp hc with rfl | hc
        · exact .inr (.inl rfl)
        · exact .inl (hdigits fraction c hc)
  | fraction digits => exact .inl (hdigits digits c hc)
  | nan => exact .inl (by revert c; simp [Double.nanNumeral, isWordChar, isLetter])
  | infinity => exact .inl (by revert c; simp [Double.infinityNumeral, isWordChar, isLetter])
  | identifier first rest => exact .inl (rest c hc)
  | fixed entry => exact .inr (.inr (spellings_tail _ entry c hc))

/-- A spelling that begins like none of the longer ones is a single
character. The hypotheses name all first characters of spellings that can be
longer than one: those of words, numerals and shifts. -/
theorem Spells.eq_singleton {kind : Kind} {first : Char} {rest : List Char}
    (h : Spells kind (first :: rest)) (hword : isWordChar first = false) (hpoint : first ≠ '.')
    (hless : first ≠ '<') (hgreater : first ≠ '>') : rest = [] := by
  rw [isWordChar, Bool.or_eq_false_iff] at hword
  obtain ⟨first', rest', htext, hbegins⟩ := h.begins
  obtain ⟨rfl, rfl⟩ := List.cons.inj htext
  -- The hypotheses leave only the fixed spellings.
  cases hbegins with
  | numeral hfirst =>
      rcases hfirst with hdigit | hpoint'
      · rw [hword.2] at hdigit; cases hdigit
      · exact absurd hpoint' hpoint
  | word hfirst => rw [hword.1] at hfirst; cases hfirst
  | fixed entry =>
      have := spellings_head _ entry first (by rw [String.toList_ofList]; rfl) hless hgreater
      rw [String.toList_ofList] at this
      exact (List.cons.inj this).2

/-- No text is spelled in two kinds. For numerals and words the first
character tells, for fixed spellings the table. -/
theorem Spells.kind_unique {kind kind' : Kind} {text : List Char} (h : Spells kind text)
    (h' : Spells kind' text) : kind = kind' := by
  obtain ⟨first, rest, htext, hbegins⟩ := h.begins
  obtain ⟨first', rest', htext', hbegins'⟩ := h'.begins
  obtain ⟨rfl, -⟩ := List.cons.inj (htext.symm.trans htext')
  -- The first character belongs to one of the three ways to begin only.
  have hletter : isLetter first = true → isDigit first = false ∧ first ≠ '.' := fun hl =>
    ⟨isDigit_of_isLetter hl, fun hpoint => by rw [hpoint] at hl; cases hl⟩
  cases hbegins with
  | numeral hfirst => cases hbegins' <;> grind [isWordChar]
  | word hfirst => cases hbegins' <;> grind [isWordChar]
  | fixed entry hword hpoint =>
      cases hbegins' with
      | numeral hfirst => grind [isWordChar]
      | word hfirst => grind [isWordChar]
      | fixed entry' => exact spellings_unique _ entry _ entry' rfl

/-! ### What the rules measure

Each rule against the spellings of its kind, in both directions. -/

/-- A run goes over what satisfies its condition, and on from there. With
the lemma on its end, the length of a run is known in front of any text. -/
theorem runLength_append {p : Char → Bool} {a : List Char} (h : ∀ c ∈ a, p c = true)
    (b : List Char) : runLength p (a ++ b) = a.length + runLength p b := by
  rw [runLength, List.takeWhile_append_of_pos h, List.length_append, runLength]

/-- A run ends where its condition does. Used at the point of a decimal. -/
theorem runLength_cons_of_neg {p : Char → Bool} {c : Char} (h : p c = false) (b : List Char) :
    runLength p (c :: b) = 0 := by
  rw [runLength, List.takeWhile_cons_of_neg (by simp [h]), List.length_nil]

/-- A run of digits is a beginning of the text. If the measure is positive,
there is a digit at least, which `IsDigits` asks for. -/
theorem exists_digits {text : List Char} (h : 0 < runLength isDigit text) :
    ∃ digits, IsDigits digits ∧ digits <+: text ∧ digits.length = runLength isDigit text :=
  ⟨text.takeWhile isDigit, ⟨List.length_pos_iff.mp h, fun _ hc => List.mem_takeWhile_imp hc⟩,
    List.takeWhile_prefix _, rfl⟩

/-- A fraction is a beginning of the text, if it has a length there: a point
alone measures nothing. -/
theorem exists_fraction {text : List Char} (h : 0 < fractionLength text) :
    ∃ digits, IsDigits digits ∧ '.' :: digits <+: text ∧
      digits.length + 1 = fractionLength text := by
  unfold fractionLength at h ⊢
  split at h
  · next rest =>
      simp only at h ⊢
      split at h
      · exact absurd h (Nat.lt_irrefl 0)
      · next hplaces =>
          obtain ⟨digits, hdigits, hrest, hlength⟩ := exists_digits (Nat.pos_of_ne_zero hplaces)
          refine ⟨digits, hdigits, List.cons_prefix_cons.mpr ⟨rfl, hrest⟩, ?_⟩
          rw [hlength, if_neg hplaces]
  · exact absurd h (Nat.lt_irrefl 0)

/-- A word is a beginning of the text if it has a length there. Covers the
numerals for NaN and infinity as well as all fixed spellings. -/
theorem prefix_of_wordLength {word text : List Char} (h : 0 < wordLength word text) :
    word <+: text ∧ word.length = wordLength word text := by
  unfold wordLength at h ⊢
  split at h
  · next hword => exact ⟨List.isPrefixOf_iff_prefix.mp hword, (if_pos hword).symm⟩
  · exact absurd h (Nat.lt_irrefl 0)

/-- What a rule measures spells a token of its kind. One case for each rule
that is written out, and one for all the rules that come from the table of
fixed spellings. -/
theorem exists_prefix_of_rule {rule : Rule} (hrule : rule ∈ rules) {text : List Char}
    (h : 0 < rule.length text) :
    ∃ lexeme, lexeme <+: text ∧ lexeme.length = rule.length text ∧ Spells rule.kind lexeme := by
  simp only [rules, List.mem_append, List.mem_cons, List.not_mem_nil, or_false,
    List.mem_map] at hrule
  rcases hrule with (rfl | rfl | rfl | rfl | rfl | rfl) | ⟨entry, hentry, rfl⟩
  · obtain ⟨digits, hdigits, hstarts, hlength⟩ := exists_digits h
    exact ⟨digits, hstarts, hlength, .integer hdigits⟩
  · -- Digits, a point and digits: the second part is looked for behind the
    -- first one.
    simp only [decimalLength] at h ⊢
    split at h
    · exact absurd h (Nat.lt_irrefl 0)
    · next hparts =>
        obtain ⟨hwhole, hfraction⟩ := not_or.mp hparts
        obtain ⟨whole, hdigits, ⟨rest, rfl⟩, hlength⟩ := exists_digits (Nat.pos_of_ne_zero hwhole)
        rw [← hlength, List.drop_left] at hfraction
        obtain ⟨fraction, hdigits', hstarts, hlength'⟩ :=
          exists_fraction (Nat.pos_of_ne_zero hfraction)
        refine ⟨whole ++ '.' :: fraction, (List.prefix_append_right_inj whole).mpr hstarts, ?_,
          .decimal hdigits hdigits'⟩
        rw [if_neg hparts, ← hlength, List.drop_left, ← hlength', List.length_append,
          List.length_cons]
  · obtain ⟨digits, hdigits, hstarts, hlength⟩ := exists_fraction h
    exact ⟨'.' :: digits, hstarts, hlength, .fraction hdigits⟩
  · obtain ⟨hstarts, hlength⟩ := prefix_of_wordLength h
    exact ⟨_, hstarts, hlength, .nan⟩
  · obtain ⟨hstarts, hlength⟩ := prefix_of_wordLength h
    exact ⟨_, hstarts, hlength, .infinity⟩
  · -- An identifier: its first character is a letter, and the run goes over
    -- the rest.
    cases text with
    | nil => exact absurd h (Nat.lt_irrefl 0)
    | cons first rest =>
        simp only [identifierLength] at h ⊢
        split at h
        · next hfirst =>
            refine ⟨first :: rest.takeWhile isWordChar,
              List.cons_prefix_cons.mpr ⟨rfl, List.takeWhile_prefix _⟩, ?_,
              .identifier hfirst fun _ hc => List.mem_takeWhile_imp hc⟩
            rw [if_pos hfirst, List.length_cons, runLength]
        · exact absurd h (Nat.lt_irrefl 0)
  · obtain ⟨hstarts, hlength⟩ := prefix_of_wordLength h
    exact ⟨_, hstarts, hlength, .fixed hentry⟩

/-- A word that begins a text has its length there, whatever follows. A
longer lexeme may begin with it, but that is the matter of other rules. -/
theorem wordLength_append (word rest : List Char) : wordLength word (word ++ rest) = word.length :=
  if_pos (List.isPrefixOf_iff_prefix.mpr (List.prefix_append word rest))

/-- A fraction that begins a text is measured whole, and further if digits
follow. -/
theorem le_fractionLength {digits : List Char} (h : IsDigits digits) (rest : List Char) :
    digits.length + 1 ≤ fractionLength ('.' :: (digits ++ rest)) := by
  have hpos := List.length_pos_iff.mpr h.1
  simp only [fractionLength, runLength_append h.2]
  rw [if_neg (by omega)]
  omega

/-- What spells a token is measured by some rule, with what follows it. Only
`≤` holds: with more digits or letters behind it the rule goes on. One case
for each way to spell a token. -/
theorem exists_rule_of_spells {kind : Kind} {lexeme : List Char} (h : Spells kind lexeme)
    (rest : List Char) : ∃ rule ∈ rules, lexeme.length ≤ rule.length (lexeme ++ rest) := by
  cases h with
  | integer digits =>
      refine ⟨⟨.number, integerLength⟩, by simp [rules], ?_⟩
      simp only [integerLength, runLength_append digits.2]
      exact Nat.le_add_right _ _
  | @decimal whole fraction hwhole hfraction =>
      refine ⟨⟨.number, decimalLength⟩, by simp [rules], ?_⟩
      have hpos := List.length_pos_iff.mpr hwhole.1
      have hle := le_fractionLength hfraction rest
      -- The run of the whole part stops at the point, so the fraction is
      -- measured where it stands.
      simp only [decimalLength, List.append_assoc, List.cons_append, runLength_append hwhole.2,
        runLength_cons_of_neg (show isDigit '.' = false from rfl), Nat.add_zero, List.drop_left,
        List.length_append, List.length_cons]
      rw [if_neg (by omega)]
      omega
  | fraction digits =>
      exact ⟨⟨.number, fractionLength⟩, by simp [rules], le_fractionLength digits rest⟩
  | nan =>
      exact ⟨⟨.number, wordLength Double.nanNumeral⟩, by simp [rules],
        (wordLength_append _ rest).ge⟩
  | infinity =>
      exact ⟨⟨.number, wordLength Double.infinityNumeral⟩, by simp [rules],
        (wordLength_append _ rest).ge⟩
  | @identifier first word hfirst hword =>
      refine ⟨⟨.identifier, identifierLength⟩, by simp [rules], ?_⟩
      simp only [List.cons_append, identifierLength, hfirst, if_true, runLength_append hword,
        List.length_cons]
      omega
  | @fixed spelling kind entry =>
      exact ⟨⟨kind, wordLength spelling.toList⟩,
        List.mem_append_right _ (List.mem_map.mpr ⟨_, entry, rfl⟩), (wordLength_append _ rest).ge⟩

/-! ### The rule that goes furthest

A fold over the table takes the longest measure, and the first rule of those
with the same. -/

/-- The better of the best measure so far and that of a rule. A rule that
goes as far as an earlier one does not replace it. -/
def better (text : List Char) (best : Kind × Nat) (rule : Rule) : Kind × Nat :=
  if best.2 < rule.length text then (rule.kind, rule.length text) else best

/-- The best measure is that of a rule or the one to begin with, and no rule
goes further. Induction on the rules that are left to try, for every measure
to begin with. -/
theorem foldl_better (text : List Char) (rs : List Rule) :
    ∀ best : Kind × Nat,
      best.2 ≤ (rs.foldl (better text) best).2 ∧
        (∀ rule ∈ rs, rule.length text ≤ (rs.foldl (better text) best).2) ∧
        (rs.foldl (better text) best = best ∨
          ∃ rule ∈ rs, rs.foldl (better text) best = (rule.kind, rule.length text)) := by
  induction rs with
  | nil => exact fun best => ⟨Nat.le_refl _, (fun _ h => by cases h), .inl rfl⟩
  | cons rule rs ih =>
      intro best
      obtain ⟨hbest, hrules, hfound⟩ := ih (better text best rule)
      -- One rule: neither the best so far nor the rule itself goes further
      -- than the better of the two.
      have hstep : best.2 ≤ (better text best rule).2 ∧
          rule.length text ≤ (better text best rule).2 := by
        rw [better]
        split <;> constructor <;> omega
      have hrule : better text best rule = best ∨
          better text best rule = (rule.kind, rule.length text) := by
        rw [better]
        split
        · exact .inr rfl
        · exact .inl rfl
      rw [List.foldl_cons]
      refine ⟨hstep.1.trans hbest, ?_, ?_⟩
      · intro r hr
        rcases List.mem_cons.mp hr with rfl | hr
        · exact hstep.2.trans hbest
        · exact hrules r hr
      · rcases hfound with hfound | ⟨r, hr, hfound⟩
        · rw [hfound]
          exact hrule.imp id fun h => ⟨rule, List.mem_cons_self, h⟩
        · exact .inr ⟨r, List.mem_cons_of_mem _ hr, hfound⟩

/-! ### The longest beginning

The two sections before put together: the longest measure is the longest
spelling. -/

/-- No beginning of the text that spells a token is longer than `n`. With `n
= 0` no beginning spells one, since spellings are not empty. -/
def Bounds (text : List Char) (n : Nat) : Prop :=
  ∀ kind lexeme, lexeme <+: text → Spells kind lexeme → lexeme.length ≤ n

/-- What `munch` does with a text. The cases are stated with `Spells` alone,
so that a proof by cases on them never meets a rule or a measure. -/
inductive MunchCase (text : List Char) : Prop where
  /-- The longest beginning that spells a token. -/
  | spelled (kind : Kind) (lexeme rest : List Char) (split : text = lexeme ++ rest)
      (spells : Spells kind lexeme) (longest : Bounds text lexeme.length)
      (result : munch text = (kind, lexeme.length))
  /-- One character, where no beginning does. -/
  | unknown (unspelled : Bounds text 0) (result : munch text = (.unknown, 1))

/-- What `munch` does is one of the cases. The longest measure bounds all
spellings, because some rule measures each of them; and where it is not zero
it comes from a rule, whose measure is spelled. -/
theorem munch_cases (text : List Char) : MunchCase text := by
  obtain ⟨-, hrules, hfound⟩ := foldl_better text rules (.unknown, 0)
  have hlongest : Bounds text (furthest text).2 := by
    rintro kind lexeme ⟨rest, rfl⟩ hspells
    obtain ⟨rule, hrule, hle⟩ := exists_rule_of_spells hspells rest
    exact hle.trans (hrules rule hrule)
  -- Zero is the measure to begin with: no rule has gone anywhere.
  by_cases hzero : (furthest text).2 = 0
  · exact .unknown (hzero ▸ hlongest) (if_pos hzero)
  · rcases hfound with hnone | ⟨rule, hrule, hbest⟩
    · exact absurd (congrArg Prod.snd hnone) hzero
    · have hbest : furthest text = (rule.kind, rule.length text) := hbest
      rw [hbest] at hzero hlongest
      obtain ⟨lexeme, ⟨rest, hsplit⟩, hlength, hspells⟩ :=
        exists_prefix_of_rule hrule (Nat.pos_of_ne_zero hzero)
      refine .spelled rule.kind lexeme rest hsplit.symm hspells (hlength ▸ hlongest) ?_
      rw [munch, hbest, hlength]
      exact if_neg hzero

/-- The longest beginning that spells a token is the one that is munched.
The converse of `munch_cases`: a text that is known to begin with a lexeme
is read as it. -/
theorem munch_eq_of_spells {kind : Kind} {lexeme rest : List Char} (h : Spells kind lexeme)
    (hlongest : Bounds (lexeme ++ rest) lexeme.length) :
    munch (lexeme ++ rest) = (kind, lexeme.length) := by
  cases munch_cases (lexeme ++ rest) with
  | unknown unspelled result =>
      exact absurd (unspelled kind lexeme (List.prefix_append _ _) h)
        (Nat.not_le.mpr (List.length_pos_iff.mpr h.ne_nil))
  | spelled kind' lexeme' rest' split spells longest result =>
      -- Both are the longest, hence of one length, hence the same.
      have hlength : lexeme.length = lexeme'.length := Nat.le_antisymm
        (longest kind lexeme (List.prefix_append _ _) h)
        (hlongest kind' lexeme' ⟨rest', split.symm⟩ spells)
      obtain ⟨rfl, -⟩ := List.append_inj split hlength
      rw [result, h.kind_unique spells]

/-- A character that goes on no spelling: it can only begin one. Gaps and
line ends separate, and so do the marks that no longer spelling has in
it. -/
def Separates (c : Char) : Prop := ∀ kind lexeme, Spells kind lexeme → c ∉ lexeme.tail

/-- Where a separating character follows a text, no spelling reaches beyond
the end of the text. The text must not be empty: in front of a separating
character that begins a spelling there would be nothing to go on. -/
theorem Separates.starts {c : Char} (hc : Separates c) {text rest : List Char} (hne : text ≠ [])
    {kind : Kind} {lexeme : List Char} (hspells : Spells kind lexeme)
    (h : lexeme <+: text ++ c :: rest) : lexeme <+: text := by
  obtain ⟨after, hsplit⟩ := h
  rcases List.append_eq_append_iff.mp hsplit with ⟨left, htext, -⟩ | ⟨beyond, hlexeme, hrest⟩
  · exact ⟨left, htext.symm⟩
  · cases beyond with
    | nil => exact ⟨[], by rw [hlexeme, List.append_nil, List.append_nil]⟩
    | cons b beyond =>
        -- Otherwise it would go on with the character.
        obtain ⟨rfl, -⟩ := List.cons.inj hrest
        obtain ⟨first, before, rfl⟩ := List.exists_cons_of_ne_nil hne
        refine absurd ?_ (hc kind lexeme hspells)
        rw [hlexeme]
        simp

/-- What follows a text does not count if it begins with a separating
character. -/
theorem Bounds.append {text : List Char} {n : Nat} (h : Bounds text n) (hne : text ≠ []) {c : Char}
    (hc : Separates c) (rest : List Char) : Bounds (text ++ c :: rest) n :=
  fun kind lexeme hstarts hspells => h kind lexeme (hc.starts hne hspells hstarts) hspells

/-! ### What a lexeme carries

The payload has the kind of the spelling, so the fallback for a numeral that
spells no number is not taken. -/

/-- A spelling of a number carries that number. The numeral is always read,
so the case of a numeral that cannot be read does not occur in `content`. -/
theorem content_of_spells_number {lexeme : List Char} (h : Spells .number lexeme) :
    content .number lexeme = .number (.double (Double.ofNumeral lexeme)) := by
  simp only [content, Double.ofNumeral?_of_spells h]

/-- What a spelling carries has its kind. Numbers are the case that could go
wrong, since `content` falls back to an unknown token where no number is
read. -/
theorem content_kind_of_spells {kind : Kind} {lexeme : List Char} (h : Spells kind lexeme) :
    (content kind lexeme).kind = kind := by
  cases kind with
  | number => rw [content_of_spells_number h]; rfl
  | _ => rfl

end DeskCalculator.Lexeme
