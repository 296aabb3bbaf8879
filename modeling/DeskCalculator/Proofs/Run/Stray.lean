import DeskCalculator.Proofs.Run.Policies
import DeskCalculator.Proofs.Run.Shape

/-!
# `DeskCalculator.Proofs.Run.Stray`: stray characters in a sentence

A character that starts no token is skipped by a run that recovers, but not
without a trace: where an operand is missing, a number stands in its place,
and in parentheses behind an operand it closes the group. So such characters
in a sentence can leave a token over that the sentence has a use for
(`evaluate_stray`). They do not if each of them is `Harmless`: none stands
in front of a name to assign, and each stands outside all parentheses or
where an operand is missing.

* `Turn.Covers`: how what the next token meets in a run over all tokens
  compares with what it meets in a run over the sentence alone. The first
  run can be ahead, with a number where the second one has no operand yet.
* `Shape.Paired.next`, `Shape.Paired.stray`: a token of the sentence and a
  stray character keep the two shapes a pair. `run_paired`: induction over
  the tokens. `evaluate_harmless`: whole texts.

`Harmless` is a condition on the tokens that can be decided without a run:
it counts parentheses and looks at the token before and the two tokens
behind. That it is enough takes the two runs, and here they are compared by
their shapes (`Proofs.Run.Shape`), as their values have nothing in common.
The second run never happens. Only its shapes are used, and these exist
because the tokens without the stray characters are a sentence.

Outside all parentheses a stray character behind an operand is reported at
once, and that is the complaint that `evaluate_harmless` allows.
-/

set_option autoImplicit false

namespace DeskCalculator

/-- The tokens without the characters that start none: what the text would
be without them. -/
def solid (tokens : List Token) : List Token := tokens.filter fun t => t.kind ≠ .unknown

/-- A character that starts no token is left out, so the shape of the
sentence stays where it is. -/
theorem solid_cons_unknown {t : Token} (ht : t.kind = .unknown) (tokens : List Token) :
    solid (t :: tokens) = solid tokens :=
  List.filter_cons_of_neg (by simp [ht])

/-- All other tokens are kept. -/
theorem solid_cons {t : Token} (ht : t.kind ≠ .unknown) (tokens : List Token) :
    solid (t :: tokens) = t :: solid tokens :=
  List.filter_cons_of_pos (by simp [ht])

/-- The kinds behind which an operand is missing. A minus is one as a sign
and as an operator. -/
def Kind.announces : Kind → Bool
  | assign | caret | star | slash | plus | minus | semicolon | openParen => true
  | _ => false

/-- The tokens begin with some of these kinds. The list may be longer than
the tokens, and then they do not. -/
def BeginsWith (kinds : List Kind) (tokens : List Token) : Prop := kinds <+: tokens.map Token.kind

instance (kinds : List Kind) (tokens : List Token) : Decidable (BeginsWith kinds tokens) :=
  inferInstanceAs (Decidable (_ <+: _))

/-- A stray character between the tokens `before` and `after` takes the
place of no other token. It does not stand in front of a name to assign. It
stands outside all parentheses, or where an operand is missing.

The first condition keeps the number that is put there from becoming a
factor in front of the name, and the second one keeps the character from
closing a group. -/
def Harmless (before after : List Token) : Prop :=
  ¬BeginsWith [.identifier, .assign] after ∧
    (before.countP (·.kind = .openParen) = before.countP (·.kind = .closeParen) ∨
      before.getLast?.any (·.kind.announces) = true)

instance (before after : List Token) : Decidable (Harmless before after) :=
  inferInstanceAs (Decidable (_ ∧ _))

/-- Every stray character among the tokens is harmless. Stated with
positions, so that it is decidable; `split` is the form that the induction
uses. -/
def StraysHarmless (tokens : List Token) : Prop :=
  ∀ i, (hi : i < tokens.length) → tokens[i].kind = .unknown →
    Harmless (tokens.take i) (tokens.drop (i + 1))

instance (tokens : List Token) : Decidable (StraysHarmless tokens) :=
  inferInstanceAs (Decidable (∀ i, (hi : i < tokens.length) → _))

/-- Where the tokens are split at a stray character, it is harmless. -/
theorem StraysHarmless.split {before after : List Token} {t : Token}
    (h : StraysHarmless (before ++ t :: after)) (ht : t.kind = .unknown) :
    Harmless before after := by
  have hlength : before.length < (before ++ t :: after).length := by simp
  simpa [ht] using h before.length hlength

/-! ### What a token is to the shape

Of the tokens that can stand somewhere only two things matter below: whether
an operand is missing behind them, and what they do to the number of open
parentheses. -/

namespace Shape

section Step

variable {depth : Nat} {content : Content} {s c c' : Shape}

/-- What a token can be that leads from one shape to another. It is an
operand, or announces one, or closes a group. -/
inductive NextCase (depth : Nat) (content : Content) (c : Shape) : Prop where
  | operand (kind : content.kind.announces = false) (unclosing : content.kind ≠ .closeParen)
      (result : c.depth = depth)
  /-- A token that announces an operand. -/
  | announces (target sign : Bool) (unclosing : content.kind ≠ .closeParen)
      (result : c = ⟨depth + (if content.kind = .openParen then 1 else 0), .operand target sign⟩)
  | closeGroup (kind : content.kind = .closeParen) (result : depth = c.depth + 1)

/-- What a token behind an operand is, is one of the cases. By what it
carries. -/
theorem behind_cases (h : behind depth content = some c) : NextCase depth content c := by
  cases content with
  | number x =>
      obtain rfl := Option.some.inj h
      exact .operand rfl nofun rfl
  | identifier name =>
      obtain rfl := Option.some.inj h
      exact .operand rfl nofun rfl
  | bare kind =>
      cases kind with
      | closeParen =>
          cases depth with
          | zero => cases h
          | succ depth =>
              obtain rfl := Option.some.inj h
              exact .closeGroup rfl rfl
      | _ => first
        | contradiction
        | (obtain rfl := Option.some.inj h
           exact .announces _ _ (by decide) rfl)

/-- What a token is, is one of the cases. By the turn, and then by what it
carries. -/
theorem next_cases (h : s.next content = some c) : NextCase s.depth content c := by
  obtain ⟨depth, turn⟩ := s
  cases turn with
  | value => exact behind_cases h
  | name target sign =>
      by_cases hassign : content = .bare .assign
      · obtain rfl := hassign
        obtain rfl := Option.some.inj h
        exact .announces _ _ (by decide) rfl
      · rw [next_name hassign] at h
        exact behind_cases h
  | operand target sign =>
      cases content with
      | number x =>
          obtain rfl := Option.some.inj h
          exact .operand rfl nofun rfl
      | identifier name =>
          obtain rfl := Option.some.inj h
          exact .operand rfl nofun rfl
      | bare kind =>
          cases kind with
          | minus =>
              cases sign with
              | false => cases h
              | true =>
                  obtain rfl := Option.some.inj h
                  exact .announces _ _ (by decide) rfl
          | openParen =>
              obtain rfl := Option.some.inj h
              exact .announces _ _ (by decide) rfl
          | _ => cases h

/-- Behind a token that announces an operand, one is missing. So a stray
character there is met as a missing operand. -/
theorem next_announces (h : s.next content = some c) (hkind : content.kind.announces = true) :
    ∃ target sign, c.turn = .operand target sign := by
  cases next_cases h with
  | operand kind unclosing result => cases kind.symm.trans hkind
  | announces target sign unclosing result => exact ⟨target, sign, result ▸ rfl⟩
  | closeGroup kind result => cases (kind ▸ hkind :)

/-- A token opens a parenthesis, or closes one, or does neither. Written as
an equation without a subtraction, to be added up along the tokens. -/
theorem next_depth (h : s.next content = some c) :
    c.depth + (if content.kind = .closeParen then 1 else 0)
      = s.depth + (if content.kind = .openParen then 1 else 0) := by
  cases next_cases h with
  | operand kind unclosing result =>
      have hopen : content.kind ≠ .openParen := fun hopen => by cases (hopen ▸ kind :)
      rw [if_neg unclosing, if_neg hopen, result]
  | announces target sign unclosing result => rw [if_neg unclosing, result]; rfl
  | closeGroup kind result => rw [if_pos kind, kind, result]; rfl

end Step

end Shape

/-! ### Two shapes

The shape of the run over all tokens, beside that of the sentence. They are
the same but where a number was put in the place of an operand, and there
the first one is ahead. -/

/-- Whatever the next token of the sentence meets, it can meet the first
turn instead of the second. The first one can be a number that was put in
front of `rest`, if no name is assigned to there.

Signs may be allowed by the first turn and not by the second one: behind the
number a sign of the sentence is read as an operator, and then another sign
could follow. -/
inductive Turn.Covers (rest : List Token) : Turn → Turn → Prop where
  | operand {target sign sign' : Bool} (signs : sign = true → sign' = true) :
      Covers rest (.operand target sign') (.operand target sign)
  | name {target sign sign' : Bool} (signs : sign = true → sign' = true) :
      Covers rest (.name target sign') (.name target sign)
  | value : Covers rest .value .value
  | ahead {target sign : Bool} (unassigned : ¬BeginsWith [.identifier, .assign] rest) :
      Covers rest .value (.operand target sign)
  | aheadName {target sign : Bool} (unassigned : ¬BeginsWith [.assign] rest) :
      Covers rest .value (.name target sign)

namespace Shape

/-- The first shape instead of the second one, in front of the tokens
`rest`. The parentheses are the same, since no stray character closes
one. -/
structure Covers (rest : List Token) (s c : Shape) : Prop where
  depth : s.depth = c.depth
  /-- The first run may be ahead of the second one by a number. -/
  turn : Turn.Covers rest s.turn c.turn

/-- The shapes `s` behind all the tokens `before` and `c` behind those of a
sentence among them, in front of the tokens `rest`. The invariant of
`run_paired`: that `s` can stand for `c`, and what makes the condition
`Harmless`, which speaks of tokens only, say something about the shapes. -/
structure Paired (before rest : List Token) (s c : Shape) : Prop extends Covers rest s c where
  /-- As many parentheses are open as the tokens say. -/
  balance : c.depth + before.countP (·.kind = .closeParen) = before.countP (·.kind = .openParen)
  /-- Where the last token announces an operand, the run over all tokens
  waits for one. A stray character announces none, so this says nothing once
  a number has been put there. -/
  announced : before.getLast?.any (·.kind.announces) = true →
    ∃ target sign, s.turn = .operand target sign

section Pairs

variable {before rest : List Token} {t : Token} {s c c' : Shape}

/-- A shape can be met instead of itself, whatever follows. -/
theorem Covers.refl (rest : List Token) (c : Shape) : Covers rest c c where
  depth := rfl
  turn := by
    cases c.turn with
    | operand target sign => exact .operand id
    | name target sign => exact .name id
    | value => exact .value

/-- A token in the place of an operand, where the second shape allows no
more signs than the first. Only a sign is treated differently, and it is
allowed by both if by the second one. -/
theorem Covers.next_operand {depth : Nat} {target sign sign' : Bool}
    (signs : sign = true → sign' = true)
    (hnext : next ⟨depth, .operand target sign⟩ t.content = some c') :
    ∃ s', next ⟨depth, .operand target sign'⟩ t.content = some s' ∧ Covers rest s' c' := by
  cases hcontent : t.content with
  | number x =>
      rw [hcontent] at hnext
      exact ⟨c', hnext, .refl rest c'⟩
  | identifier name =>
      rw [hcontent] at hnext
      obtain rfl := Option.some.inj hnext
      cases target with
      | true => exact ⟨_, rfl, rfl, .name signs⟩
      | false => exact ⟨_, rfl, rfl, .value⟩
  | bare kind =>
      rw [hcontent] at hnext
      cases kind with
      | openParen => exact ⟨c', hnext, .refl rest c'⟩
      -- A sign that the second shape allows is allowed by the first.
      | minus =>
          cases sign with
          | false => cases hnext
          | true =>
              obtain rfl := signs rfl
              exact ⟨c', hnext, .refl rest c'⟩
      | _ => cases hnext

/-- A token in the place of an operand, in front of which the first shape
has a number already. An operand becomes a factor beside the number, and a
sign becomes an operator. -/
theorem Covers.next_ahead {depth : Nat} {target sign : Bool}
    (unassigned : ¬BeginsWith [.identifier, .assign] (t :: rest))
    (hnext : next ⟨depth, .operand target sign⟩ t.content = some c') :
    ∃ s', next ⟨depth, .value⟩ t.content = some s' ∧ Covers rest s' c' := by
  cases hcontent : t.content with
  | number x =>
      rw [hcontent] at hnext
      exact ⟨c', hnext, .refl rest c'⟩
  | identifier name =>
      rw [hcontent] at hnext
      obtain rfl := Option.some.inj hnext
      have hkind : t.kind = .identifier := congrArg Content.kind hcontent
      -- Behind the number the name is a factor, and is read; the first run
      -- is ahead of a name whose fate is open. That it is not assigned to
      -- is what `unassigned` says.
      cases target with
      | true =>
          exact ⟨_, rfl, rfl, .aheadName fun h => unassigned (by simpa [BeginsWith, hkind] using h)⟩
      | false => exact ⟨_, rfl, rfl, .value⟩
  | bare kind =>
      rw [hcontent] at hnext
      cases kind with
      | openParen => exact ⟨c', hnext, .refl rest c'⟩
      | minus =>
          cases sign with
          | false => cases hnext
          | true =>
              -- What is a sign for the sentence is an operator behind the
              -- number.
              obtain rfl := Option.some.inj hnext
              exact ⟨_, rfl, rfl, .operand nofun⟩
      | _ => cases hnext

/-- A token that can stand in the second shape can stand in the first one.
By the way in which the turns compare. -/
theorem Covers.next (h : Covers (t :: rest) s c) (hnext : c.next t.content = some c') :
    ∃ s', s.next t.content = some s' ∧ Covers rest s' c' := by
  obtain ⟨depth, turn⟩ := s
  obtain ⟨depth', turn'⟩ := c
  obtain ⟨rfl, hturn⟩ := h
  cases hturn with
  | operand signs => exact Covers.next_operand signs hnext
  | ahead unassigned => exact Covers.next_ahead unassigned hnext
  | value => exact ⟨c', hnext, .refl rest c'⟩
  | name signs =>
      -- Both shapes have the name open, or both have left it behind.
      by_cases ht : t.content = .bare .assign
      · rw [ht] at hnext ⊢
        obtain rfl := Option.some.inj hnext
        exact ⟨_, rfl, rfl, .operand signs⟩
      · rw [next_name ht] at hnext ⊢
        exact ⟨c', hnext, .refl rest c'⟩
  | aheadName unassigned =>
      have ht : t.content ≠ .bare .assign := fun ht =>
        unassigned (by simp [BeginsWith, show t.kind = .assign from congrArg Content.kind ht])
      rw [next_name ht] at hnext
      exact ⟨c', hnext, .refl rest c'⟩

/-- A token of the sentence leads from a pair to a pair. The count of
parentheses goes with the depth, and an operand is missing behind what
announces one. -/
theorem Paired.next (h : Paired before (t :: rest) s c) (hnext : c.next t.content = some c') :
    ∃ s', s.next t.content = some s' ∧ Paired (before ++ [t]) rest s' c' := by
  obtain ⟨s', hs', hcovers⟩ := h.toCovers.next hnext
  refine ⟨s', hs', hcovers, ?_, fun hannounced => ?_⟩
  · -- One token changes the depth and the two counts alike.
    have hdepth : c'.depth + (if t.kind = .closeParen then 1 else 0)
        = c.depth + (if t.kind = .openParen then 1 else 0) := next_depth hnext
    have hbalance := h.balance
    simp only [List.countP_append, List.countP_singleton, decide_eq_true_eq]
    omega
  · have ht : t.kind.announces = true := by simpa using hannounced
    exact next_announces hs' ht

/-- A stray character where an operand is missing, in the place of which
there is a number then. The shape of the sentence stays where it is. -/
theorem Paired.stray (h : Paired before (t :: rest) s c) (ht : t.kind = .unknown)
    (hharmless : Harmless before rest) {target sign : Bool}
    (hturn : s.turn = .operand target sign) : Paired (before ++ [t]) rest ⟨s.depth, .value⟩ c where
  depth := h.depth
  turn := by
    have hcovers := h.turn
    rw [hturn] at hcovers
    generalize c.turn = turn at hcovers ⊢
    cases hcovers with
    | operand signs => exact .ahead hharmless.1
  balance := by simpa [List.countP_append, List.countP_singleton, ht] using h.balance
  announced hannounced := by simp [ht, Kind.announces] at hannounced

/-- A stray character behind an operand stands outside all parentheses. It
is not where an operand is missing, so by `Harmless` the parentheses are
balanced, which is what the depth counts. -/
theorem Paired.outside (h : Paired before (t :: rest) s c) (hharmless : Harmless before rest)
    (hturn : ∀ target sign, s.turn ≠ .operand target sign) : s.depth = 0 := by
  rcases hharmless.2 with hbalance | hannounced
  · have hdepth := h.balance
    rw [hbalance] at hdepth
    rw [h.depth]
    omega
  · -- The token before would announce an operand, and then one would be
    -- missing.
    obtain ⟨target, sign, hoperand⟩ := h.announced hannounced
    exact absurd hoperand (hturn target sign)

end Pairs

end Shape

namespace State

/-! ### A run over all tokens

The only tokens that a run can complain about are the stray characters,
since all the others can stand where they do. -/

section Strays

variable {text : List Char} {s : State} {t : Token}

/-- A run that recovers takes a number in the place of an operand, and skips
the stray character there. -/
theorem feed_stray (hf : s.focus = .operand) (ht : t.kind = .unknown) :
    feed (.recovering text) s t
      = .ok ((s.note ((Setting.recovering text).complaint Kind.factorStarts t)).take .nan) := by
  have hcontent := Token.content_of_kind ht (by decide) (by decide)
  rw [feed_eq_feedMissing hf hcontent (by decide) nofun, feedMissing, complain_substituteNan rfl,
    ok_bind, if_pos ht]
  rfl

/-- Behind an operand and outside all parentheses, a run ends at a stray
character. It fails because of the variable in front of it, or with a
complaint about it. -/
theorem feed_stray_outside {setting : Setting} (he : s.enclosing = []) (hf : s.focus ≠ .operand)
    (ht : t.kind = .unknown) :
    ∃ failure, feed setting s t = .error failure ∧ ∀ d, failure.error = .malformed d →
      d = .unexpectedCharacter (setting.quote t) t.start := by
  have hcontent := Token.content_of_kind ht (by decide) (by decide)
  have hready : ∀ x, s.Ready x → feed setting s t
      = .error ⟨.malformed (.unexpectedCharacter (setting.quote t) t.start),
          (s.endStatement x).2.environment⟩ := by
    intro x h
    rw [feed_of_ready h (by rw [ht]; decide), feedOperator_outside he x (.inr (.inl hcontent)),
      Setting.leftover, if_pos ht]
  -- What stands in front of the character is an operand, or a name that has
  -- a value or not.
  cases s.ending_cases with
  | missing focus => exact absurd focus hf
  | ready x ready => exact ⟨_, hready x ready, fun d hd => (EvalError.malformed.inj hd).symm⟩
  | unboundName name offset focus unbound =>
      refine ⟨⟨.undefinedVariable name offset, s.environment⟩, ?_, fun d hd => by cases hd⟩
      simp [feed, focus, ht, State.read, unbound, fail]

/-- A run over tokens that are a sentence but for stray characters, all of
them harmless, complains in the end about such a character or not at all.
Induction on the tokens, with the run over the sentence alone beside it; the
tokens before are carried along, because `Harmless` looks at them. -/
theorem run_paired (text : List Char) (stop : Nat) (rest : List Token) :
    ∀ {before : List Token} {s : State} {c : Shape}, Shape.Paired before rest s.shape c →
      (∀ front u back, before ++ rest = front ++ u :: back → u.kind = .unknown →
        Harmless front back) →
      (∃ final, c.after (solid rest) = some final) →
      ∀ {d : Diagnostic} {env : Environment},
        run (.recovering text) stop s rest = .error ⟨.malformed d, env⟩ →
        ∃ u ∈ rest, u.kind = .unknown ∧
          d = .unexpectedCharacter ((Setting.recovering text).quote u) u.start := by
  induction rest with
  | nil =>
      intro before s c _ _ _ d env h
      obtain ⟨name, offset, -, herror⟩ := ending_recovering_error rfl h
      cases herror
  | cons t rest ih =>
      intro before s c hpair hharmless ⟨final, hfinal⟩ d env h
      rw [run_cons] at h
      -- What the induction says of the tokens behind this one, once their
      -- states are known to be a pair.
      have hlater : ∀ {s' c'}, Shape.Paired (before ++ [t]) rest (State.shape s') c' →
          (∃ final, c'.after (solid rest) = some final) →
          run (.recovering text) stop s' rest = .error ⟨.malformed d, env⟩ →
          ∃ u ∈ t :: rest, u.kind = .unknown ∧
            d = .unexpectedCharacter ((Setting.recovering text).quote u) u.start := by
        intro s' c' hpair' hfinal' h'
        obtain ⟨u, hu, hresult⟩ := ih hpair' (by simpa using hharmless) hfinal' h'
        exact ⟨u, List.mem_cons_of_mem t hu, hresult⟩
      by_cases ht : t.kind = .unknown
      · have hhere := hharmless before t rest rfl ht
        rw [solid_cons_unknown ht] at hfinal
        -- A stray character is skipped, or the run ends here with a
        -- complaint about it.
        by_cases hf : s.focus = .operand
        · rw [feed_stray hf ht] at h
          exact hlater (hpair.stray ht hhere (shape_turn hf)) ⟨final, hfinal⟩ h
        · have hdepth : s.enclosing.length = 0 :=
            hpair.outside hhere fun _ _ hturn => hf (focus_of_shape hturn)
          obtain ⟨failure, hfeed, hcomplaint⟩ :=
            feed_stray_outside (List.eq_nil_of_length_eq_zero hdepth) hf ht
          rw [hfeed] at h
          obtain rfl := Except.error.inj h
          exact ⟨t, List.mem_cons_self, ht, hcomplaint d rfl⟩
      · rw [solid_cons ht, Shape.after_cons] at hfinal
        -- A token of the sentence can stand here, so the step goes on or
        -- lacks a variable.
        obtain ⟨c', hnext, hfinal⟩ := Option.bind_eq_some_iff.mp hfinal
        obtain ⟨s', hs', hpair'⟩ := hpair.next hnext
        have hmoves := feed_moves (.recovering text) s t
        rw [hs'] at hmoves
        generalize feed (.recovering text) s t = result at h hmoves
        cases hmoves with
        | ok next => exact hlater hpair' ⟨final, hfinal⟩ h
        | unbound name offset env' => cases h

end Strays

end State

/-- Harmless stray characters leave no token of a sentence over. A run that
recovers fails over such tokens because of a variable, or because of a stray
character behind the sequence, or not at all. -/
theorem evaluate_harmless (text : String) (env : Environment)
    (hsentence : Sentence (solid (Cursor.ofText text).tokens))
    (hharmless : StraysHarmless (Cursor.ofText text).tokens) {d : Diagnostic}
    (h : (evaluate .substituteNan text env).result = .error (.malformed d)) :
    ∃ u ∈ (Cursor.ofText text).tokens, u.kind = .unknown ∧
      d = .unexpectedCharacter ((Setting.recovering text.toList).quote u) u.start := by
  rw [evaluate, evaluateTokens_eq] at h
  obtain ⟨⟨error, env'⟩, hrun, rfl⟩ := Outcome.ofRun_error h
  -- Before the first token both shapes are the same, and no parenthesis is
  -- open.
  have hstart : Shape.Paired [] (Cursor.ofText text).tokens Shape.start Shape.start :=
    ⟨.refl _ _, rfl, fun hannounced => by cases hannounced⟩
  refine State.run_paired text.toList _ _ hstart (fun front u back hsplit hu => ?_)
    (exists_shape_sentence hsentence) hrun
  rw [List.nil_append] at hsplit
  exact (hsplit ▸ hharmless).split hu

/-- One stray character where an operand is missing, and one behind the
sequence. -/
theorem evaluate_harmless_instance :
    ∃ u ∈ (Cursor.ofText "(1 + ?2) ?").tokens, u.kind = .unknown ∧
      .unexpectedCharacter "?" 9
        = Diagnostic.unexpectedCharacter ((Setting.recovering "(1 + ?2) ?".toList).quote u)
            u.start := by
  refine evaluate_harmless "(1 + ?2) ?" .empty ⟨.group ⟨0, 1⟩ (.sum
    (.number (.double (Double.ofNumeral ['1'])) ⟨1, 2⟩) .plus ⟨3, 4⟩
    (.number (.double (Double.ofNumeral ['2'])) ⟨6, 7⟩)) ⟨7, 8⟩, by decide, ?_⟩ ?_ ?_
  · decide +kernel
  · decide +kernel
  · decide +kernel

/-- Not every stray character is harmless. Behind an operand in parentheses
it closes the group, and the parenthesis that the sentence has for that is
left over. In front of a name to assign there is a number then, and the mark
of the assignment is left over. -/
theorem evaluate_stray :
    (Sentence (solid (Cursor.ofText "(1?)").tokens) ∧
      (evaluate .substituteNan "(1?)" .empty).result
        = .error (.malformed (.trailingInput .closeParen 3))) ∧
    (Sentence (solid (Cursor.ofText "?a = 1").tokens) ∧
      (evaluate .substituteNan "?a = 1" (.ofList [("a", .nan)])).result
        = .error (.malformed (.trailingInput .assign 3))) := by
  refine ⟨⟨⟨.group ⟨0, 1⟩ (.number (.double (Double.ofNumeral ['1'])) ⟨1, 2⟩) ⟨3, 4⟩, trivial, ?_⟩,
    ?_⟩, ⟨.assignment "a" ⟨1, 2⟩ ⟨3, 4⟩ (.number (.double (Double.ofNumeral ['1'])) ⟨5, 6⟩),
    by decide, ?_⟩, ?_⟩
  · decide +kernel
  · decide +kernel
  · decide +kernel
  · decide +kernel

end DeskCalculator
