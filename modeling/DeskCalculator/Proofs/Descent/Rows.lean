import DeskCalculator.Proofs.Descent.Position
import DeskCalculator.Proofs.Run.Meaning

/-!
# `DeskCalculator.Proofs.Descent.Rows`: what rows go on with

A row of a level goes on in front of its own marks, a row of factors in
front of a factor. Rules are ordered by how tight their levels are. Where a
row goes on, a run comes to where it waits for the next operand of the row
(`exists_joined`), and with that operand it has read the longer row
(`Joined`). Where no row goes on that a rule may be in the middle of, the
rule is done (`Settled`).

The two accounts decide differently when an operand is complete. A rule
looks at the kind of the next token and asks its own level only, since
tighter rules have returned before. A run is fed the token and closes every
waiting operation that binds at least as tightly. `Settled` is what makes
both the same: a rule returns only where no tighter row goes on, so the
operation that a run closes there is one of a looser rule.
-/

set_option autoImplicit false

namespace DeskCalculator

open Statement

/-- No row of the level, or of a tighter one, goes on in front of a token of
the kind. This is what a rule leaves behind when it returns, and what a row
needs of its operand before it asks whether it goes on itself. -/
def Settled (level : Level) (kind : Kind) : Prop :=
  ∀ tighter : Level, level.rank ≤ tighter.rank → tighter.joins kind = none

/-! ### Levels

Facts about the eight levels and the sixteen rules, gone through case by
case. -/

/-- A level is settled if its operands are and its own row does not go on:
there is no level between the two. -/
theorem Settled.of_operand {level : Level} {kind : Kind} (h : Settled level.operand kind)
    (hjoins : level.joins kind = none) : Settled level kind := by
  intro tighter hle
  by_cases hsame : tighter = level
  · rw [hsame, hjoins]
  · refine h tighter ?_
    revert hle hsame
    cases level <;> cases tighter <;> simp [Level.rank, Level.operand]

/-- An assignment is no row: its body is an assignment again, and the
recursion is on the right. -/
theorem Level.joins_assignment (kind : Kind) : Level.assignment.joins kind = none := by
  cases kind <;> rfl

/-- An expression with a sign is no row, as only one sign is taken. Its rule
has no loop. -/
theorem Level.joins_signed (kind : Kind) : Level.signed.joins kind = none := by
  cases kind <;> rfl

/-- A primary expression is no row. It ends with its own token, and what
follows is up to the levels around it. -/
theorem Level.joins_primary (kind : Kind) : Level.primary.joins kind = none := by
  cases kind <;> rfl

/-- With an operand read, nothing is left to settle. So a primary expression
may return in front of any token. -/
theorem settled_primary (kind : Kind) : Settled .primary kind := by
  intro tighter hle
  have hprimary : tighter = .primary := by
    revert hle
    cases tighter <;> simp [Level.rank]
  rw [hprimary, Level.joins_primary]

/-- No row goes on in front of the mark at the end. What goes on therefore
looks at a token. -/
theorem Level.joins_endOfInput (level : Level) : level.joins .endOfInput = none := by
  cases level <;> rfl

/-- No level is tighter than the last one. -/
theorem Level.rank_le (level : Level) : level.rank ≤ Level.primary.rank := by
  cases level <;> decide

/-- An expression of a tighter level is lower than what is left of a row. A
row of factors calls for its next operand without having consumed anything,
and this allows the call. -/
theorem Rule.rank_expression_lt_more {level tighter : Level} (h : level.rank < tighter.rank)
    (x : Number) : (expression tighter).rank < (more level x).rank := by
  have hle := tighter.rank_le
  simp only [rank]
  omega

/-- What is left of a row is lower than the whole. The first operand may
have consumed nothing, if it was missing, and still the rest of the row may
be called. -/
theorem Rule.rank_more_lt (level : Level) (x : Number) :
    (more level x).rank < (expression level).rank :=
  Nat.lt_succ_self _

/-- An expression of a tighter level is lower. So calling it without having
consumed a token is no way back to where the call came from. -/
theorem Rule.rank_expression_lt {level tighter : Level} (h : level.rank < tighter.rank) :
    (expression tighter).rank < (expression level).rank :=
  Nat.lt_trans (rank_expression_lt_more h .nan) (rank_more_lt level .nan)

/-- What was read at a tighter level was read at a looser one, if nothing
waits between the two. -/
theorem Reads.loosen {level tighter : Level} {s s' : State} {x : Number} {env : Environment}
    (h : Reads tighter s x env s') (hle : level.rank ≤ tighter.rank)
    (hs : s.statement.clear level = s.statement) : Reads level s x env s' := by
  obtain ⟨v, names, htook⟩ := h
  exact ⟨v, names, htook.loosen hle hs⟩

/-! ### Going on with a row

A run holds the operation of a row and waits for the operand to its right. A
rule calls for that operand, so the state in which the run waits is one at
which the rule may be called. -/

/-- A complaint is no part of what was read: the state before and the one
behind may carry any other, as long as it is the same. A call may add the
first complaint, and what was read before it is then restated with that. -/
theorem Took.rediagnose {level : Level} {s s' : State} {x v : Number} {env : Environment}
    {names : List String} (h : Took level s x env s' v names) (d : Option Diagnostic) :
    Took level { s with diagnostic := d } x env { s' with diagnostic := d } v names :=
  ⟨h.focus, h.enclosing, rfl, h.statement, h.value, h.names_nil, h.environment⟩

/-- The run in the state `s` waits for the right operand of a row, for which
`start` waited and of which the value so far is `x`. What the call for the
operand needs is said of `s`; `both` says what follows from its answer. -/
structure Joined (level : Level) (operator : BinaryOperator) (start : State) (x : Number)
    (env : Environment) (d : Option Diagnostic) (s : State) : Prop where
  rank_lt : level.rank < level.operand.rank
  awaits : Awaits level.operand s
  environment : s.environment = env
  diagnostic : s.diagnostic = d
  unassigned : Level.sum.rank ≤ level.operand.rank → s.statement.allowsTarget = false
  unsigned : Level.term.rank ≤ level.operand.rank → s.statement.allowsSign = false
  both : ∀ d' y env' s', Reads level.operand { s with diagnostic := d' } y env' s' →
    Reads level { start with diagnostic := d' } (operator.apply x y) env' s'

/-- Where an operation waits at its level, the right operand is read. For
the levels of operations that have a mark, and for a row of factors, which
waits with the multiplication that is not written. -/
theorem joined_hold {level : Level} (hlevel : level ∈ [.power, .term, .product, .sum])
    {s s₁ : State} {d : Option Diagnostic} {x v : Number} {env : Environment}
    {names : List String} (hs : Awaits level s)
    (h : Took level { s with diagnostic := d } x env s₁ v names) (operator : BinaryOperator) :
    Joined level operator s x env d (s₁.await
      ((s₁.statement.clear level).hold level operator (s₁.statement.valueAt level v))) := by
  have hsum : Level.sum.rank ≤ level.rank := sum_le_of_mem hlevel
  have hlt : level.rank < level.operand.rank := by
    revert hlevel
    cases level <;> simp [Level.rank, Level.operand]
  refine ⟨hlt, h.awaits hs.clear hsum hlt operator, ?_, h.diagnostic, ?_, ?_, ?_⟩
  · rw [h.environment, h.names_nil hsum]
    rfl
  · -- Behind the mark of an operation no name is assigned to, and no sign
    -- stands where a factor comes.
    intro _
    revert hlevel
    cases level <;> simp [State.await, hold, allowsTarget, allowsSign]
  · intro hterm
    revert hlevel hterm
    cases level <;> simp [State.await, hold, allowsSign, Level.rank, Level.operand]
  · rintro d' y env' s' ⟨w, names', hright⟩
    exact ⟨w, names', (h.rediagnose d').both hlevel hs.clear hlt hright⟩

/-- Behind the mark between two statements, the second one is read. Nothing
waits, as the first statement has ended, and so a sequence is not held like
the other operations: its value is dropped and its variables are kept. -/
theorem joined_sequence {s : State} (hs : Awaits .sequence s) (x : Number) (env : Environment)
    (d : Option Diagnostic) :
    Joined .sequence .sequence s x env d
      ({ s with diagnostic := d, environment := env }.await {}) := by
  have hstatement : s.statement = {} := by
    rw [← hs.clear, clear, hs.targets rfl]
  refine ⟨by decide, ⟨rfl, rfl, fun htargets => by cases htargets⟩, rfl, rfl, fun hsum => ?_,
    fun hterm => ?_, ?_⟩
  · exact absurd hsum (by decide)
  · exact absurd hterm (by decide)
  · rintro d' y env' s' ⟨w, names', hright⟩
    exact ⟨w, names', Took.sequence hright hstatement⟩

/-- The mark in front of which a row goes on makes an operation wait at its
level. Marks of looser levels would make one wait as well, at theirs; that
this one belongs to the row is `h`. -/
theorem awaitAfter_of_joins {level : Level} (hlevel : level ∈ [.power, .product, .sum])
    {kind : Kind} {operator : BinaryOperator} (h : level.joins kind = some operator)
    (statement : Statement) (x : Number) :
    statement.awaitAfter x kind
      = some ((statement.clear level).hold level operator (statement.valueAt level x)) := by
  revert hlevel h
  cases level <;> cases kind <;> simp [Level.joins, Kind.operator?, Level.operators, Option.filter]
  all_goals
    rintro rfl
    rfl

/-- A sequence goes on in front of a mark of its own, and of no other kind.
With the loops of the rules the test in front of them is the same. -/
theorem eq_of_joins_sequence {kind : Kind} {operator : BinaryOperator}
    (h : Level.sequence.joins kind = some operator) :
    kind = .semicolon ∧ operator = .sequence := by
  revert h
  cases kind <;> simp [Level.joins, Kind.operator?, Level.operators, Option.filter, eq_comm]

/-- A row of factors goes on in front of a factor. The mark is not consumed
there, as it is the first token of the next operand. -/
theorem eq_of_joins_term {kind : Kind} {operator : BinaryOperator}
    (h : Level.term.joins kind = some operator) :
    kind.startsFactor = true ∧ operator = .mul := by
  revert h
  cases hkind : kind.startsFactor <;> simp [Level.joins, hkind, eq_comm]

/-- Where a row goes on, the run comes to where its next operand is read:
behind the mark, or in front of the factor. The three cases are those of
what waits: nothing in a sequence, the operation of a mark, and the
multiplication in front of a factor. -/
theorem exists_joined {level : Level} {s s₁ : State} {d : Option Diagnostic} {x : Number}
    {env : Environment} {t : Token} {operator : BinaryOperator} (hs : Awaits level s)
    (h : Reads level { s with diagnostic := d } x env s₁)
    (hjoins : level.joins t.kind = some operator)
    (hfactor : t.kind.startsFactor = true → t.BeginsFactor) :
    ∃ s₂, Joined level operator s x env d s₂ ∧ ∀ setting stop more,
      State.run setting stop s₁ (t :: more)
        = State.run setting stop s₂ (if level = .term then t :: more else more) := by
  obtain ⟨v, names, htook⟩ := h
  -- But in a row of factors the token is a mark, which carries nothing.
  have hmark : level ≠ .term → t = .bare t.kind t.toSpan := by
    intro hlevel
    refine Token.eq_bare (Token.content_of_kind rfl ?_ ?_)
    all_goals
      intro hkind
      rw [hkind] at hjoins
      simp [Level.joins, hlevel, Kind.operator?] at hjoins
  -- A row of factors: the run closes the factor before and is in front of
  -- the next one, so both states have the same tokens left.
  by_cases hterm : level = .term
  · subst hterm
    obtain ⟨hstarts, rfl⟩ := eq_of_joins_term hjoins
    refine ⟨_, joined_hold (by simp) hs htook .mul, fun setting stop more => ?_⟩
    rw [if_pos rfl, State.run_cons, State.run_cons, feed_factor htook.focus (hfactor hstarts)]
    rfl
  -- A sequence: the statement ends.
  by_cases hsequence : level = .sequence
  · subst hsequence
    obtain ⟨hkind, rfl⟩ := eq_of_joins_sequence hjoins
    refine ⟨_, joined_sequence hs x env d, fun setting stop more => ?_⟩
    rw [if_neg hterm, hmark hterm, hkind, State.run_cons, htook.feed_semicolon (hs.targets rfl)]
    rfl
  · have hlevel : level ∈ [.power, .product, .sum] := by
      revert hjoins hterm hsequence
      generalize t.kind = kind
      cases level <;> cases kind <;>
        simp [Level.joins, Kind.operator?, Level.operators, Option.filter]
    refine ⟨_, joined_hold ?_ hs htook operator, fun setting stop more => ?_⟩
    · revert hlevel
      cases level <;> simp
    · rw [if_neg hterm, hmark hterm, State.run_cons,
        State.feed_operator htook.focus (awaitAfter_of_joins hlevel hjoins _ v)]
      rfl

/-- A token of the text that begins a factor is a number, a name or an
opening parenthesis. A token that is no token of a text could be of a kind
that carries a payload and have none. -/
theorem Parser.At.beginsFactor {text : String} {p : Parser} {t : Token} {rest : List Token}
    (h : p.At text (t :: rest)) (hkind : t.kind.startsFactor = true) : t.BeginsFactor := by
  obtain ⟨span, content⟩ := t
  cases content with
  | number x => exact .inl ⟨x, span, rfl⟩
  | identifier name => exact .inr (.inl ⟨name, span, rfl⟩)
  | bare kind =>
      obtain ⟨hnumber, hidentifier, -⟩ := kind_of_content_bare (h.mem List.mem_cons_self) rfl
      have hopen : kind = .openParen := by
        revert hkind
        cases kind <;> simp_all [Token.kind, Content.kind, Kind.startsFactor, Kind.factorStarts]
      exact .inr (.inr ⟨span, by rw [hopen]; rfl⟩)

/-- A token of a kind that carries nothing is its kind and its place. The
rules decide by the kind alone, and the steps of a run are stated for whole
tokens. -/
theorem Parser.At.exists_mark {text : String} {p : Parser} {rest : List Token} (h : p.At text rest)
    {kind : Kind} (hkind : p.lookahead.kind = kind)
    (hmark : kind ∉ [.endOfInput, .number, .identifier]) :
    ∃ span more, rest = .bare kind span :: more ∧ p.lookahead = .bare kind span := by
  simp only [List.mem_cons, List.not_mem_nil, or_false, not_or] at hmark
  obtain ⟨hend, hnumber, hidentifier⟩ := hmark
  obtain ⟨t, more, rfl, hlookahead⟩ := h.exists_cons (fun h => hend (hkind ▸ h))
  rw [hlookahead] at hkind ⊢
  have ht : t = .bare kind t.toSpan :=
    Token.eq_bare (Token.content_of_kind hkind hnumber hidentifier)
  exact ⟨t.toSpan, more, by rw [← ht], ht⟩

end DeskCalculator
