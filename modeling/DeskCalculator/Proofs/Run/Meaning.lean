import DeskCalculator.Proofs.Run.Levels
import DeskCalculator.Proofs.Run.Steps

/-!
# `DeskCalculator.Proofs.Run.Meaning`: a run over a derivation computes its meaning

`Expr.evaluate` walks a tree; a run sees one token after the other and knows
no tree. The two meet:

* `reading_tokens`: in a state that waits for an expression of a level, the
  tokens of a derivation of that level have the effect of its meaning. The
  row of waiting operations is as before, up to operations of that level or
  tighter ones, which settle to the value of the derivation.
* `evaluateTokens_tokens`: over a whole text, the outcome of a run is that
  of the meaning.

Neither depends on the policy, since a derivation leaves nothing to complain
about. The only failure is that of a variable without a value, and the two
agree on it as well, with the variables as they are at that step.

The proof is an induction on the derivation, and what it carries is a
contract of the parser with itself, level by level: `Awaits` is what has to
hold where an expression of a level begins, `Took` what holds where it has
ended. Every rule of the grammar is one lemma on the tokens that belong to
the rule itself (`reading_sign`, `reading_target`, `reading_group`,
`agrees_both`) and one on how the contracts of its parts make up its own
(`Took.negated`, `Took.assigned`, `Took.closeGroup`, `Took.both`).
`Proofs.Run.Viable` uses the contracts again for texts that end early.

One thing has no place in a tree: a name at the beginning of a statement,
which the run leaves open until the next token. A part of a derivation may
end with such a name. Runs are therefore compared with the name read
(`State.reading`), which is what happens before any token but `=`.
-/

set_option autoImplicit false

namespace DeskCalculator

open Statement

/-! ### Runs that end with an operand read

A derivation may end with a name, and the run would leave that open. So the
runs below read it at their end, and a run is cut in front of tokens where
this makes no difference. -/

namespace State

/-- A run over some tokens, with a name at the end read. A failure to read
it is part of the result. -/
def reading (setting : Setting) (s : State) (tokens : List Token) : Except Failure State :=
  feedAll setting s tokens >>= resolve

/-- A run is cut in front of any token but a mark that assigns. In front of
such a mark the name would not have been read, and the cut would change what
happens. -/
theorem reading_append_cons (setting : Setting) (s : State) (ts us : List Token) {t : Token}
    (h : t.kind ≠ .assign) :
    reading setting s (ts ++ t :: us)
      = reading setting s ts >>= fun s => reading setting s (t :: us) := by
  simp only [reading, feedAll_append, feedAll_cons, bind_assoc]
  congr 1
  funext s
  rw [feed_eq_resolve setting s h, bind_assoc]

/-- The first token of a run is fed before the others. With
`reading_append_cons` it is how runs are taken apart below. -/
theorem reading_cons (setting : Setting) (s : State) (t : Token) (ts : List Token) :
    reading setting s (t :: ts) = feed setting s t >>= fun s => reading setting s ts := by
  simp only [reading, feedAll_cons, bind_assoc]

end State

/-! ### Agreement of a meaning and a run

Both sides are computations that may fail. They agree if they fail alike, or
if the run comes to a state that is as it has to be for the value and the
variables of the meaning. -/

/-- The run fails as the meaning says, or comes to a state that is as `took`
says of the value and the variables of the meaning. One definition for both,
so that the failing case is settled once, in `Agrees.bind`. -/
def Agrees (meaning : Except Failure (Number × Environment)) (run : Except Failure State)
    (took : Number → Environment → State → Prop) : Prop :=
  match meaning with
  | .ok (x, env) => ∃ s, run = .ok s ∧ took x env s
  | .error failure => run = .error failure

/-- Agreement step by step: of a computation that goes on after the first
part, on both sides. -/
theorem Agrees.bind {meaning : Except Failure (Number × Environment)} {run : Except Failure State}
    {took took' : Number → Environment → State → Prop}
    {next : Number × Environment → Except Failure (Number × Environment)}
    {go : State → Except Failure State} (h : Agrees meaning run took)
    (hnext : ∀ x env s, took x env s → Agrees (next (x, env)) (go s) took') :
    Agrees (meaning >>= next) (run >>= go) took' := by
  cases meaning with
  | error failure =>
      have hrun : run = .error failure := h
      rw [hrun]
      rfl
  | ok p =>
      -- The run comes to the state that the first part allows, and the
      -- second part goes on there.
      obtain ⟨s, hrun, hs⟩ : ∃ s, run = .ok s ∧ took p.1 p.2 s := h
      rw [hrun]
      exact hnext p.1 p.2 s hs

/-- Agreement on a state that says less. For `Agrees.loosen`, where what was
read at a tighter level is said to be read at a looser one. -/
theorem Agrees.mono {meaning : Except Failure (Number × Environment)} {run : Except Failure State}
    {took took' : Number → Environment → State → Prop} (h : Agrees meaning run took)
    (himp : ∀ x env s, took x env s → took' x env s) : Agrees meaning run took' := by
  cases meaning with
  | error failure => exact h
  | ok p =>
      obtain ⟨s, hrun, hs⟩ : ∃ s, run = .ok s ∧ took p.1 p.2 s := h
      exact ⟨s, hrun, himp p.1 p.2 s hs⟩

/-! ### Waiting for an expression, and having read it

The two contracts of a level. They say what the state has in the parts that
are looser than the level, namely what it had, and of the tighter parts only
what they settle to. -/

/-- The state waits for an expression of the level, with nothing of that
level begun. Looser operations may wait: they are no part of the expression,
and the run leaves them alone. -/
structure Awaits (level : Level) (s : State) : Prop where
  focus : s.focus = .operand
  clear : s.statement.clear level = s.statement
  /-- A sequence begins with a statement of which nothing was read. -/
  targets : level = .sequence → s.statement.targets = []

/-- From `s`, a run read an expression of the level with the value `x` and
the variables `env` after it, and came to `s'`. Its last operand is `v`. The
names that the expression assigns to last still wait for their value: they
are `names`, and no expression below an assignment has any.

The operand and the value differ where operations of the expression itself
still wait: they settle only when the next token shows that the expression
has ended, so the state does not hold `x` but what it takes to compute
it. -/
structure Took (level : Level) (s : State) (x : Number) (env : Environment) (s' : State)
    (v : Number) (names : List String) : Prop where
  focus : s'.focus = .value v
  enclosing : s'.enclosing = s.enclosing
  diagnostic : s'.diagnostic = s.diagnostic
  statement : s'.statement.clear level
    = { s.statement with targets := names ++ s.statement.targets }
  value : s'.statement.valueAt level v = x
  names_nil : Level.sum.rank ≤ level.rank → names = []
  environment : env = names.foldl (fun env name => env.set name x) s'.environment

/-- `Took`, whatever the last operand and the names are. For callers who go
on with the value and do not look into the statement. -/
def Reads (level : Level) (s : State) (x : Number) (env : Environment) (s' : State) : Prop :=
  ∃ v names, Took level s x env s' v names

/-- What was read at a tighter level was read at a looser one, if nothing of
the looser level waited. A single number is so read as a sequence, by one
step and not by one for each level. -/
theorem Took.loosen {level tighter : Level} {s s' : State} {x v : Number} {env : Environment}
    {names : List String} (h : Took tighter s x env s' v names)
    (hle : level.rank ≤ tighter.rank) (hs : s.statement.clear level = s.statement) :
    Took level s x env s' v names where
  focus := h.focus
  enclosing := h.enclosing
  diagnostic := h.diagnostic
  statement := by rw [← clear_clear hle, h.statement, clear_targets, hs]
  value := by
    rw [← valueAt_clear hle, h.statement, h.value, valueAt_targets, valueAt_of_clear hs]
  names_nil := fun hsum => h.names_nil (Nat.le_trans hsum hle)
  environment := h.environment

/-- An operand that was read is an expression of every level. It settles
nothing, because at each level nothing was waiting. -/
theorem took_take {level : Level} {s : State} (h : Awaits level s) (x : Number)
    (env : Environment) : Took level s x env ({ s with environment := env }.take x) x [] where
  focus := rfl
  enclosing := rfl
  diagnostic := rfl
  statement := h.clear
  value := valueAt_of_clear h.clear x
  names_nil := fun _ => rfl
  environment := rfl

/-! ### The tokens of each rule

What a run does with the tokens that belong to a rule itself and not to its
parts: a sign, a name and its mark, parentheses, an operator. -/

section Rules

variable {setting : Setting} {s : State}

/-- A number is taken: it has its own value, and the variables stay as they
are. -/
theorem reading_number (h : s.focus = .operand) (x : Number) (span : Span) :
    State.reading setting s [.number x span] = .ok (s.take x) := by
  rw [State.reading_cons, State.feed_number h, ok_bind]
  rfl

/-- A name is read, whether at once or because nothing assigns to it. The
second is the state at the beginning of a statement, where only the end of
the part decides it. -/
theorem reading_identifier (h : s.focus = .operand) (name : String) (span : Span) :
    State.reading setting s [.identifier name span]
      = s.read name span.start >>= fun x => .ok (s.take x) := by
  rw [State.reading_cons]
  cases ha : s.statement.allowsTarget with
  | true => rw [State.feed_name h ha]; rfl
  | false => rw [State.feed_identifier h ha]; cases s.read name span.start <;> rfl

/-- A group is a sequence in a place of its own. The run is cut in front of
the closing parenthesis, so that the body is a run that the induction knows
about. -/
theorem reading_group {body : List Token} (h : s.focus = .operand) (opening closing : Span) :
    State.reading setting s (.bare .openParen opening :: body ++ [.bare .closeParen closing])
      = State.reading setting (s.openGroup s.statement) body >>= fun s' =>
          State.reading setting s' [.bare .closeParen closing] := by
  rw [List.cons_append, State.reading_cons, State.feed_openParen h, ok_bind]
  exact State.reading_append_cons setting _ body [] (fun h => by cases h)

/-- An operator after an operand, with what `awaitAfter` says of the
statement. The operand is settled as far as the operator is tight, and the
rest waits. -/
theorem reading_operator {x : Number} {kind : Kind} {statement : Statement}
    (h : s.focus = .value x) (hs : s.statement.awaitAfter x kind = some statement) (mark : Span)
    (ts : List Token) :
    State.reading setting s (.bare kind mark :: ts)
      = State.reading setting (s.await statement) ts := by
  rw [State.reading_cons, State.feed_operator h hs, ok_bind]

/-- The kinds of the tokens that can begin a factor. Between two factors
stands no token, so the first token of the second one takes the place of an
operator. -/
def Token.BeginsFactor (t : Token) : Prop :=
  (∃ x span, t = .number x span) ∨ (∃ name span, t = .identifier name span) ∨
    ∃ span, t = .bare .openParen span

/-- No factor begins with a mark that assigns, so a run can be cut in front
of one. A name before it is then an operand and is read. -/
theorem Token.BeginsFactor.kind_ne_assign {t : Token} (h : t.BeginsFactor) : t.kind ≠ .assign := by
  rcases h with ⟨x, span, rfl⟩ | ⟨name, span, rfl⟩ | ⟨span, rfl⟩ <;> (intro h; cases h)

/-- A sign where no factor was read. It waits with the statement, to be
applied to the whole row of factors. -/
theorem reading_sign (h : s.focus = .operand) (hs : s.statement.clear .signed = s.statement)
    (mark : Span) (ts : List Token) :
    State.reading setting s (.bare .minus mark :: ts)
      = State.reading setting (s.await { s.statement with negated := true }) ts := by
  rw [State.reading_cons, State.feed_sign h (allowsSign_of_clear hs), ok_bind]

/-- A name and the mark that assigns to it, where nothing but such names was
read. The two tokens are taken together: between them the fate of the name
is open. -/
theorem reading_target (h : s.focus = .operand) (hs : s.statement.clear .assignment = s.statement)
    (name : String) (span mark : Span) (ts : List Token) :
    State.reading setting s (.identifier name span :: .bare .assign mark :: ts)
      = State.reading setting
          (s.await { s.statement with targets := name :: s.statement.targets }) ts := by
  rw [State.reading_cons, State.feed_name h (allowsTarget_of_clear hs), ok_bind,
    State.reading_cons, State.feed_target rfl, ok_bind]
  rfl

/-- A factor after an operand is fed like one in the place of an operand,
behind a multiplication. With this a row of factors is a product whose
operator is not written. -/
theorem feed_factor {x : Number} {t : Token} (h : s.focus = .value x) (ht : t.BeginsFactor) :
    State.feed setting s t = State.feed setting (s.await (s.statement.awaitFactor x)) t := by
  simp only [State.feed, h, State.await]
  rcases ht with ⟨y, span, rfl⟩ | ⟨name, span, rfl⟩ | ⟨span, rfl⟩
  · rfl
  · -- Behind the multiplication no name is assigned to, so this one is read
    -- at once.
    have hallows : (s.statement.awaitFactor x).allowsTarget = false := by
      simp [allowsTarget, allowsSign, awaitFactor]
    simp only [State.feedOperator, State.feedOperand, Token.identifier, hallows]
    rfl
  · rfl

/-- A factor after an operand is one in the place of an operand, behind a
multiplication. So a row of factors is treated like a row with marks, but
for the mark. -/
theorem reading_factor {x : Number} {t : Token} (h : s.focus = .value x) (ht : t.BeginsFactor)
    (ts : List Token) :
    State.reading setting s (t :: ts)
      = State.reading setting (s.await (s.statement.awaitFactor x)) (t :: ts) := by
  rw [State.reading_cons, State.reading_cons, feed_factor h ht]

end Rules

/-- The tokens of a row of factors begin with a factor. Induction on the
derivation, down its left side. A sign could stand in front of a row of
factors, but is a looser rule. -/
theorem tokens_beginsFactor {e : Expr} (hvalid : e.Valid) (hfits : e.Fits .term) :
    ∃ t ts, e.tokens = t :: ts ∧ t.BeginsFactor := by
  induction e with
  | number x span => exact ⟨_, [], rfl, .inl ⟨x, span, rfl⟩⟩
  | identifier name span => exact ⟨_, [], rfl, .inr (.inl ⟨name, span, rfl⟩)⟩
  | group opening body closing => exact ⟨_, _, rfl, .inr (.inr ⟨opening, rfl⟩)⟩
  | power base mark exponent ihbase =>
      obtain ⟨t, ts, htokens, ht⟩ := ihbase hvalid.1 (Nat.le_trans (by decide) hvalid.2.1)
      exact ⟨t, _, by rw [Expr.tokens, htokens, List.cons_append], ht⟩
  | factors left right ihleft =>
      obtain ⟨t, ts, htokens, ht⟩ := ihleft hvalid.1 hvalid.2.1
      exact ⟨t, _, by rw [Expr.tokens, htokens, List.cons_append], ht⟩
  -- The other rules are looser than a row of factors.
  | _ => exact absurd hfits (by simp [Expr.Fits, Expr.level, Level.rank])

/-! ### Two parts with an operation between them

Powers, rows of factors, products and sums are alike: the left part is read,
the operation is held at its level, and the right part completes it. So they
have one lemma, with the level as a parameter. -/

/-- Where the left part was read and the operation waits, an expression of a
tighter level can be read. This is where it counts that operations wait by
their level. -/
theorem Took.awaits {level tighter : Level} {s s' : State} {x v : Number} {env : Environment}
    {names : List String} (h : Took level s x env s' v names)
    (hs : s.statement.clear level = s.statement) (hsum : Level.sum.rank ≤ level.rank)
    (hlt : level.rank < tighter.rank) (operator : BinaryOperator) :
    Awaits tighter (s'.await
      ((s'.statement.clear level).hold level operator (s'.statement.valueAt level v))) := by
  have hclear : s'.statement.clear level = s.statement := by
    rw [h.statement, h.names_nil hsum]
    rfl
  refine ⟨rfl, ?_, ?_⟩
  · show ((s'.statement.clear level).hold level operator _).clear tighter = _
    rw [hclear]
    exact clear_hold hlt hs operator _
  · intro htighter
    subst htighter
    exact absurd hlt (by simp [Level.rank])

/-- The right part, read behind the operation that waits, completes the
whole. The value is that of the operation on the values of the parts, by
`valueAt_hold`; whatever else waited, waits again. -/
theorem Took.both {level tighter : Level} {s s₁ s₂ : State} {x y v w : Number}
    {env env' : Environment} {names names' : List String} {operator : BinaryOperator}
    (hlevel : level ∈ [.power, .term, .product, .sum])
    (hs : s.statement.clear level = s.statement) (hlt : level.rank < tighter.rank)
    (hleft : Took level s x env s₁ v names)
    (hright : Took tighter
      (s₁.await ((s₁.statement.clear level).hold level operator (s₁.statement.valueAt level v)))
      y env' s₂ w names') :
    Took level s (operator.apply x y) env' s₂ w names' := by
  have hsum : Level.sum.rank ≤ level.rank := sum_le_of_mem hlevel
  have hclear : s₁.statement.clear level = s.statement := by
    rw [hleft.statement, hleft.names_nil hsum]
    rfl
  have hnames : names' = [] := hright.names_nil (Nat.le_trans hsum (Nat.le_of_lt hlt))
  -- Behind the right part the operation still waits, and nothing does that
  -- is tighter.
  have hstatement : s₂.statement.clear tighter = s.statement.hold level operator x := by
    rw [hright.statement, hnames]
    show (s₁.statement.clear level).hold level operator (s₁.statement.valueAt level v) = _
    rw [hclear, hleft.value]
  refine ⟨hright.focus, ?_, ?_, ?_, ?_, fun _ => hnames, ?_⟩
  · rw [hright.enclosing]
    exact hleft.enclosing
  · rw [hright.diagnostic]
    exact hleft.diagnostic
  · rw [← clear_clear (Nat.le_of_lt hlt), hstatement, clear_hold_self, hs, hnames]
    rfl
  · rw [← valueAt_clear (Nat.le_of_lt hlt), hstatement, hright.value,
      valueAt_hold hlevel hs]
  · rw [hright.environment, hnames]
    rfl

/-- Two parts with an operation between them agree with their run if both
parts do. The token `t` is the first one behind the left part: an operator,
or the beginning of a factor, which `hnext` tells to be the same as an
operation that waits. -/
theorem agrees_both {setting : Setting} {level tighter : Level} {s : State} {left right : Expr}
    {operator : BinaryOperator} {t : Token} {ts : List Token}
    (hlevel : level ∈ [.power, .term, .product, .sum])
    (hs : s.statement.clear level = s.statement) (hlt : level.rank < tighter.rank)
    (ht : t.kind ≠ .assign)
    (hnext : ∀ (s' : State) v, s'.focus = .value v →
      State.reading setting s' (t :: ts) = State.reading setting
        (s'.await ((s'.statement.clear level).hold level operator (s'.statement.valueAt level v)))
        right.tokens)
    (hleft : Agrees (left.evaluate s.environment) (State.reading setting s left.tokens)
      (Reads level s))
    (hright : ∀ s', Awaits tighter s' →
      Agrees (right.evaluate s'.environment) (State.reading setting s' right.tokens)
        (Reads tighter s')) :
    Agrees (Expr.both operator left.evaluate right.evaluate s.environment)
      (State.reading setting s (left.tokens ++ t :: ts)) (Reads level s) := by
  have hsum : Level.sum.rank ≤ level.rank := sum_le_of_mem hlevel
  rw [State.reading_append_cons setting s _ _ ht]
  refine Agrees.bind hleft ?_
  rintro x env s₁ ⟨v, names, hfirst⟩
  -- Below an assignment no names wait, so the variables are those that the
  -- state has.
  have henv : env = s₁.environment := by rw [hfirst.environment, hfirst.names_nil hsum]; rfl
  rw [hnext s₁ v hfirst.focus, henv, ← bind_pure (State.reading setting _ right.tokens)]
  refine Agrees.bind (hright _ (hfirst.awaits hs hsum hlt operator)) ?_
  rintro y env' s₂ ⟨w, names', hsecond⟩
  exact ⟨s₂, rfl, w, names', hfirst.both hlevel hs hlt hsecond⟩

/-- A row of factors goes on with an operation held at its level. This and
the next three tie the steps of the model to `hold`. -/
theorem awaitFactor_eq_hold (s : Statement) (x : Number) :
    s.awaitFactor x = (s.clear .term).hold .term .mul (s.valueAt .term x) := rfl

/-- A power goes on with an operation held at its level, which is the
tightest that can wait. -/
theorem awaitAfter_caret (s : Statement) (x : Number) :
    s.awaitAfter x .caret = some ((s.clear .power).hold .power .pow (s.valueAt .power x)) := rfl

/-- A product goes on with an operation held at its level. The row of
factors before it is settled with its sign. -/
theorem awaitAfter_product (s : Statement) (x : Number) (sign : ProductSign) :
    s.awaitAfter x sign.kind
      = some ((s.clear .product).hold .product sign.operator (s.valueAt .product x)) := by
  cases sign <;> rfl

/-- A sum goes on with an operation held at its level. Nothing but the names
waits around it. -/
theorem awaitAfter_sum (s : Statement) (x : Number) (sign : SumSign) :
    s.awaitAfter x sign.kind
      = some ((s.clear .sum).hold .sum sign.operator (s.valueAt .sum x)) := by
  cases sign <;> rfl

/-- Two parts with an operator between them agree with their run if both
parts do. The hypotheses on the parts are what the induction gives for
them. -/
theorem agrees_operator {setting : Setting} {level tighter : Level} {s : State} {left right : Expr}
    {operator : BinaryOperator} {kind : Kind}
    (hlevel : level ∈ [.power, .term, .product, .sum])
    (hs : s.statement.clear level = s.statement) (hlt : level.rank < tighter.rank)
    (hwaits : ∀ (statement : Statement) v, statement.awaitAfter v kind
      = some ((statement.clear level).hold level operator (statement.valueAt level v)))
    (mark : Span)
    (hleft : Agrees (left.evaluate s.environment) (State.reading setting s left.tokens)
      (Reads level s))
    (hright : ∀ s', Awaits tighter s' →
      Agrees (right.evaluate s'.environment) (State.reading setting s' right.tokens)
        (Reads tighter s')) :
    Agrees (Expr.both operator left.evaluate right.evaluate s.environment)
      (State.reading setting s (left.tokens ++ .bare kind mark :: right.tokens))
      (Reads level s) := by
  -- An operator that waits for its right side is not a mark that assigns.
  have hkind : kind ≠ .assign := by
    intro h
    subst h
    cases hwaits {} .nan
  exact agrees_both hlevel hs hlt hkind
    (fun s' v hv => reading_operator hv (hwaits s'.statement v) mark _) hleft hright

/-! ### The other rules

How the contract of a part becomes that of the whole, where the whole is not
two parts with an operation between them. -/

/-- Behind a sign a row of factors is awaited, and no other sign, as the
statement remembers the first. -/
theorem Awaits.sign {s : State} (h : Awaits .signed s) :
    Awaits .term (s.await { s.statement with negated := true }) := by
  refine ⟨rfl, ?_, fun h => by cases h⟩
  show { s.statement with negated := true }.clear .term = _
  rw [← h.clear]
  rfl

/-- Behind a name to assign and its mark another assignment is awaited, as
nothing was read but names. -/
theorem Awaits.target {s : State} (h : Awaits .assignment s) (name : String) :
    Awaits .assignment (s.await { s.statement with targets := name :: s.statement.targets }) := by
  refine ⟨rfl, ?_, fun h => by cases h⟩
  show { s.statement with targets := name :: s.statement.targets }.clear .assignment = _
  rw [clear_targets, h.clear]
  rfl

/-- A row of factors was read behind a sign. The sign waits like an
operation, at a level of its own, and is applied when the row has ended. -/
theorem Took.negated {s s' : State} {x v : Number} {env : Environment} {names : List String}
    (h : Took .term (s.await { s.statement with negated := true }) x env s' v names)
    (hs : s.statement.clear .signed = s.statement) :
    Took .signed s (-x) env s' v [] := by
  have hnames : names = [] := h.names_nil (by decide)
  subst hnames
  refine ⟨h.focus, h.enclosing, h.diagnostic, ?_, ?_, fun _ => rfl, h.environment⟩
  · rw [← clear_clear (by decide : Level.signed.rank ≤ Level.term.rank), h.statement]
    exact hs
  · rw [← valueAt_clear (by decide : Level.signed.rank ≤ Level.term.rank), h.statement, h.value]
    show { s.statement with negated := true }.valueAt .signed x = -x
    rw [← hs]
    rfl

/-- Where an expression of a level is awaited, one of a tighter level is, if
no sequence is. A part of an expression begins where the expression does,
without another step. -/
theorem Awaits.tighten {level tighter : Level} {s : State} (h : Awaits level s)
    (hle : level.rank ≤ tighter.rank) : Awaits tighter s := by
  refine ⟨h.focus, clear_of_clear hle h.clear, fun htighter => h.targets ?_⟩
  subst htighter
  cases level <;> first | rfl | (simp [Level.rank] at hle)

/-- A meaning that agrees with its run at a tighter level does so at a
looser one. A derivation may stand wherever its own level or a looser one is
asked for; the cases of `reading_tokens` prove it at its own. -/
theorem Agrees.loosen {meaning : Except Failure (Number × Environment)} {run : Except Failure State}
    {level tighter : Level} {s : State} (h : Agrees meaning run (Reads tighter s))
    (hle : level.rank ≤ tighter.rank) (hs : s.statement.clear level = s.statement) :
    Agrees meaning run (Reads level s) :=
  h.mono fun _ _ _ ⟨v, names, htook⟩ => ⟨v, names, htook.loosen hle hs⟩

/-- The body of an assignment was read behind its name and mark: the name is
the last one that the value is for. Nothing is assigned yet. The names wait
until the statement ends, the inner ones for being assigned first. -/
theorem Took.assigned {s s' : State} {name : String} {x v : Number} {env : Environment}
    {names : List String}
    (h : Took .assignment (s.await { s.statement with targets := name :: s.statement.targets })
      x env s' v names) :
    Took .assignment s x (env.set name x) s' v (names ++ [name]) where
  focus := h.focus
  enclosing := h.enclosing
  diagnostic := h.diagnostic
  statement := by
    rw [h.statement, List.append_assoc]
    rfl
  value := h.value
  names_nil := fun hsum => absurd hsum (by decide)
  environment := by
    rw [h.environment, List.foldl_append]
    rfl

/-- A sequence was read: its last statement can end. The waiting names are
those of the sequence, as it began with none, and get the value now; so the
variables are those of the meaning. -/
theorem Took.endStatement {s s' : State} {x v : Number} {env : Environment} {names : List String}
    (h : Took .sequence s x env s' v names) (hs : s.statement.targets = []) :
    s'.endStatement v = (x, { s' with environment := env, statement := {} }) := by
  have htargets : s'.statement.targets = names := by
    rw [show s'.statement.targets = (s'.statement.clear .sequence).targets from rfl, h.statement]
    show names ++ s.statement.targets = names
    rw [hs, List.append_nil]
  have hvalue : s'.statement.value v = x := h.value
  rw [State.endStatement, hvalue, Statement.assign, htargets, ← h.environment]

/-- The sequence in a group was read: if the group ends there, it is an
operand. Stated without the token that ends it, for the proofs in which the
parenthesis is missing. -/
theorem Took.endGroup {s s' : State} {x v : Number} {env : Environment} {names : List String}
    (h : Took .sequence (s.openGroup s.statement) x env s' v names) :
    (s'.endStatement v).2.closeGroup (s'.endStatement v).1
      = { s with environment := env }.take x := by
  have henclosing : s'.enclosing = s.statement :: s.enclosing := h.enclosing
  have hdiagnostic : s'.diagnostic = s.diagnostic := h.diagnostic
  simp [h.endStatement rfl, State.closeGroup, State.take, henclosing, hdiagnostic]

/-- The sequence in a group was read: with the parenthesis that closes it,
it is an operand. The statement around the group is the one that the state
had before it. -/
theorem Took.closeGroup {setting : Setting} {s s' : State} {x v : Number} {env : Environment}
    {names : List String} (h : Took .sequence (s.openGroup s.statement) x env s' v names)
    (closing : Span) :
    State.reading setting s' [.bare .closeParen closing]
      = .ok ({ s with environment := env }.take x) := by
  rw [State.reading_cons, State.feed_closeParen (.value h.focus) h.enclosing, ok_bind, h.endGroup]
  rfl

/-- A sequence was read and a mark behind it: the next statement begins in
its environment. -/
theorem Took.feed_semicolon {setting : Setting} {s s' : State} {x v : Number} {env : Environment}
    {names : List String} (h : Took .sequence s x env s' v names)
    (hs : s.statement.targets = []) (mark : Span) :
    State.feed setting s' (.bare .semicolon mark)
      = .ok ({ s with environment := env }.await {}) := by
  rw [State.feed_semicolon (.value h.focus), h.endStatement hs]
  simp only [State.await, h.enclosing, h.diagnostic]

/-- A sequence was read and a mark behind it: the next statement is read in
its environment. -/
theorem Took.semicolon {setting : Setting} {s s' : State} {x v : Number} {env : Environment}
    {names : List String} (h : Took .sequence s x env s' v names)
    (hs : s.statement.targets = []) (mark : Span) (ts : List Token) :
    State.reading setting s' (.bare .semicolon mark :: ts)
      = State.reading setting ({ s with environment := env }.await {}) ts := by
  rw [State.reading_cons, h.feed_semicolon hs, ok_bind]

/-- The statement behind a mark was read: with the ones before it, it is the
sequence. The value is that of the last statement, the variables have the
assignments of all. -/
theorem Took.sequence {s s' : State} {y w : Number} {env env' : Environment} {names : List String}
    (h : Took .assignment ({ s with environment := env }.await {}) y env' s' w names)
    (hs : s.statement = {}) : Took .sequence s y env' s' w names := by
  have hsequence := h.loosen (by decide : Level.sequence.rank ≤ Level.assignment.rank) rfl
  refine ⟨hsequence.focus, hsequence.enclosing, hsequence.diagnostic, ?_, hsequence.value,
    hsequence.names_nil, hsequence.environment⟩
  rw [hsequence.statement, hs]
  rfl

/-! ### The meaning of a derivation

The induction that puts the rules together. -/

/-- The tokens of a derivation, read where an expression of its level is
awaited, have the effect of its meaning. Induction on the derivation: a part
is read where the ones before it have left their operations waiting, and
what waits is looser than the part, so it is undisturbed. -/
theorem reading_tokens (setting : Setting) (e : Expr) :
    ∀ (level : Level) (s : State), e.Valid → e.Fits level → Awaits level s →
      Agrees (e.evaluate s.environment) (State.reading setting s e.tokens) (Reads level s) := by
  induction e with
  | number x span =>
      intro level s _ _ h
      exact ⟨_, reading_number h.focus x span, x, [], took_take h x _⟩
  | identifier name span =>
      intro level s _ _ h
      rw [Expr.tokens, reading_identifier h.focus, Expr.evaluate, State.read]
      cases s.environment.get? name with
      | none => rfl
      | some x => exact ⟨_, rfl, x, [], took_take h x _⟩
  | group opening body closing ih =>
      intro level s hvalid _ h
      rw [Expr.tokens, reading_group h.focus, Expr.evaluate, ← bind_pure (body.evaluate _)]
      -- Whatever waits is put aside, so the body is read as a sequence from
      -- its beginning.
      refine Agrees.bind
        (ih .sequence (s.openGroup s.statement) hvalid (Nat.zero_le _) ⟨rfl, rfl, fun _ => rfl⟩) ?_
      rintro x env s' ⟨v, names, htook⟩
      exact ⟨_, htook.closeGroup closing, x, [], took_take h x env⟩
  | power base mark exponent ihbase ihexponent =>
      intro level s hvalid hfits h
      have hle : level.rank ≤ Level.power.rank := hfits
      have h' : Awaits .power s := h.tighten hle
      refine Agrees.loosen ?_ hle h.clear
      exact agrees_operator (by simp) h'.clear (by decide : _ < Level.primary.rank)
        awaitAfter_caret mark (ihbase .power s hvalid.1 hvalid.2.1 h')
        (fun s' hs' => ihexponent .primary s' hvalid.2.2.1 hvalid.2.2.2 hs')
  | factors left right ihleft ihright =>
      intro level s hvalid hfits h
      have hle : level.rank ≤ Level.term.rank := hfits
      have h' : Awaits .term s := h.tighten hle
      obtain ⟨t, ts, htokens, ht⟩ := tokens_beginsFactor hvalid.2.2.1
        (Nat.le_trans (by decide) hvalid.2.2.2)
      refine Agrees.loosen ?_ hle h.clear
      rw [Expr.tokens, htokens]
      -- No mark stands between factors: the run is cut in front of the one
      -- that comes next.
      exact agrees_both (by simp) h'.clear (by decide : _ < Level.power.rank) ht.kind_ne_assign
        (fun s' v hv => by
          rw [htokens, ← awaitFactor_eq_hold]
          exact reading_factor hv ht ts)
        (ihleft .term s hvalid.1 hvalid.2.1 h')
        (fun s' hs' => ihright .power s' hvalid.2.2.1 hvalid.2.2.2 hs')
  | product left sign mark right ihleft ihright =>
      intro level s hvalid hfits h
      have hle : level.rank ≤ Level.product.rank := hfits
      have h' : Awaits .product s := h.tighten hle
      refine Agrees.loosen ?_ hle h.clear
      exact agrees_operator (by simp) h'.clear (by decide : _ < Level.signed.rank)
        (fun statement v => awaitAfter_product statement v sign) mark
        (ihleft .product s hvalid.1 hvalid.2.1 h')
        (fun s' hs' => ihright .signed s' hvalid.2.2.1 hvalid.2.2.2 hs')
  | sum left sign mark right ihleft ihright =>
      intro level s hvalid hfits h
      have hle : level.rank ≤ Level.sum.rank := hfits
      have h' : Awaits .sum s := h.tighten hle
      refine Agrees.loosen ?_ hle h.clear
      exact agrees_operator (by simp) h'.clear (by decide : _ < Level.product.rank)
        (fun statement v => awaitAfter_sum statement v sign) mark
        (ihleft .sum s hvalid.1 hvalid.2.1 h')
        (fun s' hs' => ihright .product s' hvalid.2.2.1 hvalid.2.2.2 hs')
  | negated mark body ih =>
      intro level s hvalid hfits h
      have hle : level.rank ≤ Level.signed.rank := hfits
      have h' : Awaits .signed s := h.tighten hle
      refine Agrees.loosen ?_ hle h.clear
      -- The sign stands in the statement while the body is read, and
      -- negates its value at the end.
      rw [Expr.tokens, reading_sign h.focus h'.clear, Expr.evaluate,
        ← bind_pure (State.reading setting _ body.tokens)]
      refine Agrees.bind (ih .term _ hvalid.1 hvalid.2 h'.sign) ?_
      rintro x env s' ⟨v, names, htook⟩
      exact ⟨s', rfl, v, [], htook.negated h'.clear⟩
  | assignment name span mark body ih =>
      intro level s hvalid hfits h
      have hle : level.rank ≤ Level.assignment.rank := hfits
      have h' : Awaits .assignment s := h.tighten hle
      refine Agrees.loosen ?_ hle h.clear
      rw [Expr.tokens, reading_target h.focus h'.clear, Expr.evaluate,
        ← bind_pure (State.reading setting _ body.tokens)]
      refine Agrees.bind (ih .assignment _ hvalid.1 hvalid.2 (h'.target name)) ?_
      rintro x env s' ⟨v, names, htook⟩
      exact ⟨s', rfl, v, _, htook.assigned⟩
  | sequence first mark second ihfirst ihsecond =>
      intro level s hvalid hfits h
      -- Nothing is looser than a sequence, so nothing waits for one.
      have hlevel : level = .sequence := by
        have hrank : level.rank ≤ Level.sequence.rank := hfits
        revert hrank
        cases level <;> simp [Level.rank]
      subst hlevel
      have htargets : s.statement.targets = [] := h.targets rfl
      have hstatement : s.statement = {} := by rw [← h.clear, clear, htargets]
      rw [Expr.tokens, State.reading_append_cons setting s _ _ (fun h => by cases h), Expr.evaluate]
      refine Agrees.bind (ihfirst .sequence s hvalid.1 (Nat.zero_le _) h) ?_
      -- The mark ends the first part with its assignments, and the second
      -- one begins behind them.
      rintro x env s₁ ⟨v, names, hfirst⟩
      rw [hfirst.semicolon htargets, ← bind_pure (State.reading setting _ second.tokens)]
      have hsecond : Awaits .assignment ({ s with environment := env }.await {}) :=
        ⟨rfl, rfl, fun h => by cases h⟩
      refine Agrees.bind (ihsecond .assignment _ hvalid.2.1 hvalid.2.2 hsecond) ?_
      rintro y env' s₂ ⟨w, names', htook⟩
      exact ⟨s₂, rfl, w, names', htook.sequence hstatement⟩

/-! ### The outcome of a whole text

A text begins where a sequence is awaited, and ends where it has been
read. -/

/-- The outcome of a text that means what is given: its value without a
complaint, or its failure. -/
def Outcome.ofMeaning : Except Failure (Number × Environment) → Outcome
  | .ok (x, env) => { result := .ok { value := x, diagnostic := none }, environment := env }
  | .error failure => { result := .error failure.error, environment := failure.environment }

/-- The outcome of a text that a derivation spells is that of the meaning of
the derivation. From `reading_tokens`, for the level of sequences and a
state in which nothing has been read; what is left is the end of the text,
where the last statement ends. -/
theorem evaluateTokens_tokens (setting : Setting) (env : Environment) {e : Expr} (h : e.Valid)
    (stop : Nat) :
    evaluateTokens setting env e.tokens stop = .ofMeaning (e.evaluate env) := by
  -- A run ends with what is left to read, so that its end can be compared
  -- with the tree.
  have hresolve : (fun s : State => s.ending setting stop)
      = fun s => s.resolve >>= fun s => s.ending setting stop :=
    funext fun s => State.ending_eq_resolve setting s stop
  rw [evaluateTokens_eq, State.run, hresolve, ← bind_assoc]
  have hagrees := reading_tokens setting e .sequence { environment := env } h (Nat.zero_le _)
    ⟨rfl, rfl, fun _ => rfl⟩
  rw [State.reading] at hagrees
  cases hmeaning : e.evaluate env with
  | error failure =>
      simp only [hmeaning, Agrees] at hagrees
      rw [hagrees]
      rfl
  | ok p =>
      simp only [hmeaning, Agrees] at hagrees
      obtain ⟨s, hrun, v, names, htook⟩ := hagrees
      have henclosing : s.enclosing = [] := htook.enclosing
      have hdiagnostic : s.diagnostic = none := htook.diagnostic
      rw [hrun, ok_bind, State.ending_of_ready (.value htook.focus),
        State.endingWith_outside henclosing, htook.endStatement rfl, hdiagnostic]
      show Outcome.ofRun (.ok (⟨s.statement.value v, none⟩, p.2)) = _
      rw [show s.statement.value v = p.1 from htook.value]
      rfl

end DeskCalculator
