import DeskCalculator.Proofs.Descent.Complaints

/-!
# `DeskCalculator.Proofs.Descent.Rules`: a rule does what a run does

A rule is called where a run waits for an expression of its level
(`Enters`). It yields the value that the run computes from the tokens it
consumes, and leaves the run waiting for what comes behind them, or it fails
as the run does (`Answers`). What it consumes is also said: nothing that is
not there, and something if a factor comes first. And when it is done, no
rule of its level or a tighter one goes on with the token looked at
(`Settled`).

`body_answers` proves this of the body of a rule, from the same about its
calls. Of these it asks only for those that come behind a token or have a
lower rank, so it does not depend on how the recursion is made to end.

There is one lemma for each form of body: rows and what is left of them
(`answers_row`, `answers_more`), assignments (`answers_assignment`), signs
(`answers_signed`) and primary expressions (`answers_primary`). Each
executes its body up to a call, shows that the run is then where the call
may be made, and continues with what the call returns (`Answers.bind`, or
`Answers.last` if nothing comes behind the call).
-/

set_option autoImplicit false

namespace DeskCalculator

open Statement
open Text (byteLength)

/-! ### Where a rule is called

What holds of the run and of the parser at a call. The two conditions on the
next token say that a rule which does not look for a name to assign, or a
sign, is not called in front of one. -/

/-- The first token is no name that is assigned to, if the statement is one
that could assign. A rule of a level from `Level.sum` on reads a name as a
variable, so it is called only where this holds; the rule for assignments
has looked at the token behind the name before. -/
def Unassigned (s : State) (rest : List Token) : Prop :=
  s.statement.allowsTarget = true → ∀ t u more, rest = t :: u :: more → t.kind = .identifier →
    u.kind ≠ .assign

/-- The level of what a rule reads. What is left of a row is, with the part
read before, an expression of the level of the row. -/
def Rule.level : Rule → Level
  | expression level => level
  | more level _ => level

/-- A rule is called with the parser `p` in front of `rest`, while the run
is in the state `s₁`. It reads an expression for which the state `s` waits.
The two states are the same but for what is left of a row, where the run has
read the first part already. -/
inductive Enters : Rule → State → State → Parser → List Token → Prop where
  /-- The expression begins. Where an assignment or a sign could begin it
  but not the level, there is none. -/
  | expression {level : Level} {s : State} {p : Parser} {rest : List Token}
      (awaits : Awaits level s) (environment : s.environment = p.environment)
      (diagnostic : s.diagnostic = p.diagnostic)
      (unassigned : Level.sum.rank ≤ level.rank → Unassigned s rest)
      (unsigned : Level.term.rank ≤ level.rank → Unsigned s rest) :
      Enters (.expression level) s s p rest
  /-- The value of the row so far was read. -/
  | more {level : Level} {x : Number} {s s₁ : State} {p : Parser} {rest : List Token}
      (awaits : Awaits level s)
      (reads : Reads level { s with diagnostic := p.diagnostic } x p.environment s₁)
      (settled : Settled level.operand p.lookahead.kind) :
      Enters (.more level x) s s₁ p rest

/-! ### What a rule answers

What is proved of every rule, with the two lemmas by which a body goes on
behind a call, or ends with one. -/

/-- The rule yields `y`, and leaves the parser `p` in front of `rest'`. The
run comes to the state `s₂`, with an expression read for which `s` waited.
What is read is stated for `s` with the complaint of `p`, as the rule may
have made the first one. -/
structure Returns (text : String) (setting : Setting) (rule : Rule) (s s₁ : State)
    (rest : List Token) (y : Number) (p : Parser) (rest' : List Token) (s₂ : State) : Prop where
  position : p.At text rest'
  run : State.run setting (byteLength text.toList) s₁ rest
    = State.run setting (byteLength text.toList) s₂ rest'
  reads : Reads rule.level { s with diagnostic := p.diagnostic } y p.environment s₂
  settled : Settled rule.level p.lookahead.kind
  length_le : rest'.length ≤ rest.length
  /-- A whole expression that begins with a factor consumes one. -/
  length_lt : ∀ level, rule = .expression level → ∀ t ∈ rest.head?, t.kind.startsFactor = true →
    rest'.length < rest.length

/-- The rule returns, or fails as the run does. It is not refused a call. A
failure has the variables of the parser, and what was consumed by then is a
beginning of the tokens of the text. -/
def Answers (text : String) (setting : Setting) (rule : Rule) (s s₁ : State) (rest : List Token) :
    EStateM.Result Halt Parser Number → Prop
  | .ok y p => ∃ rest' s₂, Returns text setting rule s s₁ rest y p rest' s₂
  | .error (.failed error) p =>
    State.run setting (byteLength text.toList) s₁ rest = .error ⟨error, p.environment⟩ ∧
      p.consumed <+: (Cursor.ofText text).tokens.map Token.toSpan
  | .error .refused _ => False

/-- The calls that the rule may make, in front of `rest` or behind some of
these tokens, are answered. This is the hypothesis of the induction, for
both runners: `Rule.descend` allows just these calls, and they are nested no
deeper than `Rule.within` reaches. -/
def Answerable (text : String) (setting : Setting) (call : Rule → Descent Number) (rule : Rule)
    (rest : List Token) : Prop :=
  ∀ (callee : Rule) (s s₁ : State) (p : Parser) (rest' : List Token), p.At text rest' →
    Enters callee s s₁ p rest' →
      rest'.length < rest.length ∨ rest'.length = rest.length ∧ callee.rank < rule.rank →
        Answers text setting callee s s₁ rest' (call callee p)

section Answers

variable {text : String} {setting : Setting} {rule callee : Rule} {s s₁ s' s₁' : State}
  {rest rest' : List Token} {p : Parser}

/-- What a rule does behind a call answers if the call does. The run comes
to where the call is made, and goes on from where it returns. A failure of
the call is one of the rule, and a call that is not refused makes the rule
not refused. -/
theorem Answers.bind {x : Descent Number} {f : Number → Descent Number}
    (h : Answers text setting callee s' s₁' rest' (x p))
    (hrun : State.run setting (byteLength text.toList) s₁ rest
      = State.run setting (byteLength text.toList) s₁' rest')
    (hnext : ∀ y q rest'' s₂, Returns text setting callee s' s₁' rest' y q rest'' s₂ →
      Answers text setting rule s s₁ rest (f y q)) :
    Answers text setting rule s s₁ rest ((x >>= f) p) := by
  rw [Descent.bind_apply]
  cases hx : x p with
  | ok y q =>
      rw [hx] at h
      obtain ⟨rest'', s₂, hreturns⟩ := h
      exact hnext y q rest'' s₂ hreturns
  | error halt q =>
      rw [hx] at h
      cases halt with
      | failed error => exact ⟨hrun.trans h.1, h.2⟩
      | refused => exact h

/-- A call that a rule ends with answers for it, with the same value and
parser. -/
theorem Answers.last {result : EStateM.Result Halt Parser Number}
    (h : Answers text setting callee s' s₁' rest' result)
    (hrun : State.run setting (byteLength text.toList) s₁ rest
      = State.run setting (byteLength text.toList) s₁' rest')
    (hreturns : ∀ y q rest'' s₂, Returns text setting callee s' s₁' rest' y q rest'' s₂ →
      Returns text setting rule s s₁ rest y q rest'' s₂) :
    Answers text setting rule s s₁ rest result := by
  cases result with
  | ok y q =>
      obtain ⟨rest'', s₂, h⟩ := h
      exact ⟨rest'', s₂, hreturns y q rest'' s₂ h⟩
  | error halt q =>
      cases halt with
      | failed error => exact ⟨hrun.trans h.1, h.2⟩
      | refused => exact h

end Answers

/-! ### Rows

Five levels are rows and have one body. A row calls for its first operand
and then for what is left, which calls for one operand and then for
itself. -/

section Rows

variable {text : String} {setting : Setting} {call : Rule → Descent Number} {level : Level}
  {x : Number} {s s₁ : State} {p : Parser} {rest : List Token}

/-- Where a row goes on, its next operand and what is left behind that are
read. Something is consumed on the way: the mark, or else the factor that
comes first. That is why the second call, which is to the same rule, is
allowed. -/
theorem answers_joined (hcalls : Answerable text setting call (.more level x) rest)
    (hawaits : Awaits level s) {operator : BinaryOperator} {s₂ : State} {q : Parser}
    {rest₂ : List Token} (hq : q.At text rest₂)
    (h : Joined level operator s x q.environment q.diagnostic s₂)
    (hrun : State.run setting (byteLength text.toList) s₁ rest
      = State.run setting (byteLength text.toList) s₂ rest₂)
    (hlength : rest₂.length < rest.length ∨
      rest₂.length = rest.length ∧ ∃ t ∈ rest₂.head?, t.kind.startsFactor = true) :
    Answers text setting (.more level x) s s₁ rest
      ((call (.expression level.operand) >>= fun y =>
        call (.more level (operator.apply x y))) q) := by
  -- Nothing is assigned to behind a mark, and no sign stands in front of a
  -- factor.
  have henters : Enters (.expression level.operand) s₂ s₂ q rest₂ :=
    .expression h.awaits h.environment h.diagnostic
      (fun hle hallows => by cases (h.unassigned hle).symm.trans hallows)
      (fun hle hallows => by cases (h.unsigned hle).symm.trans hallows)
  have hallowed : rest₂.length < rest.length ∨ rest₂.length = rest.length ∧
      (Rule.expression level.operand).rank < (Rule.more level x).rank :=
    hlength.imp id fun hsame => ⟨hsame.1, Rule.rank_expression_lt_more h.rank_lt x⟩
  refine Answers.bind (hcalls _ s₂ s₂ q rest₂ hq henters hallowed) hrun
    fun y r rest₃ s₃ hreturns => ?_
  -- Fewer tokens are left behind the operand than where the row went on.
  have hless : rest₃.length < rest.length := by
    rcases hlength with hlt | ⟨heq, t, ht, hfactor⟩
    · exact Nat.lt_of_le_of_lt hreturns.length_le hlt
    · exact heq ▸ hreturns.length_lt _ rfl t ht hfactor
  refine (hcalls (.more level (operator.apply x y)) s s₃ r rest₃ hreturns.position
    (.more hawaits (h.both _ _ _ _ hreturns.reads) hreturns.settled) (.inl hless)).last
    (hrun.trans hreturns.run) fun z p' rest' s' hmore => ?_
  exact ⟨hmore.position, (hrun.trans hreturns.run).trans hmore.run, hmore.reads, hmore.settled,
    Nat.le_trans hmore.length_le (Nat.le_of_lt hless), fun _ heq => by cases heq⟩

/-- What is left of a row is read. If the row goes on, a mark is consumed
first, except in a row of factors; `answers_joined` does the rest. -/
theorem answers_more (hcalls : Answerable text setting call (.more level x) rest)
    (hp : p.At text rest) (h : Enters (.more level x) s s₁ p rest) :
    Answers text setting (.more level x) s s₁ rest ((Rule.more level x).body setting call p) := by
  cases h with
  | more awaits reads settled =>
  cases hjoins : level.joins p.lookahead.kind with
  | none =>
      have hbody : (Rule.more level x).body setting call p = .ok x p := by
        simp [Rule.body, hjoins]
      rw [hbody]
      exact ⟨rest, s₁, hp, rfl, reads, settled.of_operand hjoins, Nat.le_refl _,
        fun _ heq => by cases heq⟩
  | some operator =>
      have hkind : p.lookahead.kind ≠ .endOfInput := by
        intro hend
        rw [hend] at hjoins
        cases level.joins_endOfInput.symm.trans hjoins
      obtain ⟨t, more, rfl, hlookahead⟩ := hp.exists_cons hkind
      rw [hlookahead] at hjoins
      obtain ⟨s₂, hjoined, hrun⟩ := exists_joined awaits reads hjoins hp.beginsFactor
      by_cases hterm : level = .term
      · subst hterm
        have hbody : (Rule.more .term x).body setting call p
            = (call (.expression .power) >>= fun y =>
                call (.more .term (operator.apply x y))) p := by
          simp [Rule.body, hlookahead, hjoins, Level.operand]
        rw [hbody]
        refine answers_joined hcalls awaits hp hjoined ?_
          (.inr ⟨rfl, t, rfl, (eq_of_joins_term hjoins).1⟩)
        rw [hrun, if_pos rfl]
      · have hbody : (Rule.more level x).body setting call p
            = (call (.expression level.operand) >>= fun y =>
                call (.more level (operator.apply x y))) p.advance := by
          simp [Rule.body, hlookahead, hjoins, hterm]
        rw [hbody]
        refine answers_joined hcalls awaits hp.advance hjoined ?_
          (.inl (Nat.lt_succ_self more.length))
        rw [hrun, if_neg hterm]

/-- A row is read: its first operand, and what is left. Both calls may be
made behind no token, as their ranks are lower. -/
theorem answers_row (hlevel : level ∈ [.sequence, .sum, .product, .term, .power])
    (hcalls : Answerable text setting call (.expression level) rest) (hp : p.At text rest)
    (h : Enters (.expression level) s s₁ p rest) :
    Answers text setting (.expression level) s s₁ rest
      ((Rule.expression level).body setting call p) := by
  have hbody : (Rule.expression level).body setting call
      = call (.expression level.operand) >>= fun x => call (.more level x) := by
    revert hlevel
    cases level <;> first | exact fun _ => rfl | simp
  have hlt : level.rank < level.operand.rank := by
    revert hlevel
    cases level <;> simp [Level.rank, Level.operand]
  cases h with
  | expression awaits environment diagnostic unassigned unsigned =>
  have henters : Enters (.expression level.operand) s s p rest := by
    -- Where an assignment or a sign could begin an operand but not the row,
    -- the row begins with it.
    refine .expression (awaits.tighten (Nat.le_of_lt hlt)) environment diagnostic
      (fun hle => unassigned ?_) (fun hle => unsigned ?_)
    all_goals
      revert hlevel hle
      cases level <;> simp [Level.rank, Level.operand]
  rw [hbody]
  refine Answers.bind (hcalls _ s s p rest hp henters (.inr ⟨rfl, Rule.rank_expression_lt hlt⟩)) rfl
    fun x q rest₂ s₂ hreturns => ?_
  have hmore : Enters (.more level x) s s₂ q rest₂ :=
    .more awaits (hreturns.reads.loosen (Nat.le_of_lt hlt) awaits.clear) hreturns.settled
  have hallowed : rest₂.length < rest.length ∨ rest₂.length = rest.length ∧
      (Rule.more level x).rank < (Rule.expression level).rank :=
    (Nat.lt_or_eq_of_le hreturns.length_le).imp id fun heq => ⟨heq, Rule.rank_more_lt level x⟩
  refine (hcalls _ s s₂ q rest₂ hreturns.position hmore hallowed).last hreturns.run
    fun y r rest' s' hrest => ?_
  exact ⟨hrest.position, hreturns.run.trans hrest.run, hrest.reads, hrest.settled,
    Nat.le_trans hrest.length_le hreturns.length_le, fun _ _ t ht hfactor =>
      Nat.lt_of_le_of_lt hrest.length_le (hreturns.length_lt _ rfl t ht hfactor)⟩

end Rows

/-! ### Assignments and signs

Two levels that look at the next token to decide whether they have a mark of
their own. If not, they are their operand. -/

section Parts

variable {text : String} {setting : Setting} {call : Rule → Descent Number} {s s₁ : State}
  {p : Parser} {rest : List Token}

/-- What is no row and does not begin with a mark of its level is read as
its operand. This is how a sum is an assignment that assigns nothing, and a
row of factors a signed one without a sign. -/
theorem answers_plain {level : Level} (hlt : level.rank < level.operand.rank)
    (hjoins : ∀ kind, level.joins kind = none)
    (hcalls : Answerable text setting call (.expression level) rest) (hp : p.At text rest)
    (awaits : Awaits level s) (h : Enters (.expression level.operand) s s p rest) :
    Answers text setting (.expression level) s s rest (call (.expression level.operand) p) := by
  refine (hcalls _ s s p rest hp h (.inr ⟨rfl, Rule.rank_expression_lt hlt⟩)).last rfl
    fun x q rest' s' hreturns => ?_
  exact ⟨hreturns.position, hreturns.run,
    hreturns.reads.loosen (Nat.le_of_lt hlt) awaits.clear,
    Settled.of_operand hreturns.settled (hjoins _), hreturns.length_le,
    fun _ _ => hreturns.length_lt _ rfl⟩

/-- An assignment is read: its name and mark and its body, or a sum. The run
reads the name before it sees the mark, so its step at the mark is what
makes the name a target (`State.feed_target`). -/
theorem answers_assignment
    (hcalls : Answerable text setting call (.expression .assignment) rest) (hp : p.At text rest)
    (h : Enters (.expression .assignment) s s₁ p rest) :
    Answers text setting (.expression .assignment) s s₁ rest
      ((Rule.expression .assignment).body setting call p) := by
  cases h with
  | expression awaits environment diagnostic unassigned unsigned =>
  by_cases hassign : p.lookahead.kind = .identifier ∧ p.cursor.next.1.kind = .assign
  · obtain ⟨hname, hmark⟩ := hassign
    obtain ⟨t, more, rfl, hlookahead⟩ := hp.exists_cons (fun hend => by cases hname.symm.trans hend)
    obtain ⟨span, more, rfl, -⟩ := hp.advance.exists_mark hmark (by decide)
    obtain ⟨name, ht⟩ := hp.exists_name (hlookahead ▸ hname)
    have hidentifier : p.lookahead.identifier? = some name := by
      rw [hlookahead, ht]
      rfl
    have hbody : (Rule.expression .assignment).body setting call p
        = (call (.expression .assignment) >>= fun x =>
            Descent.assign name x >>= fun _ => pure x) p.advance.advance := by
      simp only [Rule.body, Descent.get_bind, Descent.peek_bind, hname, hmark, and_self, if_true,
        Descent.takeName_bind, hidentifier]
      rfl
    have hrun : State.run setting (byteLength text.toList) s (t :: .bare .assign span :: more)
        = State.run setting (byteLength text.toList)
            (s.await { s.statement with targets := name :: s.statement.targets }) more := by
      rw [ht, State.run_cons, State.feed_name awaits.focus (allowsTarget_of_clear awaits.clear),
        ok_bind, State.run_cons, State.feed_target rfl]
      rfl
    have hbehind : more.length < (t :: .bare .assign span :: more).length :=
      Nat.lt_succ_of_lt (Nat.lt_succ_self more.length)
    rw [hbody]
    refine Answers.bind (hcalls (.expression .assignment) _ _ _ more hp.advance.advance
      (.expression (awaits.target name) environment diagnostic
        (fun hle => absurd hle (by decide)) (fun hle => absurd hle (by decide)))
      (.inl hbehind)) hrun fun x q rest' s' hreturns => ?_
    obtain ⟨v, names, htook⟩ := hreturns.reads
    have hlength : rest'.length < (t :: .bare .assign span :: more).length :=
      Nat.lt_of_le_of_lt hreturns.length_le hbehind
    have hq := hreturns.position
    exact ⟨rest', s', ⟨hq.split, hq.lookahead, hq.tokens, hq.stop⟩, hrun.trans hreturns.run,
      ⟨v, names ++ [name], Took.assigned htook⟩, hreturns.settled, Nat.le_of_lt hlength,
      fun _ _ _ _ _ => hlength⟩
  · -- Behind no name, or one that is not assigned to, the rule for sums is
    -- called at the same place.
    have hbody : (Rule.expression .assignment).body setting call p
        = call (.expression .sum) p := by
      simp only [Rule.body, Descent.get_bind, Descent.peek_bind, if_neg hassign]
    rw [hbody]
    have henters : Enters (.expression .sum) s s p rest := by
      refine .expression (awaits.tighten (by decide)) environment diagnostic (fun _ _ => ?_)
        (fun hle => absurd hle (by decide))
      rintro t u more rfl hname hmark
      have hpeek : p.cursor.next.1 = u := hp.peek
      exact hassign ⟨hp.lookahead_eq ▸ hname, hpeek ▸ hmark⟩
    exact answers_plain (by decide) Level.joins_assignment hcalls hp awaits henters

/-- A row of factors is read, behind a sign or without one. The run keeps
the sign with the statement and applies it where the row ends
(`Took.negated`). -/
theorem answers_signed (hcalls : Answerable text setting call (.expression .signed) rest)
    (hp : p.At text rest) (h : Enters (.expression .signed) s s₁ p rest) :
    Answers text setting (.expression .signed) s s₁ rest
      ((Rule.expression .signed).body setting call p) := by
  cases h with
  | expression awaits environment diagnostic unassigned unsigned =>
  by_cases hminus : p.lookahead.kind = .minus
  · obtain ⟨span, more, rfl, -⟩ := hp.exists_mark hminus (by decide)
    have hbody : (Rule.expression .signed).body setting call p
        = (call (.expression .term) >>= fun x => pure (-x)) p.advance := by
      simp [Rule.body, hminus]
    have hrun : State.run setting (byteLength text.toList) s (.bare .minus span :: more)
        = State.run setting (byteLength text.toList)
            (s.await { s.statement with negated := true }) more := by
      rw [State.run_cons, State.feed_sign awaits.focus (allowsSign_of_clear awaits.clear)]
      rfl
    rw [hbody]
    refine Answers.bind (hcalls (.expression .term) _ _ _ more hp.advance
      (.expression awaits.sign environment diagnostic (fun _ hallows => by cases hallows)
        (fun _ hallows => by cases hallows))
      (.inl (Nat.lt_succ_self more.length))) hrun fun x q rest' s' hreturns => ?_
    obtain ⟨v, names, htook⟩ := hreturns.reads
    have hlength : rest'.length < (Token.bare .minus span :: more).length :=
      Nat.lt_succ_of_le hreturns.length_le
    exact ⟨rest', s', hreturns.position, hrun.trans hreturns.run,
      ⟨v, [], Took.negated htook awaits.clear⟩,
      Settled.of_operand hreturns.settled (Level.joins_signed _), Nat.le_of_lt hlength,
      fun _ _ _ _ _ => hlength⟩
  · have hbody : (Rule.expression .signed).body setting call p = call (.expression .term) p := by
      simp [Rule.body, hminus]
    rw [hbody]
    -- There is no sign, which is what the row of factors asks for.
    have henters : Enters (.expression .term) s s p rest := by
      refine .expression (awaits.tighten (by decide)) environment diagnostic
        (fun _ => unassigned (by decide)) (fun _ _ => ?_)
      rintro t more rfl hkind
      exact hminus (hp.lookahead_eq ▸ hkind)
    exact answers_plain (by decide) Level.joins_signed hcalls hp awaits henters

end Parts

/-! ### Primary expressions

A number, a variable or a group. It is here that complaints are made: where
an operand is missing, and where a group is not closed. -/

/-- A run reads a name whose fate is open before anything but the mark that
assigns to it. So it comes to the same if the name is read at once. -/
theorem State.run_eq_resolve (setting : Setting) (stop : Nat) (s : State) {rest : List Token}
    (h : ∀ t ∈ rest.head?, t.kind ≠ .assign) :
    run setting stop s rest = s.resolve >>= fun s => run setting stop s rest := by
  cases rest with
  | nil => exact ending_eq_resolve setting s stop
  | cons t rest =>
      simp only [run_cons]
      rw [feed_eq_resolve setting s (h t rfl), bind_assoc]

/-- A name that is not assigned to is read. Where the statement could still
assign, the run has to see the next token first, and a descent has looked at
it before. -/
theorem State.run_identifier (setting : Setting) (stop : Nat) {s : State} (hf : s.focus = .operand)
    {name : String} {span : Span} {rest : List Token}
    (h : Unassigned s (.identifier name span :: rest)) :
    run setting stop s (.identifier name span :: rest)
      = s.read name span.start >>= fun x => run setting stop (s.take x) rest := by
  rw [run_cons]
  cases ha : s.statement.allowsTarget with
  | false => rw [feed_identifier hf ha, bind_assoc]; rfl
  | true =>
      have hnext : ∀ u ∈ rest.head?, u.kind ≠ .assign := by
        rintro u hu
        obtain ⟨more, rfl⟩ := List.head?_eq_some_iff.mp hu
        exact h ha _ _ _ rfl rfl
      rw [feed_name hf ha, ok_bind, run_eq_resolve _ _ _ hnext]
      simp only [resolve, bind_assoc]
      rfl

section Primary

variable {text : String} {setting : Setting} {call : Rule → Descent Number} {s s₁ : State}
  {p : Parser} {rest : List Token}

/-- What is taken as an operand, with the variables and the complaint of the
parser, was read. The three ways to an operand use it: one token, a group,
and what stands in for an operand that is missing. -/
theorem reads_take (awaits : Awaits .primary s) (x : Number) (d : Option Diagnostic)
    (env : Environment) :
    Reads .primary { s with diagnostic := d } x env
      ({ s with diagnostic := d, environment := env }.take x) :=
  have hawaits : Awaits .primary { s with diagnostic := d } :=
    ⟨awaits.focus, awaits.clear, awaits.targets⟩
  ⟨x, [], took_take hawaits x env⟩

/-- A state that agrees with the parser is the same with the variables and
the complaint of that. -/
theorem State.eq_of_agrees {d : Option Diagnostic} {env : Environment} (hd : s.diagnostic = d)
    (henv : s.environment = env) : { s with diagnostic := d, environment := env } = s := by
  rw [← hd, ← henv]

/-- An operand that is one token is read, and consumes that. Both a number
and a variable with a value. -/
theorem returns_take {t : Token} (hp : p.At text (t :: rest)) (awaits : Awaits .primary s)
    (environment : s.environment = p.environment) (diagnostic : s.diagnostic = p.diagnostic)
    {x : Number} (hrun : State.run setting (byteLength text.toList) s (t :: rest)
      = State.run setting (byteLength text.toList) (s.take x) rest) :
    Returns text setting (.expression .primary) s s (t :: rest) x p.advance rest (s.take x) where
  position := hp.advance
  run := hrun
  reads := by
    have hreads := reads_take awaits x p.diagnostic p.environment
    rwa [State.eq_of_agrees diagnostic environment] at hreads
  settled := settled_primary _
  length_le := Nat.le_succ _
  length_lt := fun _ _ _ _ _ => Nat.lt_succ_self _

/-- Where no operand comes, the number that is none stands in for it, if the
complaint does not stop the descent. Nothing is consumed then, or a
character that starts no token, so there is no bound below what is left; but
no factor came first, and `Returns.length_lt` asks for nothing. -/
theorem answers_missing (hp : p.At text rest) (awaits : Awaits .primary s)
    (environment : s.environment = p.environment) (diagnostic : s.diagnostic = p.diagnostic)
    (hunsigned : Unsigned s rest)
    (hfactor : ∀ t ∈ rest.head?, t.kind.startsFactor = false) :
    Answers text setting (.expression .primary) s s rest
      (Descent.complain setting Kind.factorStarts p) := by
  have hrun := State.run_missing setting (byteLength text.toList) awaits.focus
    (lacking_of_not_factor hunsigned hfactor)
  rcases complain_agrees hp environment diagnostic setting Kind.factorStarts with
    ⟨error, hcomplain, hfail⟩ | ⟨q, hcomplain, hq, henvironment, hkeep⟩
  · -- The complaint is the error of both.
    rw [hcomplain]
    rw [hfail] at hrun
    exact ⟨hrun, hp.consumed_prefix⟩
  · rw [hcomplain]
    rw [hkeep, ok_bind] at hrun
    have hreads := reads_take awaits .nan q.diagnostic q.environment
    rw [henvironment, ← environment] at hreads
    refine ⟨_, _, hq, hrun, ?_, settled_primary _, length_behindComplaint_le rest,
      fun _ _ t ht hstarts => ?_⟩
    · rw [henvironment, ← environment]
      exact hreads
    · cases (hfactor t ht).symm.trans hstarts

/-- Behind the sequence in a group, the parenthesis that closes it is read,
or complained about. In either case the parenthesis that opened it was
consumed, so fewer tokens are left than in front of the group. -/
theorem answers_closing {opening : Token} {more rest₂ : List Token} {x v : Number} {q : Parser}
    {names : List String} {s₂ : State} (awaits : Awaits .primary s) (hq : q.At text rest₂)
    (htook : Took .sequence (({ s with diagnostic := q.diagnostic } : State).openGroup s.statement)
      x q.environment s₂ v names)
    (hrun : State.run setting (byteLength text.toList) s (opening :: more)
      = State.run setting (byteLength text.toList) s₂ rest₂)
    (hsettled : Settled .sequence q.lookahead.kind) (hlength : rest₂.length ≤ more.length) :
    Answers text setting (.expression .primary) s s (opening :: more)
      (Descent.close setting x q) := by
  rw [Descent.close, Descent.eat_ite]
  -- The parenthesis is there, and it is consumed.
  by_cases hclose : q.lookahead.kind = .closeParen
  · rw [if_pos hclose]
    obtain ⟨span, rest₃, rfl, -⟩ := hq.exists_mark hclose (by decide)
    have hless : rest₃.length < (opening :: more).length := by
      simp only [List.length_cons] at hlength ⊢
      omega
    refine ⟨rest₃, _, hq.advance, ?_, reads_take awaits x q.diagnostic q.environment,
      settled_primary _, Nat.le_of_lt hless, fun _ _ _ _ _ => hless⟩
    rw [hrun, State.run_cons, State.feed_closeParen (.value htook.focus) htook.enclosing,
      ok_bind, htook.endGroup]
  · rw [if_neg hclose]
    -- It is missing, and the group ends here.
    have hended := htook.endStatement rfl
    have hmissing := State.run_unclosed setting (byteLength text.toList) htook.focus
      htook.enclosing (unclosed_of_settled hq hsettled hclose)
    rcases complain_agrees (s := (s₂.endStatement v).2) hq (by rw [hended])
      (by rw [hended]; exact htook.diagnostic) setting [.closeParen] with
      ⟨error, hcomplain, hfail⟩ | ⟨r, hcomplain, hr, henvironment, hkeep⟩
    · simp only [Descent.bind_apply, hcomplain]
      rw [hfail] at hmissing
      exact ⟨hrun.trans hmissing, hq.consumed_prefix⟩
    · simp only [Descent.bind_apply, hcomplain]
      -- The group ends with the complaint kept, and is an operand then.
      have hnoted : Took .sequence
          (({ s with diagnostic := r.diagnostic } : State).openGroup s.statement) x q.environment
          { s₂ with diagnostic := r.diagnostic } v names := htook.rediagnose r.diagnostic
      have hgroup : ({ (s₂.endStatement v).2 with diagnostic := r.diagnostic } : State).closeGroup
          (s₂.endStatement v).1
            = ({ s with diagnostic := r.diagnostic, environment := r.environment } :
                State).take x := by
        rw [henvironment]
        exact hnoted.endGroup
      rw [hkeep, ok_bind, hgroup] at hmissing
      have hless : (behindComplaint rest₂).length < (opening :: more).length :=
        Nat.lt_succ_of_le (Nat.le_trans (length_behindComplaint_le rest₂) hlength)
      exact ⟨_, _, hr, hrun.trans hmissing, reads_take awaits x r.diagnostic r.environment,
        settled_primary _, Nat.le_of_lt hless, fun _ _ _ _ _ => hless⟩

/-- A group is read: the sequence in it, and its end. The call is to a rule
of the highest rank, and is allowed because the parenthesis has been
consumed. -/
theorem answers_group {span : Span} (hcalls : Answerable text setting call (.expression .primary)
      (.bare .openParen span :: rest)) (hp : p.At text (.bare .openParen span :: rest))
    (awaits : Awaits .primary s) (environment : s.environment = p.environment)
    (diagnostic : s.diagnostic = p.diagnostic) :
    Answers text setting (.expression .primary) s s (.bare .openParen span :: rest)
      ((call (.expression .sequence) >>= Descent.close setting) p.advance) := by
  have hrun : State.run setting (byteLength text.toList) s (.bare .openParen span :: rest)
      = State.run setting (byteLength text.toList) (s.openGroup s.statement) rest := by
    rw [State.run_cons, State.feed_openParen awaits.focus]
    rfl
  have henters : Enters (.expression .sequence) (s.openGroup s.statement)
      (s.openGroup s.statement) p.advance rest :=
    .expression ⟨rfl, rfl, fun _ => rfl⟩ environment diagnostic
      (fun hle => absurd hle (by decide)) (fun hle => absurd hle (by decide))
  refine Answers.bind
    (hcalls _ _ _ _ rest hp.advance henters (.inl (Nat.lt_succ_self rest.length))) hrun
    fun x q rest₂ s₂ hreturns => ?_
  obtain ⟨v, names, htook⟩ := hreturns.reads
  exact answers_closing awaits hreturns.position htook (hrun.trans hreturns.run) hreturns.settled
    hreturns.length_le

/-- A number or a variable is read, or complained about. The three cases are
those of what a token carries. -/
theorem answers_operand (hp : p.At text rest) (hopen : p.lookahead.kind ≠ .openParen)
    (awaits : Awaits .primary s) (environment : s.environment = p.environment)
    (diagnostic : s.diagnostic = p.diagnostic) (hunassigned : Unassigned s rest)
    (hunsigned : Unsigned s rest) :
    Answers text setting (.expression .primary) s s rest (Descent.operand setting p) := by
  rw [Descent.operand, Descent.get_bind]
  cases hcontent : p.lookahead.content with
  | number x =>
      obtain ⟨t, more, rfl, hlookahead⟩ :=
        hp.exists_cons (fun hend => by rw [Token.kind, hcontent] at hend; cases hend)
      have ht : t = .number x t.toSpan := Token.eq_number (hlookahead ▸ hcontent)
      refine ⟨more, _, returns_take hp awaits environment diagnostic ?_⟩
      rw [ht, State.run_cons, State.feed_number awaits.focus]
      rfl
  | identifier name =>
      obtain ⟨t, more, rfl, hlookahead⟩ :=
        hp.exists_cons (fun hend => by rw [Token.kind, hcontent] at hend; cases hend)
      obtain ⟨span, rfl⟩ : ∃ span, t = .identifier name span :=
        ⟨_, Token.eq_identifier (hlookahead ▸ hcontent)⟩
      have hrun := State.run_identifier setting (byteLength text.toList) awaits.focus hunassigned
      rw [State.read, environment] at hrun
      simp only [Descent.read_bind]
      cases hx : p.environment.get? name with
      | none =>
          rw [hx] at hrun
          refine ⟨hrun.trans ?_, hp.consumed_prefix⟩
          rw [State.fail, environment, hlookahead]
          rfl
      | some x =>
          rw [hx] at hrun
          exact ⟨more, _, returns_take hp awaits environment diagnostic hrun⟩
  | bare kind =>
      refine answers_missing hp awaits environment diagnostic hunsigned fun t ht => ?_
      obtain ⟨more, rfl⟩ := List.head?_eq_some_iff.mp ht
      rw [hp.lookahead_eq] at hcontent hopen
      obtain ⟨hnumber, hidentifier, -⟩ :=
        kind_of_content_bare (hp.mem List.mem_cons_self) hcontent
      have hkind : t.kind = kind := congrArg Content.kind hcontent
      rw [hkind] at hopen ⊢
      simp [Kind.startsFactor, Kind.factorStarts, hnumber, hidentifier, hopen]

/-- A primary expression is read: a group, a number or a variable.
Everything else is the complaint, which is answered in
`Proofs.Descent.Complaints`. -/
theorem answers_primary (hcalls : Answerable text setting call (.expression .primary) rest)
    (hp : p.At text rest) (h : Enters (.expression .primary) s s₁ p rest) :
    Answers text setting (.expression .primary) s s₁ rest
      ((Rule.expression .primary).body setting call p) := by
  cases h with
  | expression awaits environment diagnostic unassigned unsigned =>
  rw [Rule.body, Descent.eat_ite]
  by_cases hopen : p.lookahead.kind = .openParen
  · rw [if_pos hopen]
    obtain ⟨span, more, rfl, -⟩ := hp.exists_mark hopen (by decide)
    exact answers_group hcalls hp awaits environment diagnostic
  · rw [if_neg hopen]
    exact answers_operand hp hopen awaits environment diagnostic (unassigned (by decide))
      (unsigned (by decide))

end Primary

/-! ### Any rule

The bodies together. -/

/-- A rule answers if the calls that it may make do. This is the step of the
induction, with one case for each form of body; `descend_answers` and
`within_answers` are the two inductions. -/
theorem body_answers {text : String} {setting : Setting} {call : Rule → Descent Number}
    {rule : Rule} {s s₁ : State} {p : Parser} {rest : List Token}
    (hcalls : Answerable text setting call rule rest) (hp : p.At text rest)
    (h : Enters rule s s₁ p rest) :
    Answers text setting rule s s₁ rest (rule.body setting call p) := by
  cases rule with
  | more level x => exact answers_more hcalls hp h
  | expression level =>
      cases level with
      | assignment => exact answers_assignment hcalls hp h
      | signed => exact answers_signed hcalls hp h
      | primary => exact answers_primary hcalls hp h
      | _ => exact answers_row (by simp) hcalls hp h

end DeskCalculator
