import DeskCalculator.Proofs.Descent.Rules

/-!
# `DeskCalculator.Proofs.Descent.Termination`: the descent ends

The rules of the grammar call each other, rows call themselves, and a
complaint that does not stop the descent may consume nothing. Still every
call that is made on the way through any text comes behind a token that was
consumed or goes to a rule of lower rank, so `descend` refuses none
(`descend_answers`). A row goes on with a call to itself, so each time
around it consumes a token. Counted in nested calls, a depth linear in the
number of tokens is enough (`within_answers`).

`descend_evaluates` is what follows for a whole text: with either runner,
and however deep the other may go beyond that, the outcome is that of
`evaluate`.

Both inductions take their step from `body_answers`, which says nothing of
how the recursion ends. What they add is a measure. For `descend` it is the
pair of the number of tokens left and the rank of the rule, in lexicographic
order; for `within` it is one number, in which a token weighs more than
every rank.
-/

set_option autoImplicit false

namespace DeskCalculator

open Text (byteLength)

/-! ### The two runners

One induction for each. Both are about all calls that can be made on the
way, and not only the first one. -/

section Runners

variable {text : String} (setting : Setting)

/-- Run with the calls that are allowed, a rule answers. The recursion is
that of the rules: each call that a body makes is allowed, so it is answered
by what is shown of the callee. -/
theorem descend_answers (rule : Rule) (s s₁ : State) (p : Parser) (rest : List Token)
    (hp : p.At text rest) (h : Enters rule s s₁ p rest) :
    Answers text setting rule s s₁ rest (rule.descend setting p) := by
  rw [Rule.descend]
  refine body_answers (fun callee s' s₁' q rest' hq hcallee hless => ?_) hp h
  -- What `Answerable` asks of a call is the condition that the runner
  -- checks.
  have hallowed : callee.Allowed q rule p := by
    rw [Rule.Allowed, hq.remaining, hp.remaining]
    exact hless
  rw [if_pos hallowed]
  exact descend_answers callee s' s₁' q rest' hq hcallee
termination_by (rest.length, rule.rank)
decreasing_by exact Prod.lex_def.mpr hless

/-- The ranks are few. The bound is the weight of a token in
`within_answers`; any larger one would do as well, with a depth that grows
faster. -/
theorem Rule.rank_lt (rule : Rule) : rule.rank < 16 := by
  cases rule with
  | expression level => cases level <;> decide
  | more level x =>
      have hlower := rank_more_lt level x
      have hexpression : (expression level).rank < 16 := by cases level <;> decide
      exact Nat.lt_trans hlower hexpression

/-- Run to a depth that is enough for the tokens that are left, a rule
answers. Induction on the depth: a call has one level of nesting less to go,
and it is behind a token or has a lower rank, so it needs less. -/
theorem within_answers (depth : Nat) :
    ∀ (rule : Rule) (s s₁ : State) (p : Parser) (rest : List Token), p.At text rest →
      Enters rule s s₁ p rest → 16 * rest.length + rule.rank < depth →
        Answers text setting rule s s₁ rest (Rule.within setting depth rule p) := by
  induction depth with
  | zero => exact fun rule s s₁ p rest _ _ hdepth => absurd hdepth (Nat.not_lt_zero _)
  | succ depth ih =>
      intro rule s s₁ p rest hp h hdepth
      refine body_answers (fun callee s' s₁' q rest' hq hcallee hless => ?_) hp h
      -- A token that was consumed outweighs every difference of rank.
      have hrank := callee.rank_lt
      exact ih callee s' s₁' q rest' hq hcallee (by omega)

end Runners

/-! ### Whole texts

The first call is for a sequence, in front of all tokens, with a run that
has not begun. What is left behind it is complained about. -/

/-- What was read is an outcome where no token is left, and otherwise fails
at the one that is. This is for any runner that answers the first call, and
leads from a rule to the whole of `Parser.evaluate`. -/
theorem outcome_evaluate (setting : Setting) {text : String} {env : Environment}
    {run : Rule → Descent Number}
    (h : Answers text setting (.expression .sequence) { environment := env } { environment := env }
      (Cursor.ofText text).tokens (run (.expression .sequence) (Parser.ofText text env))) :
    let result := Parser.evaluate setting run (Parser.ofText text env)
    Descent.outcome? result = some (Outcome.ofRun (State.run setting (byteLength text.toList)
        { environment := env } (Cursor.ofText text).tokens)) ∧
      (Descent.final result).consumed <+: (Cursor.ofText text).tokens.map Token.toSpan := by
  intro result
  have hresult : result = _ := Descent.bind_apply _ _ _
  cases hrun : run (.expression .sequence) (Parser.ofText text env) with
  | error halt p =>
      rw [hrun] at h hresult
      cases halt with
      | failed error =>
          rw [hresult, h.1]
          exact ⟨rfl, h.2⟩
      | refused => exact absurd h id
  | ok y p =>
      rw [hrun] at h hresult
      obtain ⟨rest, s, hreturns⟩ := h
      obtain ⟨v, names, htook⟩ := hreturns.reads
      have hended := htook.endStatement rfl
      have houtside : s.enclosing = [] := htook.enclosing
      -- Behind the sequence only the kind of the token looked at is asked
      -- for.
      have hlast : result = if p.lookahead.kind = .endOfInput
          then .ok { value := y, diagnostic := p.diagnostic } p
          else .error (.failed (.malformed (setting.leftover p.lookahead))) p := by
        rw [hresult]
        show (get >>= _ : Descent Evaluation) p = _
        rw [Descent.get_bind]
        split <;> rfl
      rw [hreturns.run, hlast]
      by_cases hend : p.lookahead.kind = .endOfInput
      · -- At the mark the run has no tokens left, and ends with the value
        -- of the statement.
        rw [if_pos hend]
        refine ⟨?_, hreturns.position.consumed_prefix⟩
        cases rest with
        | cons t more =>
            have hmem := hreturns.position.mem List.mem_cons_self
            exact absurd (hreturns.position.lookahead_eq ▸ hend)
              (Cursor.kind_ne_endOfInput _ t hmem)
        | nil =>
            have hvalue : s.statement.value v = y := htook.value
            have hdiagnostic : s.diagnostic = p.diagnostic := htook.diagnostic
            rw [State.run_nil, State.ending_of_ready (.value htook.focus),
              State.endingWith_outside houtside, hended, hvalue, hdiagnostic]
            rfl
      · -- A token is left over, and both complain about it, whatever the
        -- policy is.
        rw [if_neg hend]
        refine ⟨?_, hreturns.position.consumed_prefix⟩
        obtain ⟨t, more, rfl, hlookahead⟩ := hreturns.position.exists_cons hend
        have hleft : t.content = .bare .closeParen ∨ t.content = .bare .unknown ∨
            ∃ kind, t.content = .bare kind ∧ kind.stops = true := by
          by_cases hclose : t.kind = .closeParen
          · exact .inl (Token.content_of_kind hclose (by decide) (by decide))
          · exact .inr (unclosed_of_settled hreturns.position hreturns.settled
              (hlookahead ▸ hclose) t rfl)
        rw [State.run_cons, State.feed_value htook.focus,
          State.feedOperator_outside houtside v hleft, hended, hlookahead]
        rfl

/-- Over any text, with any variables and policy, the descent ends. No call
is refused, the outcome is that of `evaluate`, and what is consumed is a
beginning of the tokens in front of the mark. Any depth from a multiple of
the number of tokens on yields the same outcome. That no call is refused is
part of the equation: a refused call has no outcome, and `evaluate` always
has one. -/
theorem descend_evaluates (policy : Policy) (text : String) (env : Environment) :
    let setting : Setting := { policy, text := text.toList }
    let tokens := (Cursor.ofText text).tokens
    let reaches (result : EStateM.Result Halt Parser Evaluation) : Prop :=
      Descent.outcome? result = some (evaluate policy text env) ∧
        (Descent.final result).consumed <+: tokens.map Token.toSpan
    reaches (Parser.evaluate setting (Rule.descend setting) (Parser.ofText text env)) ∧
      ∀ depth, 16 * (tokens.length + 1) ≤ depth →
        reaches (Parser.evaluate setting (Rule.within setting depth) (Parser.ofText text env)) := by
  intro setting tokens reaches
  have henters : Enters (.expression .sequence) { environment := env } { environment := env }
      (Parser.ofText text env) tokens :=
    .expression ⟨rfl, rfl, fun _ => rfl⟩ rfl rfl (fun hle => absurd hle (by decide))
      (fun hle => absurd hle (by decide))
  have hevaluate : evaluate policy text env
      = Outcome.ofRun (State.run setting (byteLength text.toList) { environment := env } tokens) :=
    evaluateTokens_eq _ _ _ _
  have hstart := Parser.At.ofText text env
  refine ⟨?_, fun depth hdepth => ?_⟩
  · have hends := outcome_evaluate setting (descend_answers setting _ _ _ _ _ hstart henters)
    rwa [← hevaluate] at hends
  · have hrank : (Rule.expression .sequence).rank < 16 := Rule.rank_lt _
    have hdeep : 16 * tokens.length + (Rule.expression .sequence).rank < depth :=
      Nat.lt_of_lt_of_le (by omega) hdepth
    have hends := outcome_evaluate setting
      (within_answers setting depth _ _ _ _ _ hstart henters hdeep)
    rwa [← hevaluate] at hends

/-- A depth that is enough where a complaint skips a character, and another
one skips nothing. -/
theorem descend_evaluates_instance :
    let setting : Setting := { policy := .substituteNan, text := "(# -".toList }
    16 * ((Cursor.ofText "(# -").tokens.length + 1) ≤ 64 ∧
      Descent.outcome? (Parser.evaluate setting (Rule.within setting 64)
        (Parser.ofText "(# -" .empty)) = some (evaluate .substituteNan "(# -" .empty) := by
  have hdepth : 16 * ((Cursor.ofText "(# -").tokens.length + 1) ≤ 64 := by decide +kernel
  exact ⟨hdepth, ((descend_evaluates .substituteNan "(# -" .empty).2 64 hdepth).1⟩

end DeskCalculator
