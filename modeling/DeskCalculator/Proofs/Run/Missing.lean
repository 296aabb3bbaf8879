import DeskCalculator.Proofs.Run.Steps

/-!
# `DeskCalculator.Proofs.Run.Missing`: how a run goes on behind what is missing

A run complains where an operand is missing, or a closing parenthesis. If
the complaint does not stop it, it goes on as if the operand had been read,
or the parenthesis (`run_missing`, `run_unclosed`): in front of the token
that was complained about, unless that is a character that starts no token,
which is skipped (`behindComplaint`). At a token with which nothing goes on,
and at the end of a text, this is one parenthesis after the other, although
a run closes all of them in one step.

Both statements are equations between whole runs, under any setting: on the
right the complaint comes first and may stop the run. They are what a parser
by rules does at the same place, where each rule looks for what it needs and
reports it missing, and `Proofs.Descent.Rules` compares the two with them.
There the parentheses are closed by one call after the other, so
`run_unclosed` has to take the single step `endAll` apart
(`closed_leaveGroup`).
-/

set_option autoImplicit false

namespace DeskCalculator

/-- The tokens in front of which a run goes on after a complaint about the
first one: an unknown character is skipped, and every other token is met
again. -/
def behindComplaint : List Token → List Token
  | [] => []
  | t :: rest => if t.kind = .unknown then rest else t :: rest

/-- The token that a complaint is about, in front of the tokens `rest` and
the end of a text of `stop` bytes: the first of them, or the mark. -/
def upcoming (stop : Nat) (rest : List Token) : Token := rest.headD (Token.endOfInput stop)

namespace State

variable {setting : Setting} {s : State} {t : Token}

/-! ### A missing operand -/

/-- There is no operand in front of the state, and nothing that announces
one. A parenthesis announces one, and so does a sign where it may stand;
numbers and names are no bare tokens. -/
def Lacking (s : State) (rest : List Token) : Prop :=
  ∀ t ∈ rest.head?, ∃ kind, t.content = .bare kind ∧ kind ≠ .openParen ∧
    (kind = .minus → s.statement.allowsSign = false)

/-- A token that is no operand is missing one. The hypotheses exclude what
is an operand or begins one: a parenthesis that opens, and a sign where it
may stand. -/
theorem feed_eq_feedMissing (hf : s.focus = .operand) {kind : Kind}
    (hcontent : t.content = .bare kind) (hopen : kind ≠ .openParen)
    (hsign : kind = .minus → s.statement.allowsSign = false) :
    feed setting s t = s.feedMissing setting t := by
  simp only [feed, hf, feedOperand, hcontent]
  cases kind with
  | openParen => contradiction
  | minus => simp [hsign rfl]
  | _ => rfl

/-- Where an operand is missing a run complains, and goes on as if it had
read the number that is none. By cases on whether there is a token left,
since at the end it is `ending` that complains. -/
theorem run_missing (setting : Setting) (stop : Nat) {rest : List Token} (hf : s.focus = .operand)
    (h : s.Lacking rest) :
    run setting stop s rest
      = s.complain setting Kind.factorStarts (upcoming stop rest) >>= fun s' =>
          run setting stop (s'.take .nan) (behindComplaint rest) := by
  cases rest with
  | nil =>
      rw [run_nil, ending_of_operand hf]
      congr 1
      funext s'
      rw [behindComplaint, run_nil, ← endingWith_take setting s' stop .nan .nan]
      exact (ending_of_ready (s := s'.take .nan) (.value rfl) setting stop).symm
  | cons t rest =>
      obtain ⟨kind, hcontent, hopen, hsign⟩ := h t rfl
      rw [run_cons, feed_eq_feedMissing hf hcontent hopen hsign, feedMissing, bind_assoc]
      congr 1
      funext s'
      rw [behindComplaint]
      split
      · rfl
      · -- The token is fed behind the number, so it does not matter how
        -- that was come by.
        rw [run_cons, ← feedOperator_take setting s' .nan .nan t]
        rfl

/-! ### A missing parenthesis -/

/-- The value and the variables after the statement and those around the
open parentheses end. What `endAll` yields if it does not fail, without the
state around it. -/
def closed (s : State) (x : Number) : Number × Environment :=
  closeAll s.enclosing (s.endStatement x).1 (s.endStatement x).2.environment

/-- The state after the innermost group ends with the operand `x`. Its last
statement ends, and its value is an operand of the one around it. -/
def leaveGroup (s : State) (x : Number) : State :=
  (s.endStatement x).2.closeGroup (s.endStatement x).1

/-- Ending the innermost group is the first step of ending everything. With
this a run that closes all parentheses at once is compared with one that
closes them one by one. -/
theorem closed_leaveGroup {waiting : Statement} {enclosing : List Statement}
    (he : s.enclosing = waiting :: enclosing) (x : Number) :
    (s.leaveGroup x).closed (s.endStatement x).1 = s.closed x := by
  have hgroup : (s.endStatement x).2.enclosing = waiting :: enclosing := he
  simp only [closed, leaveGroup, closeGroup, hgroup, he]
  rfl

/-- A complaint is no part of what ending everything yields, so it may be
made before or after. -/
theorem closed_note (s : State) (d : Diagnostic) (x : Number) : (s.note d).closed x = s.closed x :=
  rfl

/-- A complaint stays with the state when a group ends. Together with the
lemma before, a missing parenthesis is a complaint and a group that ends, in
either order. -/
theorem closeGroup_note (s : State) (d : Diagnostic) (x : Number) :
    (s.note d).closeGroup x = (s.closeGroup x).note d := by
  obtain ⟨environment, diagnostic, enclosing, statement, focus⟩ := s
  cases enclosing <;> rfl

/-- At a token with which nothing goes on, a run that recovers ends
everything and then fails. The variables of the failure have the assignments
of all statements that were open. -/
theorem feedOperator_stop (hp : setting.policy = .substituteNan) {kind : Kind}
    (hcontent : t.content = .bare kind) (hstops : kind.stops = true) (s : State) (x : Number) :
    s.feedOperator setting x t = .error ⟨.malformed (setting.leftover t), (s.closed x).2⟩ := by
  rw [feedOperator_of_stops hcontent hstops]
  cases he : s.enclosing with
  | nil => rw [endAll_outside he, closed, he]; rfl
  | cons waiting enclosing =>
      rw [endAll_inside he, complain_substituteNan hp, closed, he]
      rfl

/-- At the end of the text, a run that recovers ends everything. The
complaint is there only if a parenthesis was open, and only if it is the
first one. -/
theorem endingWith_closed (hp : setting.policy = .substituteNan) (s : State) (stop : Nat)
    (x : Number) :
    s.endingWith setting stop x
      = .ok (⟨(s.closed x).1, if s.enclosing = [] then s.diagnostic
          else s.diagnostic.or (some (setting.complaint [.closeParen] (Token.endOfInput stop)))⟩,
        (s.closed x).2) := by
  cases he : s.enclosing with
  | nil => rw [endingWith_outside he, closed, he]; rfl
  | cons waiting enclosing =>
      rw [endingWith_inside he, complain_substituteNan hp, closed, he]
      rfl

/-- Behind an operand in parentheses there comes neither what goes on with
it nor the parenthesis that closes. What is left are unknown characters and
the kinds that nothing goes on with. -/
def Unclosed (rest : List Token) : Prop :=
  ∀ t ∈ rest.head?, t.content = .bare .unknown ∨ ∃ kind, t.content = .bare kind ∧ kind.stops = true

/-- Outside all parentheses, what does not go on with an operand is left
over. The statement has ended by then, so its assignments are in the
variables of the failure. -/
theorem feedOperator_outside (he : s.enclosing = []) (x : Number)
    (h : t.content = .bare .closeParen ∨ t.content = .bare .unknown ∨
      ∃ kind, t.content = .bare kind ∧ kind.stops = true) :
    s.feedOperator setting x t
      = .error ⟨.malformed (setting.leftover t), (s.endStatement x).2.environment⟩ := by
  have hgroup : (s.endStatement x).2.enclosing = [] := he
  rcases h with hcontent | hcontent | ⟨kind, hcontent, hstops⟩
  · simp [feedOperator, hcontent, hgroup, fail]
  · simp [feedOperator, hcontent, hgroup, fail]
  · rw [feedOperator_of_stops hcontent hstops, endAll_outside he]
    rfl

/-- A token after an operand that was read, where no name is open. -/
theorem feed_value {x : Number} (hf : s.focus = .value x) (t : Token) :
    feed setting s t = s.feedOperator setting x t := by
  simp only [feed, hf]

/-- A character that starts no token, in the place of a closing parenthesis,
is skipped with it. This is where more is skipped than the character: the
group counts as closed. -/
theorem feedOperator_unknown {waiting : Statement} {enclosing : List Statement}
    (he : s.enclosing = waiting :: enclosing) (hcontent : t.content = .bare .unknown) (x : Number) :
    s.feedOperator setting x t
      = (s.endStatement x).2.complain setting [.closeParen] t >>= fun s' =>
          .ok (s'.closeGroup (s.endStatement x).1) := by
  have hgroup : (s.endStatement x).2.enclosing = waiting :: enclosing := he
  simp [feedOperator, hcontent, hgroup]

/-- Where a closing parenthesis is missing a run complains, and goes on as
if it had read one. In front of a token with which nothing goes on, the next
parenthesis is missing at the same token again, and its complaint is not the
first one any more. -/
theorem run_unclosed (setting : Setting) (stop : Nat) {rest : List Token} {x : Number}
    (hf : s.focus = .value x) {waiting : Statement} {enclosing : List Statement}
    (he : s.enclosing = waiting :: enclosing) (h : Unclosed rest) :
    run setting stop s rest
      = (s.endStatement x).2.complain setting [.closeParen] (upcoming stop rest) >>= fun s' =>
          run setting stop (s'.closeGroup (s.endStatement x).1) (behindComplaint rest) := by
  -- A run that recovers goes on in this state, from which ending everything
  -- yields the same.
  have hclosed : ∀ d : Diagnostic,
      (((s.endStatement x).2.note d).closeGroup (s.endStatement x).1).closed (s.endStatement x).1
        = s.closed x := fun d => by
    rw [closeGroup_note, closed_note]
    exact closed_leaveGroup he x
  cases rest with
  | nil =>
      rw [run_nil, ending_of_ready (.value hf)]
      cases hp : setting.policy with
      | abort => rw [endingWith_inside he, complain_abort hp, complain_abort hp]; rfl
      | substituteNan =>
          rw [complain_substituteNan hp, ok_bind, behindComplaint, run_nil,
            ending_of_ready (.value (closeGroup_focus _ _)), endingWith_closed hp,
            endingWith_closed hp, hclosed, closeGroup_diagnostic, he]
          -- The complaint is there already when the next parenthesis is
          -- missing.
          have hagain : ∀ before after : Option Diagnostic,
              (before.or after).or after = before.or after := fun before after => by
            rw [Option.or_assoc, Option.or_self]
          simp only [note, upcoming, List.headD_nil, hagain, ite_self, reduceCtorEq, if_false]
          rfl
  | cons t rest =>
      -- A token is left: an unknown one is skipped, any other is met again
      -- behind the group.
      rw [run_cons, feed_value hf]
      rcases h t rfl with hcontent | ⟨kind, hcontent, hstops⟩
      · have hkind : t.kind = .unknown := congrArg Content.kind hcontent
        rw [feedOperator_unknown he hcontent, bind_assoc, behindComplaint, if_pos hkind]
        rfl
      · have hkind : t.kind ≠ .unknown := by
          rw [show t.kind = kind from congrArg Content.kind hcontent]
          rintro rfl
          cases hstops
        rw [behindComplaint, if_neg hkind]
        cases hp : setting.policy with
        | abort =>
            rw [feedOperator_of_stops hcontent hstops, endAll_inside he, complain_abort hp,
              complain_abort hp]
            rfl
        | substituteNan =>
            rw [complain_substituteNan hp, ok_bind, run_cons, feed_value (closeGroup_focus _ _),
              feedOperator_stop hp hcontent hstops, feedOperator_stop hp hcontent hstops, hclosed]

end State

end DeskCalculator
