import DeskCalculator.Proofs.Run.Frame
import DeskCalculator.Proofs.Run.Policies

/-!
# `DeskCalculator.Proofs.Run.Kept`: what a run that stops has done

A run that aborts with a complaint has done exactly what the tokens before
the one complained about ask for. Where it stopped, the text lacks an
operand or a closing parenthesis, or nothing (`State.lack`), and that
decides how the tokens before can be completed. Completed like this they are
evaluated to the same variables (`evaluate_abort_kept`), so that every
assignment whose right side was read is kept, and none is made whose right
side was open.

* `stops_feed`, `stops_ending`: where a run stops, what the text lacks there
  decides both the complaint and the variables that are left
  (`State.Stops`).
* `Leaves.ending`, `Leaves.eq_of_operand`, `Leaves.feed_closeParen`: how the
  text goes on from such a state, one lemma for each thing that it can lack.

A text that lacks something has no value, so there is nothing to compare its
variables with. It is completed by a name that has no value and does not
occur in it (`Unused`): the run comes as far as that name and fails there,
and the variables are those at the failure. A text that lacks a closing
parenthesis gets one before the name.
-/

set_option autoImplicit false

namespace DeskCalculator

/-! ### Where a run stops

The complaint that stops a run says where it stood: in front of an operand
that is missing, behind one that is complete, or inside parentheses. The
state says the same, and so the two agree. -/

/-- What the text lacks where a run stands, to be one that could end there.
Of several parentheses that are open only the innermost one counts. -/
inductive Lack where
  /-- An operand is missing. -/
  | operand
  /-- The last operand was read, and a parenthesis is open. -/
  | closing
  | nothing
  deriving DecidableEq

/-- What the text lacks at a state. A name whose fate is open is an operand
here: the run has not complained about it. -/
def State.lack (s : State) : Lack :=
  match s.focus, s.enclosing with
  | .operand, _ => .operand
  | _, _ :: _ => .closing
  | _, [] => .nothing

/-- The complaint about a token that does not go on with the text, where
that lacks what is given. -/
def Lack.complaint (setting : Setting) (t : Token) : Lack → Diagnostic
  | operand => setting.complaint Kind.factorStarts t
  | closing => setting.complaint [.closeParen] t
  | nothing => setting.leftover t

namespace State

/-- The variables where a run stops: those of the state, and where the last
operand was read, with the assignments of its statement made. The statements
around open parentheses are not ended. -/
inductive Leaves (s : State) : Environment → Prop where
  | operand (focus : s.focus = .operand) : Leaves s s.environment
  | ended (x : Number) (ready : s.Ready x) : Leaves s (s.endStatement x).2.environment

/-- Where an operand is missing, the text lacks it, whatever the parentheses
around are: it comes before them. -/
theorem lack_of_operand {s : State} (h : s.focus = .operand) : s.lack = .operand := by
  simp only [lack, h]

/-- Behind an operand outside all parentheses, the text lacks nothing. It
could end here. -/
theorem lack_of_outside {s : State} {x : Number} (h : s.Ready x) (houtside : s.enclosing = []) :
    s.lack = .nothing := by
  cases h with
  | value hf => simp only [lack, hf, houtside]
  | name hf hx => simp only [lack, hf, houtside]

/-- Behind an operand in parentheses, the text lacks the one that closes.
That there may be more of them open does not show in the complaint. -/
theorem lack_of_inside {s : State} {x : Number} (h : s.Ready x) {waiting : Statement}
    {enclosing : List Statement} (hinside : s.enclosing = waiting :: enclosing) :
    s.lack = .closing := by
  cases h with
  | value hf => simp only [lack, hf, hinside]
  | name hf hx => simp only [lack, hf, hinside]

/-- A run that is stopped by a complaint about the token `t`: which one it
is follows from what the text lacks, and the variables are left as they were
or with the last statement ended. -/
structure Stops (setting : Setting) (s : State) (t : Token) (d : Diagnostic) (final : Environment) :
    Prop where
  complaint : d = s.lack.complaint setting t
  leaves : s.Leaves final

section Steps

variable {setting : Setting} {s : State} {t : Token} {d : Diagnostic} {final : Environment}

/-- Failing with a complaint leaves the variables of the state. Read
backwards, it says from a failure which state failed. -/
theorem fail_eq_malformed {α : Type} {d' : Diagnostic}
    (h : s.fail (α := α) (.malformed d') = .error ⟨.malformed d, final⟩) :
    d = d' ∧ final = s.environment := by
  cases h
  exact ⟨rfl, rfl⟩

/-- A token after an operand stops a run like this. In each case that fails
with a complaint, the statement has been ended before. -/
theorem stops_feedOperator (hp : setting.policy = .abort) {x : Number} (hready : s.Ready x)
    (h : s.feedOperator setting x t = .error ⟨.malformed d, final⟩) :
    s.Stops setting t d final := by
  cases s.feedOperator_cases x t with
  | leftover content outside result =>
      obtain ⟨rfl, rfl⟩ := fail_eq_malformed ((result setting).symm.trans h)
      exact ⟨by rw [lack_of_outside hready outside]; rfl, .ended x hready⟩
  | skip waiting enclosing content inside result =>
      rw [result, complain_abort hp] at h
      obtain ⟨rfl, rfl⟩ := fail_eq_malformed h
      exact ⟨by rw [lack_of_inside hready inside]; rfl, .ended x hready⟩
  | stop kind content stops result =>
      rw [result] at h
      cases he : s.enclosing with
      | nil =>
          rw [endAll_outside he] at h
          obtain ⟨rfl, rfl⟩ := fail_eq_malformed h
          exact ⟨by rw [lack_of_outside hready he]; rfl, .ended x hready⟩
      | cons waiting enclosing =>
          rw [endAll_inside he, complain_abort hp] at h
          obtain ⟨rfl, rfl⟩ := fail_eq_malformed h
          exact ⟨by rw [lack_of_inside hready he]; rfl, .ended x hready⟩
  | unbound name content unbound result => cases (result setting).symm.trans h
  | factor y value result => cases (result setting).symm.trans h
  | openGroup content result => cases (result setting).symm.trans h
  | operator kind statement content waits result => cases (result setting).symm.trans h
  | semicolon content result => cases (result setting).symm.trans h
  | closeGroup waiting enclosing content inside result => cases (result setting).symm.trans h

/-- A token stops a run like this. Two cases of a step can: a missing
operand, and a token behind one. -/
theorem stops_feed (hp : setting.policy = .abort)
    (h : feed setting s t = .error ⟨.malformed d, final⟩) : s.Stops setting t d final := by
  cases s.feed_cases t with
  | missing kind focus content other unsigned result =>
      rw [result, feedMissing, complain_abort hp] at h
      obtain ⟨rfl, rfl⟩ := fail_eq_malformed h
      exact ⟨by rw [lack_of_operand focus]; rfl, .operand focus⟩
  | follow x ready unassigned result =>
      exact stops_feedOperator hp ready ((result setting).symm.trans h)
  | operand y focus value result => cases (result setting).symm.trans h
  | name name focus content allowed result => cases (result setting).symm.trans h
  | unbound name focus content unbound result => cases (result setting).symm.trans h
  | openGroup focus content result => cases (result setting).symm.trans h
  | sign focus content allowed result => cases (result setting).symm.trans h
  | target name offset focus kind result => cases (result setting).symm.trans h
  | unboundName name offset focus kind unbound result => cases (result setting).symm.trans h

/-- The end of the text stops a run like this, where an operand or a
parenthesis is missing. The token that is complained about is the mark
then. -/
theorem stops_ending (hp : setting.policy = .abort) {stop : Nat}
    (h : s.ending setting stop = .error ⟨.malformed d, final⟩) :
    s.Stops setting (Token.endOfInput stop) d final := by
  cases s.ending_cases with
  | missing focus =>
      rw [ending_of_operand focus, complain_abort hp] at h
      obtain ⟨rfl, rfl⟩ := fail_eq_malformed h
      exact ⟨by rw [lack_of_operand focus]; rfl, .operand focus⟩
  | unboundName name offset focus unbound =>
      rw [ending_of_unbound focus unbound] at h
      cases h
  | ready x ready =>
      rw [ending_of_ready ready] at h
      cases he : s.enclosing with
      | nil =>
          rw [endingWith_outside he] at h
          cases h
      | cons waiting enclosing =>
          rw [endingWith_inside he, complain_abort hp] at h
          obtain ⟨rfl, rfl⟩ := fail_eq_malformed h
          exact ⟨by rw [lack_of_inside ready he]; rfl, .ended x ready⟩

end Steps

/-! ### Completing what was read

What the text lacks is given to it, an operand or a parenthesis and one, and
then it ends. The variables are those at which the run stopped. -/

section Completions

variable {setting : Setting} {s : State} {final : Environment}

/-- Where the text lacks nothing it can end, and the last statement is
ended. So the tokens before the complaint succeed by themselves, with these
variables. -/
theorem Leaves.ending (h : s.Leaves final) (hlack : s.lack = .nothing) (setting : Setting)
    (stop : Nat) : ∃ evaluation, s.ending setting stop = .ok (evaluation, final) := by
  cases h with
  | operand focus => cases (lack_of_operand focus).symm.trans hlack
  | ended x ready =>
      cases he : s.enclosing with
      | nil => exact ⟨_, (ending_of_ready ready setting stop).trans (endingWith_outside he _ _ _)⟩
      | cons waiting enclosing => cases (lack_of_inside ready he).symm.trans hlack

/-- A variable without a value is read where an operand is missing, or
beside one that was read. No name may be open in the state, which would be
read first and might have a value or not. -/
theorem run_unbound {z : String} (hfocus : ∀ name offset, s.focus ≠ .name name offset)
    (hz : s.environment.get? z = none) (span : Span) (stop : Nat) :
    run setting stop s [.identifier z span]
      = .error ⟨.undefinedVariable z span.start, s.environment⟩ := by
  cases hf : s.focus with
  | name name offset => exact absurd hf (hfocus name offset)
  | value x =>
      simp [run, feedAll, feed, hf, feedOperator, Token.identifier, State.read, hz, fail]
  | operand =>
      -- At the beginning of a statement its fate stays open until the text
      -- ends.
      cases ha : s.statement.allowsTarget with
      | true =>
          rw [run_cons, feed_name hf ha, ok_bind, run_nil]
          exact ending_of_unbound (s := { s with focus := .name z span.start }) rfl hz setting stop
      | false =>
          simp [run, feedAll, feed, hf, feedOperand, Token.identifier, ha, State.read, hz, fail]

/-- Where the text lacks an operand, the variables are left as they are,
since no statement has ended behind the last token. -/
theorem Leaves.eq_of_operand (h : s.Leaves final) (hlack : s.lack = .operand) :
    s.focus = .operand ∧ final = s.environment := by
  cases h with
  | operand focus => exact ⟨focus, rfl⟩
  | ended x ready =>
      cases he : s.enclosing with
      | nil => cases (lack_of_outside ready he).symm.trans hlack
      | cons waiting enclosing => cases (lack_of_inside ready he).symm.trans hlack

/-- Where the text lacks a closing parenthesis, one that comes ends the last
statement and is an operand with what it closes. -/
theorem Leaves.feed_closeParen (h : s.Leaves final) (hlack : s.lack = .closing) (setting : Setting)
    (span : Span) :
    ∃ s' x, feed setting s (.bare .closeParen span) = .ok s' ∧ s'.focus = .value x ∧
      s'.environment = final := by
  cases h with
  | operand focus => cases (lack_of_operand focus).symm.trans hlack
  | ended x ready =>
      cases he : s.enclosing with
      | nil => cases (lack_of_outside ready he).symm.trans hlack
      | cons waiting enclosing =>
          exact ⟨_, _, State.feed_closeParen ready he span, closeGroup_focus _ _,
            closeGroup_environment _ _⟩

end Completions

end State

/-! ### Runs over a whole text

The variable that is put in the place of the operand must not have a value,
so that the run stops there with the variables as they are. -/

/-- A name that no variable has and no token carries. There always is one,
as tokens and variables are finitely many, but the statements are for every
such name. -/
structure Unused (tokens : List Token) (env : Environment) (z : String) : Prop where
  unbound : env.get? z = none
  absent : ∀ t ∈ tokens, t.content ≠ .identifier z

/-- Nothing assigns to a name that no token carries, also with tokens of
other kinds added. So reading it fails, wherever it is put behind the tokens
of a text. -/
theorem Unused.not_assigned {tokens : List Token} {env : Environment} {z : String}
    (h : Unused tokens env z) {ts : List Token}
    (hts : ∀ t ∈ ts, t ∈ tokens ∨ t.kind ≠ .identifier) : ¬Assigned ts z := by
  rintro ⟨before, t, u, after, rfl, hcontent, -⟩
  rcases hts t (List.mem_append_right _ List.mem_cons_self) with ht | hkind
  · exact h.absent t ht hcontent
  · exact hkind (congrArg Content.kind hcontent)

/-- A run from the variables `env` stopped at the token `t`, number `k` of a
text, in the state `s`, with the complaint `d`, and left the variables
`final`. -/
structure Kept (setting : Setting) (env : Environment) (tokens : List Token) (d : Diagnostic)
    (final : Environment) (k : Nat) (t : Token) (s : State) : Prop where
  token : tokens[k]? = some t
  offset : t.start = d.offset
  read : State.feedAll setting { environment := env } (tokens.take k) = .ok s
  complaint : d = s.lack.complaint setting t
  /-- What was assigned before is kept, and if the last operand was read,
  its statement is ended; no statement around it is. -/
  leaves : s.Leaves final
  /-- If the text lacks nothing, the tokens before are evaluated to the same
  variables. -/
  nothing : s.lack = .nothing → ∀ stop, ∃ evaluation,
    evaluateTokens setting env (tokens.take k) stop
      = { result := .ok evaluation, environment := final }
  /-- If it lacks an operand, they come to one that is put there. -/
  operand : s.lack = .operand → ∀ z span stop, Unused tokens env z →
    evaluateTokens setting env (tokens.take k ++ [.identifier z span]) stop
      = { result := .error (.undefinedVariable z span.start), environment := final }
  /-- If it lacks a closing parenthesis, they come to what is put behind
  one. -/
  closing : s.lack = .closing → ∀ z mark span stop, Unused tokens env z →
    evaluateTokens setting env (tokens.take k ++ [.bare .closeParen mark, .identifier z span]) stop
      = { result := .error (.undefinedVariable z span.start), environment := final }

/-- A state in which a run stops says what the tokens before are evaluated
to. Each field is a run over the tokens before, which leads to the state,
and one over what completes them. -/
theorem State.Stops.kept {setting : Setting} {env : Environment} {tokens : List Token}
    {d : Diagnostic} {final : Environment} {k : Nat} {t : Token} {s : State}
    (htoken : tokens[k]? = some t)
    (hread : State.feedAll setting { environment := env } (tokens.take k) = .ok s)
    (h : s.Stops setting t d final) : Kept setting env tokens d final k t s := by
  refine ⟨htoken, ?offset, hread, h.complaint, h.leaves, ?nothing, ?operand, ?closing⟩
  case offset =>
    rw [h.complaint]
    cases s.lack with
    | operand => exact (setting.complaint_offset _ t).symm
    | closing => exact (setting.complaint_offset _ t).symm
    | nothing => exact (setting.leftover_offset t).symm
  case nothing =>
    intro hlack stop
    obtain ⟨evaluation, hend⟩ := h.leaves.ending hlack setting stop
    refine ⟨evaluation, ?_⟩
    rw [evaluateTokens_eq, State.run, hread, ok_bind, hend]
    rfl
  case operand =>
    intro hlack z span stop hz
    -- The name still has no value where the run stops, since nothing was
    -- assigned to it.
    obtain ⟨hfocus, rfl⟩ := h.leaves.eq_of_operand hlack
    have hunbound : s.environment.get? z = none := by
      rw [get?_feedAll_of_not_assigned hread
        (hz.not_assigned fun u hu => .inl (List.mem_of_mem_take hu))]
      exact hz.unbound
    rw [evaluateTokens_eq, State.run_append, hread, ok_bind,
      State.run_unbound (fun _ _ hname => by cases hfocus.symm.trans hname) hunbound]
    rfl
  case closing =>
    intro hlack z mark span stop hz
    -- The parenthesis ends the last statement, and the name is a factor
    -- beside the group.
    obtain ⟨s', x, hclose, hfocus, rfl⟩ := h.leaves.feed_closeParen hlack setting mark
    have hclosed : State.feedAll setting { environment := env }
        (tokens.take k ++ [.bare .closeParen mark]) = .ok s' := by
      rw [State.feedAll_append, hread, ok_bind, State.feedAll_cons, hclose]
      rfl
    have hunbound : s'.environment.get? z = none := by
      rw [get?_feedAll_of_not_assigned hclosed (hz.not_assigned fun u hu => ?_)]
      · exact hz.unbound
      · rcases List.mem_append.mp hu with hu | hu
        · exact .inl (List.mem_of_mem_take hu)
        · obtain rfl := List.mem_singleton.mp hu
          exact .inr (fun hkind => by cases hkind)
    rw [evaluateTokens_eq, List.append_cons, State.run_append, hclosed, ok_bind,
      State.run_unbound (fun _ _ hname => by cases hfocus.symm.trans hname) hunbound]
    rfl

/-- Over any text, a run that aborts with a complaint leaves exactly the
effects of the tokens before the one that it is about. The state in which it
stops is that of the run over those tokens. -/
theorem evaluate_abort_kept (text : String) (env : Environment) {d : Diagnostic}
    (h : (evaluate .abort text env).result = .error (.malformed d)) :
    ∃ k t s, Kept (.aborting text.toList) env (tokenize text) d
      (evaluate .abort text env).environment k t s := by
  have houtcome : evaluate .abort text env = .ofRun (State.run (.aborting text.toList)
      (Text.byteLength text.toList) { environment := env } (Cursor.ofText text).tokens) :=
    evaluateTokens_eq _ _ _ _
  rw [houtcome] at h ⊢
  obtain ⟨⟨error, final⟩, hrun, rfl⟩ := Outcome.ofRun_error h
  rw [hrun]
  rcases bind_eq_error hrun with hfail | ⟨s, hread, hend⟩
  · -- The run stops at a token.
    obtain ⟨before, t, after, s, htokens, hbefore, hstep⟩ := State.feedAll_error _ hfail
    have hall : tokenize text
        = before ++ t :: (after ++ [Token.endOfInput (Text.byteLength text.toList)]) := by
      rw [tokenize, htokens, List.append_assoc]
      rfl
    exact ⟨before.length, t, s, State.Stops.kept (by simp [hall]) (by simpa [hall] using hbefore)
      (State.stops_feed rfl hstep)⟩
  · -- It reads all of them and stops at the end.
    exact ⟨(Cursor.ofText text).tokens.length, _, s,
      State.Stops.kept (by simp [tokenize]) (by simpa [tokenize] using hread)
        (State.stops_ending rfl hend)⟩

/-- A token left over, an operand missing in the right side of one
assignment and of another around it, and a parenthesis open behind an
assignment. -/
theorem evaluate_abort_kept_instances :
    (∃ k t s, Kept (.aborting "a = 1; b = 2 >> 3".toList) .empty (tokenize "a = 1; b = 2 >> 3")
      (.trailingInput .shiftRight 13) (evaluate .abort "a = 1; b = 2 >> 3" .empty).environment k t
        s) ∧
      (∃ k t s, Kept (.aborting "a = (b = 1; c = 2 *)".toList) .empty
        (tokenize "a = (b = 1; c = 2 *)") (.unexpectedToken Kind.factorStarts .closeParen 19)
          (evaluate .abort "a = (b = 1; c = 2 *)" .empty).environment k t s) ∧
      ∃ k t s, Kept (.aborting "a = (b = 1".toList) .empty (tokenize "a = (b = 1")
        (.unexpectedToken [.closeParen] .endOfInput 10)
          (evaluate .abort "a = (b = 1" .empty).environment k t s :=
  ⟨evaluate_abort_kept _ .empty (by decide +kernel),
    evaluate_abort_kept _ .empty (by decide +kernel),
    evaluate_abort_kept _ .empty (by decide +kernel)⟩

end DeskCalculator
