import DeskCalculator.Evaluation

/-!
# `DeskCalculator.Proofs.Run.Steps`: what one token can do

A run is one `feed` after the other, so a fact about runs is a fact about
one step and an induction over the tokens. This module lists the steps, once
for all those inductions, so that no other proof opens `feed` or
`feedOperator`:

* `feedOperator_cases`: what a token after an operand does. It is a factor,
  it opens or closes parentheses, it is an operator, it is skipped, or the
  run ends.
* `feed_cases`: what a token does at all. Where an operand is missing it can
  be one, or announce one; a name at the beginning of a statement is
  assigned to or read; in all other cases the token follows an operand.
* `ending_cases`: what the end of a text does, by what the state waits for.
* `feed_focus`: a name whose fate is open was read just before.
* `feed_error`, `ending_error`: why a token fails, or the end of a text. It
  is because of the token itself (`TokenError`), or because of a name before
  it that has no value.
* `feed_eq_resolve`, `ending_eq_resolve`: a name whose fate is open is read
  before anything but an assignment mark, so a state that ends with a name
  can be replaced by the one that read it.
* `run_cons`, `run_append`, `evaluateTokens_eq`: the runs that the
  inductions are about, and that they are what `evaluateTokens` does.

Each case of the three case lemmas says when it holds, by hypotheses on the
state and the token, and what the result is, for every `Setting`. The
settings of two runs may differ in policy and text, so a comparison of two
runs has one case analysis for both.

A case says nothing about a complaint but where it is made: `complain` stays
in the results and is opened by `complain_abort` or
`complain_substituteNan`, where the policy is known.
-/

set_option autoImplicit false

namespace DeskCalculator

/-- A computation goes on with what a successful one yields. This and the
next two let simp run the `do` blocks of the model. -/
@[simp] theorem ok_bind {ε α β : Type} (a : α) (f : α → Except ε β) :
    (Except.ok a >>= f) = f a := rfl

/-- Nothing goes on after an error. A simp lemma like the one before. -/
@[simp] theorem error_bind {ε α β : Type} (e : ε) (f : α → Except ε β) :
    ((Except.error e : Except ε α) >>= f) = .error e := rfl

/-- `pure` is success. It has to be unfolded, since the `do` blocks of the
model end with `return`. -/
@[simp] theorem pure_eq_ok {ε α : Type} (a : α) : (pure a : Except ε α) = .ok a := rfl

/-- What goes on and succeeds has succeeded before. The way to take a
successful run apart. -/
theorem bind_eq_ok {ε α β : Type} {x : Except ε α} {f : α → Except ε β} {b : β}
    (h : x >>= f = .ok b) : ∃ a, x = .ok a ∧ f a = .ok b := by
  cases x with
  | error e => cases h
  | ok a => exact ⟨a, rfl, h⟩

/-- What goes on and fails has failed before, or fails then. The way to take
a run apart that fails. -/
theorem bind_eq_error {ε α β : Type} {x : Except ε α} {f : α → Except ε β} {e : ε}
    (h : x >>= f = .error e) : x = .error e ∨ ∃ a, x = .ok a ∧ f a = .error e := by
  cases x with
  | error e' => exact .inl (congrArg Except.error (Except.error.inj h))
  | ok a => exact .inr ⟨a, rfl, h⟩

/-- A token of another kind than number and identifier carries nothing. The
model asks for the kind at some places and matches on what is carried at
others. -/
theorem Token.content_of_kind {t : Token} {kind : Kind} (h : t.kind = kind)
    (hnumber : kind ≠ .number) (hidentifier : kind ≠ .identifier) : t.content = .bare kind := by
  subst h
  unfold Token.kind at *
  cases hcontent : t.content with
  | number x => rw [hcontent] at hnumber; exact absurd rfl hnumber
  | identifier name => rw [hcontent] at hidentifier; exact absurd rfl hidentifier
  | bare kind => rfl

/-- A bare token is its kind on its span. This and the next two turn a token
that a case gave into the form in which the lemmas on expected tokens have
theirs. -/
theorem Token.eq_bare {t : Token} {kind : Kind} (h : t.content = .bare kind) :
    t = .bare kind t.toSpan := by
  obtain ⟨span, content⟩ := t
  cases h
  rfl

/-- A token that carries a number is that number on its span. So a step that
is stated for `.number x span` applies to it. -/
theorem Token.eq_number {t : Token} {x : Number} (h : t.content = .number x) :
    t = .number x t.toSpan := by
  obtain ⟨span, content⟩ := t
  cases h
  rfl

/-- A token that carries a name is that name on its span, as for numbers. -/
theorem Token.eq_identifier {t : Token} {name : String} (h : t.content = .identifier name) :
    t = .identifier name t.toSpan := by
  obtain ⟨span, content⟩ := t
  cases h
  rfl

/-- The value that a token has as an operand: a number has its own, a name
that of the variable. It is relative to the variables at that step, as an
earlier assignment of the same run may have set it. -/
inductive Denotes (env : Environment) (t : Token) : Number → Prop where
  | number {y : Number} : t.content = .number y → Denotes env t y
  | bound {name : String} {y : Number} :
      t.content = .identifier name → env.get? name = some y → Denotes env t y

/-- The kinds that no text can go on with after an operand. A token that
carries a number or a name is a factor there; a bare token of those two
kinds is none, and no text has one. -/
def Kind.stops : Kind → Bool
  | number | identifier | shiftRight | shiftLeft | assign | greater | less | endOfInput => true
  | _ => false

/-- The statement that waits for the right side of an operator, where the
kind is one. It joins the five branches of `feedOperator` for the operators
into one case. -/
def Statement.awaitAfter (s : Statement) (x : Number) : Kind → Option Statement
  | .caret => some (s.awaitExponent x)
  | .star => some (s.awaitProduct .mul x)
  | .slash => some (s.awaitProduct .div x)
  | .plus => some (s.awaitSum .add x)
  | .minus => some (s.awaitSum .sub x)
  | _ => none

/-- A complaint is about the place of its token, whether it names an
unexpected token or quotes a character. -/
@[simp] theorem Setting.complaint_offset (setting : Setting) (expected : List Kind) (t : Token) :
    (setting.complaint expected t).offset = t.start := by
  rw [complaint]
  split <;> rfl

/-- A complaint about what is left over is about the place of its token. -/
@[simp] theorem Setting.leftover_offset (setting : Setting) (t : Token) :
    (setting.leftover t).offset = t.start := by
  rw [leftover]
  split <;> rfl

namespace State

/-! ### Complaints and ends

The parts that several steps have in common: a complaint, under either
policy, the end of a group, and the end of everything. Of these the other
sections use what is said here, and do not open them. -/

/-- A complaint stops a run that aborts. What was noted before does not
matter: nothing was, in such a run. -/
theorem complain_abort {setting : Setting} (h : setting.policy = .abort) (s : State)
    (expected : List Kind) (t : Token) :
    s.complain setting expected t = s.fail (.malformed (setting.complaint expected t)) := by
  simp only [complain, h]

/-- The state with a complaint, unless there is an earlier one. The
recovering half of `complain` as a function, of which simp knows what it
leaves alone. -/
def note (s : State) (d : Diagnostic) : State := { s with diagnostic := s.diagnostic.or (some d) }

/-- A run that recovers keeps the complaint if it is the first one, and goes
on in any case. -/
theorem complain_substituteNan {setting : Setting} (h : setting.policy = .substituteNan) (s : State)
    (expected : List Kind) (t : Token) :
    s.complain setting expected t = .ok (s.note (setting.complaint expected t)) := by
  cases hd : s.diagnostic with
  | none => simp only [complain, h, note, hd, Option.none_or]
  | some d =>
      simp only [complain, h, note, hd, Option.some_or]
      rw [← hd]

/-- What goes on after a complaint has noted it. For both policies: after a
complaint that aborts nothing goes on. -/
theorem complain_ok {setting : Setting} {s s' : State} {expected : List Kind} {t : Token}
    (h : s.complain setting expected t = .ok s') : s' = s.note (setting.complaint expected t) := by
  cases hp : setting.policy with
  | abort => rw [complain_abort hp] at h; cases h
  | substituteNan =>
      rw [complain_substituteNan hp] at h
      exact (Except.ok.inj h).symm

/-- The end of a group changes no variables. Its assignments are made when
its last statement ends. -/
@[simp] theorem closeGroup_environment (s : State) (x : Number) :
    (s.closeGroup x).environment = s.environment := by
  rw [closeGroup]
  split <;> rfl

/-- The end of a group keeps the complaint, inside parentheses and
outside. -/
@[simp] theorem closeGroup_diagnostic (s : State) (x : Number) :
    (s.closeGroup x).diagnostic = s.diagnostic := by
  rw [closeGroup]
  split <;> rfl

/-- The end of a group is an operand, so what follows is a token after
one. -/
@[simp] theorem closeGroup_focus (s : State) (x : Number) : (s.closeGroup x).focus = .value x := by
  rw [closeGroup]
  split <;> rfl

/-- Outside parentheses the end of everything is the end of the statement.
There is no complaint then. -/
theorem endAll_outside {s : State} (h : s.enclosing = []) (setting : Setting) (x : Number)
    (t : Token) : s.endAll setting x t = .ok (s.endStatement x) := by
  simp [endAll, endStatement, h]

/-- Inside parentheses the end of everything is the end of the statement, a
complaint about the parenthesis that is missing, and the end of the
statements around it. The assignments of the statement are made before the
complaint, so they are kept by a run that aborts there. -/
theorem endAll_inside {s : State} {waiting : Statement} {enclosing : List Statement}
    (h : s.enclosing = waiting :: enclosing) (setting : Setting) (x : Number) (t : Token) :
    s.endAll setting x t
      = (s.endStatement x).2.complain setting [.closeParen] t >>= fun s' =>
          let closed := closeAll (waiting :: enclosing) (s.endStatement x).1 s'.environment
          .ok (closed.1, { s' with environment := closed.2, enclosing := [] }) := by
  simp only [endAll, endStatement, h]
  rfl

/-- Nothing goes on behind the end of everything if it fails there.
Discharges the last case of `OperatorCase` in every proof about a step that
succeeds. -/
theorem endAll_fail_ne_ok (s : State) (setting : Setting) (x : Number) (t : Token)
    (error : EvalError) (s' : State) :
    (s.endAll setting x t >>= fun p => p.2.fail error) ≠ .ok s' := by
  intro h
  obtain ⟨p, -, hfail⟩ := bind_eq_ok h
  cases hfail

/-! ### Steps one after the other

The equations of `feedAll`, by which an induction over the tokens takes the
first one off, or the last part. -/

/-- No token changes nothing. -/
@[simp] theorem feedAll_nil (setting : Setting) (s : State) : feedAll setting s [] = .ok s := rfl

/-- The first token comes first. With `feedAll_nil` the two equations of a
run, for inductions over the tokens. -/
@[simp] theorem feedAll_cons (setting : Setting) (s : State) (t : Token) (ts : List Token) :
    feedAll setting s (t :: ts) = feed setting s t >>= fun s => feedAll setting s ts :=
  List.foldlM_cons

/-- A run over two lists is the second run going on where the first one
stopped. If the first one fails, so does the whole. -/
theorem feedAll_append (setting : Setting) (s : State) (ts us : List Token) :
    feedAll setting s (ts ++ us) = feedAll setting s ts >>= fun s => feedAll setting s us :=
  List.foldlM_append

/-- A run that fails does so at one of its tokens. Induction over the
tokens, for every state: those before the token lead to the state in which
it fails. -/
theorem feedAll_error {setting : Setting} {failure : Failure} (tokens : List Token) :
    ∀ {s : State}, feedAll setting s tokens = .error failure →
      ∃ before t after s', tokens = before ++ t :: after ∧ feedAll setting s before = .ok s' ∧
        feed setting s' t = .error failure := by
  induction tokens with
  | nil => intro s h; cases h
  | cons t tokens ih =>
      intro s h
      rw [feedAll_cons] at h
      rcases bind_eq_error h with hstep | ⟨next, hstep, hrest⟩
      · -- The first token that fails ends the run, and those behind it are
        -- not read.
        exact ⟨[], t, tokens, s, rfl, rfl, hstep⟩
      · obtain ⟨before, u, after, s', rfl, hbefore, hu⟩ := ih hrest
        exact ⟨t :: before, u, after, s', rfl, by rw [feedAll_cons, hstep, ok_bind, hbefore], hu⟩

/-! ### A token after an operand

The cases of `feedOperator`. They are an inductive proposition and not a
disjunction, so that a proof names the case that it is in, and gets the
result of the step with it. -/

/-- What a token `t` after the operand `x` can do. The policy decides
nothing but what becomes of a complaint, so each case gives the result under
every setting. The cases exclude each other by what the token carries, by
whether there is a parenthesis open, and by whether a name has a value. -/
inductive OperatorCase (s : State) (x : Number) (t : Token) : Prop where
  /-- A factor beside the operand. -/
  | factor (y : Number) (value : Denotes s.environment t y)
      (result : ∀ setting, s.feedOperator setting x t =
        .ok ({ s with statement := s.statement.awaitFactor x }.take y))
  /-- A variable without a value. -/
  | unbound (name : String) (content : t.content = .identifier name)
      (unbound : s.environment.get? name = none)
      (result : ∀ setting, s.feedOperator setting x t = s.fail (.undefinedVariable name t.start))
  | openGroup (content : t.content = .bare .openParen)
      (result : ∀ setting, s.feedOperator setting x t =
        .ok (s.openGroup (s.statement.awaitFactor x)))
  | operator (kind : Kind) (statement : Statement) (content : t.content = .bare kind)
      (waits : s.statement.awaitAfter x kind = some statement)
      (result : ∀ setting, s.feedOperator setting x t = .ok (s.await statement))
  | semicolon (content : t.content = .bare .semicolon)
      (result : ∀ setting, s.feedOperator setting x t = .ok ((s.endStatement x).2.await {}))
  | closeGroup (waiting : Statement) (enclosing : List Statement)
      (content : t.content = .bare .closeParen) (inside : s.enclosing = waiting :: enclosing)
      (result : ∀ setting, s.feedOperator setting x t =
        .ok ((s.endStatement x).2.closeGroup (s.endStatement x).1))
  /-- A character that starts no token, where a parenthesis is missing. -/
  | skip (waiting : Statement) (enclosing : List Statement)
      (content : t.content = .bare .unknown) (inside : s.enclosing = waiting :: enclosing)
      (result : ∀ setting, s.feedOperator setting x t =
        (s.endStatement x).2.complain setting [.closeParen] t >>= fun s' =>
          .ok (s'.closeGroup (s.endStatement x).1))
  /-- A token that could only end a group, outside all parentheses. -/
  | leftover (content : t.content = .bare .closeParen ∨ t.content = .bare .unknown)
      (outside : s.enclosing = [])
      (result : ∀ setting, s.feedOperator setting x t =
        (s.endStatement x).2.fail (.malformed (setting.leftover t)))
  | stop (kind : Kind) (content : t.content = .bare kind) (stops : kind.stops = true)
      (result : ∀ setting, s.feedOperator setting x t =
        s.endAll setting x t >>= fun p => p.2.fail (.malformed (setting.leftover t)))

/-- A token with which nothing goes on ends everything, and then it is
reported. The last branch of `feedOperator`, for all the kinds that come to
it. -/
theorem feedOperator_of_stops {t : Token} {kind : Kind} (hcontent : t.content = .bare kind)
    (hstops : kind.stops = true) (setting : Setting) (s : State) (x : Number) :
    s.feedOperator setting x t
      = s.endAll setting x t >>= fun p => p.2.fail (.malformed (setting.leftover t)) := by
  cases kind <;> first | contradiction | simp only [feedOperator, hcontent]

/-- What a token after an operand does is one of the cases. Cases by what
the token carries, and by the enclosing statements where it could close a
parenthesis. -/
theorem feedOperator_cases (s : State) (x : Number) (t : Token) : OperatorCase s x t := by
  cases h : t.content with
  | number y => exact .factor y (.number h) fun _ => by simp only [feedOperator, h]
  | identifier name =>
      cases hy : s.environment.get? name with
      | none => exact .unbound name h hy fun _ => by simp [feedOperator, h, State.read, hy, fail]
      | some y =>
          exact .factor y (.bound h hy) fun _ => by simp [feedOperator, h, State.read, hy]
  | bare kind =>
      -- A kind that stops the run is left to the last case by all others.
      cases hstop : kind.stops with
      | true =>
          exact .stop kind h hstop fun setting => feedOperator_of_stops h hstop setting s x
      | false =>
          cases kind with
          | openParen => exact .openGroup h fun _ => by simp only [feedOperator, h]
          | caret => exact .operator _ _ h rfl fun _ => by simp only [feedOperator, h]
          | star => exact .operator _ _ h rfl fun _ => by simp only [feedOperator, h]
          | slash => exact .operator _ _ h rfl fun _ => by simp only [feedOperator, h]
          | plus => exact .operator _ _ h rfl fun _ => by simp only [feedOperator, h]
          | minus => exact .operator _ _ h rfl fun _ => by simp only [feedOperator, h]
          | semicolon => exact .semicolon h fun _ => by simp only [feedOperator, h]
          | closeParen =>
              cases hs : s.enclosing with
              | nil =>
                  exact .leftover (.inl h) hs fun _ => by simp [feedOperator, h, endStatement, hs]
              | cons waiting enclosing =>
                  exact .closeGroup _ _ h hs fun _ => by simp [feedOperator, h, endStatement, hs]
          | unknown =>
              cases hs : s.enclosing with
              | nil =>
                  exact .leftover (.inr h) hs fun _ => by simp [feedOperator, h, endStatement, hs]
              | cons waiting enclosing =>
                  exact .skip _ _ h hs fun _ => by simp [feedOperator, h, endStatement, hs]
          | _ => contradiction

/-! ### A token anywhere

The cases of `feed`. What the state waits for decides first, and where an
operand is known, however it was come by, the token is one after an operand
(`Ready`). -/

/-- The operand `x` is known: it was read, or it is the value of the name
whose fate is open. In both cases the next token follows an operand, unless
it assigns to the name. -/
inductive Ready (s : State) : Number → Prop where
  | value {x : Number} : s.focus = .value x → Ready s x
  | name {name : String} {offset : Nat} {x : Number} :
      s.focus = .name name offset → s.environment.get? name = some x → Ready s x

/-- A token after an operand that is known, if it does not assign. A name
needs the hypothesis, and for an operand that was read an assignment mark is
reported by `feedOperator` itself, but no caller has one there. -/
theorem feed_of_ready {s : State} {x : Number} (h : s.Ready x) {t : Token} (ht : t.kind ≠ .assign)
    (setting : Setting) : feed setting s t = s.feedOperator setting x t := by
  cases h with
  | value hf => simp only [feed, hf]
  | name hf hx => simp only [feed, hf, ht, if_false, State.read, hx, ok_bind]

/-- What a token `t` can do, under every setting. Two cases lead on to
`feedOperator`: `follow`, where an operand is known, and `missing`, where
one has been put in its place, unless the token is skipped. -/
inductive FeedCase (s : State) (t : Token) : Prop where
  | operand (y : Number) (focus : s.focus = .operand) (value : Denotes s.environment t y)
      (result : ∀ setting, feed setting s t = .ok (s.take y))
  /-- A name that the next token may assign to. -/
  | name (name : String) (focus : s.focus = .operand) (content : t.content = .identifier name)
      (allowed : s.statement.allowsTarget = true)
      (result : ∀ setting, feed setting s t = .ok { s with focus := .name name t.start })
  /-- A variable without a value, in the place of an operand. -/
  | unbound (name : String) (focus : s.focus = .operand) (content : t.content = .identifier name)
      (unbound : s.environment.get? name = none)
      (result : ∀ setting, feed setting s t = s.fail (.undefinedVariable name t.start))
  | openGroup (focus : s.focus = .operand) (content : t.content = .bare .openParen)
      (result : ∀ setting, feed setting s t = .ok (s.openGroup s.statement))
  | sign (focus : s.focus = .operand) (content : t.content = .bare .minus)
      (allowed : s.statement.allowsSign = true)
      (result : ∀ setting, feed setting s t = .ok (s.await { s.statement with negated := true }))
  /-- No operand, where one is missing. -/
  | missing (kind : Kind) (focus : s.focus = .operand) (content : t.content = .bare kind)
      (other : kind ≠ .openParen) (unsigned : kind = .minus → s.statement.allowsSign = false)
      (result : ∀ setting, feed setting s t = s.feedMissing setting t)
  /-- The mark behind a name to assign. -/
  | target (name : String) (offset : Nat) (focus : s.focus = .name name offset)
      (kind : t.kind = .assign)
      (result : ∀ setting, feed setting s t =
        .ok (s.await { s.statement with targets := name :: s.statement.targets }))
  /-- A variable without a value, read because the next token does not
  assign to it. -/
  | unboundName (name : String) (offset : Nat) (focus : s.focus = .name name offset)
      (kind : t.kind ≠ .assign) (unbound : s.environment.get? name = none)
      (result : ∀ setting, feed setting s t = s.fail (.undefinedVariable name offset))
  /-- A token after an operand. -/
  | follow (x : Number) (ready : s.Ready x)
      (unassigned : ∀ name offset, s.focus = .name name offset → t.kind ≠ .assign)
      (result : ∀ setting, feed setting s t = s.feedOperator setting x t)

/-- What a token does is one of the cases. Cases by the focus, then by what
the token carries. -/
theorem feed_cases (s : State) (t : Token) : FeedCase s t := by
  cases hf : s.focus with
  | value x =>
      exact .follow x (.value hf) (fun _ _ h => by cases hf.symm.trans h) fun _ => by
        simp only [feed, hf]
  | name name offset =>
      by_cases ht : t.kind = .assign
      · exact .target name offset hf ht fun _ => by simp only [feed, hf, ht, if_true]
      · -- No assignment after all, so the name is an operand and has to
        -- have a value.
        cases hx : s.environment.get? name with
        | none =>
            exact .unboundName name offset hf ht hx fun _ => by
              simp [feed, hf, ht, State.read, hx, fail]
        | some x =>
            exact .follow x (.name hf hx) (fun _ _ _ => ht) fun _ => by
              simp [feed, hf, ht, State.read, hx]
  | operand =>
      -- An operand is missing, so it depends on what the token is.
      cases h : t.content with
      | number y => exact .operand y hf (.number h) fun _ => by simp only [feed, hf, feedOperand, h]
      | identifier name =>
          -- Where it cannot be assigned to, its fate is not open: it is
          -- read at once.
          cases ha : s.statement.allowsTarget with
          | true => exact .name name hf h ha fun _ => by simp [feed, hf, feedOperand, h, ha]
          | false =>
              cases hy : s.environment.get? name with
              | none =>
                  exact .unbound name hf h hy fun _ => by
                    simp [feed, hf, feedOperand, h, ha, State.read, hy, fail]
              | some y =>
                  exact .operand y hf (.bound h hy) fun _ => by
                    simp [feed, hf, feedOperand, h, ha, State.read, hy]
      | bare kind =>
          cases kind with
          | openParen => exact .openGroup hf h fun _ => by simp only [feed, hf, feedOperand, h]
          | minus =>
              cases ha : s.statement.allowsSign with
              | true => exact .sign hf h ha fun _ => by simp [feed, hf, feedOperand, h, ha]
              | false =>
                  exact .missing _ hf h (by decide) (fun _ => ha) fun _ => by
                    simp [feed, hf, feedOperand, h, ha]
          | _ =>
              exact .missing _ hf h (by decide) (fun hm => by cases hm) fun _ => by
                simp only [feed, hf, feedOperand, h]

/-! ### Tokens where they are expected

The same results once more, read from the other side: a token of a given
form, in a state where it may stand. For proofs that choose the tokens of a
run, such as those that derive a sentence or complete a text. -/

section Expected

variable {setting : Setting} {s : State}

/-- A number in the place of an operand is taken. -/
theorem feed_number (hf : s.focus = .operand) (x : Number) (span : Span) :
    feed setting s (.number x span) = .ok (s.take x) := by
  simp only [feed, hf, feedOperand, Token.number]

/-- The fate of a name at the beginning of a statement is open. Whether it
has a value does not matter yet. -/
theorem feed_name (hf : s.focus = .operand) (ha : s.statement.allowsTarget = true) (name : String)
    (span : Span) :
    feed setting s (.identifier name span) = .ok { s with focus := .name name span.start } := by
  simp [feed, hf, feedOperand, Token.identifier, ha]

/-- Elsewhere a name in the place of an operand is read, and fails if it has
no value. It is read at once, as no mark could assign to it there. -/
theorem feed_identifier (hf : s.focus = .operand) (ha : s.statement.allowsTarget = false)
    (name : String) (span : Span) :
    feed setting s (.identifier name span)
      = s.read name span.start >>= fun x => .ok (s.take x) := by
  simp [feed, hf, feedOperand, Token.identifier, ha]

/-- The mark behind a name assigns to it. The name becomes a target of the
statement, and the value will be that of what follows. -/
theorem feed_target {name : String} {offset : Nat} (hf : s.focus = .name name offset)
    (mark : Span) :
    feed setting s (.bare .assign mark)
      = .ok (s.await { s.statement with targets := name :: s.statement.targets }) := by
  simp [feed, hf, Token.bare, Token.kind, Content.kind]

/-- A parenthesis in the place of an operand opens a group. The statement
waits around it as it is. -/
theorem feed_openParen (hf : s.focus = .operand) (span : Span) :
    feed setting s (.bare .openParen span) = .ok (s.openGroup s.statement) := by
  simp only [feed, hf, feedOperand, Token.bare]

/-- A sign in the place of an operand, where one may stand. The statement
remembers it. -/
theorem feed_sign (hf : s.focus = .operand) (ha : s.statement.allowsSign = true) (span : Span) :
    feed setting s (.bare .minus span) = .ok (s.await { s.statement with negated := true }) := by
  simp [feed, hf, feedOperand, Token.bare, ha]

/-- An operator behind an operand. The kinds that `awaitAfter` knows are
gone through here and nowhere else. -/
theorem feed_operator {x : Number} {kind : Kind} {statement : Statement} (hf : s.focus = .value x)
    (hs : s.statement.awaitAfter x kind = some statement) (span : Span) :
    feed setting s (.bare kind span) = .ok (s.await statement) := by
  cases kind <;> first
    | contradiction
    | (simp only [Statement.awaitAfter, Option.some.injEq] at hs
       simp only [feed, hf, feedOperator, Token.bare, hs])

/-- A mark behind an operand ends the statement, and another one begins.
Inside parentheses too, where the sequence goes on. -/
theorem feed_semicolon {x : Number} (h : s.Ready x) (span : Span) :
    feed setting s (.bare .semicolon span) = .ok ((s.endStatement x).2.await {}) := by
  rw [feed_of_ready h (fun hkind => by cases hkind)]
  simp only [feedOperator, Token.bare]

/-- A parenthesis behind an operand closes a group. The last statement in it
ends first, so its assignments are made. -/
theorem feed_closeParen {x : Number} {waiting : Statement} {enclosing : List Statement}
    (h : s.Ready x) (he : s.enclosing = waiting :: enclosing) (span : Span) :
    feed setting s (.bare .closeParen span)
      = .ok ((s.endStatement x).2.closeGroup (s.endStatement x).1) := by
  rw [feed_of_ready h (fun hkind => by cases hkind)]
  simp [feedOperator, Token.bare, endStatement, he]

end Expected

/-! ### What comes next

Only a name at the beginning of a statement leaves its fate open, and only
for one token. So a complaint about a name that was read late is about the
token before. -/

section Focus

variable {s : State} {t : Token}

/-- A token after an operand leads to where an operand is missing or was
read. -/
theorem feedOperator_focus {setting : Setting} {x : Number} {s' : State}
    (h : s.feedOperator setting x t = .ok s') :
    s'.focus = .operand ∨ ∃ y, s'.focus = .value y := by
  cases s.feedOperator_cases x t with
  | factor y value result =>
      obtain rfl := Except.ok.inj ((result setting).symm.trans h)
      exact .inr ⟨y, rfl⟩
  | openGroup content result =>
      obtain rfl := Except.ok.inj ((result setting).symm.trans h)
      exact .inl rfl
  | operator kind statement content waits result =>
      obtain rfl := Except.ok.inj ((result setting).symm.trans h)
      exact .inl rfl
  | semicolon content result =>
      obtain rfl := Except.ok.inj ((result setting).symm.trans h)
      exact .inl rfl
  | closeGroup waiting enclosing content inside result =>
      obtain rfl := Except.ok.inj ((result setting).symm.trans h)
      exact .inr ⟨_, closeGroup_focus _ _⟩
  | skip waiting enclosing content inside result =>
      rw [result] at h
      obtain ⟨next, -, hnext⟩ := bind_eq_ok h
      obtain rfl := Except.ok.inj hnext
      exact .inr ⟨_, closeGroup_focus _ _⟩
  | stop kind content stops result =>
      rw [result] at h
      exact absurd h (s.endAll_fail_ne_ok setting x t _ s')
  | unbound name content unbound result => cases (result setting).symm.trans h
  | leftover content outside result => cases (result setting).symm.trans h

/-- A token after an operand leaves no name open. In the form in which
`feed_focus` needs it. -/
theorem feedOperator_focus_ne {setting : Setting} {x : Number} {s' : State}
    (h : s.feedOperator setting x t = .ok s') (name : String) (offset : Nat) :
    s'.focus ≠ .name name offset := by
  intro hname
  rcases feedOperator_focus h with hfocus | ⟨y, hfocus⟩ <;> cases hfocus.symm.trans hname

/-- A name that is open is the token just read. The only case that leaves
one open is that of a name at the beginning of a statement. -/
theorem feed_focus {setting : Setting} {s' : State} (h : feed setting s t = .ok s')
    {name : String} {offset : Nat} (hf : s'.focus = .name name offset) :
    t.content = .identifier name ∧ offset = t.start := by
  cases s.feed_cases t with
  | name name' focus content allowed result =>
      obtain rfl := Except.ok.inj ((result setting).symm.trans h)
      obtain ⟨rfl, rfl⟩ := Focus.name.inj hf
      exact ⟨content, rfl⟩
  | operand y focus value result =>
      obtain rfl := Except.ok.inj ((result setting).symm.trans h)
      cases hf
  | openGroup focus content result =>
      obtain rfl := Except.ok.inj ((result setting).symm.trans h)
      cases hf
  | sign focus content allowed result =>
      obtain rfl := Except.ok.inj ((result setting).symm.trans h)
      cases hf
  | target name' offset' focus kind result =>
      obtain rfl := Except.ok.inj ((result setting).symm.trans h)
      cases hf
  | follow x ready unassigned result =>
      exact absurd hf (feedOperator_focus_ne ((result setting).symm.trans h) name offset)
  | missing kind focus content other unsigned result =>
      -- Behind the number that was put there it is a step after an operand,
      -- or the token is skipped.
      rw [result, feedMissing] at h
      obtain ⟨next, -, hnext⟩ := bind_eq_ok h
      split at hnext
      · obtain rfl := Except.ok.inj hnext
        cases hf
      · exact absurd hf (feedOperator_focus_ne hnext name offset)
  | unbound name' focus content unbound result => cases (result setting).symm.trans h
  | unboundName name' offset' focus kind unbound result =>
      cases (result setting).symm.trans h

end Focus

/-! ### Why a token fails

A step fails for one of two reasons, and both have a place: the token
itself, or a name before it that was read late. What is reported of a run is
derived from this. -/

/-- The failures that are about the token `t` itself: it is a variable
without a value, it is complained about where complaints stop the run, or
nothing can go on with it. In all three the offset is that of the token. -/
inductive TokenError (setting : Setting) (t : Token) : EvalError → Prop where
  | unbound (name : String) :
      t.content = .identifier name → TokenError setting t (.undefinedVariable name t.start)
  | complaint (expected : List Kind) :
      setting.policy = .abort → TokenError setting t (.malformed (setting.complaint expected t))
  | leftover : TokenError setting t (.malformed (setting.leftover t))

/-- Such a failure is about the place of the token. Hence failures of
different tokens are at different places. -/
theorem TokenError.offset {setting : Setting} {t : Token} {error : EvalError}
    (h : TokenError setting t error) : error.offset = t.start := by
  cases h with
  | unbound name content => rfl
  | complaint expected hp => exact setting.complaint_offset expected t
  | leftover => exact setting.leftover_offset t

/-- What fails right behind a complaint, fails with it or would fail without
it. A run that aborts fails with the complaint; otherwise the rest of the
step does. -/
theorem tokenError_complain {α : Type} {setting : Setting} {s : State} {expected : List Kind}
    {t : Token} {next : State → Except Failure α} {failure : Failure}
    (h : s.complain setting expected t >>= next = .error failure) :
    TokenError setting t failure.error ∨ ∃ s', next s' = .error failure := by
  cases hp : setting.policy with
  | abort =>
      rw [complain_abort hp] at h
      obtain rfl := Except.error.inj h
      exact .inl (.complaint expected hp)
  | substituteNan =>
      rw [complain_substituteNan hp] at h
      exact .inr ⟨_, h⟩

/-- A token after an operand fails because of itself. The cases that cannot
fail come last. -/
theorem feedOperator_error {setting : Setting} {s : State} {x : Number} {t : Token}
    {failure : Failure} (h : s.feedOperator setting x t = .error failure) :
    TokenError setting t failure.error := by
  cases s.feedOperator_cases x t with
  | unbound name content unbound result =>
      obtain rfl := Except.error.inj ((result setting).symm.trans h)
      exact .unbound name content
  | leftover content outside result =>
      obtain rfl := Except.error.inj ((result setting).symm.trans h)
      exact .leftover
  | skip waiting enclosing content inside result =>
      rw [result] at h
      rcases tokenError_complain h with herror | ⟨s', hnext⟩
      · exact herror
      · cases hnext
  | stop kind content stops result =>
      rw [result] at h
      -- Inside parentheses the missing one is complained about first, at
      -- the same token.
      cases he : s.enclosing with
      | nil =>
          rw [endAll_outside he] at h
          obtain rfl := Except.error.inj h
          exact .leftover
      | cons waiting enclosing =>
          rw [endAll_inside he, bind_assoc] at h
          rcases tokenError_complain h with herror | ⟨s', hnext⟩
          · exact herror
          · obtain rfl := Except.error.inj hnext
            exact .leftover
  | factor y value result => cases (result setting).symm.trans h
  | openGroup content result => cases (result setting).symm.trans h
  | operator kind statement content waits result => cases (result setting).symm.trans h
  | semicolon content result => cases (result setting).symm.trans h
  | closeGroup waiting enclosing content inside result => cases (result setting).symm.trans h

/-- A token fails because of itself, where an operand is missing or behind
one, or because of the name before it. In the second case the offset is that
of the name, which is the token before (`feed_focus`). -/
theorem feed_error {setting : Setting} {s : State} {t : Token} {failure : Failure}
    (h : feed setting s t = .error failure) :
    (TokenError setting t failure.error ∧ (s.focus = .operand ∨ ∃ x, s.Ready x)) ∨
      ∃ name offset, s.focus = .name name offset ∧
        failure.error = .undefinedVariable name offset := by
  cases s.feed_cases t with
  | unbound name focus content unbound result =>
      obtain rfl := Except.error.inj ((result setting).symm.trans h)
      exact .inl ⟨.unbound name content, .inl focus⟩
  | unboundName name offset focus kind unbound result =>
      obtain rfl := Except.error.inj ((result setting).symm.trans h)
      exact .inr ⟨name, offset, focus, rfl⟩
  | follow x ready unassigned result =>
      rw [result] at h
      exact .inl ⟨feedOperator_error h, .inr ⟨x, ready⟩⟩
  | missing kind focus content other unsigned result =>
      rw [result, feedMissing] at h
      refine .inl ⟨?_, .inl focus⟩
      rcases tokenError_complain h with herror | ⟨s', hnext⟩
      · exact herror
      · split at hnext
        · cases hnext
        · exact feedOperator_error hnext
  | operand y focus value result => cases (result setting).symm.trans h
  | name name focus content allowed result => cases (result setting).symm.trans h
  | openGroup focus content result => cases (result setting).symm.trans h
  | sign focus content allowed result => cases (result setting).symm.trans h
  | target name offset focus kind result => cases (result setting).symm.trans h

/-! ### Reading an open name

Before any token but one, an open name is read. A state with an open name
may be replaced then by the state in which it was read, and a proof does not
need a case for it. -/

/-- The state in which a name whose fate is open was read. In any other
state nothing is read. -/
def resolve (s : State) : Except Failure State :=
  match s.focus with
  | .name name offset => do
    let x ← s.read name offset
    return s.take x
  | _ => .ok s

/-- What a token after an operand does, does not depend on how the operand
was come by. The focus is never looked at by `feedOperator`, and is
overwritten by every step that goes on. -/
theorem feedOperator_take (setting : Setting) (s : State) (x y : Number) (t : Token) :
    (s.take y).feedOperator setting x t = s.feedOperator setting x t := by
  -- A complaint and the end of everything leave the focus alone, so it can
  -- be set after them.
  have hcomplain : ∀ s' : State, (s'.take y).complain setting [.closeParen] t
      = s'.complain setting [.closeParen] t >>= fun s' => .ok (s'.take y) := by
    intro s'
    cases hp : setting.policy with
    | abort => rw [complain_abort hp, complain_abort hp]; rfl
    | substituteNan => rw [complain_substituteNan hp, complain_substituteNan hp]; rfl
  have hstop : ∀ error, ((s.take y).endAll setting x t >>= fun p => p.2.fail (α := State) error)
      = s.endAll setting x t >>= fun p => p.2.fail error := by
    intro error
    cases he : s.enclosing with
    | nil => rw [endAll_outside he, endAll_outside (s := s.take y) he]; rfl
    | cons waiting enclosing =>
        rw [endAll_inside he, endAll_inside (s := s.take y) he]
        show ((s.endStatement x).2.take y).complain setting [.closeParen] t >>= _ >>= _ = _
        rw [hcomplain]
        cases (s.endStatement x).2.complain setting [.closeParen] t <;> rfl
  cases hc : t.content with
  | number z => simp only [feedOperator, hc]; rfl
  | identifier name => simp only [feedOperator, hc]; rfl
  | bare kind =>
      cases kind with
      | unknown =>
          simp only [feedOperator, hc]
          show (if s.enclosing.isEmpty then _ else
            ((s.endStatement x).2.take y).complain setting [.closeParen] t >>= _) = _
          rw [hcomplain]
          cases (s.endStatement x).2.complain setting [.closeParen] t <;> rfl
      | _ => simp only [feedOperator, hc, hstop] <;> rfl

/-- A name is read before any token but the mark that assigns to it. So a
proof may read it first and then has one case less, that of an open name. -/
theorem feed_eq_resolve (setting : Setting) (s : State) {t : Token} (h : t.kind ≠ .assign) :
    feed setting s t = s.resolve >>= fun s => feed setting s t := by
  cases hf : s.focus with
  | operand => simp only [resolve, hf, ok_bind]
  | value x => simp only [resolve, hf, ok_bind]
  | name name offset =>
      simp only [resolve, hf, feed, h, if_false]
      cases s.read name offset with
      | error f => rfl
      | ok x =>
          -- The name is read as part of the step, and then it is an operand
          -- like any other.
          exact (feedOperator_take setting s x x t).symm

/-! ### The end of a text

At the end the operand is settled as before any token, and then everything
is ended. The state that is left is of no use to anyone, so `ending` keeps
what an outcome has: the value, the diagnostic and the variables. -/

/-- The end of the text behind the operand `x`, with what an outcome keeps
of the state then. -/
def endingWith (s : State) (setting : Setting) (stop : Nat) (x : Number) :
    Except Failure (Evaluation × Environment) := do
  let (value, s) ← s.endAll setting x (Token.endOfInput stop)
  return ({ value, diagnostic := s.diagnostic }, s.environment)

/-- The end of the text, with what an outcome keeps of the state then. -/
def ending (s : State) (setting : Setting) (stop : Nat) :
    Except Failure (Evaluation × Environment) := do
  let (evaluation, s) ← s.finish setting stop
  return (evaluation, s.environment)

/-- Outside parentheses a text ends with the value of its last statement.
Nothing can fail there. -/
theorem endingWith_outside {s : State} (h : s.enclosing = []) (setting : Setting) (stop : Nat)
    (x : Number) :
    s.endingWith setting stop x
      = .ok (⟨s.statement.value x, s.diagnostic⟩, (s.endStatement x).2.environment) := by
  rw [endingWith, endAll_outside h]
  rfl

/-- Inside parentheses a text ends with a complaint about the one that is
missing, however many are: the others would be missing at the same place,
and a second complaint is never kept. -/
theorem endingWith_inside {s : State} {waiting : Statement} {enclosing : List Statement}
    (h : s.enclosing = waiting :: enclosing) (setting : Setting) (stop : Nat) (x : Number) :
    s.endingWith setting stop x
      = (s.endStatement x).2.complain setting [.closeParen] (Token.endOfInput stop) >>= fun s' =>
          let closed := closeAll (waiting :: enclosing) (s.endStatement x).1 s'.environment
          .ok (⟨closed.1, s'.diagnostic⟩, closed.2) := by
  rw [endingWith, endAll_inside h]
  cases (s.endStatement x).2.complain setting [.closeParen] (Token.endOfInput stop) <;> rfl

/-- A text ends behind the operand that is known, be it a value or an open
name that has one. -/
theorem ending_of_ready {s : State} {x : Number} (h : s.Ready x) (setting : Setting) (stop : Nat) :
    s.ending setting stop = s.endingWith setting stop x := by
  have hlast : s.lastOperand setting (Token.endOfInput stop) = .ok (x, s) := by
    cases h with
    | value hf => simp only [lastOperand, hf]
    | name hf hx => simp only [lastOperand, hf, State.read, hx, ok_bind, pure_eq_ok]
  simp only [ending, finish, hlast, endingWith, ok_bind]
  cases s.endAll setting x (Token.endOfInput stop) <;> rfl

/-- A text that ends with a variable without a value fails, before anything
that may still be open is complained about. -/
theorem ending_of_unbound {s : State} {name : String} {offset : Nat}
    (hf : s.focus = .name name offset) (hx : s.environment.get? name = none) (setting : Setting)
    (stop : Nat) : s.ending setting stop = s.fail (.undefinedVariable name offset) := by
  simp only [ending, finish, lastOperand, hf, State.read, hx, fail, error_bind]

/-- A text that ends where an operand is missing is complained about, and
goes on with NaN if the complaint does not stop it. A parenthesis that is
missing as well is then complained about too. -/
theorem ending_of_operand {s : State} (hf : s.focus = .operand) (setting : Setting) (stop : Nat) :
    s.ending setting stop
      = s.complain setting Kind.factorStarts (Token.endOfInput stop) >>= fun s' =>
          s'.endingWith setting stop .nan := by
  simp only [ending, finish, lastOperand, hf, endingWith]
  cases s.complain setting Kind.factorStarts (Token.endOfInput stop) with
  | error f => rfl
  | ok s' =>
      simp only [ok_bind, pure_eq_ok]
      cases s'.endAll setting Number.nan (Token.endOfInput stop) <;> rfl

/-- What the end of a text can do. Unlike the steps the cases carry no
result: `ending_of_operand`, `ending_of_unbound` and `ending_of_ready` have
the results. -/
inductive EndCase (s : State) : Prop where
  | missing (focus : s.focus = .operand)
  | unboundName (name : String) (offset : Nat) (focus : s.focus = .name name offset)
      (unbound : s.environment.get? name = none)
  | ready (x : Number) (ready : s.Ready x)

/-- What the end of a text does is one of the cases. By what the state waits
for, and for an open name by whether it has a value. -/
theorem ending_cases (s : State) : EndCase s := by
  cases hf : s.focus with
  | operand => exact .missing hf
  | value x => exact .ready x (.value hf)
  | name name offset =>
      cases hx : s.environment.get? name with
      | none => exact .unboundName name offset hf hx
      | some x => exact .ready x (.name hf hx)

/-- The end of a text fails because of a complaint, where complaints stop
the run, or because of the name before it. -/
theorem ending_error {setting : Setting} {s : State} {stop : Nat} {failure : Failure}
    (h : s.ending setting stop = .error failure) :
    (setting.policy = .abort ∧ ∃ expected,
        failure.error = .malformed (setting.complaint expected (Token.endOfInput stop))) ∨
      ∃ name offset, s.focus = .name name offset ∧
        failure.error = .undefinedVariable name offset := by
  -- Behind an operand only an open parenthesis is left to complain about.
  have hwith : ∀ (s' : State) (x : Number), s'.endingWith setting stop x = .error failure →
      setting.policy = .abort ∧ ∃ expected,
        failure.error = .malformed (setting.complaint expected (Token.endOfInput stop)) := by
    intro s' x h'
    cases he : s'.enclosing with
    | nil => rw [endingWith_outside he] at h'; cases h'
    | cons waiting enclosing =>
        rw [endingWith_inside he] at h'
        cases hp : setting.policy with
        | abort =>
            rw [complain_abort hp] at h'
            obtain rfl := Except.error.inj h'
            exact ⟨rfl, _, rfl⟩
        | substituteNan => rw [complain_substituteNan hp] at h'; cases h'
  cases s.ending_cases with
  | ready x ready =>
      rw [ending_of_ready ready] at h
      exact .inl (hwith s x h)
  | unboundName name offset focus unbound =>
      rw [ending_of_unbound focus unbound] at h
      obtain rfl := Except.error.inj h
      exact .inr ⟨name, offset, focus, rfl⟩
  | missing focus =>
      rw [ending_of_operand focus] at h
      cases hp : setting.policy with
      | abort =>
          rw [complain_abort hp] at h
          obtain rfl := Except.error.inj h
          exact .inl ⟨rfl, _, rfl⟩
      | substituteNan =>
          rw [complain_substituteNan hp, ok_bind] at h
          exact .inl (hp ▸ hwith _ _ h)

/-- How a text ends behind an operand does not depend on how the operand was
come by. The counterpart of `feedOperator_take`. -/
theorem endingWith_take (setting : Setting) (s : State) (stop : Nat) (x y : Number) :
    (s.take y).endingWith setting stop x = s.endingWith setting stop x := by
  cases he : s.enclosing with
  | nil => rw [endingWith_outside he, endingWith_outside (s := s.take y) he]; rfl
  | cons waiting enclosing =>
      rw [endingWith_inside he, endingWith_inside (s := s.take y) he]
      cases hp : setting.policy with
      | abort => rw [complain_abort hp, complain_abort hp]; rfl
      | substituteNan => rw [complain_substituteNan hp, complain_substituteNan hp]; rfl

/-- A name at the end of the text is read, as before a token that does not
assign. So the end needs no case for an open name either. -/
theorem ending_eq_resolve (setting : Setting) (s : State) (stop : Nat) :
    s.ending setting stop = s.resolve >>= fun s => s.ending setting stop := by
  cases hf : s.focus with
  | operand => simp only [resolve, hf, ok_bind]
  | value x => simp only [resolve, hf, ok_bind]
  | name name offset =>
      simp only [resolve, hf, State.read]
      cases hx : s.environment.get? name with
      | none =>
          rw [ending_of_unbound hf hx]
          rfl
      | some x =>
          -- Both sides end behind the value of the name, the right one with
          -- that in its focus.
          rw [ending_of_ready (.name hf hx), ← endingWith_take setting s stop x x]
          exact (ending_of_ready (s := s.take x) (.value rfl) setting stop).symm

/-- A run over some tokens and the end of a text of `stop` bytes. It begins
in any state, so that the inductions can go over the tokens that are
left. -/
def run (setting : Setting) (stop : Nat) (s : State) (tokens : List Token) :
    Except Failure (Evaluation × Environment) := do
  let s ← feedAll setting s tokens
  s.ending setting stop

/-- Without a token a run is the end. -/
@[simp] theorem run_nil (setting : Setting) (stop : Nat) (s : State) :
    run setting stop s [] = s.ending setting stop := rfl

/-- A run begins with its first token, and goes on from the state behind
it. -/
theorem run_cons (setting : Setting) (stop : Nat) (s : State) (t : Token) (tokens : List Token) :
    run setting stop s (t :: tokens)
      = feed setting s t >>= fun s => run setting stop s tokens := by
  simp only [run, feedAll_cons, bind_assoc]

/-- A run over two lists is the run over the second one from where the first
one leads. If the first one fails, the second is not looked at. -/
theorem run_append (setting : Setting) (stop : Nat) (s : State) (ts us : List Token) :
    run setting stop s (ts ++ us)
      = feedAll setting s ts >>= fun s => run setting stop s us := by
  simp only [run, feedAll_append, bind_assoc]

end State

/-- The outcome of a run. A failure carries the variables as they were, so
both sides have them. -/
def Outcome.ofRun : Except Failure (Evaluation × Environment) → Outcome
  | .ok (evaluation, env) => { result := .ok evaluation, environment := env }
  | .error failure => { result := .error failure.error, environment := failure.environment }

/-- A value is that of a run that succeeds. The run is the one from which
the outcome was made. -/
theorem Outcome.ofRun_ok {run : Except Failure (Evaluation × Environment)} {evaluation : Evaluation}
    (h : (ofRun run).result = .ok evaluation) : ∃ env, run = .ok (evaluation, env) := by
  cases run with
  | ok p =>
      obtain rfl := Except.ok.inj h
      exact ⟨p.2, rfl⟩
  | error failure => cases h

/-- An error is that of a run that fails, with the variables that it
left. -/
theorem Outcome.ofRun_error {run : Except Failure (Evaluation × Environment)} {error : EvalError}
    (h : (ofRun run).result = .error error) :
    ∃ failure, run = .error failure ∧ failure.error = error := by
  cases run with
  | ok p => cases h
  | error failure => exact ⟨failure, rfl, Except.error.inj h⟩

/-- The outcome for a list of tokens is that of feeding them and ending. The
way from `evaluate` to `State.run`, for all the theorems on outcomes. -/
theorem evaluateTokens_eq (setting : Setting) (env : Environment) (tokens : List Token)
    (stop : Nat) :
    evaluateTokens setting env tokens stop
      = .ofRun (State.run setting stop { environment := env } tokens) := by
  simp only [evaluateTokens, State.run, State.ending]
  cases State.feedAll setting { environment := env } tokens with
  | error failure => rfl
  | ok s =>
      simp only [ok_bind]
      cases s.finish setting stop <;> rfl

end DeskCalculator
