import DeskCalculator.Proofs.Run.Writes
import Mathlib.Control.Monad.Basic

/-!
# `DeskCalculator.Proofs.Run.Extension`: variables that a text does not ask for

A run looks a variable up where it reads one, and nowhere else. So two runs
over the same text, the second one with more variables, do the same as long
as the first one does not read a variable without a value: they are in the
same state but for the variables, and those come from the variables at the
beginning by the same writes (`Environment.Overwritten`).

* `State.Beside`: two such states. `Follows`: two computations that keep to
  each other, unless the first one fails because of a variable.
* `State.Beside.feed`, `State.Beside.ending`: every step, and the end of a
  text. `State.run_follows`: a whole run.
* `evaluate_extension`: the outcomes of both runs.

The second environment is supposed to have all bindings of the first one,
with the same values. This stays so under writes to both
(`get?_write_of_le`), even though a write may put one binding over another,
which only the second environment had.

What the first run would have done with a value for the variable it lacks is
not known, so nothing is said of the second run there (`Follows.unbound`),
and the main statement excludes it.
-/

set_option autoImplicit false

namespace DeskCalculator

namespace Environment

/-! ### Environments with the same writes

Two environments that are written to alike. What the second one has more may
be written over, and then both have the new value. -/

/-- What the second environment binds over the first one stays bound if both
are written to. Induction on the writes, for both environments at once. -/
theorem get?_write_of_le (writes : List (String × Number)) :
    ∀ {env more : Environment}, (∀ name x, env.get? name = some x → more.get? name = some x) →
      ∀ name x, (env.write writes).get? name = some x → (more.write writes).get? name = some x := by
  induction writes with
  | nil => exact fun h => h
  | cons w writes ih =>
      intro env more h
      refine @ih (env.set w.1 w.2) (more.set w.1 w.2) fun name x => ?_
      rw [get?_set, get?_set]
      split
      · exact id
      · exact h name x

/-- An environment with all bindings of another one has the values of that
one. No name is bound twice, so the binding that is found is the one that is
shared. -/
theorem get?_of_subset {env more : Environment} (h : env.bindings ⊆ more.bindings) (name : String)
    (x : Number) (hx : env.get? name = some x) : more.get? name = some x :=
  lookup_of_mem more.sorted (h (mem_of_get? hx))

/-- The environments `final` and `final'` come from `env` and `more` by the
same writes. Keeps the list itself, and not only that the environments agree
where the first one has a value: that would not say what becomes of the
other variables. -/
def Overwritten (env more final final' : Environment) : Prop :=
  ∃ writes, final = env.write writes ∧ final' = more.write writes

variable {env more final final' : Environment}

/-- Without a write. So a run begins, with any two environments. -/
theorem Overwritten.refl (env more : Environment) : Overwritten env more env more :=
  ⟨[], rfl, rfl⟩

/-- With some more writes, made to both. So a run goes on: both ends of a
statement write the same list, as the value and the names are in the part of
the state that is shared. -/
theorem Overwritten.write (h : Overwritten env more final final')
    (writes : List (String × Number)) :
    Overwritten env more (final.write writes) (final'.write writes) := by
  obtain ⟨before, rfl, rfl⟩ := h
  exact ⟨before ++ writes, (env.write_append _ _).symm, (more.write_append _ _).symm⟩

/-- What has a value in the first one has the same value in the second one.
So a variable that is read in both runs has one value. -/
theorem Overwritten.get? (h : Overwritten env more final final')
    (hle : env.bindings ⊆ more.bindings) {name : String} {x : Number}
    (hx : final.get? name = some x) : final'.get? name = some x := by
  obtain ⟨writes, rfl, rfl⟩ := h
  exact get?_write_of_le writes (get?_of_subset hle) name x hx

end Environment

open Environment (Overwritten)

/-! ### Computations that keep to each other

The relation between the results of the two runs. It leaves open what the
second run does once the first one has failed because of a variable. -/

/-- The second computation does what the first one does: it succeeds with
what is related, or fails with the same complaint. If the first one fails
because of a variable, the second one can do anything. -/
inductive Follows (env more : Environment) {α : Type} (R : α → α → Prop) :
    Except Failure α → Except Failure α → Prop where
  | ok {a a' : α} : R a a' → Follows env more R (.ok a) (.ok a')
  | malformed {d : Diagnostic} {final final' : Environment} : Overwritten env more final final' →
      Follows env more R (.error ⟨.malformed d, final⟩) (.error ⟨.malformed d, final'⟩)
  | unbound {name : String} {offset : Nat} {final : Environment} {result : Except Failure α} :
      Follows env more R (.error ⟨.undefinedVariable name offset, final⟩) result

/-- Computations that go on after such ones keep to each other. By this
lemma the steps are put together as the model puts them together. -/
theorem Follows.bind {env more : Environment} {α β : Type} {R : α → α → Prop} {Q : β → β → Prop}
    {x x' : Except Failure α} {f f' : α → Except Failure β} (h : Follows env more R x x')
    (hnext : ∀ a a', R a a' → Follows env more Q (f a) (f' a')) :
    Follows env more Q (x >>= f) (x' >>= f') := by
  cases h with
  | ok hrelated => exact hnext _ _ hrelated
  | malformed henv => exact .malformed henv
  | unbound => exact .unbound

namespace State

/-- The second state is the first one, but for its variables. Everything
that a step decides by is therefore the same in both, but for the value of a
variable. -/
inductive Beside (env more : Environment) : State → State → Prop where
  | intro (s : State) (environment : Environment) :
      Overwritten env more s.environment environment → Beside env more s { s with environment }

/-- The same number, and states that are beside each other. For the
functions that end statements, which return both. -/
def ValueBeside (env more : Environment) (p p' : Number × State) : Prop :=
  p'.1 = p.1 ∧ Beside env more p.2 p'.2

section Steps

variable {env more : Environment} {s s' : State} {setting : Setting} {t : Token}

/-- Failing with a complaint, which is the same as long as the runs have
kept to each other. A variable without a value is no complaint, and has its
own case in `Beside.read`. -/
theorem Beside.fail {α : Type} {R : α → α → Prop} (h : Beside env more s s') (d : Diagnostic) :
    Follows env more R (s.fail (.malformed d)) (s'.fail (.malformed d)) := by
  obtain ⟨environment, henv⟩ := h
  exact .malformed henv

/-- A complaint. Whether it stops the run is up to the policy, and what it
says to the token; neither looks at a variable. -/
theorem Beside.complain (h : Beside env more s s') (setting : Setting) (expected : List Kind)
    (t : Token) :
    Follows env more (Beside env more) (s.complain setting expected t)
      (s'.complain setting expected t) := by
  cases hp : setting.policy with
  | abort =>
      rw [complain_abort hp, complain_abort hp]
      exact h.fail _
  | substituteNan =>
      rw [complain_substituteNan hp, complain_substituteNan hp]
      obtain ⟨environment, henv⟩ := h
      exact .ok (.intro (s.note _) environment henv)

/-- A variable that is read. The only place where the runs can part, and
where the variables of the second one have to be more. -/
theorem Beside.read (h : Beside env more s s') (hle : env.bindings ⊆ more.bindings) (name : String)
    (offset : Nat) : Follows env more Eq (s.read name offset) (s'.read name offset) := by
  obtain ⟨environment, henv⟩ := h
  cases hx : s.environment.get? name with
  | none =>
      simp only [State.read, hx]
      exact .unbound
  | some x =>
      simp only [State.read, hx, henv.get? hle hx]
      exact .ok rfl

/-- The end of a statement: the same value, written to the same names. The
only kind of step that changes the variables. -/
theorem Beside.endStatement (h : Beside env more s s') (x : Number) :
    ValueBeside env more (s.endStatement x) (s'.endStatement x) := by
  obtain ⟨environment, henv⟩ := h
  -- The end of a statement writes the same list in both states.
  have hwritten := henv.write (s.endWrites x)
  rw [endWrites, ← Statement.assign_eq_write, ← Statement.assign_eq_write] at hwritten
  exact ⟨rfl, .intro (s.endStatement x).2 _ hwritten⟩

/-- An operand that is taken. It was read already, so it is the same in
both. -/
theorem Beside.take (h : Beside env more s s') (x : Number) :
    Beside env more (s.take x) (s'.take x) := by
  obtain ⟨environment, henv⟩ := h
  exact .intro (s.take x) environment henv

/-- A statement that waits for an operand. The statements of both states are
one and the same, so what is put in their place can be. -/
theorem Beside.await (h : Beside env more s s') (statement : Statement) :
    Beside env more (s.await statement) (s'.await statement) := by
  obtain ⟨environment, henv⟩ := h
  exact .intro (s.await statement) environment henv

/-- A name whose fate is open. Whether it has a value is not asked before
the next token. -/
theorem Beside.openName (h : Beside env more s s') (name : String) (offset : Nat) :
    Beside env more { s with focus := .name name offset }
      { s' with focus := .name name offset } := by
  obtain ⟨environment, henv⟩ := h
  exact .intro { s with focus := .name name offset } environment henv

/-- The beginning of a group. -/
theorem Beside.openGroup (h : Beside env more s s') (waiting : Statement) :
    Beside env more (s.openGroup waiting) (s'.openGroup waiting) := by
  obtain ⟨environment, henv⟩ := h
  exact .intro (s.openGroup waiting) environment henv

/-- The end of a group. Which statement goes on is decided by the statements
around it, which are shared. -/
theorem Beside.closeGroup (h : Beside env more s s') (x : Number) :
    Beside env more (s.closeGroup x) (s'.closeGroup x) := by
  obtain ⟨environment, henv⟩ := h
  obtain ⟨before, diagnostic, enclosing, statement, focus⟩ := s
  cases enclosing with
  | nil => exact .intro _ environment henv
  | cons waiting enclosing => exact .intro _ environment henv

/-- The value of the statements around the open parentheses does not depend
on the variables. All their operands have been read. -/
theorem closeAll_value (enclosing : List Statement) (x : Number) (env env' : Environment) :
    (closeAll enclosing x env).1 = (closeAll enclosing x env').1 := by
  induction enclosing generalizing x env env' with
  | nil => rfl
  | cons waiting enclosing ih => exact ih _ _ _

/-- The end of everything. Outside parentheses it is that of the statement;
inside a complaint stands between the writes. -/
theorem Beside.endAll (h : Beside env more s s') (setting : Setting) (x : Number) (t : Token) :
    Follows env more (ValueBeside env more) (s.endAll setting x t) (s'.endAll setting x t) := by
  obtain ⟨hvalue, hended⟩ := h.endStatement x
  have henclosing : s'.enclosing = s.enclosing := by cases h; rfl
  cases he : s.enclosing with
  | nil =>
      rw [endAll_outside he, endAll_outside (henclosing.trans he)]
      exact .ok ⟨hvalue, hended⟩
  | cons waiting enclosing =>
      rw [endAll_inside he, endAll_inside (henclosing.trans he), hvalue]
      -- Of the complaint it is used that it leaves the statements and adds
      -- no write of its own.
      refine (hended.complain setting [.closeParen] t).bind fun next next' hnext => .ok ?_
      obtain ⟨environment, henv⟩ := hnext
      have hwritten := henv.write (closeWrites (waiting :: enclosing) (s.endStatement x).1)
      rw [← closeAll_environment, ← closeAll_environment] at hwritten
      exact ⟨closeAll_value _ _ _ _,
        .intro { next with environment := (closeAll _ _ next.environment).2, enclosing := [] } _
          hwritten⟩

/-- A token after an operand. By what it carries, along the definition,
since both states go the same way. -/
theorem Beside.feedOperator (h : Beside env more s s') (hle : env.bindings ⊆ more.bindings)
    (setting : Setting) (x : Number) (t : Token) :
    Follows env more (Beside env more) (s.feedOperator setting x t)
      (s'.feedOperator setting x t) := by
  obtain ⟨hvalue, hended⟩ := h.endStatement x
  have henclosing : (s'.endStatement x).2.enclosing = (s.endStatement x).2.enclosing := by
    cases h
    rfl
  -- What the kinds do that end everything: close the groups, and then fail.
  have hstop := (h.endAll setting x t).bind (Q := Beside env more)
    fun _ _ hp => hp.2.fail (setting.leftover t)
  cases hc : t.content with
  | number y =>
      simp only [State.feedOperator, hc]
      obtain ⟨environment, henv⟩ := h
      exact .ok (.intro _ _ henv)
  | identifier name =>
      simp only [State.feedOperator, hc]
      -- The variable has one value in both, or the first run fails.
      refine (h.read hle name t.start).bind fun y y' hy => ?_
      obtain rfl := hy
      obtain ⟨environment, henv⟩ := h
      exact .ok (.intro _ _ henv)
  | bare kind =>
      cases kind with
      | semicolon =>
          simp only [State.feedOperator, hc]
          exact .ok (hended.await {})
      | closeParen =>
          simp only [State.feedOperator, hc, henclosing, hvalue]
          split
          · exact hended.fail _
          · exact .ok (hended.closeGroup _)
      | unknown =>
          simp only [State.feedOperator, hc, henclosing, hvalue]
          split
          · exact hended.fail _
          · exact (hended.complain setting _ t).bind fun _ _ hnext => .ok (hnext.closeGroup _)
      | _ =>
          -- A token with which nothing goes on, or one behind which an
          -- operand is missing.
          simp only [State.feedOperator, hc]
          first
          | exact hstop
          | (obtain ⟨environment, henv⟩ := h
             exact .ok (.intro _ _ henv))

/-- A token in the place of an operand that it cannot be. After the
complaint the two runs are where a token stands behind an operand. -/
theorem Beside.feedMissing (h : Beside env more s s') (hle : env.bindings ⊆ more.bindings)
    (setting : Setting) (t : Token) :
    Follows env more (Beside env more) (s.feedMissing setting t) (s'.feedMissing setting t) := by
  refine (h.complain setting Kind.factorStarts t).bind fun next next' hnext => ?_
  split
  · exact .ok (hnext.take .nan)
  · exact hnext.feedOperator hle setting .nan t

/-- A token in the place of an operand. By what it carries; only a name that
cannot be assigned to is looked up here. -/
theorem Beside.feedOperand (h : Beside env more s s') (hle : env.bindings ⊆ more.bindings)
    (setting : Setting) (t : Token) :
    Follows env more (Beside env more) (s.feedOperand setting t) (s'.feedOperand setting t) := by
  have hstatement : s'.statement = s.statement := by cases h; rfl
  have hmissing := h.feedMissing hle setting t
  cases hc : t.content with
  | number y =>
      simp only [State.feedOperand, hc]
      exact .ok (h.take y)
  | identifier name =>
      -- Where it may be assigned to, the variable is not looked at yet.
      cases ha : s.statement.allowsTarget with
      | true =>
          simp only [State.feedOperand, hc, ha, hstatement.symm ▸ ha, if_true]
          exact .ok (h.openName name t.start)
      | false =>
          simp only [State.feedOperand, hc, ha, hstatement.symm ▸ ha]
          refine (h.read hle name t.start).bind fun y y' hy => ?_
          obtain rfl := hy
          exact .ok (h.take y)
  | bare kind =>
      cases kind with
      | openParen =>
          simp only [State.feedOperand, hc, hstatement]
          exact .ok (h.openGroup s.statement)
      | minus =>
          simp only [State.feedOperand, hc, hstatement]
          split
          · exact .ok (h.await _)
          · exact hmissing
      | _ =>
          simp only [State.feedOperand, hc]
          exact hmissing

/-- A token. The step lemma of this module. What it assumes of the states is
what it yields, so the induction over the tokens has nothing else to
carry. -/
theorem Beside.feed (h : Beside env more s s') (hle : env.bindings ⊆ more.bindings)
    (setting : Setting) (t : Token) :
    Follows env more (Beside env more) (feed setting s t) (feed setting s' t) := by
  have hfocus : s'.focus = s.focus := by cases h; rfl
  have hstatement : s'.statement = s.statement := by cases h; rfl
  cases hf : s.focus with
  | operand =>
      simp only [State.feed, hfocus, hf]
      exact h.feedOperand hle setting t
  | value x =>
      simp only [State.feed, hfocus, hf]
      exact h.feedOperator hle setting x t
  | name name offset =>
      simp only [State.feed, hfocus, hf, hstatement]
      split
      · exact .ok (h.await _)
      · refine (h.read hle name offset).bind fun x x' hx => ?_
        obtain rfl := hx
        exact h.feedOperator hle setting x t

/-- All tokens, one after the other. Induction on them, for both states. The
first run can fail on the way, and then nothing is left to show of the
rest. -/
theorem Beside.feedAll (hle : env.bindings ⊆ more.bindings) (setting : Setting)
    (tokens : List Token) :
    ∀ {s s' : State}, Beside env more s s' →
      Follows env more (Beside env more) (feedAll setting s tokens)
        (feedAll setting s' tokens) := by
  induction tokens with
  | nil => exact fun h => .ok h
  | cons t tokens ih =>
      intro s s' h
      rw [feedAll_cons, feedAll_cons]
      exact (h.feed hle setting t).bind fun _ _ hnext => ih hnext

/-- The end of the text behind an operand. The variables that it leaves are
the ones to be compared. -/
theorem Beside.endingWith (h : Beside env more s s') (setting : Setting) (stop : Nat) (x : Number) :
    Follows env more (fun p p' => p'.1 = p.1 ∧ Overwritten env more p.2 p'.2)
      (s.endingWith setting stop x) (s'.endingWith setting stop x) := by
  refine (h.endAll setting x (Token.endOfInput stop)).bind fun p p' hp => .ok ?_
  obtain ⟨value, final⟩ := p
  obtain ⟨value', final'⟩ := p'
  obtain ⟨hvalue, hfinal⟩ := hp
  obtain rfl : value' = value := hvalue
  cases hfinal with
  | intro environment henv => exact ⟨rfl, henv⟩

/-- The end of the text. By what the states wait for, which is the same for
both. -/
theorem Beside.ending (h : Beside env more s s') (hle : env.bindings ⊆ more.bindings)
    (setting : Setting) (stop : Nat) :
    Follows env more (fun p p' => p'.1 = p.1 ∧ Overwritten env more p.2 p'.2)
      (s.ending setting stop) (s'.ending setting stop) := by
  have hfocus : s'.focus = s.focus := by cases h; rfl
  cases s.ending_cases with
  | missing focus =>
      rw [ending_of_operand focus, ending_of_operand (hfocus.trans focus)]
      exact (h.complain setting _ _).bind fun _ _ hnext => hnext.endingWith setting stop .nan
  | unboundName name offset focus unbound =>
      rw [ending_of_unbound focus unbound]
      exact .unbound
  | ready x ready =>
      -- A name that is ready to be read in the first state is so in the
      -- second one, with the same value.
      have ready' : s'.Ready x := by
        cases ready with
        | value hf => exact .value (hfocus.trans hf)
        | name hf hx =>
            obtain ⟨environment, henv⟩ := h
            exact .name hf (henv.get? hle hx)
      rw [ending_of_ready ready, ending_of_ready ready']
      exact h.endingWith setting stop x

/-- A whole run. Before the first token nothing has been written to either,
so the two states are beside each other. -/
theorem run_follows (hle : env.bindings ⊆ more.bindings) (setting : Setting) (stop : Nat)
    (tokens : List Token) :
    Follows env more (fun p p' => p'.1 = p.1 ∧ Overwritten env more p.2 p'.2)
      (run setting stop { environment := env } tokens)
      (run setting stop { environment := more } tokens) := by
  have hstart : Beside env more { environment := env } { environment := more } :=
    .intro { environment := env } more (.refl env more)
  exact (hstart.feedAll hle setting tokens).bind fun _ _ h => h.ending hle setting stop

end Steps

end State

/-- Variables that a text does not ask for change nothing. Unless a text
fails because of a variable, it has the same result with more variables, and
then the variables are the ones from the beginning with the same writes. -/
theorem evaluate_extension (policy : Policy) (text : String) {env more : Environment}
    (h : env.bindings ⊆ more.bindings)
    (hbound : ∀ name offset,
      (evaluate policy text env).result ≠ .error (.undefinedVariable name offset)) :
    (evaluate policy text more).result = (evaluate policy text env).result ∧
      ∃ writes, (evaluate policy text env).environment = env.write writes ∧
        (evaluate policy text more).environment = more.write writes := by
  rw [evaluate, evaluate, evaluateTokens_eq, evaluateTokens_eq] at *
  have hrun := State.run_follows h { policy, text := text.toList }
    (Text.byteLength text.toList) (Cursor.ofText text).tokens
  -- What both evaluations are made of is the two runs, and nothing else of
  -- them is needed.
  generalize State.run _ _ { environment := env } _ = first at hrun hbound ⊢
  generalize State.run _ _ { environment := more } _ = second at hrun ⊢
  cases hrun with
  | @ok p p' hrelated =>
      obtain ⟨evaluation, final⟩ := p
      obtain ⟨evaluation', final'⟩ := p'
      obtain ⟨rfl, hwrites⟩ := hrelated
      exact ⟨rfl, hwrites⟩
  | malformed hwrites => exact ⟨rfl, hwrites⟩
  | unbound => exact absurd rfl (hbound _ _)

/-- A text that is recovered. It reads `c`, and overwrites `a` and `b`. -/
theorem evaluate_extension_instance :
    let c : String × Number := ("c", .ofBits 0x4008000000000000)
    let env : Environment := ⟨[c], List.pairwise_singleton _ _⟩
    let more : Environment := .ofList [("a", .nan), ("b", c.2), c, ("d", c.2)]
    (evaluate .substituteNan "a = (b = 2; b c" more).result
        = .ok ⟨.ofBits 0x4018000000000000, some (.unexpectedToken [.closeParen] .endOfInput 15)⟩ ∧
      ∃ writes, (evaluate .substituteNan "a = (b = 2; b c" env).environment = env.write writes ∧
        (evaluate .substituteNan "a = (b = 2; b c" more).environment = more.write writes := by
  intro c env more
  have hresult : (evaluate .substituteNan "a = (b = 2; b c" env).result
      = .ok ⟨.ofBits 0x4018000000000000, some (.unexpectedToken [.closeParen] .endOfInput 15)⟩ := by
    decide +kernel
  rw [← hresult]
  refine evaluate_extension .substituteNan _ (by decide +kernel) fun name offset herror => ?_
  cases hresult.symm.trans herror

end DeskCalculator
