import DeskCalculator.Proofs.Environment.Bindings
import DeskCalculator.Proofs.Run.Steps

/-!
# `DeskCalculator.Proofs.Run.Writes`: what a run assigns, in order

A run changes variables only where a statement ends: its value is assigned
to its names. This module lists these assignments, step by step
(`feedWrites`) and over a whole run (`runWrites`), the ones of a step that
fails included. The list is what the environment shows the result of:

* `feed_environment`, `ending_environment`: a step, and the end of a text,
  leave the environment with their writes made in it, whether they fail or
  not.
* `runWrites_append`: so does a run up to any of its tokens, and the rest of
  the list is what the run assigns from there.
* `run_environment`, `evaluate_environment`: so does a whole run.

The policy only decides whether the statements around open parentheses still
end after a complaint, and whether anything follows an operand that is
missing.

An environment says which values its names have in the end, and not what was
assigned before, so two environments say little about two runs. The list
says it: that one run assigns a beginning of what another one does
(`Proofs.Run.Policies`), or the same to two environments
(`Proofs.Run.Extension`), or to these names only (`Proofs.Run.Targets`).

The functions that list the writes repeat the case analysis of the steps,
with the policy in place of complaints. That they are right is the content
of the theorems on the environment, and each case of a step is looked at
once for them.
-/

set_option autoImplicit false

namespace DeskCalculator

/-! ### Making writes

What an environment is after some writes: the last one of a name counts, and
names that are not written keep what they have. -/

namespace Environment

/-- The environment after some assignments, one after the other. Later ones
win, as every one of them is a `set`. -/
def write (env : Environment) (writes : List (String × Number)) : Environment :=
  writes.foldl (fun env w => env.set w.1 w.2) env

/-- Nothing to write changes nothing. -/
@[simp] theorem write_nil (env : Environment) : env.write [] = env := rfl

/-- Writes are made one after the other. The equation by which the lists of
steps make up that of a run. -/
theorem write_append (env : Environment) (v w : List (String × Number)) :
    env.write (v ++ w) = (env.write v).write w := List.foldl_append

/-- What holds of all bindings and of all writes holds of all bindings after
them. Induction on the writes, for every environment. -/
theorem forall_write {P : String × Number → Prop} {writes : List (String × Number)}
    (hwrites : ∀ w ∈ writes, P w) :
    ∀ {env : Environment}, (∀ b ∈ env.bindings, P b) → ∀ b ∈ (env.write writes).bindings, P b := by
  induction writes with
  | nil => intro env h; exact h
  | cons w writes ih =>
      obtain ⟨hw, hwrites⟩ := List.forall_mem_cons.mp hwrites
      intro env h
      refine ih hwrites fun b hb => ?_
      -- A binding after a write is the one that was written, or was there
      -- before.
      rcases mem_insert hb with rfl | hb
      · exact hw
      · exact h b hb

/-- A name to which nothing is written keeps its value, or stays without
one. Nothing is asked of the order or of names that are written twice. -/
theorem get?_write_of_forall_ne {writes : List (String × Number)} {name : String}
    (h : ∀ w ∈ writes, w.1 ≠ name) :
    ∀ env : Environment, (env.write writes).get? name = env.get? name := by
  induction writes with
  | nil => exact fun env => rfl
  | cons w writes ih =>
      obtain ⟨hw, hwrites⟩ := List.forall_mem_cons.mp h
      intro env
      exact (ih hwrites (env.set w.1 w.2)).trans (by rw [get?_set, if_neg hw])

/-- Writes leave every name bound that was. Nothing ever takes a binding
away, so this needs no hypothesis on what is written. -/
theorem get?_write_ne_none {name : String} (writes : List (String × Number)) :
    ∀ {env : Environment}, env.get? name ≠ none → (env.write writes).get? name ≠ none := by
  induction writes with
  | nil => exact fun h => h
  | cons w writes ih =>
      intro env h
      refine @ih (env.set w.1 w.2) ?_
      rw [get?_set]
      split
      · exact Option.some_ne_none _
      · exact h

end Environment

/-- What a statement with the given value assigns: that value, to each of
its names. -/
def Statement.writes (s : Statement) (value : Number) : List (String × Number) :=
  s.targets.map fun name => (name, value)

/-- Assigning a value is making the writes of the statement. Connects the
model, which has no lists of writes, with this module. -/
theorem Statement.assign_eq_write (s : Statement) (value : Number) (env : Environment) :
    s.assign value env = env.write (s.writes value) := by
  rw [assign, Environment.write, writes, List.foldl_map]

namespace State

/-! ### Ends of statements

A statement writes where it ends, and more than one may end at a time: at
the end of everything, all those around open parentheses do, from the inside
out. -/

/-- What the statement being read assigns if `x` is its last operand: its
value, to all its names. -/
def endWrites (s : State) (x : Number) : List (String × Number) :=
  s.statement.writes (s.statement.value x)

/-- What the statements around the open parentheses assign if all of them
end. The value of each is an operand of the next one. -/
def closeWrites : List Statement → Number → List (String × Number)
  | [], _ => []
  | waiting :: enclosing, x =>
    waiting.writes (waiting.value x) ++ closeWrites enclosing (waiting.value x)

/-- What the end of everything assigns. A run that aborts does not come to
the statements around an open parenthesis, since it complains about that
first. -/
def endAllWrites (s : State) (policy : Policy) (x : Number) : List (String × Number) :=
  s.endWrites x ++
    match policy with
    | .abort => []
    | .substituteNan => closeWrites s.enclosing (s.statement.value x)

/-- The end of a statement makes its writes, in the order of its names. All
other ends are made up of this one. -/
theorem endStatement_environment (s : State) (x : Number) :
    (s.endStatement x).2.environment = s.environment.write (s.endWrites x) :=
  s.statement.assign_eq_write _ _

/-- The ends of the statements around the open parentheses make their
writes. Induction on them, for every operand and every environment. -/
theorem closeAll_environment (enclosing : List Statement) (x : Number) (env : Environment) :
    (closeAll enclosing x env).2 = env.write (closeWrites enclosing x) := by
  induction enclosing generalizing x env with
  | nil => rfl
  | cons waiting enclosing ih =>
      rw [closeAll, ih, Statement.assign_eq_write, closeWrites, Environment.write_append]

/-! ### Steps and runs

The writes of a step, by what the state waits for and by the kind of the
token, and those of a run. -/

/-- What a token after the operand `x` assigns. The three kinds that end one
statement, those that end all, and those that end none. -/
def operatorWrites (s : State) (policy : Policy) (x : Number) (t : Token) :
    List (String × Number) :=
  match t.content with
  | .number _ | .identifier _ => []
  | .bare kind =>
    if kind = .semicolon ∨ kind = .closeParen ∨ kind = .unknown then s.endWrites x
    else if kind.stops then s.endAllWrites policy x
    else []

/-- What a token assigns that stands where an operand is missing. Nothing,
if the complaint stops the run or the token is skipped; otherwise what it
assigns behind the number that is put there. -/
def missingWrites (s : State) (policy : Policy) (t : Token) : List (String × Number) :=
  if policy = .abort ∨ t.kind = .unknown then [] else s.operatorWrites policy .nan t

/-- What a token assigns, by what the state waits for. Written like `feed`,
without what is not needed: operands, complaints and the next state. -/
def feedWrites (s : State) (policy : Policy) (t : Token) : List (String × Number) :=
  match s.focus with
  | .value x => s.operatorWrites policy x t
  | .name name _ =>
    if t.kind = .assign then []
    else
      match s.environment.get? name with
      | some x => s.operatorWrites policy x t
      | none => []
  | .operand =>
    -- An operand, or what announces one, ends no statement.
    match t.content with
    | .number _ | .identifier _ | .bare .openParen => []
    | .bare kind =>
      if kind = .minus ∧ s.statement.allowsSign then [] else s.missingWrites policy t

/-- What the end of the text assigns. A name that is still open has to have
a value, or the run fails before anything is assigned. -/
def endingWrites (s : State) (policy : Policy) : List (String × Number) :=
  match s.focus with
  | .value x => s.endAllWrites policy x
  | .name name _ =>
    match s.environment.get? name with
    | some x => s.endAllWrites policy x
    | none => []
  | .operand =>
    match policy with
    | .abort => []
    | .substituteNan => s.endAllWrites policy .nan

/-- What a run over some tokens and the end of the text assigns, up to the
step that fails. A step that fails assigns too: it may end statements before
it is found that nothing goes on. -/
def runWrites (setting : Setting) : State → List Token → List (String × Number)
  | s, [] => s.endingWrites setting.policy
  | s, t :: tokens =>
    s.feedWrites setting.policy t ++
      match feed setting s t with
      | .ok s => runWrites setting s tokens
      | .error _ => []

/-! ### The writes of each case

The cases of a step are given by `FeedCase`; these lemmas say what
`feedWrites` is in those that assign something. -/

section Cases

variable {s : State} {t : Token} {policy : Policy}

/-- After an operand that is known, the writes are those of a token behind
it. The hypothesis excludes the mark that makes a name one to assign to. -/
theorem feedWrites_of_ready {x : Number} (h : s.Ready x)
    (hkind : ∀ name offset, s.focus = .name name offset → t.kind ≠ .assign) :
    s.feedWrites policy t = s.operatorWrites policy x t := by
  cases h with
  | value hf => simp only [feedWrites, hf]
  | name hf hx => simp only [feedWrites, hf, hkind _ _ hf, hx, if_false]

/-- An operand writes nothing: what it is part of has not ended. -/
theorem feedWrites_of_denotes {x : Number} (hf : s.focus = .operand)
    (h : Denotes s.environment t x) : s.feedWrites policy t = [] := by
  cases h with
  | number hc => simp only [feedWrites, hf, hc]
  | bound hc _ => simp only [feedWrites, hf, hc]

/-- Where an operand is missing, the writes are those of the token there.
The hypotheses are those of the case of a missing operand. -/
theorem feedWrites_of_missing {kind : Kind} (hf : s.focus = .operand) (hc : t.content = .bare kind)
    (hother : kind ≠ .openParen) (hsign : kind = .minus → s.statement.allowsSign = false) :
    s.feedWrites policy t = s.missingWrites policy t := by
  have hunsigned : ¬(kind = .minus ∧ s.statement.allowsSign = true) := by
    rintro ⟨hminus, hallowed⟩
    exact Bool.false_ne_true ((hsign hminus).symm.trans hallowed)
  simp only [feedWrites, hf, hc]
  -- The kinds are taken one by one, since a parenthesis that opens is a
  -- case of its own.
  cases kind <;> first | contradiction | rw [if_neg hunsigned]

/-- At the end of the text, the writes are those behind the last operand, be
it a value or a variable. -/
theorem endingWrites_of_ready {x : Number} (h : s.Ready x) :
    s.endingWrites policy = s.endAllWrites policy x := by
  cases h with
  | value hf => simp only [endingWrites, hf]
  | name hf hx => simp only [endingWrites, hf, hx]

/-- Outside parentheses, the end of everything writes what the statement
does. -/
theorem endAllWrites_outside (h : s.enclosing = []) (policy : Policy) (x : Number) :
    s.endAllWrites policy x = s.endWrites x := by
  cases policy <;> simp [endAllWrites, h, closeWrites]

end Cases

/-! ### The environment after a step

That the lists are right: a step leaves the variables with its writes made,
and so does a run. This is the only section in which the steps are
opened. -/

/-- The environment in which a step ends, whether it fails or not. The
theorems below are about both at once, since a failure keeps the
variables. -/
def environmentAfter {α : Type} (environment : α → Environment) : Except Failure α → Environment
  | .ok a => environment a
  | .error failure => failure.environment

section Environment

variable {setting : Setting} {s : State} {t : Token}

/-- The end of everything makes its writes. Outside of parentheses these are
those of the statement, and inside they depend on whether the complaint
stops the run. -/
theorem endAll_environment (x : Number) :
    environmentAfter (fun p => p.2.environment) (s.endAll setting x t)
      = s.environment.write (s.endAllWrites setting.policy x) := by
  cases henclosing : s.enclosing with
  | nil =>
      rw [endAll_outside henclosing, endAllWrites_outside henclosing]
      exact s.endStatement_environment x
  | cons waiting enclosing =>
      rw [endAll_inside henclosing]
      cases hp : setting.policy with
      | abort =>
          rw [complain_abort hp, endAllWrites, List.append_nil]
          exact s.endStatement_environment x
      | substituteNan =>
          -- The complaint stands between the two parts of the writes and
          -- makes none.
          rw [complain_substituteNan hp, endAllWrites, Environment.write_append,
            ← endStatement_environment, henclosing]
          exact closeAll_environment _ _ _

/-- A token after an operand makes its writes. One case for each case of the
step. Also used for a token that is met after a missing operand. -/
theorem feedOperator_environment (x : Number) :
    environmentAfter State.environment (s.feedOperator setting x t)
      = s.environment.write (s.operatorWrites setting.policy x t) := by
  cases s.feedOperator_cases x t with
  | factor y value result =>
      rw [result]
      cases value with
      | number content => rw [operatorWrites, content]; rfl
      | bound content _ => rw [operatorWrites, content]; rfl
  | unbound name content unbound result => rw [result, operatorWrites, content]; rfl
  | openGroup content result => rw [result, operatorWrites, content]; rfl
  | operator kind statement content waits result =>
      rw [result, operatorWrites, content]
      -- No kind of an operator is one that ends a statement.
      cases kind <;> first | rfl | cases waits
  | semicolon content result =>
      rw [result, operatorWrites, content]
      exact s.endStatement_environment x
  | closeGroup waiting enclosing content inside result =>
      rw [result, operatorWrites, content, environmentAfter, closeGroup_environment]
      exact s.endStatement_environment x
  | skip waiting enclosing content inside result =>
      rw [result, operatorWrites, content]
      cases hp : setting.policy with
      | abort =>
          rw [complain_abort hp]
          exact s.endStatement_environment x
      | substituteNan =>
          rw [complain_substituteNan hp, ok_bind, environmentAfter, closeGroup_environment]
          exact s.endStatement_environment x
  | leftover content outside result =>
      rw [result, operatorWrites]
      rcases content with content | content <;> rw [content] <;>
        exact s.endStatement_environment x
  | stop kind content stops result =>
      -- The kinds that end everything are none of the three that end one
      -- statement.
      have hother : ¬(kind = .semicolon ∨ kind = .closeParen ∨ kind = .unknown) := by
        rintro (rfl | rfl | rfl) <;> cases stops
      rw [result, operatorWrites, content]
      simp only [hother, stops, if_false, if_true]
      rw [← endAll_environment (t := t)]
      cases s.endAll setting x t <;> rfl

/-- A token makes its writes. The step lemma of this module. It holds of a
step that fails too, since a failure keeps the variables as they were
left. -/
theorem feed_environment (setting : Setting) (s : State) (t : Token) :
    environmentAfter State.environment (feed setting s t)
      = s.environment.write (s.feedWrites setting.policy t) := by
  cases s.feed_cases t with
  | operand y focus value result => rw [result, feedWrites_of_denotes focus value]; rfl
  | name name focus content allowed result =>
      simp [result, feedWrites, focus, content, environmentAfter]
  | unbound name focus content unbound result =>
      simp [result, feedWrites, focus, content, environmentAfter, fail]
  | openGroup focus content result =>
      simp [result, feedWrites, focus, content, environmentAfter, openGroup]
  | sign focus content allowed result =>
      simp [result, feedWrites, focus, content, allowed, environmentAfter, await]
  | target name offset focus kind result =>
      simp [result, feedWrites, focus, kind, environmentAfter, await]
  | unboundName name offset focus kind unbound result =>
      simp [result, feedWrites, focus, kind, unbound, environmentAfter, fail]
  | follow x ready unassigned result =>
      rw [result, feedWrites_of_ready ready unassigned]
      exact feedOperator_environment x
  | missing kind focus content other unsigned result =>
      rw [result, feedWrites_of_missing focus content other unsigned, feedMissing, missingWrites]
      cases hp : setting.policy with
      | abort =>
          rw [complain_abort hp]
          rfl
      | substituteNan =>
          rw [complain_substituteNan hp, ok_bind]
          by_cases hkind : t.kind = .unknown
          · simp [hkind, environmentAfter, take, note]
          · -- The complaint changes no variable, so the step is that of a
            -- token after an operand.
            simp only [hkind, if_false, reduceCtorEq, or_self]
            rw [feedOperator_environment, hp]
            rfl

/-- The end of everything at the end of the text makes its writes. -/
theorem endingWith_environment (stop : Nat) (x : Number) :
    (Outcome.ofRun (s.endingWith setting stop x)).environment
      = s.environment.write (s.endAllWrites setting.policy x) := by
  rw [← endAll_environment (t := Token.endOfInput stop), endingWith]
  cases s.endAll setting x (Token.endOfInput stop) <;> rfl

/-- The end of the text makes its writes. -/
theorem ending_environment (stop : Nat) :
    (Outcome.ofRun (s.ending setting stop)).environment
      = s.environment.write (s.endingWrites setting.policy) := by
  cases s.ending_cases with
  | ready x ready =>
      rw [ending_of_ready ready, endingWrites_of_ready ready]
      exact endingWith_environment stop x
  | unboundName name offset focus unbound =>
      rw [ending_of_unbound focus unbound]
      simp only [endingWrites, focus, unbound]
      rfl
  | missing focus =>
      rw [ending_of_operand focus]
      simp only [endingWrites, focus]
      -- A run that aborts assigns nothing behind a missing operand.
      cases hp : setting.policy with
      | abort =>
          rw [complain_abort hp]
          rfl
      | substituteNan =>
          rw [complain_substituteNan hp, ok_bind, endingWith_environment, hp]
          rfl

/-- Wherever a run comes to, it has made the first writes of its list, and
the others are those of the run from there. Induction on the tokens up to
that point, for every state to begin with. -/
theorem runWrites_append {s' : State} (ts us : List Token) :
    ∀ {s : State}, feedAll setting s ts = .ok s' →
      ∃ made, runWrites setting s (ts ++ us) = made ++ runWrites setting s' us ∧
        s'.environment = s.environment.write made := by
  induction ts with
  | nil =>
      intro s h
      obtain rfl := Except.ok.inj h
      exact ⟨[], rfl, rfl⟩
  | cons t ts ih =>
      intro s h
      rw [feedAll_cons] at h
      obtain ⟨next, hstep, hrest⟩ := bind_eq_ok h
      obtain ⟨made, hwrites, henvironment⟩ := ih hrest
      -- The step has made its writes, so what follows begins with their
      -- result.
      have hnext := feed_environment setting s t
      rw [hstep] at hnext
      refine ⟨s.feedWrites setting.policy t ++ made, ?_, ?_⟩
      · simp only [List.cons_append, runWrites, hstep, hwrites, List.append_assoc]
      · rw [henvironment, Environment.write_append, ← hnext]
        rfl

/-- A run makes the writes of its steps. Induction over the tokens, for
every state. What a failing step has written is in its failure, and so in
the outcome. -/
theorem run_environment (tokens : List Token) (stop : Nat) :
    ∀ s : State,
      (Outcome.ofRun (run setting stop s tokens)).environment
        = s.environment.write (runWrites setting s tokens) := by
  induction tokens with
  | nil => intro s; exact ending_environment stop
  | cons t tokens ih =>
      intro s
      have hstep := feed_environment setting s t
      rw [run_cons, runWrites, Environment.write_append, ← hstep]
      cases feed setting s t with
      -- Behind a failure nothing is assigned, and the writes of the step
      -- are in the variables that it keeps.
      | error failure => rfl
      | ok next => exact ih next

end Environment

end State

/-! ### The writes of a whole text

What the other modules use. -/

/-- What evaluating a text assigns, in order. A definition of the theory,
not of the program: the program has only the environment. -/
def evaluateWrites (policy : Policy) (text : String) (env : Environment) :
    List (String × Number) :=
  State.runWrites { policy, text := text.toList } { environment := env } (Cursor.ofText text).tokens

/-- The variables after a text are those before it with the writes made.
With this, statements about variables become statements about a list. -/
theorem evaluate_environment (policy : Policy) (text : String) (env : Environment) :
    (evaluate policy text env).environment = env.write (evaluateWrites policy text env) := by
  rw [evaluate, evaluateTokens_eq, State.run_environment]
  rfl

end DeskCalculator
