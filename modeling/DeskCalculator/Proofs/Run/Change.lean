import Mathlib.Data.List.Forall2
import DeskCalculator.Proofs.Run.Steps

/-!
# `DeskCalculator.Proofs.Run.Change`: what a run carries along

A run decides by the contents of its tokens. The offsets of the tokens, the
characters that they quote and the complaint that was kept are carried
along, and show again in what the run ends with. So a run over tokens that
differ in these alone ends with the same, but for these.

* `Change`: another complaint, other offsets, and the errors in which they
  show. `Change.Carries` says that a token of one run is such a change of a
  token of another.
* `feed_change`, `ending_change`: steps over such tokens, from states that
  differ by the change, lead to states that do. `run_change`: so do whole
  runs.
* `Change.relocation`: the change for tokens that stand elsewhere, in the
  same text or in another one.

The simulation is proved once and used in three ways: for tokens that are
moved by other gaps (`Proofs.Run.Layout`), for the tokens of a text behind
another one (`Proofs.Calculator.Batch`), and for a complaint that is there
already (`Proofs.Run.Recovery`). This is why a change is a record of
functions, and not only a function on offsets.

`Carries` asks for what a step needs of the change, and no more: that
complaints made after the change are the changed complaints. It is stated of
every state, because complaining looks at the complaint that is there.
-/

set_option autoImplicit false

namespace DeskCalculator

/-- The same complaint about another place. The kinds and the quoted
characters stay: where a text is moved as a whole, its tokens are what they
were. -/
def Diagnostic.relocate (place : Nat → Nat) : Diagnostic → Diagnostic
  | .unexpectedToken expected found offset => .unexpectedToken expected found (place offset)
  | .unexpectedCharacter lexeme offset => .unexpectedCharacter lexeme (place offset)
  | .trailingInput found offset => .trailingInput found (place offset)

/-- A complaint about the same place is the same. -/
@[simp] theorem Diagnostic.relocate_id (d : Diagnostic) : d.relocate id = d := by
  cases d <;> rfl

/-- The complaint is about the new place. With this the token at the new
offset is found again from the one at the old offset. -/
@[simp] theorem Diagnostic.offset_relocate (place : Nat → Nat) (d : Diagnostic) :
    (d.relocate place).offset = place d.offset := by
  cases d <;> rfl

/-- Only the new place of its own offset counts. So two functions on places
that agree there do the same. -/
theorem Diagnostic.relocate_eq (place : Nat → Nat) (d : Diagnostic) :
    d.relocate place = d.relocate fun _ => place d.offset := by
  cases d <;> rfl

/-- The same failure at another place. The name of a variable is part of the
text and not of the place, so it stays. -/
def EvalError.relocate (place : Nat → Nat) : EvalError → EvalError
  | .malformed diagnostic => .malformed (diagnostic.relocate place)
  | .undefinedVariable name offset => .undefinedVariable name (place offset)

/-- A failure at the same place is the same. -/
@[simp] theorem EvalError.relocate_id (error : EvalError) : error.relocate id = error := by
  cases error with
  | malformed diagnostic => rw [relocate, Diagnostic.relocate_id]
  | undefinedVariable name offset => rfl

/-- The failure shows at the new place. -/
@[simp] theorem EvalError.offset_relocate (place : Nat → Nat) (error : EvalError) :
    (error.relocate place).offset = place error.offset := by
  cases error with
  | malformed diagnostic => exact diagnostic.offset_relocate place
  | undefinedVariable name offset => rfl

/-- Only the new place of its own offset counts. Used where the place of one
token is known, and the function on all offsets is not to be mentioned in
the statement. -/
theorem EvalError.relocate_eq (place : Nat → Nat) (error : EvalError) :
    error.relocate place = error.relocate fun _ => place error.offset := by
  cases error with
  | malformed diagnostic => exact congrArg malformed (diagnostic.relocate_eq place)
  | undefinedVariable name offset => rfl

/-- The same focus, and a name whose fate is open at another place. Only
there a state has an offset, apart from its complaint. -/
def Focus.relocate (place : Nat → Nat) : Focus → Focus
  | .operand => .operand
  | .name v offset => .name v (place offset)
  | .value x => .value x

/-- A focus at the same place is the same. -/
@[simp] theorem Focus.relocate_id (focus : Focus) : focus.relocate id = focus := by
  cases focus <;> rfl

/-- A change of what a run carries along: the complaint, the places of the
tokens, and the errors in which both show. -/
structure Change where
  diagnostic : Option Diagnostic → Option Diagnostic
  place : Nat → Nat
  error : EvalError → EvalError

namespace Change

variable (κ : Change)

/-- The changed state. The statements, the operands and the variables are
the same, and they are all that a step decides by. -/
def state (s : State) : State :=
  { s with diagnostic := κ.diagnostic s.diagnostic, focus := s.focus.relocate κ.place }

/-- The changed end of a run. Of an evaluation only the complaint changes;
its value has no place. -/
def outcome (p : Evaluation × Environment) : Evaluation × Environment :=
  (⟨p.1.value, κ.diagnostic p.1.diagnostic⟩, p.2)

/-- A changed result, given how its value changes. The variables of a
failure are the same, as a change does not reach the environment. -/
def result {α : Type} (f : α → α) : Except Failure α → Except Failure α
  | .ok a => .ok (f a)
  | .error failure => .error ⟨κ.error failure.error, failure.environment⟩

/-- The token `t'` of a run is the changed token `t` of another one, for
runs under the two settings. The last three fields say of the errors that
can be made of the token what the change does with them: a complaint, what
is left over, and a variable without a value. -/
structure Carries (setting setting' : Setting) (t t' : Token) : Prop where
  content : t'.content = t.content
  start : t'.start = κ.place t.start
  complain : ∀ (s : State) (expected : List Kind),
    (κ.state s).complain setting' expected t' = κ.result κ.state (s.complain setting expected t)
  leftover : EvalError.malformed (setting'.leftover t') = κ.error (.malformed (setting.leftover t))
  unbound : ∀ name offset,
    κ.error (.undefinedVariable name offset) = .undefinedVariable name (κ.place offset)

variable {κ}

/-- A changed computation goes on with what the changed one before it
yields. The lemma by which the `do` blocks of the model are gone through. -/
theorem result_bind {α β : Type} {f : α → α} {g : β → β} {next next' : α → Except Failure β}
    (h : ∀ a, next' (f a) = κ.result g (next a)) (x : Except Failure α) :
    κ.result f x >>= next' = κ.result g (x >>= next) := by
  cases x with
  | error failure => rfl
  | ok a => exact h a

/-! ### Tokens that stand elsewhere -/

/-- The change that moves every offset. The complaint that is kept moves as
well, since it is about a token of the same text. -/
def relocation (place : Nat → Nat) : Change where
  diagnostic d := d.map (Diagnostic.relocate place)
  place := place
  error := EvalError.relocate place

/-- Where a token with the same content stands elsewhere, the complaints
about it are relocated. A character that starts no token has to be the same
one, since the complaints quote it. -/
theorem carries_relocation {place : Nat → Nat} {setting setting' : Setting} {t t' : Token}
    (hpolicy : setting'.policy = setting.policy) (hcontent : t'.content = t.content)
    (hstart : t'.start = place t.start)
    (hquote : t.kind = .unknown → setting'.quote t' = setting.quote t) :
    (relocation place).Carries setting setting' t t' := by
  have hkind : t'.kind = t.kind := congrArg Content.kind hcontent
  have hcomplaint : ∀ expected : List Kind,
      setting'.complaint expected t' = (setting.complaint expected t).relocate place := by
    intro expected
    rw [Setting.complaint, Setting.complaint, hkind, hstart]
    -- Only a complaint about a character quotes the text.
    split
    · next hunknown => rw [hquote hunknown]; rfl
    · rfl
  refine ⟨hcontent, hstart, fun s expected => ?_, ?_, fun name offset => rfl⟩
  · cases hp : setting.policy with
    | abort =>
        rw [State.complain_abort hp, State.complain_abort (hpolicy.trans hp), hcomplaint]
        rfl
    | substituteNan =>
        rw [State.complain_substituteNan hp, State.complain_substituteNan (hpolicy.trans hp),
          hcomplaint]
        refine congrArg Except.ok ?_
        rw [State.note, State.note, state, state]
        -- The complaint that is kept is the first one, moved or not.
        cases s.diagnostic <;> rfl
  · rw [Setting.leftover, Setting.leftover, hkind, hstart]
    split
    · next hunknown => rw [hquote hunknown]; rfl
    · rfl

/-- Where no place changes, no state does. For the first of two texts, whose
tokens stay where they are. -/
theorem state_relocation_id (s : State) : (relocation id).state s = s := by
  have hdiagnostic : s.diagnostic.map (Diagnostic.relocate id) = s.diagnostic := by
    cases s.diagnostic <;> simp
  simp only [state, relocation, hdiagnostic, Focus.relocate_id]

/-- Where no place changes, no run does. Turns a simulation with this change
into an equation between two runs. -/
theorem result_relocation_id (x : Except Failure State) :
    (relocation id).result (relocation id).state x = x := by
  cases x with
  | error failure => simp only [result, relocation, EvalError.relocate_id]
  | ok s => exact congrArg Except.ok (state_relocation_id s)

end Change

namespace State

variable {κ : Change} {setting setting' : Setting} {t t' : Token}

/-! ### One step

Each function of a step commutes with the change. The proofs follow the
model and open its functions: the case lemmas would give two unrelated
cases, one for each of the two states. -/

/-- The end of a group does not look at what is changed, only at the
statements around it. So it needs no hypothesis on the token. -/
theorem closeGroup_change (s : State) (x : Number) :
    (κ.state s).closeGroup x = κ.state (s.closeGroup x) := by
  cases he : s.enclosing with
  | nil => rw [closeGroup, closeGroup, show (κ.state s).enclosing = [] from he, he]; rfl
  | cons waiting enclosing =>
      rw [closeGroup, closeGroup, show (κ.state s).enclosing = waiting :: enclosing from he, he]
      rfl

/-- A failure, given how its error changes. The variables of both are the
same. Every error of a step comes about through this one function. -/
theorem fail_change {α : Type} {f : α → α} {error error' : EvalError}
    (h : error' = κ.error error) (s : State) :
    (κ.state s).fail error' = κ.result f (s.fail error) := by
  rw [h]
  rfl

section Step

variable (h : κ.Carries setting setting' t t')
include h

/-- A variable is read as before, and if it has no value this shows at the
new place. The offset is an argument, since a name whose fate was open is
read one token later. -/
theorem read_change (s : State) (name : String) (offset : Nat) :
    (κ.state s).read name (κ.place offset) = κ.result id (s.read name offset) := by
  have henv : (κ.state s).environment = s.environment := rfl
  cases hx : s.environment.get? name with
  | some x => simp only [read, henv, hx]; rfl
  | none =>
      simp only [read, henv, hx]
      exact fail_change (h.unbound name offset).symm s

/-- The end of everything commutes with the change; the complaint in it by
`Carries`. Also used at the end of the text, with the mark as the token. -/
theorem endAll_change (s : State) (x : Number) :
    (κ.state s).endAll setting' x t' = κ.result (Prod.map id κ.state) (s.endAll setting x t) := by
  -- Outside of parentheses nothing is complained about at the end.
  cases he : s.enclosing with
  | nil => rw [endAll_outside he, endAll_outside (s := κ.state s) he]; rfl
  | cons waiting enclosing =>
      rw [endAll_inside he, endAll_inside (s := κ.state s) he]
      show (κ.state (s.endStatement x).2).complain setting' [.closeParen] t' >>= _ = _
      rw [h.complain]
      refine Change.result_bind (fun s' => ?_) _
      rfl

/-- A token after an operand. By what it carries; the kinds that end a group
or everything need their own argument. -/
theorem feedOperator_change (s : State) (x : Number) :
    (κ.state s).feedOperator setting' x t' = κ.result κ.state (s.feedOperator setting x t) := by
  have hfail : ∀ s' : State, (κ.state s').fail (α := State) (.malformed (setting'.leftover t'))
      = κ.result κ.state (s'.fail (.malformed (setting.leftover t))) := fail_change h.leftover
  -- What the kinds do that end everything: close the groups, and then fail.
  have hstop : ((κ.state s).endAll setting' x t' >>= fun p =>
        p.2.fail (α := State) (.malformed (setting'.leftover t')))
      = κ.result κ.state
          (s.endAll setting x t >>= fun p => p.2.fail (.malformed (setting.leftover t))) := by
    rw [endAll_change h]
    refine Change.result_bind (fun p => ?_) _
    exact hfail p.2
  cases hc : t.content with
  | number y => simp only [feedOperator, h.content, hc]; rfl
  | identifier name =>
      simp only [feedOperator, h.content, hc, h.start, read_change h]
      refine Change.result_bind (fun y => ?_) _
      rfl
  | bare kind =>
      cases kind with
      | closeParen =>
          simp only [feedOperator, h.content, hc]
          show (if s.enclosing.isEmpty then _ else
            Except.ok ((κ.state (s.endStatement x).2).closeGroup (s.endStatement x).1)) = _
          rw [closeGroup_change]
          show _ = κ.result κ.state (if s.enclosing.isEmpty then _ else _)
          split
          · exact hfail (s.endStatement x).2
          · rfl
      | unknown =>
          simp only [feedOperator, h.content, hc]
          show (if s.enclosing.isEmpty then _ else
            (κ.state (s.endStatement x).2).complain setting' [.closeParen] t' >>= _) = _
          rw [h.complain]
          show _ = κ.result κ.state (if s.enclosing.isEmpty then _ else _)
          split
          · exact hfail (s.endStatement x).2
          · exact Change.result_bind (fun s' => congrArg Except.ok (closeGroup_change s' _)) _
      | _ => simp only [feedOperator, h.content, hc, hstop] <;> rfl

/-- A token. The step lemma of this module: from states that differ by the
change, a token and its changed one lead to such states, or to such
failures. -/
theorem feed_change (s : State) :
    feed setting' (κ.state s) t' = κ.result κ.state (feed setting s t) := by
  have hkind : t'.kind = t.kind := congrArg Content.kind h.content
  -- An operand that is missing is complained about, and the token is then
  -- met as what it is.
  have hmissing : (κ.state s).feedMissing setting' t'
      = κ.result κ.state (s.feedMissing setting t) := by
    rw [feedMissing, feedMissing, h.complain]
    refine Change.result_bind (fun s' => ?_) _
    rw [hkind]
    split
    · rfl
    · exact feedOperator_change h s' _
  -- A step looks at the statement and at the tokens, which are the same.
  have hfocus : (κ.state s).focus = s.focus.relocate κ.place := rfl
  have hstatement : (κ.state s).statement = s.statement := rfl
  cases hf : s.focus with
  | value x =>
      simp only [feed, hfocus, hf]
      exact feedOperator_change h s x
  | name name offset =>
      simp only [feed, hfocus, hf, Focus.relocate, hkind, read_change h]
      split
      · rfl
      · exact Change.result_bind (fun x => feedOperator_change h s x) _
  | operand =>
      simp only [feed, hfocus, hf, Focus.relocate]
      cases hc : t.content with
      | number y => simp only [feedOperand, h.content, hc]; rfl
      | identifier name =>
          simp only [feedOperand, h.content, hc, hstatement, h.start, read_change h]
          split
          · rfl
          · refine Change.result_bind (fun y => ?_) _
            rfl
      | bare kind =>
          cases kind with
          | openParen => simp only [feedOperand, h.content, hc]; rfl
          | minus =>
              simp only [feedOperand, h.content, hc, hstatement]
              split
              · rfl
              · exact hmissing
          | _ => simp only [feedOperand, h.content, hc, hmissing]

end Step

/-! ### Whole runs

By induction over the tokens of both runs at once, and then the end of the
text. -/

/-- Tokens one after the other. Induction on the two lists, which are
changed token by token; the state is general, as each step leads to another
one. -/
theorem feedAll_change {tokens tokens' : List Token}
    (h : List.Forall₂ (κ.Carries setting setting') tokens tokens') :
    ∀ s : State, feedAll setting' (κ.state s) tokens'
      = κ.result κ.state (feedAll setting s tokens) := by
  induction h with
  | nil => intro s; rfl
  | cons hstep hrest ih =>
      intro s
      rw [feedAll_cons, feedAll_cons, feed_change hstep]
      exact Change.result_bind ih _

/-- The end of the text. The mark is a token like the others, and stands
elsewhere as well. It is the one that a missing operand at the end is
reported of. -/
theorem ending_change {stop stop' : Nat}
    (h : κ.Carries setting setting' (Token.endOfInput stop) (Token.endOfInput stop')) (s : State) :
    (κ.state s).ending setting' stop' = κ.result κ.outcome (s.ending setting stop) := by
  have hwith : ∀ (s' : State) (x : Number), (κ.state s').endingWith setting' stop' x
      = κ.result κ.outcome (s'.endingWith setting stop x) := by
    intro s' x
    rw [endingWith, endingWith, endAll_change h]
    refine Change.result_bind (fun p => ?_) _
    rfl
  -- The cases of the end do not look at what is changed, so both states are
  -- in the same one.
  cases s.ending_cases with
  | ready x ready =>
      have hready : (κ.state s).Ready x := by
        cases ready with
        | value hf => exact .value (congrArg (Focus.relocate κ.place) hf)
        | name hf hx => exact .name (congrArg (Focus.relocate κ.place) hf) hx
      rw [ending_of_ready ready, ending_of_ready hready, hwith]
  | unboundName name offset focus unbound =>
      rw [ending_of_unbound focus unbound, ending_of_unbound (s := κ.state s)
        (congrArg (Focus.relocate κ.place) focus) unbound, ← h.unbound]
      rfl
  | missing focus =>
      rw [ending_of_operand focus, ending_of_operand (s := κ.state s)
        (congrArg (Focus.relocate κ.place) focus), h.complain]
      exact Change.result_bind (fun s' => hwith s' _) _

/-- A whole run. Both lists and the mark at the end are changed in the same
way, and so is what the run ends with. This is the lemma that the three uses
begin with. -/
theorem run_change {tokens tokens' : List Token} {stop stop' : Nat}
    (h : List.Forall₂ (κ.Carries setting setting') tokens tokens')
    (hstop : κ.Carries setting setting' (Token.endOfInput stop) (Token.endOfInput stop'))
    (s : State) :
    run setting' stop' (κ.state s) tokens' = κ.result κ.outcome (run setting stop s tokens) := by
  rw [run, run, feedAll_change h]
  exact Change.result_bind (fun s' => ending_change hstop s') _

end State

end DeskCalculator
