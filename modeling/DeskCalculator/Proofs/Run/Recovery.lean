import DeskCalculator.Proofs.Run.Change

/-!
# `DeskCalculator.Proofs.Run.Recovery`: a run that goes on after a complaint

Under the policy that puts a number in the place of what is missing, a
complaint is a note and nothing more: what a run does after it is what the
same run does without it.

* `withEarlier`: a state with an earlier complaint. `run_withEarlier`: a run
  that starts from it is the run that starts without it, with the earlier
  complaint kept in front.
* `TokenError.ne_unexpectedToken`, `ending_recovering_error`: what such a
  run can still fail with.

Keeping an earlier complaint is a change of a run in the sense of
`Proofs.Run.Change`, so there is no induction here. The inductions of later
modules need the equation at each step: once a step has complained, the rest
of the run is replaced by the same rest without a complaint, to which the
induction hypothesis applies, and the complaint is put in front of its
result.
-/

set_option autoImplicit false

namespace DeskCalculator

namespace State

/-- The state with an earlier complaint, which is then the first one. With
`none` it is the same state. -/
def withEarlier (d : Option Diagnostic) (s : State) : State :=
  { s with diagnostic := d.or s.diagnostic }

/-! ### Steps after a complaint -/

/-- The change that keeps an earlier complaint. It moves no places and
changes no errors, so it is the identity on runs that fail. -/
def earlier (d : Option Diagnostic) : Change where
  diagnostic := d.or
  place := id
  error := id

/-- Nothing but the complaint is changed. So the state with an earlier
complaint is a changed state, and `run_change` is about it. -/
theorem state_earlier (d : Option Diagnostic) (s : State) :
    (earlier d).state s = s.withEarlier d := by
  rw [Change.state, withEarlier]
  cases s.focus <;> rfl

/-- No failure is changed, as a failure has no complaint that was kept. -/
theorem result_earlier {α : Type} (d : Option Diagnostic) (f : α → α) (x : Except Failure α) :
    (earlier d).result f x = x >>= fun a => .ok (f a) := by
  cases x <;> rfl

section Earlier

variable {setting : Setting} (hp : setting.policy = .substituteNan) (d : Option Diagnostic)
include hp

/-- A complaint comes after the earlier one. Needs the policy: where
complaints stop a run, an earlier one would have done so. -/
theorem carries_earlier (t : Token) : (earlier d).Carries setting setting t t where
  content := rfl
  start := rfl
  complain s expected := by
    rw [complain_substituteNan hp, complain_substituteNan hp]
    simp only [Change.result, Change.state, note, earlier, Option.or_assoc]
  leftover := rfl
  unbound _ _ := rfl

/-- A token after an operand keeps the earlier complaint. Stated apart, as a
number that was put in the place of an operand is followed by such a
step. -/
theorem feedOperator_withEarlier (s : State) (x : Number) (t : Token) :
    (s.withEarlier d).feedOperator setting x t
      = s.feedOperator setting x t >>= fun s => .ok (s.withEarlier d) := by
  have := feedOperator_change (carries_earlier hp d t) s x
  simpa only [state_earlier, result_earlier] using this

/-- A whole run keeps the earlier complaint. Its value and its variables do
not depend on it. -/
theorem run_withEarlier (s : State) (stop : Nat) (tokens : List Token) :
    run setting stop (s.withEarlier d) tokens
      = run setting stop s tokens >>= fun p => .ok (⟨p.1.value, d.or p.1.diagnostic⟩, p.2) := by
  have hsame : List.Forall₂ ((earlier d).Carries setting setting) tokens tokens :=
    List.forall₂_same.mpr fun t _ => carries_earlier hp d t
  have := run_change hsame (carries_earlier hp d (Token.endOfInput stop)) s
  rwa [state_earlier, result_earlier] at this

end Earlier

/-! ### Failures after a complaint -/

/-- A run that goes on after complaints fails at no token by asking for
another one. It fails because of variables, and of tokens left over behind
the text. -/
theorem TokenError.ne_unexpectedToken {setting : Setting} (hp : setting.policy = .substituteNan)
    {t : Token} {error : EvalError} (h : TokenError setting t error) (expected : List Kind)
    (found : Kind) (offset : Nat) :
    error ≠ .malformed (.unexpectedToken expected found offset) := by
  cases h with
  | unbound name content =>
      intro heq
      cases heq
  | complaint expected' habort => cases hp.symm.trans habort
  | leftover =>
      rw [Setting.leftover]
      split <;> (intro heq; cases heq)

/-- The end of the text fails only because of a name: what is missing there
is put in its place. -/
theorem ending_recovering_error {setting : Setting} (hp : setting.policy = .substituteNan)
    {s : State} {stop : Nat} {failure : Failure} (h : s.ending setting stop = .error failure) :
    ∃ name offset, s.focus = .name name offset ∧
      failure.error = .undefinedVariable name offset := by
  rcases ending_error h with ⟨habort, -⟩ | hname
  · cases hp.symm.trans habort
  · exact hname

end State

end DeskCalculator
