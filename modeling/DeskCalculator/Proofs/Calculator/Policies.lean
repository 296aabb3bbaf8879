import DeskCalculator.Calculator
import DeskCalculator.Proofs.Run.Policies

/-!
# `DeskCalculator.Proofs.Calculator.Policies`: two calculators that differ in their policy

`calculate_policies` compares what one text does to a calculator that aborts
and to one that recovers, with the same variables. The complaints that their
last evaluations left behind do not matter: an evaluation starts without
one.

The comparison itself is of two runs, and is proved by going through both in
step (`State.RunPair` in `Proofs/Run/Policies.lean`). A run knows more than
a calculator tells, as it has the state of the variables and the complaint
in its result. So this module begins with what a run says of the call of a
calculator (`calculate_of_ok`, `calculate_of_error`) and the other way
around, and these lemmas are what the other modules use to come from a
calculator to a run.
-/

set_option autoImplicit false

namespace DeskCalculator

open Text (byteLength)

namespace Calculator

/-- The run that a calculator makes over a text, with its policy and from
the variables that it has kept. -/
def run (c : Calculator) (text : String) : Except Failure (Evaluation × Environment) :=
  State.run { policy := c.options.policy, text := text.toList } (byteLength text.toList)
    { environment := c.initial } (Cursor.ofText text).tokens

/-- What a calculator assigns while it evaluates a text, in order. What it
assigned before an error counts as well. -/
def writes (c : Calculator) (text : String) : List (String × Number) :=
  evaluateWrites c.options.policy text c.initial

/-- A run that succeeds gives the value, and leaves its variables and its
complaint. -/
theorem calculate_of_ok {c : Calculator} {text : String} {p : Evaluation × Environment}
    (h : c.run text = .ok p) :
    c.calculate text
      = (.ok p.1.value, { c with environment := p.2, diagnostic := p.1.diagnostic }) := by
  rw [run] at h
  rw [calculate, evaluate, evaluateTokens_eq, h]
  rfl

/-- A run that fails gives its error, and leaves the variables of then. No
complaint is left behind, not even one that was kept before the error. -/
theorem calculate_of_error {c : Calculator} {text : String} {failure : Failure}
    (h : c.run text = .error failure) :
    c.calculate text
      = (.error failure.error,
          { c with environment := failure.environment, diagnostic := none }) := by
  rw [run] at h
  rw [calculate, evaluate, evaluateTokens_eq, h]
  rfl

/-- A value comes from a run that succeeds. Goes from what a calculator
shows back to the run, of which all lemmas are. -/
theorem exists_run_of_ok {c : Calculator} {text : String} {x : Number}
    (h : (c.calculate text).1 = .ok x) : ∃ p, c.run text = .ok p ∧ p.1.value = x := by
  cases hrun : c.run text with
  | ok p =>
      rw [calculate_of_ok hrun] at h
      exact ⟨p, rfl, Except.ok.inj h⟩
  | error failure =>
      rw [calculate_of_error hrun] at h
      cases h

/-- An error comes from a run that fails. The variables are then those of
the failure. -/
theorem exists_run_of_error {c : Calculator} {text : String} {error : EvalError}
    (h : (c.calculate text).1 = .error error) :
    ∃ failure, c.run text = .error failure ∧ failure.error = error := by
  cases hrun : c.run text with
  | ok p =>
      rw [calculate_of_ok hrun] at h
      cases h
  | error failure =>
      rw [calculate_of_error hrun] at h
      exact ⟨failure, rfl, Except.error.inj h⟩

/-- The variables after an evaluation are those before it with the writes
made. So what holds of every write holds of what evaluations lead to
(`Environment.Reachable.forall_bindings`). -/
theorem calculate_environment (c : Calculator) (text : String) :
    (c.calculate text).2.environment = c.initial.write (c.writes text) := by
  rw [writes, ← evaluate_environment, calculate]
  split <;> rfl

/-- What a text does to a calculator `a` that aborts and to a calculator `n`
that recovers. The fields are stated with the calls of both alone, without
runs. -/
structure Agreement (text : String) (a n : Calculator) : Prop where
  /-- The second calculator puts up with nothing exactly where the first one
  succeeds. -/
  accepted : (∃ x, (n.calculate text).1 = .ok x) ∧ (n.calculate text).2.diagnostic = none ↔
    ∃ x, (a.calculate text).1 = .ok x
  same_value : ∀ x, (a.calculate text).1 = .ok x → (n.calculate text).1 = .ok x ∧
    (n.calculate text).2.environment = (a.calculate text).2.environment
  /-- What the second one puts up with is what stops the first one. -/
  complaint : ∀ x d, (n.calculate text).1 = .ok x → (n.calculate text).2.diagnostic = some d →
    (a.calculate text).1 = .error (.malformed d)
  /-- Neither of them gets past a variable without a value or a token that
  is left over. -/
  same_error : ∀ error, (a.calculate text).1 = .error error →
    ((∃ name offset, error = .undefinedVariable name offset) ∨
      ∃ found offset, error = .malformed (.trailingInput found offset)) →
    (n.calculate text).1 = .error error ∧
      (n.calculate text).2.environment = (a.calculate text).2.environment
  ne_unexpectedToken : ∀ expected found offset,
    (n.calculate text).1 ≠ .error (.malformed (.unexpectedToken expected found offset))
  /-- Past a complaint the second one ends with it, or fails no earlier in
  the text. -/
  later : ∀ d, (a.calculate text).1 = .error (.malformed d) →
    (∃ x, (n.calculate text).1 = .ok x ∧ (n.calculate text).2.diagnostic = some d) ∨
      ∃ error, (n.calculate text).1 = .error error ∧ d.offset ≤ error.offset
  writes_prefix : a.writes text <+: n.writes text
  writes_made : (a.calculate text).2.environment = a.initial.write (a.writes text) ∧
    (n.calculate text).2.environment = n.initial.write (n.writes text)
  /-- No complaint is left behind by a calculator that aborts, nor by an
  evaluation that fails. -/
  diagnostic : (a.calculate text).2.diagnostic = none ∧
    ∀ error, (n.calculate text).1 = .error error → (n.calculate text).2.diagnostic = none

/-- Two calculators with the same variables that differ in their policy
agree on every text up to the first complaint, whatever complaints they
remember. -/
theorem calculate_policies (persist : Bool) (env : Environment) (d d' : Option Diagnostic)
    (text : String) :
    Agreement text ⟨⟨.abort, persist⟩, env, d⟩ ⟨⟨.substituteNan, persist⟩, env, d'⟩ := by
  let a : Calculator := ⟨⟨.abort, persist⟩, env, d⟩
  let n : Calculator := ⟨⟨.substituteNan, persist⟩, env, d'⟩
  -- Everything is read off the comparison of the two runs, case by case. An
  -- error past a complaint is no earlier in the text because tokens are in
  -- order.
  have hordered : (Cursor.ofText text).tokens.Pairwise (fun t u => t.start ≤ u.start) :=
    (Cursor.ofText text).tokens_start_lt.imp Nat.le_of_lt
  have hpair : State.RunPair (a.run text) (n.run text) (a.writes text) (n.writes text) :=
    State.run_pair _ rfl hordered
  show Agreement text a n
  refine ⟨?accepted, ?same_value, ?complaint, ?same_error, ?ne_unexpectedToken, ?later,
    hpair.writes_prefix, ⟨a.calculate_environment text, n.calculate_environment text⟩,
    ?diagnostic⟩
  case accepted =>
    constructor
    · rintro ⟨⟨x, hx⟩, hnone⟩
      obtain ⟨p, hp, -⟩ := exists_run_of_ok hx
      rw [calculate_of_ok hp] at hnone
      rw [calculate_of_ok (hpair.abort_ok hp hnone)]
      exact ⟨_, rfl⟩
    · rintro ⟨x, hx⟩
      obtain ⟨p, hp, -⟩ := exists_run_of_ok hx
      obtain ⟨hp', hnone⟩ := hpair.recover_ok hp
      rw [calculate_of_ok hp']
      exact ⟨⟨_, rfl⟩, hnone⟩
  case same_value =>
    intro x hx
    obtain ⟨p, hp, rfl⟩ := exists_run_of_ok hx
    rw [calculate_of_ok hp, calculate_of_ok (hpair.recover_ok hp).1]
    exact ⟨rfl, rfl⟩
  case complaint =>
    intro x complaint hx hsome
    obtain ⟨p, hp, -⟩ := exists_run_of_ok hx
    rw [calculate_of_ok hp] at hsome
    obtain ⟨env', habort⟩ := hpair.abort_error hp hsome
    rw [calculate_of_error habort]
  case same_error =>
    intro error herror hkind
    obtain ⟨failure, hfailure, rfl⟩ := exists_run_of_error herror
    have hrecover : n.run text = .error failure := by
      refine hpair.recover_error hfailure fun complaint hd => ?_
      -- If the error is a complaint, it is about a token that is left over.
      rcases hkind with ⟨name, offset, hunbound⟩ | ⟨found, offset, hleft⟩
      · cases hd.symm.trans hunbound
      · exact ⟨found, offset, EvalError.malformed.inj (hd.symm.trans hleft)⟩
    rw [calculate_of_error hfailure, calculate_of_error hrecover]
    exact ⟨rfl, rfl⟩
  case ne_unexpectedToken =>
    intro expected found offset herror
    obtain ⟨failure, hfailure, hunexpected⟩ := exists_run_of_error herror
    exact State.run_ne_unexpectedToken rfl hfailure expected found offset hunexpected
  case later =>
    intro complaint herror
    obtain ⟨failure, hfailure, hd⟩ := exists_run_of_error herror
    rcases hpair.later hfailure hd with ⟨p, hp, hsome⟩ | ⟨failure', hfailure', hoffset⟩
    · rw [calculate_of_ok hp]
      exact .inl ⟨_, rfl, hsome⟩
    · rw [calculate_of_error hfailure']
      exact .inr ⟨_, rfl, hoffset⟩
  case diagnostic =>
    constructor
    · cases hrun : a.run text with
      | ok p =>
          rw [calculate_of_ok hrun]
          exact (hpair.recover_ok hrun).2
      | error failure => rw [calculate_of_error hrun]
    · intro error herror
      obtain ⟨failure, hfailure, -⟩ := exists_run_of_error herror
      rw [calculate_of_error hfailure]

end Calculator

end DeskCalculator
