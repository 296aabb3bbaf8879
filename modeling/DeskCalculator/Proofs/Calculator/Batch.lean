import DeskCalculator.Proofs.Calculator.Policies
import DeskCalculator.Proofs.Run.Change
import DeskCalculator.Proofs.Tokens.Join

/-!
# `DeskCalculator.Proofs.Calculator.Batch`: two texts at once, or one after the other

To a calculator that keeps its variables, `a;b` is `a` and then `b`, if
there is nothing to complain about in `a`: `calculate_batch`. It has three
parts, one for each of what a run goes through.

* The tokens of `a` are the same in both, and so is the run over them.
* The semicolon does what the end of `a` does, and what follows starts
  afresh (`feed_semicolon_of_ending`).
* The tokens of `b` stand further behind, and so does all that is reported
  of them (`State.run_change`).

That there is no complaint about `a` is needed for the second part. What
recovery puts up with at the end of a text need not be at its end any more:
in `1 + ; 2` and in `(1; 2` the semicolon stands where the end of the text
stood, and the complaint is about another token or comes at another place.
-/

set_option autoImplicit false

namespace DeskCalculator

open Text (byteLength)

namespace State

/-- A text that ends without a complaint ends behind an operand, outside of
parentheses. Nothing was complained about before either, as the first
complaint is kept. -/
theorem ready_of_ending {setting : Setting} {s : State} {stop : Nat} {p : Evaluation × Environment}
    (h : s.ending setting stop = .ok p) (hquiet : p.1.diagnostic = none) :
    ∃ x, s.Ready x ∧ s.enclosing = [] ∧ s.diagnostic = none ∧
      p.2 = (s.endStatement x).2.environment := by
  -- Behind an operand, a parenthesis or an earlier complaint would show in
  -- the result.
  have hwith : ∀ (s' : State) (x : Number), s'.endingWith setting stop x = .ok p →
      s'.enclosing = [] ∧ s'.diagnostic = none ∧ p.2 = (s'.endStatement x).2.environment := by
    intro s' x h'
    cases he : s'.enclosing with
    | nil =>
        rw [endingWith_outside he] at h'
        obtain rfl := Except.ok.inj h'
        exact ⟨rfl, hquiet, rfl⟩
    | cons waiting enclosing =>
        rw [endingWith_inside he] at h'
        obtain ⟨next, hnext, hp⟩ := bind_eq_ok h'
        obtain rfl := complain_ok hnext
        obtain rfl := Except.ok.inj hp
        exact absurd hquiet (by simp [note])
  -- A name that is unbound fails, and a missing operand is complained
  -- about.
  cases s.ending_cases with
  | ready x ready =>
      rw [ending_of_ready ready] at h
      exact ⟨x, ready, hwith s x h⟩
  | unboundName name offset focus unbound =>
      rw [ending_of_unbound focus unbound] at h
      cases h
  | missing focus =>
      rw [ending_of_operand focus] at h
      obtain ⟨next, hnext, hrest⟩ := bind_eq_ok h
      obtain rfl := complain_ok hnext
      exact absurd (hwith _ _ hrest).2.1 (by simp [note])

/-- Where a text ends without a complaint, a semicolon starts afresh with
the variables of then. The semicolon may be one of another text, as the
states are the same. -/
theorem feed_semicolon_of_ending {setting : Setting} {s : State} {stop : Nat}
    {p : Evaluation × Environment} (h : s.ending setting stop = .ok p)
    (hquiet : p.1.diagnostic = none) (setting' : Setting) (span : Span) :
    feed setting' s (.bare .semicolon span) = .ok { environment := p.2 } := by
  obtain ⟨x, hready, houtside, hclean, henv⟩ := ready_of_ending h hquiet
  -- A name whose fate is open is read by a semicolon as it is by the end.
  have hkind : (Token.bare .semicolon span).kind ≠ .assign := by
    intro hassign
    cases hassign
  rw [feed_of_ready hready hkind, henv]
  show Except.ok ((s.endStatement x).2.await {}) = _
  simp only [endStatement, await, houtside, hclean]

/-! ### Runs over two texts -/

section Join

variable (policy : Policy) (env : Environment) (a b : String)

/-- The run over the tokens of the first text is the same in both. The texts
differ, but what a complaint takes from the text is the lexeme of a token of
the first one. -/
theorem feedAll_join_left :
    feedAll ⟨policy, (a ++ ";" ++ b).toList⟩ { environment := env } (Cursor.ofText a).tokens
      = feedAll ⟨policy, a.toList⟩ { environment := env } (Cursor.ofText a).tokens := by
  have hsame : List.Forall₂
      ((Change.relocation id).Carries ⟨policy, a.toList⟩ ⟨policy, (a ++ ";" ++ b).toList⟩)
      (Cursor.ofText a).tokens (Cursor.ofText a).tokens :=
    List.forall₂_same.mpr fun t ht => Change.carries_relocation rfl rfl rfl fun _ =>
      congrArg String.ofList (slice_join_left ht)
  have hrun := feedAll_change hsame { environment := env }
  rwa [Change.state_relocation_id, Change.result_relocation_id] at hrun

/-- The run over the tokens of the second text is the same where they stand
in both, and reports places that are further behind. -/
theorem run_join_right :
    run ⟨policy, (a ++ ";" ++ b).toList⟩ (byteLength (a ++ ";" ++ b).toList) { environment := env }
        ((Cursor.ofText b).tokens.map (Token.shift (byteLength a.toList + 1)))
      = (Change.relocation (· + (byteLength a.toList + 1))).result
          (Change.relocation (· + (byteLength a.toList + 1))).outcome
          (run ⟨policy, b.toList⟩ (byteLength b.toList) { environment := env }
            (Cursor.ofText b).tokens) := by
  have hsame : List.Forall₂
      ((Change.relocation (· + (byteLength a.toList + 1))).Carries ⟨policy, b.toList⟩
        ⟨policy, (a ++ ";" ++ b).toList⟩)
      (Cursor.ofText b).tokens
      ((Cursor.ofText b).tokens.map (Token.shift (byteLength a.toList + 1))) :=
    List.forall₂_map_right_iff.mpr <| List.forall₂_same.mpr fun t ht =>
      Change.carries_relocation rfl rfl rfl fun _ => congrArg String.ofList (slice_join_right ht)
  -- The mark at the end moves as the tokens do.
  have hstop : (Change.relocation (· + (byteLength a.toList + 1))).Carries ⟨policy, b.toList⟩
      ⟨policy, (a ++ ";" ++ b).toList⟩ (Token.endOfInput (byteLength b.toList))
      (Token.endOfInput (byteLength (a ++ ";" ++ b).toList)) :=
    Change.carries_relocation rfl rfl (byteLength_join a b) fun hunknown => by cases hunknown
  exact run_change hsame hstop { environment := env }

variable {policy env a}

/-- If the run over the first text succeeds without a complaint, the run
over both goes on with the second one from the variables of then. -/
theorem run_join {p : Evaluation × Environment}
    (h : run ⟨policy, a.toList⟩ (byteLength a.toList) { environment := env }
      (Cursor.ofText a).tokens = .ok p) (hquiet : p.1.diagnostic = none) :
    run ⟨policy, (a ++ ";" ++ b).toList⟩ (byteLength (a ++ ";" ++ b).toList) { environment := env }
        (Cursor.ofText (a ++ ";" ++ b)).tokens
      = (Change.relocation (· + (byteLength a.toList + 1))).result
          (Change.relocation (· + (byteLength a.toList + 1))).outcome
          (run ⟨policy, b.toList⟩ (byteLength b.toList) { environment := p.2 }
            (Cursor.ofText b).tokens) := by
  obtain ⟨s, hfirst, hending⟩ := bind_eq_ok h
  rw [tokens_ofText_join, run_append, feedAll_join_left, hfirst, ok_bind, run_cons,
    feed_semicolon_of_ending hending hquiet, ok_bind]
  exact run_join_right policy p.2 a b

end Join

end State

namespace Calculator

/-- To a calculator that keeps its variables, two texts with a semicolon
between them are the one and then the other, if the first one succeeds and
leaves no complaint. What is reported of the second one is further behind,
by the bytes of the first one and the semicolon. A calculator that does not
keep its variables would evaluate the second text without those of the
first, so `hpersist` is needed. -/
theorem calculate_batch (c : Calculator) (hpersist : c.options.persist = true) (a b : String)
    {x : Number} (hok : (c.calculate a).1 = .ok x)
    (hquiet : (c.calculate a).2.diagnostic = none) :
    let later := (c.calculate a).2.calculate b
    let place := fun offset => offset + (a.utf8ByteSize + 1)
    c.calculate (a ++ ";" ++ b)
      = (later.1.mapError (EvalError.relocate place),
          { later.2 with diagnostic := later.2.diagnostic.map (Diagnostic.relocate place) }) := by
  intro later place
  obtain ⟨p, hrun, -⟩ := exists_run_of_ok hok
  rw [calculate_of_ok hrun] at hquiet
  -- The calculator after the first text, which starts with the variables
  -- that it left.
  let between : Calculator := { c with environment := p.2, diagnostic := p.1.diagnostic }
  have hbetween : (c.calculate a).2 = between := congrArg Prod.snd (calculate_of_ok hrun)
  have hinitial : between.initial = p.2 := if_pos hpersist
  have hboth : c.run (a ++ ";" ++ b)
      = (Change.relocation place).result (Change.relocation place).outcome (between.run b) := by
    have hplace : place = (· + (byteLength a.toList + 1)) := by
      rw [Text.byteLength_toList]
    rw [run, run, hinitial, hplace]
    exact State.run_join b hrun hquiet
  have hlater : later = between.calculate b := congrArg (calculate · b) hbetween
  rw [hlater]
  -- The second text may succeed or fail.
  cases hsecond : between.run b with
  | ok q =>
      rw [hsecond] at hboth
      rw [calculate_of_ok hboth, calculate_of_ok hsecond]
      rfl
  | error failure =>
      rw [hsecond] at hboth
      rw [calculate_of_error hboth, calculate_of_error hsecond]
      rfl

/-- The second text reads what the first one assigned, and then a variable
without a value, at the tenth byte of both. -/
theorem calculate_batch_undefined :
    calculate {} ("a = 2" ++ ";" ++ "a + b")
      = (.error (.undefinedVariable "b" 10),
          { environment := .ofList [("a", .double (Double.ofNumeral ['2']))] }) := by
  have hbatch := calculate_batch {} rfl "a = 2" "a + b" (x := .double (Double.ofNumeral ['2']))
    (by decide +kernel) (by decide +kernel)
  rw [hbatch]
  decide +kernel

end Calculator

end DeskCalculator
