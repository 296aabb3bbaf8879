import DeskCalculator.Proofs.Run.Recovery
import DeskCalculator.Proofs.Run.Writes
import DeskCalculator.Proofs.Tokens.Stream

/-!
# `DeskCalculator.Proofs.Run.Policies`: one text under both policies

Two runs over the same tokens, one that aborts and one that recovers, take
the same steps until there is something to complain about. There the first
run stops with the complaint, and the second one keeps it and goes on to its
own end, which is never earlier in the text.

* `StepPair`: how one step compares. `feed_pair`: every step from a state
  without a complaint.
* `RunPair`: how two runs compare. `run_pair`: induction over the tokens,
  with the pairs of steps.
* `later_error`: what fails after a complaint fails behind it, since tokens
  start one after the other and a name that is open then was read behind it.

What the runs write is compared along with their results, because variables
are written before a run fails: the run that aborts has written a beginning
of what the other one writes. The writes are those of `Proofs.Run.Writes`.

The lemmas of `RunPair` are what `Proofs.Calculator.Policies` needs of it.
They are stated for two computations that form a pair, wherever the pair
comes from.
-/

set_option autoImplicit false

namespace DeskCalculator

/-- The setting of a run that stops at a complaint. The text is a parameter,
so that both runs are over one text. -/
def Setting.aborting (text : List Char) : Setting := { policy := .abort, text }

/-- The setting of a run that goes on after a complaint, over the same
text. -/
def Setting.recovering (text : List Char) : Setting := { policy := .substituteNan, text }

namespace State

/-! ### One step

The two runs take a step from the same state. Only where it complains do
they part, and there the complaint is the error of the one and is kept by
the other. -/

/-- How a step of the run that aborts compares with that of the run that
recovers, from the same state: they are the same, or the first one stops
with a complaint about the token `t`, which is the first one if there was
none before. In that case the second run goes on with no name open, or fails
at the same token.

The state may have a complaint already (`before`). A step of the run that
recovers meets the token a second time behind the number that it has put
before it, and then there is one. -/
inductive StepPair (text : List Char) (before : Option Diagnostic) (t : Token)
    (abort recover : Except Failure State) (writes writes' : List (String × Number)) : Prop where
  | same : abort = recover → writes = writes' → (∀ s, recover = .ok s → s.diagnostic = before) →
      StepPair text before t abort recover writes writes'
  | parted (expected : List Kind) (env : Environment) :
      abort = .error ⟨.malformed ((Setting.recovering text).complaint expected t), env⟩ →
      writes <+: writes' →
      (∀ s, recover = .ok s →
        s.diagnostic = before.or (some ((Setting.recovering text).complaint expected t)) ∧
          ∀ name offset, s.focus ≠ .name name offset) →
      (∀ failure, recover = .error failure →
        TokenError (Setting.recovering text) t failure.error) →
      StepPair text before t abort recover writes writes'

/-- A step that does not depend on the policy. Most cases of a step are of
this sort, since `FeedCase` gives the result for all settings at once. -/
theorem StepPair.of_eq {text : List Char} {before : Option Diagnostic} {t : Token}
    {abort recover result : Except Failure State} {writes writes' : List (String × Number)}
    (habort : abort = result) (hrecover : recover = result) (hwrites : writes = writes')
    (hdiagnostic : ∀ s, result = .ok s → s.diagnostic = before) :
    StepPair text before t abort recover writes writes' := by
  subst habort hrecover
  exact .same rfl hwrites hdiagnostic

/-- A token that does not end everything writes the same under both
policies. Only `endAll` complains between two writes. -/
theorem operatorWrites_eq {s : State} {x : Number} {t : Token}
    (h : ∀ kind, t.content = .bare kind → kind.stops = false) (policy policy' : Policy) :
    s.operatorWrites policy x t = s.operatorWrites policy' x t := by
  rw [operatorWrites, operatorWrites]
  cases hc : t.content with
  | number y => rfl
  | identifier name => rfl
  | bare kind => simp only [h kind hc, Bool.false_eq_true, if_false]

section Steps

variable {s : State} {t : Token}

/-- A token after an operand, under both policies. They part in two cases:
an unknown character inside parentheses, and a token with which nothing goes
on inside parentheses. -/
theorem feedOperator_pair (text : List Char) (s : State) (x : Number) (t : Token) :
    StepPair text s.diagnostic t (s.feedOperator (.aborting text) x t)
      (s.feedOperator (.recovering text) x t) (s.operatorWrites .abort x t)
      (s.operatorWrites .substituteNan x t) := by
  have herror : ∀ failure, s.feedOperator (.recovering text) x t = .error failure →
      TokenError (.recovering text) t failure.error :=
    fun _ h => feedOperator_error h
  have hbare : ∀ {kind : Kind}, t.content = .bare kind → kind.stops = false →
      ∀ kind', t.content = .bare kind' → kind'.stops = false := by
    intro kind hc hstops kind' hc'
    obtain rfl := Content.bare.inj (hc.symm.trans hc')
    exact hstops
  cases s.feedOperator_cases x t with
  | factor y value result =>
      refine .of_eq (result _) (result _) (operatorWrites_eq ?_ _ _)
        (fun s' h => by obtain rfl := Except.ok.inj h; rfl)
      intro kind hc
      cases value with
      | number content => cases content.symm.trans hc
      | bound content _ => cases content.symm.trans hc
  | unbound name content unbound result =>
      exact .of_eq (result _) (result _)
        (operatorWrites_eq (fun kind hc => by cases content.symm.trans hc) _ _)
        (fun s' h => by cases h)
  | openGroup content result =>
      exact .of_eq (result _) (result _) (operatorWrites_eq (hbare content rfl) _ _)
        (fun s' h => by obtain rfl := Except.ok.inj h; rfl)
  | operator kind statement content waits result =>
      refine .of_eq (result _) (result _) (operatorWrites_eq (hbare content ?_) _ _)
        (fun s' h => by obtain rfl := Except.ok.inj h; rfl)
      cases kind <;> first | rfl | cases waits
  | semicolon content result =>
      exact .of_eq (result _) (result _) (operatorWrites_eq (hbare content rfl) _ _)
        (fun s' h => by obtain rfl := Except.ok.inj h; rfl)
  | closeGroup waiting enclosing content inside result =>
      refine .of_eq (result _) (result _) (operatorWrites_eq (hbare content rfl) _ _)
        (fun s' h => ?_)
      obtain rfl := Except.ok.inj h
      exact closeGroup_diagnostic _ _
  | leftover content outside result =>
      refine .of_eq (result (.aborting text)) (result (.recovering text)) (operatorWrites_eq ?_ _ _)
        (fun s' h => by cases h)
      rcases content with content | content <;> exact hbare content rfl
  | skip waiting enclosing content inside result =>
      -- Both runs end the statement before they complain, so they have
      -- written the same.
      refine .parted [.closeParen] (s.endStatement x).2.environment ?_ ?_ ?_ herror
      · rw [result, complain_abort rfl]
        rfl
      · exact operatorWrites_eq (hbare content rfl) .abort .substituteNan ▸ List.prefix_rfl
      · intro s' hs'
        refine ⟨?_, feedOperator_focus_ne hs'⟩
        rw [result, complain_substituteNan rfl] at hs'
        obtain rfl := Except.ok.inj hs'
        exact closeGroup_diagnostic _ _
  | stop kind content stops result =>
      have hwrites : ∀ policy, s.operatorWrites policy x t = s.endAllWrites policy x := by
        intro policy
        rw [operatorWrites, content]
        cases kind <;> first | rfl | cases stops
      rw [hwrites, hwrites]
      -- Outside parentheses nothing is missing, and both runs stop at what
      -- is left over.
      cases he : s.enclosing with
      | nil =>
          refine .same ?_ (by rw [endAllWrites_outside he, endAllWrites_outside he]) ?_
          · rw [result, result, endAll_outside he, endAll_outside he]
            rfl
          · intro s' hs'
            rw [result, endAll_outside he] at hs'
            cases hs'
      | cons waiting enclosing =>
          refine .parted [.closeParen] (s.endStatement x).2.environment ?_ ?_ ?_ herror
          · rw [result, endAll_inside he, complain_abort rfl]
            rfl
          · -- The run that recovers ends the statements around the
            -- parentheses as well.
            exact ⟨closeWrites s.enclosing (s.statement.value x), by simp [endAllWrites]⟩
          · intro s' hs'
            rw [result, endAll_inside he, complain_substituteNan rfl] at hs'
            cases hs'

/-- A token anywhere, under both policies. Of the cases of a step only that
of a missing operand parts them by itself. -/
theorem feed_pair (text : List Char) (s : State) (t : Token) :
    StepPair text s.diagnostic t (feed (.aborting text) s t) (feed (.recovering text) s t)
      (s.feedWrites .abort t) (s.feedWrites .substituteNan t) := by
  let complaint (expected : List Kind) := (Setting.recovering text).complaint expected t
  cases s.feed_cases t with
  | operand y focus value result =>
      refine .of_eq (result _) (result _) ?_ (fun s' h => by obtain rfl := Except.ok.inj h; rfl)
      rw [feedWrites_of_denotes focus value, feedWrites_of_denotes focus value]
  | name name focus content allowed result =>
      exact .of_eq (result _) (result _) (by simp only [feedWrites, focus, content])
        (fun s' h => by obtain rfl := Except.ok.inj h; rfl)
  | unbound name focus content unbound result =>
      exact .of_eq (result _) (result _) (by simp only [feedWrites, focus, content])
        (fun s' h => by cases h)
  | openGroup focus content result =>
      exact .of_eq (result _) (result _) (by simp only [feedWrites, focus, content])
        (fun s' h => by obtain rfl := Except.ok.inj h; rfl)
  | sign focus content allowed result =>
      exact .of_eq (result _) (result _) (by simp [feedWrites, focus, content, allowed])
        (fun s' h => by obtain rfl := Except.ok.inj h; rfl)
  | target name offset focus kind result =>
      exact .of_eq (result _) (result _) (by simp [feedWrites, focus, kind])
        (fun s' h => by obtain rfl := Except.ok.inj h; rfl)
  | unboundName name offset focus kind unbound result =>
      exact .of_eq (result _) (result _) (by simp [feedWrites, focus, kind, unbound])
        (fun s' h => by cases h)
  | follow x ready unassigned result =>
      -- The operand was there before, so this is a step after an operand
      -- under both policies.
      rw [result, result, feedWrites_of_ready ready unassigned,
        feedWrites_of_ready ready unassigned]
      exact feedOperator_pair text s x t
  | missing kind focus content other unsigned result =>
      -- The run that recovers takes the number first, and then the token,
      -- unless that is skipped.
      have hrecover : feed (.recovering text) s t
          = if t.kind = .unknown then .ok ((s.note (complaint Kind.factorStarts)).take .nan)
            else (s.note (complaint Kind.factorStarts)).feedOperator (.recovering text) .nan t := by
        rw [result, feedMissing, complain_substituteNan rfl]
        rfl
      refine .parted Kind.factorStarts s.environment ?_ ?_ ?_ ?_
      · rw [result, feedMissing, complain_abort rfl]
        rfl
      · rw [feedWrites_of_missing focus content other unsigned, missingWrites, if_pos (.inl rfl)]
        exact List.nil_prefix
      · intro s' hs'
        rw [hrecover] at hs'
        split at hs'
        · obtain rfl := Except.ok.inj hs'
          exact ⟨rfl, fun _ _ hname => by cases hname⟩
        · refine ⟨?_, feedOperator_focus_ne hs'⟩
          -- A second complaint about the same token changes nothing.
          cases feedOperator_pair text (s.note (complaint Kind.factorStarts)) .nan t with
          | same _ _ hdiagnostic => exact hdiagnostic s' hs'
          | parted expected env _ _ hok _ =>
              rw [(hok s' hs').1, note, Option.or_assoc]
              rfl
      · intro failure hfailure
        rw [hrecover] at hfailure
        split at hfailure
        · cases hfailure
        · exact feedOperator_error hfailure

end Steps

/-! ### Whole runs

Once the runs have parted nothing is said of their states, and what is
needed of the second one is where it can still fail, and that it keeps its
first complaint. -/

/-- How a run that aborts compares with one that recovers, from the same
state without a complaint: they are the same, or the first one fails with
the complaint `d`. In that case the second one ends with the same complaint,
or fails no earlier in the text. What is left over at the end is reported by
both, so `d` is never about that. -/
inductive RunPair (abort recover : Except Failure (Evaluation × Environment))
    (writes writes' : List (String × Number)) : Prop where
  | same : abort = recover → writes = writes' → (∀ p, recover = .ok p → p.1.diagnostic = none) →
      RunPair abort recover writes writes'
  | parted (d : Diagnostic) (env : Environment) :
      abort = .error ⟨.malformed d, env⟩ → (∀ found offset, d ≠ .trailingInput found offset) →
      writes <+: writes' → (∀ p, recover = .ok p → p.1.diagnostic = some d) →
      (∀ failure, recover = .error failure → d.offset ≤ failure.error.offset) →
      RunPair abort recover writes writes'

namespace RunPair

variable {abort recover : Except Failure (Evaluation × Environment)}
  {writes writes' : List (String × Number)}

/-- What succeeds without a complaint succeeds where complaints stop a run,
and with the same value. -/
theorem abort_ok (h : RunPair abort recover writes writes') {p : Evaluation × Environment}
    (hp : recover = .ok p) (hnone : p.1.diagnostic = none) : abort = .ok p := by
  cases h with
  | same hrun _ _ => exact hrun.trans hp
  | parted d env _ _ _ hsome _ => cases hnone.symm.trans (hsome p hp)

/-- What succeeds where complaints stop a run succeeds without one. There
was nothing to complain about, so the runs have never parted. -/
theorem recover_ok (h : RunPair abort recover writes writes') {p : Evaluation × Environment}
    (hp : abort = .ok p) : recover = .ok p ∧ p.1.diagnostic = none := by
  cases h with
  | same hrun _ hnone => exact ⟨hrun.symm.trans hp, hnone p (hrun.symm.trans hp)⟩
  | parted d env habort _ _ _ _ => cases habort.symm.trans hp

/-- What succeeds with a complaint is stopped by it, where complaints stop a
run. The complaint that is kept is the first, and the first is where the
other run stopped. -/
theorem abort_error (h : RunPair abort recover writes writes') {p : Evaluation × Environment}
    {d : Diagnostic} (hp : recover = .ok p) (hd : p.1.diagnostic = some d) :
    ∃ env, abort = .error ⟨.malformed d, env⟩ := by
  cases h with
  | same _ _ hnone => cases (hnone p hp).symm.trans hd
  | parted d' env habort _ _ hsome _ =>
      obtain rfl := Option.some.inj ((hsome p hp).symm.trans hd)
      exact ⟨env, habort⟩

/-- What fails, but not with a complaint that a run can go on after, fails
under both policies. -/
theorem recover_error (h : RunPair abort recover writes writes') {failure : Failure}
    (hfailure : abort = .error failure)
    (hkind : ∀ d, failure.error = .malformed d → ∃ found offset, d = .trailingInput found offset) :
    recover = .error failure := by
  cases h with
  | same hrun _ _ => exact hrun.symm.trans hfailure
  | parted d env habort hother _ _ _ =>
      obtain rfl := Except.error.inj (habort.symm.trans hfailure)
      obtain ⟨found, offset, hd⟩ := hkind d rfl
      exact absurd hd (hother found offset)

/-- What fails with a complaint succeeds with it, or fails no earlier in the
text. It may even fail at the same place: the number that is put there does
not remove the token. -/
theorem later (h : RunPair abort recover writes writes') {failure : Failure} {d : Diagnostic}
    (hfailure : abort = .error failure) (hd : failure.error = .malformed d) :
    (∃ p, recover = .ok p ∧ p.1.diagnostic = some d) ∨
      ∃ failure', recover = .error failure' ∧ d.offset ≤ failure'.error.offset := by
  cases h with
  | same hrun _ _ =>
      refine .inr ⟨failure, hrun.symm.trans hfailure, ?_⟩
      rw [hd]
      exact Nat.le_refl _
  | parted d' env habort _ _ hsome hlater =>
      obtain rfl := Except.error.inj (habort.symm.trans hfailure)
      obtain rfl := EvalError.malformed.inj hd
      cases hrecover : recover with
      | ok p => exact .inl ⟨p, rfl, hsome p hrecover⟩
      | error failure' => exact .inr ⟨failure', rfl, hlater failure' hrecover⟩

/-- The run that aborts makes the first writes of the other one, and in the
first case all of them. -/
theorem writes_prefix (h : RunPair abort recover writes writes') : writes <+: writes' := by
  cases h with
  | same _ hwrites _ => exact hwrites ▸ List.prefix_rfl
  | parted _ _ _ _ hwrites _ _ => exact hwrites

end RunPair

/-- A complaint about a token in the place of another is none about what is
left over. So the two kinds of failure are told apart by the form of the
error. -/
theorem complaint_ne_trailingInput (setting : Setting) (expected : List Kind) (t : Token)
    (found : Kind) (offset : Nat) : setting.complaint expected t ≠ .trailingInput found offset := by
  rw [Setting.complaint]
  split <;> (intro h; cases h)

section Runs

variable {text : List Char} {stop : Nat}

/-- A run that goes on after a complaint ends with it, if it ends at all:
the first one is kept. -/
theorem diagnostic_of_run {setting : Setting} (hp : setting.policy = .substituteNan)
    {tokens : List Token} {s : State} {d : Diagnostic} (hd : s.diagnostic = some d)
    {p : Evaluation × Environment} (h : run setting stop s tokens = .ok p) :
    p.1.diagnostic = some d := by
  -- The complaint is an earlier one to the run that starts without it.
  have hearlier : s = State.withEarlier (some d) { s with diagnostic := none } := by
    rw [withEarlier, Option.or_none, ← hd]
  rw [hearlier, run_withEarlier hp] at h
  obtain ⟨q, -, hq⟩ := bind_eq_ok h
  obtain rfl := Except.ok.inj hq
  rfl

/-- A run that recovers fails behind a place that all its tokens are behind,
and the open name is. Induction over the tokens: the name that a token
leaves open is that token. -/
theorem later_error {setting : Setting} (hp : setting.policy = .substituteNan) {bound : Nat}
    {failure : Failure} (tokens : List Token) :
    ∀ {s : State}, (∀ name offset, s.focus = .name name offset → bound ≤ offset) →
      (∀ t ∈ tokens, bound ≤ t.start) → run setting stop s tokens = .error failure →
        bound ≤ failure.error.offset := by
  induction tokens with
  | nil =>
      intro s hname _ h
      obtain ⟨name, offset, hfocus, herror⟩ := ending_recovering_error hp h
      rw [herror]
      exact hname name offset hfocus
  | cons t tokens ih =>
      intro s hname htokens h
      have ht : bound ≤ t.start := htokens t List.mem_cons_self
      rw [run_cons] at h
      rcases bind_eq_error h with hstep | ⟨next, hstep, hrest⟩
      · rcases feed_error hstep with ⟨herror, -⟩ | ⟨name, offset, hfocus, herror⟩
        · rw [herror.offset]
          exact ht
        · rw [herror]
          exact hname name offset hfocus
      · -- A name that is open now is the token just read.
        refine ih (fun name offset hfocus => ?_)
          (fun u hu => htokens u (List.mem_cons_of_mem _ hu)) hrest
        rw [(feed_focus hstep hfocus).2]
        exact ht

/-- A run that recovers never fails by asking for another token. It would
have put it there. What can fail is a variable, an unknown character, or a
token that is left over. -/
theorem run_ne_unexpectedToken {setting : Setting} (hp : setting.policy = .substituteNan)
    {failure : Failure} {s : State} {tokens : List Token}
    (h : run setting stop s tokens = .error failure) (expected : List Kind) (found : Kind)
    (offset : Nat) : failure.error ≠ .malformed (.unexpectedToken expected found offset) := by
  rcases bind_eq_error h with hrun | ⟨s', -, hend⟩
  · obtain ⟨-, t, -, s', -, -, hstep⟩ := feedAll_error tokens hrun
    rcases feed_error hstep with ⟨herror, -⟩ | ⟨name, offset', -, herror⟩
    · exact herror.ne_unexpectedToken hp expected found offset
    · rw [herror]
      intro hunexpected
      cases hunexpected
  · obtain ⟨name, offset', -, herror⟩ := ending_recovering_error hp hend
    rw [herror]
    intro hunexpected
    cases hunexpected

/-- The end of the text, under both policies. They part where an operand is
missing and where a parenthesis is. -/
theorem ending_pair {s : State} (hs : s.diagnostic = none) :
    RunPair (s.ending (.aborting text) stop) (s.ending (.recovering text) stop)
      (s.endingWrites .abort) (s.endingWrites .substituteNan) := by
  let complaint (expected : List Kind) :=
    (Setting.recovering text).complaint expected (.endOfInput stop)
  have hdiagnostic : ∀ (s' : State) (x : Number) (d : Diagnostic), s'.diagnostic = some d →
      ∀ p, s'.endingWith (.recovering text) stop x = .ok p → p.1.diagnostic = some d := by
    intro s' x d hd p hp
    have hrun : run (.recovering text) stop (s'.take x) [] = .ok p := by
      rw [run_nil, ending_of_ready (.value rfl), endingWith_take]
      exact hp
    exact diagnostic_of_run (s := s'.take x) rfl hd hrun
  cases s.ending_cases with
  | unboundName name offset focus unbound =>
      refine .same ?_ (by simp only [endingWrites, focus, unbound]) ?_
      · rw [ending_of_unbound focus unbound, ending_of_unbound focus unbound]
      · intro p hp
        rw [ending_of_unbound focus unbound] at hp
        cases hp
  | missing focus =>
      -- The run that aborts stops before the statement ends, and writes
      -- nothing.
      refine .parted (complaint Kind.factorStarts) s.environment ?_
        (complaint_ne_trailingInput _ _ _) ?_ ?_ ?_
      · rw [ending_of_operand focus, complain_abort rfl]
        rfl
      · simp only [endingWrites, focus]
        exact List.nil_prefix
      · intro p hp
        rw [ending_of_operand focus, complain_substituteNan rfl, ok_bind] at hp
        refine hdiagnostic _ _ _ ?_ p hp
        rw [note, hs]
        rfl
      · intro failure hfailure
        obtain ⟨name, offset, hname, -⟩ := ending_recovering_error rfl hfailure
        cases focus.symm.trans hname
  | ready x ready =>
      rw [ending_of_ready ready, ending_of_ready ready, endingWrites_of_ready ready,
        endingWrites_of_ready ready]
      cases he : s.enclosing with
      | nil =>
          refine .same ?_ (by rw [endAllWrites_outside he, endAllWrites_outside he]) ?_
          · rw [endingWith_outside he, endingWith_outside he]
          · intro p hp
            rw [endingWith_outside he] at hp
            obtain rfl := Except.ok.inj hp
            exact hs
      | cons waiting enclosing =>
          refine .parted (complaint [.closeParen]) (s.endStatement x).2.environment ?_
            (complaint_ne_trailingInput _ _ _) ?_ ?_ ?_
          · rw [endingWith_inside he, complain_abort rfl]
            rfl
          · exact ⟨closeWrites s.enclosing (s.statement.value x), by simp [endAllWrites]⟩
          · intro p hp
            rw [endingWith_inside he, complain_substituteNan rfl] at hp
            obtain rfl := Except.ok.inj hp
            show s.diagnostic.or _ = _
            rw [hs]
            rfl
          · intro failure hfailure
            rw [endingWith_inside he, complain_substituteNan rfl] at hfailure
            cases hfailure

/-- Whole runs over tokens that start one after the other. Induction over
the tokens: as long as the steps are the same there is no complaint, and
after the first one only one of the runs goes on. The hypothesis on the
tokens is for the failures of that run, which must not be further in
front. -/
theorem run_pair (tokens : List Token) :
    ∀ {s : State}, s.diagnostic = none → tokens.Pairwise (fun t u => t.start ≤ u.start) →
      RunPair (run (.aborting text) stop s tokens) (run (.recovering text) stop s tokens)
        (runWrites (.aborting text) s tokens) (runWrites (.recovering text) s tokens) := by
  induction tokens with
  | nil => intro s hs _; exact ending_pair hs
  | cons t tokens ih =>
      intro s hs hordered
      obtain ⟨hbehind, hordered⟩ := List.pairwise_cons.mp hordered
      rw [run_cons, run_cons, runWrites, runWrites]
      cases feed_pair text s t with
      | same hstep hwrites hdiagnostic =>
          have hwrites' : s.feedWrites (Setting.aborting text).policy t
              = s.feedWrites (Setting.recovering text).policy t := hwrites
          rw [hstep, hwrites']
          -- There is still no complaint, so the induction goes on from the
          -- same state.
          cases hnext : feed (.recovering text) s t with
          | error failure => exact .same rfl rfl (fun p hp => by cases hp)
          | ok next =>
              simp only [ok_bind]
              cases ih ((hdiagnostic next hnext).trans hs) hordered with
              | same hrun hrest hnone => exact .same hrun (by rw [hrest]) hnone
              | parted d env habort hkind hrest hsome hlater =>
                  exact .parted d env habort hkind ((List.prefix_append_right_inj _).mpr hrest)
                    hsome hlater
      | parted expected env habort hwrites hok herror =>
          rw [habort]
          -- The run that aborts is over. The other one keeps the complaint,
          -- whatever else it does.
          refine .parted _ env rfl (complaint_ne_trailingInput _ expected t) ?_ ?_ ?_
          · rw [List.append_nil]
            exact hwrites.trans (List.prefix_append _ _)
          · intro p hp
            obtain ⟨next, hnext, hrest⟩ := bind_eq_ok hp
            refine diagnostic_of_run rfl ?_ hrest
            rw [(hok next hnext).1, hs]
            rfl
          · intro failure hfailure
            rw [Setting.complaint_offset]
            rcases bind_eq_error hfailure with hnext | ⟨next, hnext, hrest⟩
            · exact Nat.le_of_eq (herror failure hnext).offset.symm
            · refine later_error rfl tokens ?_ hbehind hrest
              -- A step that complains leaves no name open, so nothing
              -- before it can fail later.
              intro name offset hname
              exact absurd hname ((hok next hnext).2 name offset)

end Runs

end State

end DeskCalculator
