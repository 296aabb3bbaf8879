import DeskCalculator.Proofs.Run.Repair
import DeskCalculator.Proofs.Tokens.Join

/-!
# `DeskCalculator.Proofs.Run.Unclosed`: parentheses that are left open at the end of a text

A text with some closing parentheses put behind it has the tokens of the
text and those parentheses (`Cursor.tokens_closers`). If a run that aborts
accepts all of them, it has read the text without a complaint, as a run that
recovers would have (`feedAll_of_abort`), and as many parentheses were open
then as there are behind the text (`run_closers_eq_ok`). The run that
recovers closes them itself, with a complaint about the end of the text:
`evaluate_unclosed`.

The hypothesis of `evaluate_unclosed` is about the text with the
parentheses, so everything has to be found out by inversion: from a run that
succeeds, that the parenthesis stands behind an operand, that a group is
open there, and so on. At least one parenthesis is asked for, since without
one there is nothing to complain about.

`Proofs.Run.Repair` has the same for whole runs in the other direction:
there the run that recovers is given, and the edits are found.
-/

set_option autoImplicit false

namespace DeskCalculator

open Text (byteLength)

/-! ### The tokens -/

/-- Closing parentheses behind a text are tokens behind those of the text.
Induction on how many there are: in front of the first one the text ends as
before, whatever it ends with. -/
theorem Cursor.tokens_closers (count : Nat) (c : Cursor) :
    ∃ closers, closers.length = count ∧ (∀ t ∈ closers, t.content = .bare .closeParen) ∧
      (Cursor.mk (c.rest ++ .replicate count ')') c.offset).tokens = c.tokens ++ closers := by
  induction count generalizing c with
  | zero => exact ⟨[], rfl, fun _ ht => absurd ht List.not_mem_nil, by simp⟩
  | succ count ih =>
      -- Behind the first one there is nothing but parentheses.
      obtain ⟨closers, hlength, hclosers, htokens⟩ := ih ⟨[], c.stop + 1⟩
      have hnone : (Cursor.mk [] (c.stop + 1)).tokens = [] := rfl
      rw [List.nil_append, hnone, List.nil_append] at htokens
      refine ⟨.bare .closeParen ⟨c.stop, c.stop + 1⟩ :: closers, by simp [hlength], ?_, ?_⟩
      · intro t ht
        rcases List.mem_cons.mp ht with rfl | ht
        · rfl
        · exact hclosers t ht
      · have hmark := c.tokens_mark Lexeme.alone_closeParen (.replicate count ')')
        rw [show ')'.utf8Size = 1 from rfl, htokens] at hmark
        rw [List.replicate_succ, hmark]

namespace State

/-! ### Steps that abort

A text that is accepted by a run that aborts is accepted by every run, and
without a complaint. -/

section Abort

variable {setting : Setting} {s s' : State} {t : Token}

/-- A run that aborts accepts no unknown token after an operand, inside
parentheses or outside. -/
theorem feedOperator_abort_ne_ok (hp : setting.policy = .abort) (hkind : t.kind = .unknown)
    (x : Number) : s.feedOperator setting x t ≠ .ok s' := by
  have hcontent := Token.content_of_kind hkind (by decide) (by decide)
  intro h
  cases he : s.enclosing with
  | nil =>
      rw [feedOperator_outside he x (.inr (.inl hcontent))] at h
      cases h
  | cons waiting enclosing =>
      rw [feedOperator_unknown he hcontent, complain_abort hp] at h
      cases h

/-- What a run that aborts accepts, every run accepts, and without a
complaint. One case for each case of the step. -/
theorem feed_of_abort (hp : setting.policy = .abort) (h : feed setting s t = .ok s')
    (setting' : Setting) : feed setting' s t = .ok s' ∧ s'.diagnostic = s.diagnostic := by
  cases s.feed_cases t with
  | operand y focus value result =>
      obtain rfl := Except.ok.inj ((result setting).symm.trans h)
      exact ⟨result setting', rfl⟩
  | name name focus content allowed result =>
      obtain rfl := Except.ok.inj ((result setting).symm.trans h)
      exact ⟨result setting', rfl⟩
  | openGroup focus content result =>
      obtain rfl := Except.ok.inj ((result setting).symm.trans h)
      exact ⟨result setting', rfl⟩
  | sign focus content allowed result =>
      obtain rfl := Except.ok.inj ((result setting).symm.trans h)
      exact ⟨result setting', rfl⟩
  | target name offset focus kind result =>
      obtain rfl := Except.ok.inj ((result setting).symm.trans h)
      exact ⟨result setting', rfl⟩
  | follow x ready unassigned result =>
      rw [result] at h ⊢
      have hkind : t.kind ≠ .unknown := fun hkind => feedOperator_abort_ne_ok hp hkind x h
      exact feedOperator_ok hkind h setting'
  | missing kind focus content other unsigned result =>
      rw [result, feedMissing, complain_abort hp] at h
      cases h
  | unbound name focus content unbound result => cases (result setting).symm.trans h
  | unboundName name offset focus kind unbound result => cases (result setting).symm.trans h

/-- So it is for all tokens, one after the other. Induction on them, for
every state; what the state needs is that nothing was complained about. -/
theorem feedAll_of_abort (hp : setting.policy = .abort) (setting' : Setting) (tokens : List Token) :
    ∀ {s s' : State}, feedAll setting s tokens = .ok s' →
      feedAll setting' s tokens = .ok s' ∧ s'.diagnostic = s.diagnostic := by
  induction tokens with
  | nil =>
      intro s s' h
      obtain rfl := Except.ok.inj h
      exact ⟨rfl, rfl⟩
  | cons t tokens ih =>
      intro s s' h
      rw [feedAll_cons] at h ⊢
      obtain ⟨next, hstep, hrest⟩ := bind_eq_ok h
      obtain ⟨hstep', hdiagnostic⟩ := feed_of_abort hp hstep setting'
      obtain ⟨hrest', hdiagnostic'⟩ := ih hrest
      rw [hstep', ok_bind]
      exact ⟨hrest', hdiagnostic'.trans hdiagnostic⟩

/-- A closing parenthesis that a run that aborts accepts stands behind an
operand, and closes the innermost group. In all other cases of the step it
would fail, or the token would be another one. -/
theorem feed_closeParen_eq_ok (hp : setting.policy = .abort)
    (hcontent : t.content = .bare .closeParen) (h : feed setting s t = .ok s') :
    ∃ x waiting enclosing, s.Ready x ∧ s.enclosing = waiting :: enclosing ∧
      s' = s.leaveGroup x := by
  cases s.feed_cases t with
  | operand y focus value result =>
      cases value with
      | number content => cases hcontent.symm.trans content
      | bound content bound => cases hcontent.symm.trans content
  | name name focus content allowed result => cases hcontent.symm.trans content
  | unbound name focus content unbound result => cases hcontent.symm.trans content
  | openGroup focus content result => cases hcontent.symm.trans content
  | sign focus content allowed result => cases hcontent.symm.trans content
  | target name offset focus kind result =>
      rw [Token.kind, hcontent] at kind
      cases kind
  | unboundName name offset focus kind unbound result => cases (result setting).symm.trans h
  | missing kind focus content other unsigned result =>
      rw [result, feedMissing, complain_abort hp] at h
      cases h
  | follow x ready unassigned result =>
      rw [result] at h
      cases he : s.enclosing with
      | nil =>
          rw [feedOperator_outside he x (.inl hcontent)] at h
          cases h
      | cons waiting enclosing =>
          have hstep : feed setting s _ = _ := feed_closeParen ready he t.toSpan
          rw [← Token.eq_bare hcontent, result] at hstep
          exact ⟨x, waiting, enclosing, ready, rfl, Except.ok.inj (h.symm.trans hstep)⟩

end Abort

/-! ### The end of the text

Closing parentheses in front of the end do what the end does by itself where
they are missing. -/

/-- The end of a text is accepted by a run that aborts only outside
parentheses and behind an operand. -/
theorem ending_eq_ok {setting : Setting} (hp : setting.policy = .abort) {stop : Nat} {s : State}
    {p : Evaluation × Environment} (h : s.ending setting stop = .ok p) :
    ∃ x, s.Ready x ∧ s.enclosing = [] ∧ p = (⟨(s.closed x).1, s.diagnostic⟩, (s.closed x).2) := by
  cases s.ending_cases with
  | missing focus =>
      rw [ending_of_operand focus, complain_abort hp] at h
      cases h
  | unboundName name offset focus unbound =>
      rw [ending_of_unbound focus unbound] at h
      cases h
  | ready x ready =>
      rw [ending_of_ready ready] at h
      cases he : s.enclosing with
      | nil =>
          rw [endingWith_outside he] at h
          refine ⟨x, ready, rfl, (Except.ok.inj h).symm.trans ?_⟩
          rw [closed, he]
          rfl
      | cons waiting enclosing =>
          rw [endingWith_inside he, complain_abort hp] at h
          cases h

/-- A run that aborts accepts closing parentheses and the end behind them
only where as many are open, and ends with everything ended. Induction on
the parentheses, from the inside out. -/
theorem run_closers_eq_ok {setting : Setting} (hp : setting.policy = .abort) {stop : Nat}
    (closers : List Token) (hclosers : ∀ t ∈ closers, t.content = .bare .closeParen) :
    ∀ {s : State} {p : Evaluation × Environment}, run setting stop s closers = .ok p →
      ∃ x, s.Ready x ∧ s.enclosing.length = closers.length ∧
        p = (⟨(s.closed x).1, s.diagnostic⟩, (s.closed x).2) := by
  induction closers with
  | nil =>
      intro s p h
      obtain ⟨x, hready, he, hvalue⟩ := ending_eq_ok hp h
      exact ⟨x, hready, by rw [he]; rfl, hvalue⟩
  | cons t closers ih =>
      intro s p h
      rw [run_cons] at h
      obtain ⟨next, hstep, hrest⟩ := bind_eq_ok h
      obtain ⟨x, waiting, enclosing, hready, he, rfl⟩ :=
        feed_closeParen_eq_ok hp (hclosers t List.mem_cons_self) hstep
      obtain ⟨y, hready', hlength, hvalue⟩ :=
        ih (fun u hu => hclosers u (List.mem_cons_of_mem _ hu)) hrest
      -- The group that was closed is the operand in front of the next
      -- parenthesis.
      have hfocus : (s.leaveGroup x).focus = .value (s.endStatement x).1 := closeGroup_focus _ _
      obtain rfl : (s.endStatement x).1 = y := by
        cases hready' with
        | value hvalue => exact Focus.value.inj (hfocus.symm.trans hvalue)
        | name hname => cases hfocus.symm.trans hname
      have hended : (s.endStatement x).2.enclosing = waiting :: enclosing := he
      have hinner : (s.leaveGroup x).enclosing = enclosing := by rw [leaveGroup, closeGroup, hended]
      have hdiagnostic : (s.leaveGroup x).diagnostic = s.diagnostic := closeGroup_diagnostic _ _
      refine ⟨x, hready, ?_, ?_⟩
      · rw [he, List.length_cons, List.length_cons, ← hlength, hinner]
      · rw [hvalue, closed_leaveGroup he, hdiagnostic]

end State

/-- Recovery closes the parentheses that are left open. If a text is
accepted with some closing parentheses put behind it, then a run that
recovers gives the text without them the same value and leaves the same
variables. It complains about the first one, in the place of which the text
ends. -/
theorem evaluate_unclosed (text : String) {count : Nat} (hcount : 1 ≤ count) (env : Environment)
    {evaluation : Evaluation} {final : Environment}
    (h : evaluate .abort (text ++ String.ofList (.replicate count ')')) env
      = { result := .ok evaluation, environment := final }) :
    evaluate .substituteNan text env
      = { result := .ok ⟨evaluation.value,
            some (.unexpectedToken [.closeParen] .endOfInput text.utf8ByteSize)⟩
          environment := final } := by
  obtain ⟨closers, hlength, hclosers, htokens⟩ := (Cursor.ofText text).tokens_closers count
  have hjoin : (Cursor.ofText (text ++ String.ofList (.replicate count ')'))).tokens
      = (Cursor.ofText text).tokens ++ closers := by
    rw [← htokens]
    simp [Cursor.ofText]
  rw [evaluate, evaluateTokens_eq, hjoin, State.run_append] at h
  obtain ⟨final', hrun⟩ := Outcome.ofRun_ok (congrArg Outcome.result h)
  rw [hrun] at h
  cases h
  obtain ⟨s, hread, hclose⟩ := bind_eq_ok hrun
  obtain ⟨x, hready, hopen, hvalue⟩ := State.run_closers_eq_ok rfl closers hclosers hclose
  cases hvalue
  -- The run that recovers is in the same state at the end of the text, and
  -- has not complained.
  obtain ⟨hread', hdiagnostic⟩ := State.feedAll_of_abort rfl (.recovering text.toList) _ hread
  have henclosing : s.enclosing ≠ [] := by
    rintro he
    rw [he, hlength] at hopen
    exact absurd (hopen ▸ hcount) (by decide)
  rw [evaluate, evaluateTokens_eq, ← Setting.recovering, State.run, hread', ok_bind,
    State.ending_of_ready hready, State.endingWith_closed rfl, if_neg henclosing, hdiagnostic,
    Text.byteLength_toList]
  rfl

/-- Two parentheses are left open, each with an assignment before it. -/
theorem evaluate_unclosed_instance :
    evaluate .substituteNan "a = 2 (b = 3; b (c = 4; b c" .empty
      = { result := .ok ⟨.ofBits 0x4052000000000000,
            some (.unexpectedToken [.closeParen] .endOfInput 27)⟩
          environment := .ofList
            [("a", .ofBits 0x4052000000000000), ("b", .ofBits 0x4008000000000000),
              ("c", .ofBits 0x4010000000000000)] } :=
  @evaluate_unclosed "a = 2 (b = 3; b (c = 4; b c" 2 (by decide) .empty
    ⟨.ofBits 0x4052000000000000, none⟩ _ (by decide +kernel)

end DeskCalculator
