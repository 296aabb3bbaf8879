import DeskCalculator.Proofs.Run.Missing
import DeskCalculator.Proofs.Run.Policies
import Mathlib.Control.Monad.Basic

/-!
# `DeskCalculator.Proofs.Run.Repair`: what a run that recovers evaluates

A run that goes on after complaints evaluates a text that was never written:
the one with numbers that are none in the place of missing operands, and
with the parentheses closed that are not. This module writes it down.

* `Repaired`: tokens obtained from others by the four edits, with the places
  of the edits.
* `feed_repaired`, `ending_repaired`: a step that recovers, and the end of a
  text, are steps of a run that aborts, over tokens edited at that one
  token.
* `run_repaired`: so is a whole run. `evaluate_repaired` says it of a text.

The complaint that is kept is about the first edit, since later ones find it
there already (`run_withEarlier`).

The edits are made token by token, each where its step complains, and
`Mends` says what an edit of one token is when nothing is known of those
behind it. A step has at most one complaint worth an edit: where an operand
is missing and the token is then accepted behind the number, the second part
of the step cannot complain (`feedOperator_ok`).

Only runs that succeed are repaired. A run that recovers may still fail,
because of a variable or of what is left over, and then there is no text to
write down.
-/

set_option autoImplicit false

namespace DeskCalculator

open Text (byteLength)

/-! ### Edits

What may be done to a row of tokens: a character that starts none is
replaced, or a token is put in front of another one. `Repaired` has the
places of the edits, in order. -/

/-- The second list comes from the first one by edits, at tokens that start
at the given places, from left to right. The number that is none is put
before a token, or in the place of a character that starts none. A closing
parenthesis is put before the mark at the end, or in the place of such a
character.

Every edit has its place in the list, so there are no edits where the list
is empty, and the first edit is at its head. -/
inductive Repaired : List Token → List Token → List Nat → Prop where
  | nil : Repaired [] [] []
  | keep (t : Token) {tokens repaired : List Token} {places : List Nat} :
      Repaired tokens repaired places → Repaired (t :: tokens) (t :: repaired) places
  | insertNumber (t : Token) {tokens repaired : List Token} {places : List Nat} :
      t.kind ≠ .unknown → Repaired (t :: tokens) repaired places →
        Repaired (t :: tokens) (.number .nan ⟨t.start, t.start⟩ :: repaired) (t.start :: places)
  | replaceByNumber (t : Token) {tokens repaired : List Token} {places : List Nat} :
      t.kind = .unknown → Repaired tokens repaired places →
        Repaired (t :: tokens) (.number .nan t.toSpan :: repaired) (t.start :: places)
  | insertClosing (t : Token) {tokens repaired : List Token} {places : List Nat} :
      t.kind = .endOfInput → Repaired (t :: tokens) repaired places →
        Repaired (t :: tokens) (.bare .closeParen ⟨t.start, t.start⟩ :: repaired)
          (t.start :: places)
  | replaceByClosing (t : Token) {tokens repaired : List Token} {places : List Nat} :
      t.kind = .unknown → Repaired tokens repaired places →
        Repaired (t :: tokens) (.bare .closeParen t.toSpan :: repaired) (t.start :: places)

/-- Edits turn the token `t` alone into the tokens `rs`, none of which is
unknown, whatever follows. The edits of a run are put together from
these. -/
structure Mends (t : Token) (rs : List Token) (places : List Nat) : Prop where
  repaired : ∀ {tokens repaired : List Token} {places' : List Nat},
    Repaired tokens repaired places' →
      Repaired (t :: tokens) (rs ++ repaired) (places ++ places')
  known : ∀ r ∈ rs, r.kind ≠ .unknown

/-- A token that is kept. Unknown characters never are, since the run that
aborts accepts none. -/
theorem mends_keep {t : Token} (h : t.kind ≠ .unknown) : Mends t [t] [] where
  repaired := .keep t
  known := by simpa using h

namespace State

/-- The state without a complaint. The run that aborts has none, so this is
its state. -/
def forget (s : State) : State := { s with diagnostic := none }

/-- A state is the one without a complaint, with its complaint. Splits what
a step did from what it complained about. -/
theorem withEarlier_forget (s : State) : s.forget.withEarlier s.diagnostic = s := by
  rw [withEarlier, forget, Option.or_none]

/-- Without a complaint there is nothing to forget. Used where the step of
the recovering run has complained for the first time. -/
theorem forget_of_none {s : State} (h : s.diagnostic = none) : s.forget = s := by
  rw [forget, ← h]

/-! ### One step

Each case in which a run that recovers puts up with something is one edit,
and the run that aborts takes as many steps as there are tokens in its
place. -/

section Steps

variable {text : List Char} {s s' : State} {t : Token}

/-- A token after an operand that is accepted, and not as an unknown one, is
so under every setting, and without a complaint. -/
theorem feedOperator_ok {setting : Setting} {x : Number} (hkind : t.kind ≠ .unknown)
    (h : s.feedOperator setting x t = .ok s') (setting' : Setting) :
    s.feedOperator setting' x t = .ok s' ∧ s'.diagnostic = s.diagnostic := by
  cases s.feedOperator_cases x t with
  | factor y value result =>
      obtain rfl := Except.ok.inj ((result setting).symm.trans h)
      exact ⟨result setting', rfl⟩
  | openGroup content result =>
      obtain rfl := Except.ok.inj ((result setting).symm.trans h)
      exact ⟨result setting', rfl⟩
  | operator kind statement content waits result =>
      obtain rfl := Except.ok.inj ((result setting).symm.trans h)
      exact ⟨result setting', rfl⟩
  | semicolon content result =>
      obtain rfl := Except.ok.inj ((result setting).symm.trans h)
      exact ⟨result setting', rfl⟩
  | closeGroup waiting enclosing content inside result =>
      obtain rfl := Except.ok.inj ((result setting).symm.trans h)
      exact ⟨result setting', closeGroup_diagnostic _ _⟩
  | skip waiting enclosing content inside result =>
      exact absurd (by rw [Token.kind, content]; rfl) hkind
  | stop kind content stops result =>
      rw [result] at h
      exact absurd h (s.endAll_fail_ne_ok setting x t _ s')
  | unbound name content unbound result => cases (result setting).symm.trans h
  | leftover content outside result => cases (result setting).symm.trans h

/-- An unknown token after an operand is accepted where a parenthesis is
open, with a complaint. Outside of parentheses it is left over, under either
policy. -/
theorem feedOperator_unknown_ok {setting : Setting} (hp : setting.policy = .substituteNan)
    {x : Number} (hkind : t.kind = .unknown) (h : s.feedOperator setting x t = .ok s') :
    ∃ waiting enclosing, s.enclosing = waiting :: enclosing ∧
      s' = ((s.endStatement x).2.note (setting.complaint [.closeParen] t)).closeGroup
        (s.endStatement x).1 := by
  have hcontent := Token.content_of_kind hkind (by decide) (by decide)
  simp only [feedOperator, hcontent] at h
  cases he : s.enclosing with
  | nil =>
      rw [show (s.endStatement x).2.enclosing = [] from he] at h
      cases h
  | cons waiting enclosing =>
      rw [show (s.endStatement x).2.enclosing = waiting :: enclosing from he,
        complain_substituteNan hp] at h
      exact ⟨waiting, enclosing, rfl, (Except.ok.inj h).symm⟩

/-- A number in the place of an operand leads to where its value is known.
The number may have any value; it is NaN for those that are put in. -/
theorem feedAll_number {setting : Setting} (hf : s.focus = .operand) (x : Number) (span : Span)
    (ts : List Token) :
    feedAll setting s (.number x span :: ts) = feedAll setting (s.take x) ts := by
  rw [feedAll_cons, feed_number hf, ok_bind]

variable (text s t) in
/-- A step over the token `t` that recovers and leads to `s'` is some steps
that abort, over the token with its edits. The complaint of the step is
about the first of them. -/
def StepRepaired (s' : State) : Prop :=
  ∃ rs places, Mends t rs places ∧ feedAll (.aborting text) s rs = .ok s'.forget ∧
    s'.diagnostic.map Diagnostic.offset = places.head?

/-- A token that both runs accept without a complaint is kept. This covers
all steps but those that complain. -/
theorem stepRepaired_kept (hs : s.diagnostic = none) (hkind : t.kind ≠ .unknown)
    (h : feed (.aborting text) s t = .ok s') (hdiagnostic : s'.diagnostic = s.diagnostic) :
    StepRepaired text s t s' := by
  have hnone : s'.diagnostic = none := hdiagnostic.trans hs
  refine ⟨[t], [], mends_keep hkind, ?_, by rw [hnone]; rfl⟩
  rw [feedAll_cons, h, ok_bind, feedAll_nil, forget_of_none hnone]

/-- A character that starts no token, where a parenthesis closes, is
replaced by one. The step of the run that aborts is then the closing of the
group. -/
theorem stepRepaired_closing (hs : s.diagnostic = none) (hkind : t.kind = .unknown) {x : Number}
    (hready : s.Ready x) {waiting : Statement} {enclosing : List Statement}
    (he : s.enclosing = waiting :: enclosing) :
    StepRepaired text s t
      (((s.endStatement x).2.note ((Setting.recovering text).complaint [.closeParen] t)).closeGroup
        (s.endStatement x).1) := by
  refine ⟨[.bare .closeParen t.toSpan], [t.start],
    ⟨.replaceByClosing t hkind, by simp [Token.kind, Token.bare, Content.kind]⟩, ?_, ?_⟩
  · rw [feedAll_cons, feed_closeParen hready he, ok_bind, feedAll_nil]
    simp [closeGroup, forget, note, endStatement, he, hs]
  · rw [closeGroup_diagnostic]
    show (s.diagnostic.or _).map _ = _
    rw [hs]
    exact congrArg some (Setting.complaint_offset _ _ _)

/-- A character that starts no token, where an operand is missing, is
replaced by a number. One token takes the place of one. -/
theorem stepRepaired_number (hs : s.diagnostic = none) (hkind : t.kind = .unknown)
    (hf : s.focus = .operand) (expected : List Kind) :
    StepRepaired text s t
      ((s.withEarlier (some ((Setting.recovering text).complaint expected t))).take .nan) := by
  refine ⟨[.number .nan t.toSpan], [t.start],
    ⟨.replaceByNumber t hkind, by simp [Token.kind, Token.number, Content.kind]⟩, ?_, ?_⟩
  · rw [feedAll_number hf, feedAll_nil]
    simp [take, forget, withEarlier, hs]
  · exact congrArg some (Setting.complaint_offset _ _ _)

/-- A number is inserted before a token that stands where an operand is
missing, and accepted behind one. The token itself is kept. -/
theorem stepRepaired_inserted (hs : s.diagnostic = none) (hkind : t.kind ≠ .unknown)
    (hf : s.focus = .operand) {next : State}
    (h : s.feedOperator (.recovering text) .nan t = .ok next) (expected : List Kind) :
    StepRepaired text s t
      (next.withEarlier (some ((Setting.recovering text).complaint expected t))) := by
  obtain ⟨habort, hdiagnostic⟩ := feedOperator_ok hkind h (.aborting text)
  refine ⟨[.number .nan ⟨t.start, t.start⟩, t], [t.start],
    ⟨fun hrest => .insertNumber t hkind (.keep t hrest), ?_⟩, ?_, ?_⟩
  · simpa [Token.kind, Token.number, Content.kind] using hkind
  · rw [feedAll_number hf, feedAll_cons]
    show (s.take .nan).feedOperator _ _ _ >>= _ = _
    rw [feedOperator_take, habort, ok_bind, feedAll_nil]
    exact congrArg Except.ok (forget_of_none (hdiagnostic.trans hs)).symm
  · exact congrArg some (Setting.complaint_offset _ _ _)

/-- A step that recovers is some steps that abort, over the token with its
edits. Cases of the step: most are the same under both policies, and their
token is kept; the complaints are in the last two. -/
theorem feed_repaired (hs : s.diagnostic = none) (h : feed (.recovering text) s t = .ok s') :
    StepRepaired text s t s' := by
  cases s.feed_cases t with
  | operand y focus value result =>
      obtain rfl := Except.ok.inj ((result _).symm.trans h)
      exact stepRepaired_kept hs (by cases value <;> simp [Token.kind, Content.kind, *]) (result _)
        rfl
  | name name focus content allowed result =>
      obtain rfl := Except.ok.inj ((result _).symm.trans h)
      exact stepRepaired_kept hs (by simp [Token.kind, content, Content.kind]) (result _) rfl
  | openGroup focus content result =>
      obtain rfl := Except.ok.inj ((result _).symm.trans h)
      exact stepRepaired_kept hs (by simp [Token.kind, content, Content.kind]) (result _) rfl
  | sign focus content allowed result =>
      obtain rfl := Except.ok.inj ((result _).symm.trans h)
      exact stepRepaired_kept hs (by simp [Token.kind, content, Content.kind]) (result _) rfl
  | target name offset focus kind result =>
      obtain rfl := Except.ok.inj ((result _).symm.trans h)
      exact stepRepaired_kept hs (by simp [kind]) (result _) rfl
  | unbound name focus content unbound result => cases (result _).symm.trans h
  | unboundName name offset focus kind unbound result => cases (result _).symm.trans h
  | follow x ready unassigned result =>
      rw [result] at h
      -- An unknown character closes a group here, if it is accepted.
      by_cases hkind : t.kind = .unknown
      · obtain ⟨waiting, enclosing, he, rfl⟩ := feedOperator_unknown_ok rfl hkind h
        exact stepRepaired_closing hs hkind ready he
      · obtain ⟨habort, hdiagnostic⟩ := feedOperator_ok hkind h (.aborting text)
        exact stepRepaired_kept hs hkind ((result _).trans habort) hdiagnostic
  | missing kind focus content other unsigned result =>
      rw [result, feedMissing, complain_substituteNan rfl, ok_bind] at h
      -- The complaint is the first one, so it can be put behind what the
      -- token does without it.
      have hnote : s.note ((Setting.recovering text).complaint Kind.factorStarts t)
          = s.withEarlier (some ((Setting.recovering text).complaint Kind.factorStarts t)) := by
        rw [note, withEarlier, hs]
        rfl
      rw [hnote] at h
      by_cases hkind : t.kind = .unknown
      · rw [if_pos hkind] at h
        obtain rfl := Except.ok.inj h
        exact stepRepaired_number hs hkind focus _
      · rw [if_neg hkind, feedOperator_withEarlier rfl] at h
        obtain ⟨next, hstep, hnext⟩ := bind_eq_ok h
        obtain rfl := Except.ok.inj hnext
        exact stepRepaired_inserted hs hkind focus hstep _

end Steps

/-! ### The end of the text

At the end a number may be missing, and then parentheses. They are put in
front of the mark. -/

/-- A closing parenthesis before the mark at the end. It covers no
character. -/
def closer (stop : Nat) : Token := .bare .closeParen ⟨stop, stop⟩

section Ending

variable {text : List Char} {stop : Nat} {s : State}

/-- With a closing parenthesis for each open one, a text ends as if all its
statements ended. Induction on the open parentheses, from the inside out. -/
theorem run_closers (setting : Setting) (stop : Nat) {x : Number} (h : s.Ready x) :
    run setting stop s (.replicate s.enclosing.length (closer stop))
      = .ok (⟨(s.closed x).1, s.diagnostic⟩, (s.closed x).2) := by
  induction he : s.enclosing generalizing s x with
  | nil =>
      rw [List.length_nil, List.replicate_zero, run_nil, ending_of_ready h, endingWith_outside he,
        closed, he]
      rfl
  | cons waiting enclosing ih =>
      have hgroup : (s.endStatement x).2.closeGroup (s.endStatement x).1
          = { (s.endStatement x).2 with
              enclosing, statement := waiting, focus := .value (s.endStatement x).1 } := by
        rw [closeGroup, show (s.endStatement x).2.enclosing = waiting :: enclosing from he]
      rw [List.length_cons, List.replicate_succ, run_cons, closer, feed_closeParen h he, ok_bind,
        hgroup]
      -- The group is an operand of the statement around it, and one
      -- parenthesis less is open.
      have hrest := ih (s := { (s.endStatement x).2 with
        enclosing, statement := waiting, focus := .value (s.endStatement x).1 }) (.value rfl) rfl
      rw [← closer, hrest, closed, closed, he]
      rfl

/-- How a run that recovers ends behind an operand: as if all its statements
ended, and with a complaint about the first parenthesis that is missing, if
one is. -/
theorem endingWith_recovering (setting : Setting) (hp : setting.policy = .substituteNan)
    (s : State) (stop : Nat) (x : Number) :
    ∃ d : Option Diagnostic,
      s.endingWith setting stop x = .ok (⟨(s.closed x).1, s.diagnostic.or d⟩, (s.closed x).2) ∧
        d.map Diagnostic.offset = (List.replicate s.enclosing.length stop).head? := by
  cases he : s.enclosing with
  | nil =>
      refine ⟨none, ?_, rfl⟩
      rw [endingWith_outside he, closed, he, Option.or_none]
      rfl
  | cons waiting enclosing =>
      refine ⟨some (setting.complaint [.closeParen] (.endOfInput stop)), ?_, ?_⟩
      · rw [endingWith_inside he, complain_substituteNan hp, closed, he]
        rfl
      · exact congrArg some (setting.complaint_offset _ _)

/-- Closing parentheses before the mark are edits, one for each. All of them
are at the same place, the end of the text. -/
theorem repaired_closers (count stop : Nat) :
    Repaired [Token.endOfInput stop]
      (.replicate count (closer stop) ++ [Token.endOfInput stop]) (.replicate count stop) := by
  induction count with
  | zero => exact .keep _ .nil
  | succ count ih => exact .insertClosing _ rfl ih

/-- No closing parenthesis is unknown. So the edited tokens have no unknown
one among them, the ones at the end included. -/
theorem closers_known (count stop : Nat) :
    ∀ r ∈ List.replicate count (closer stop), r.kind ≠ .unknown := by
  intro r hr
  obtain rfl := List.eq_of_mem_replicate hr
  intro h
  cases h

/-- The end of a text that recovers is the end of a text that aborts, with
some tokens before the mark: a number, if an operand is missing, and a
closing parenthesis for each that is open. -/
theorem ending_repaired (hs : s.diagnostic = none) {v : Number} {d : Option Diagnostic}
    {env : Environment} (h : s.ending (.recovering text) stop = .ok (⟨v, d⟩, env)) :
    ∃ rs places, Repaired [Token.endOfInput stop] (rs ++ [Token.endOfInput stop]) places ∧
      (∀ r ∈ rs, r.kind ≠ .unknown) ∧ run (.aborting text) stop s rs = .ok (⟨v, none⟩, env) ∧
      d.map Diagnostic.offset = places.head? := by
  cases s.ending_cases with
  | unboundName name offset focus unbound =>
      rw [ending_of_unbound focus unbound] at h
      cases h
  | ready x ready =>
      obtain ⟨d', hend, hoffset⟩ :=
        endingWith_recovering (.recovering text) rfl s stop x
      rw [ending_of_ready ready, hend, hs, Option.none_or] at h
      cases h
      refine ⟨_, _, repaired_closers s.enclosing.length stop, closers_known _ _, ?_, hoffset⟩
      rw [run_closers _ _ ready, hs]
  | missing focus =>
      rw [ending_of_operand focus, complain_substituteNan rfl, ok_bind] at h
      obtain ⟨d', hend, -⟩ := endingWith_recovering (.recovering text) rfl (s.note
        ((Setting.recovering text).complaint Kind.factorStarts (.endOfInput stop))) stop .nan
      rw [hend] at h
      cases h
      -- The number comes first, so the complaint that is kept is about its
      -- place.
      have hedits := Repaired.insertNumber (.endOfInput stop) (fun h => by cases h)
        (repaired_closers s.enclosing.length stop)
      refine ⟨.number .nan ⟨stop, stop⟩ :: .replicate s.enclosing.length (closer stop), _, hedits,
        ?_, ?_, ?_⟩
      · intro r hr
        rcases List.mem_cons.mp hr with rfl | hr
        · intro h
          cases h
        · exact closers_known _ _ r hr
      · rw [run_cons, feed_number focus, ok_bind]
        have hrun := run_closers (.aborting text) stop (s := s.take .nan) (.value rfl)
        rw [show (s.take .nan).diagnostic = none from hs] at hrun
        exact hrun
      · rw [note, hs]
        exact congrArg some (Setting.complaint_offset _ _ _)

end Ending

/-! ### Whole runs

The edits of the steps one after the other, and then those of the end. The
complaint that is kept is about the first of them. -/

/-- A run that recovers is a run that aborts, over edited tokens. Induction
over the tokens: what is left to do after a step does not depend on the
complaint that the step made. -/
theorem run_repaired {text : List Char} {stop : Nat} (tokens : List Token) :
    ∀ {s : State} {v : Number} {d : Option Diagnostic} {env : Environment}, s.diagnostic = none →
      run (.recovering text) stop s tokens = .ok (⟨v, d⟩, env) →
        ∃ repaired places,
          Repaired (tokens ++ [Token.endOfInput stop]) (repaired ++ [Token.endOfInput stop])
              places ∧
            (∀ r ∈ repaired, r.kind ≠ .unknown) ∧
            run (.aborting text) stop s repaired = .ok (⟨v, none⟩, env) ∧
            d.map Diagnostic.offset = places.head? := by
  induction tokens with
  | nil => intro s v d env hs h; exact ending_repaired hs h
  | cons t tokens ih =>
      intro s v d env hs h
      rw [run_cons] at h
      obtain ⟨next, hstep, hnext⟩ := bind_eq_ok h
      obtain ⟨rs, places, hmends, habort, hoffset⟩ := feed_repaired hs hstep
      -- The rest is repaired as it is without the complaint, which then
      -- comes in front.
      rw [← withEarlier_forget next, run_withEarlier rfl] at hnext
      obtain ⟨⟨⟨v', d'⟩, env'⟩, hrest, hkept⟩ := bind_eq_ok hnext
      cases hkept
      obtain ⟨repaired, places', hrepaired, hknown, hrun, hoffset'⟩ := ih rfl hrest
      refine ⟨rs ++ repaired, places ++ places', ?_, ?_, ?_, ?_⟩
      · simpa using hmends.repaired hrepaired
      · intro r hr
        rcases List.mem_append.mp hr with hr | hr
        · exact hmends.known r hr
        · exact hknown r hr
      · rw [run_append, habort, ok_bind, hrun]
      · rw [List.head?_append, ← hoffset, ← hoffset', Option.map_or]

end State

/-- Where a run that recovers gives a value, a run that aborts gives the
same value and leaves the same variables, over the tokens of the text after
some edits and without a character that starts no token. The complaint that
is kept is about the place of the first edit; there is none if there is no
edit. -/
theorem evaluate_repaired (text : String) (env : Environment) {v : Number} {d : Option Diagnostic}
    {env' : Environment}
    (h : evaluate .substituteNan text env = { result := .ok ⟨v, d⟩, environment := env' }) :
    ∃ repaired places,
      Repaired (tokenize text) (repaired ++ [Token.endOfInput (byteLength text.toList)]) places ∧
        (∀ r ∈ repaired, r.kind ≠ .unknown) ∧
        evaluateTokens (.aborting text.toList) env repaired (byteLength text.toList)
          = { result := .ok ⟨v, none⟩, environment := env' } ∧
        d.map Diagnostic.offset = places.head? := by
  have houtcome : evaluate .substituteNan text env = .ofRun (State.run (.recovering text.toList)
      (byteLength text.toList) { environment := env } (Cursor.ofText text).tokens) :=
    evaluateTokens_eq _ _ _ _
  rw [houtcome] at h
  obtain ⟨env'', hrun⟩ := Outcome.ofRun_ok (congrArg Outcome.result h)
  rw [hrun] at h
  cases h
  obtain ⟨repaired, places, hrepaired, hknown, habort, hoffset⟩ := State.run_repaired _ rfl hrun
  refine ⟨repaired, places, hrepaired, hknown, ?_, hoffset⟩
  rw [evaluateTokens_eq, habort]
  rfl

/-- A parenthesis that is not closed before the end. -/
theorem evaluate_repaired_unclosed :
    ∃ repaired places,
      Repaired (tokenize "a = (1; 2") (repaired ++ [Token.endOfInput 9]) places ∧
        (∀ r ∈ repaired, r.kind ≠ .unknown) ∧
        evaluateTokens (.aborting "a = (1; 2".toList) .empty repaired 9
          = { result := .ok ⟨.double (Double.ofNumeral ['2']), none⟩
              environment := .ofList [("a", .double (Double.ofNumeral ['2']))] } ∧
        some 9 = places.head? :=
  evaluate_repaired _ _ (d := some (.unexpectedToken [.closeParen] .endOfInput 9))
    (by decide +kernel)

end DeskCalculator
