import DeskCalculator.Proofs.Run.Writes
import DeskCalculator.Proofs.Tokens.Stream

/-!
# `DeskCalculator.Proofs.Run.Targets`: to what a run assigns, and what

All that a step assigns, it assigns at the end of a statement behind some
operand (`mem_endAllWrites_of_feed`). So an invariant of what is assigned is
one of the statements and operands that a state holds. There are two:

* `Waits`: the names that the statements wait to assign to. A name comes
  there only from the token of an identifier with the assignment mark behind
  it, so nothing else is assigned to (`runWrites_named`,
  `evaluateWrites_assigned`).
* `Quiet`: nothing is the signalling one that is no number, unless a
  variable was to begin with. So it is never assigned (`runWrites_quiet`,
  `evaluateWrites_quiet`).

Each of them has a step lemma (`Waits.feed`, `Quiet.feed`) and a run lemma.
The first is a parameter of the theory: `named` may be any predicate, and
for a text it is taken to be `Assigned`.

That variables other than those with `=` behind them keep their values is
`Proofs.Run.Frame`, and that what is assigned can be listed and read back is
`Proofs.Calculator.ReadBack`, where a signalling value would get lost: it is
written like the quiet one.
-/

set_option autoImplicit false

namespace DeskCalculator

/-- The tokens assign to a name: there is its token, with the assignment
mark behind it. The two tokens need not be part of a sentence; what is
excluded is every other name. -/
def Assigned (tokens : List Token) (name : String) : Prop :=
  ∃ before t u after, tokens = before ++ t :: u :: after ∧ t.content = .identifier name ∧
    u.kind = .assign

/-- What some tokens assign to, they assign to behind another one. The
induction over the tokens of a run needs it to come from what is left to the
whole. -/
theorem Assigned.cons {tokens : List Token} {name : String} (h : Assigned tokens name)
    (t : Token) : Assigned (t :: tokens) name := by
  obtain ⟨before, u, v, after, rfl, hcontent, hkind⟩ := h
  exact ⟨t :: before, u, v, after, rfl, hcontent, hkind⟩

/-- An operation yields no signalling one, unless its right operand is. Only
a sequence returns an operand as it is, and where nothing waits the operand
is what is left; these two cases need the hypothesis. -/
theorem Pending.settle_ne_signalling (p : Pending) {x : Number} (h : x ≠ .signalling) :
    p.settle x ≠ .signalling := by
  rcases p with - | ⟨operator, left⟩
  · exact h
  · cases operator with
    | sequence => exact h
    -- All other operations yield a double; of a power this shows case by
    -- case.
    | pow => cases left <;> cases x <;> (intro hx; cases hx)
    | _ => intro hx; cases hx

/-- A statement has no signalling value, unless its last operand is one.
From the tightest operation that waits to the loosest. -/
theorem Statement.value_ne_signalling (s : Statement) {x : Number} (h : x ≠ .signalling) :
    s.value x ≠ .signalling := by
  have hterm : s.termValue x ≠ .signalling :=
    s.factors.settle_ne_signalling (s.power.settle_ne_signalling h)
  -- A sign leaves what is no number as it is, the signalling one too.
  have hsigned : s.signedValue x ≠ .signalling := by
    rw [signedValue]
    split
    · cases hx : s.termValue x with
      | double y => intro hneg; cases hneg
      | signalling => exact absurd hx hterm
    · exact hterm
  exact s.sum.settle_ne_signalling (s.product.settle_ne_signalling hsigned)

namespace State

/-! ### Where writes come from

Both invariants are about what a state holds, and both theorems are about
what is written. This section is the way from the one to the other, and it
is the same for both. -/

section Ends

variable {s : State} {policy : Policy} {t : Token} {w : String × Number}

/-- The end of a statement is part of the end of everything, and its first
part. -/
theorem mem_endAllWrites_of_end {x : Number} (h : w ∈ s.endWrites x) :
    w ∈ s.endAllWrites .substituteNan x := List.mem_append_left _ h

/-- A policy that goes on assigns the most. With this the rest needs no case
for the policy. -/
theorem mem_endAllWrites {x : Number} (h : w ∈ s.endAllWrites policy x) :
    w ∈ s.endAllWrites .substituteNan x := by
  cases policy with
  | substituteNan => exact h
  | abort =>
      rw [endAllWrites, List.append_nil] at h
      exact mem_endAllWrites_of_end h

/-- A token after an operand assigns at the ends behind that operand.
Whether it ends one statement, all of them or none is no matter from here
on. -/
theorem mem_endAllWrites_of_operator {x : Number} (h : w ∈ s.operatorWrites policy x t) :
    w ∈ s.endAllWrites .substituteNan x := by
  rw [operatorWrites] at h
  split at h
  · -- A number or a name is one more factor, and ends nothing.
    cases h
  · cases h
  · split at h
    · exact mem_endAllWrites_of_end h
    · split at h
      · exact mem_endAllWrites h
      · cases h

/-- The operands behind which a statement can end: the one that is known, or
the number in the place of one that is missing. -/
inductive Last (s : State) : Number → Prop where
  | ready {x : Number} : s.Ready x → Last s x
  | missing : Last s .nan

/-- A token assigns at the ends behind some operand. One case for each case
of the step; in all but two nothing is assigned. -/
theorem mem_endAllWrites_of_feed (h : w ∈ s.feedWrites policy t) :
    ∃ x, s.Last x ∧ w ∈ s.endAllWrites .substituteNan x := by
  cases s.feed_cases t with
  | operand y focus value result => rw [feedWrites_of_denotes focus value] at h; cases h
  | name name focus content allowed result => simp [feedWrites, focus, content] at h
  | unbound name focus content unbound result => simp [feedWrites, focus, content] at h
  | openGroup focus content result => simp [feedWrites, focus, content] at h
  | sign focus content allowed result => simp [feedWrites, focus, content, allowed] at h
  | target name offset focus kind result => simp [feedWrites, focus, kind] at h
  | unboundName name offset focus kind unbound result =>
      simp [feedWrites, focus, kind, unbound] at h
  | follow x ready unassigned result =>
      rw [feedWrites_of_ready ready unassigned] at h
      exact ⟨x, .ready ready, mem_endAllWrites_of_operator h⟩
  | missing kind focus content other unsigned result =>
      rw [feedWrites_of_missing focus content other unsigned, missingWrites] at h
      split at h
      · cases h
      · -- A run that recovers puts the number that is none in the place of
        -- the operand.
        exact ⟨.nan, .missing, mem_endAllWrites_of_operator h⟩

/-- The end of the text assigns at the ends behind some operand. Together
with the lemma on tokens this is all that a run assigns. -/
theorem mem_endAllWrites_of_ending (h : w ∈ s.endingWrites policy) :
    ∃ x, s.Last x ∧ w ∈ s.endAllWrites .substituteNan x := by
  cases s.ending_cases with
  | ready x ready =>
      rw [endingWrites_of_ready ready] at h
      exact ⟨x, .ready ready, mem_endAllWrites h⟩
  | unboundName name offset focus unbound => simp [endingWrites, focus, unbound] at h
  | missing focus =>
      simp only [endingWrites, focus] at h
      cases policy with
      | abort => cases h
      | substituteNan => exact ⟨.nan, .missing, h⟩

end Ends

/-! ### The names to assign to

Names come into a state at one kind of step, the mark behind an open name.
All other steps move the statements around, or drop them. -/

/-- The statements wait to assign to such names only: the one that is read,
and those around the open parentheses. -/
structure Waits (named : String → Prop) (s : State) : Prop where
  statement : ∀ name ∈ s.statement.targets, named name
  enclosing : ∀ waiting ∈ s.enclosing, ∀ name ∈ waiting.targets, named name

section Waits

variable {named : String → Prop} {setting : Setting} {s s' : State} {t : Token}

/-- The ends of statements assign to their names. From the invariant of the
state to what is written, for every value that is assigned. -/
theorem Waits.of_mem (h : s.Waits named) {x : Number} {w : String × Number}
    (hw : w ∈ s.endAllWrites .substituteNan x) : named w.1 := by
  have hstatement : ∀ {statement : Statement} {value : Number},
      (∀ name ∈ statement.targets, named name) → w ∈ statement.writes value → named w.1 := by
    intro statement value hnames hw
    obtain ⟨name, hname, rfl⟩ := List.mem_map.mp hw
    exact hnames name hname
  -- Induction on the statements around, with the operand that each gets
  -- from the one inside.
  have henclosing : ∀ (enclosing : List Statement) (y : Number),
      (∀ waiting ∈ enclosing, ∀ name ∈ waiting.targets, named name) →
        w ∈ closeWrites enclosing y → named w.1 := by
    intro enclosing
    induction enclosing with
    | nil => intro y _ hw; cases hw
    | cons waiting enclosing ih =>
        intro y hnames hw
        rcases List.mem_append.mp hw with hw | hw
        · exact hstatement (hnames waiting List.mem_cons_self) hw
        · exact ih _ (fun waiting hmem => hnames waiting (List.mem_cons_of_mem _ hmem)) hw
  rcases List.mem_append.mp hw with hw | hw
  · exact hstatement h.statement hw
  · exact henclosing _ _ h.enclosing hw

/-- An operator leaves the names to assign to. They wait for the end of the
statement. -/
theorem targets_awaitAfter {statement next : Statement} {x : Number} {kind : Kind}
    (h : statement.awaitAfter x kind = some next) : next.targets = statement.targets := by
  cases kind <;> first | (obtain rfl := Option.some.inj h; rfl) | cases h

/-- The end of a statement leaves the ones around it. The statement that
begins behind it has no names to assign to yet. -/
theorem Waits.endStatement (h : s.Waits named) (x : Number) : (s.endStatement x).2.Waits named :=
  ⟨List.forall_mem_nil _, h.enclosing⟩

/-- The end of a group leaves the statements around it. The innermost of
them becomes the one that is read. -/
theorem Waits.closeGroup (h : s.Waits named) (x : Number) : (s.closeGroup x).Waits named := by
  cases he : s.enclosing with
  | nil =>
      rw [State.closeGroup, he]
      exact ⟨h.statement, h.enclosing⟩
  | cons waiting enclosing =>
      -- The statement that was around the group is the one that is read
      -- again.
      have henclosing := h.enclosing
      rw [he] at henclosing
      rw [State.closeGroup, he]
      exact ⟨henclosing waiting List.mem_cons_self,
        fun waiting hmem => henclosing waiting (List.mem_cons_of_mem _ hmem)⟩

/-- A complaint leaves the statements, and so their names. Under both
policies, as only a run that goes on has to be looked at. -/
theorem Waits.complain (h : s.Waits named) {expected : List Kind}
    (hstep : s.complain setting expected t = .ok s') : s'.Waits named := by
  obtain rfl := complain_ok hstep
  exact ⟨h.statement, h.enclosing⟩

/-- A token after an operand is no name to assign to, so the names are those
that were there. One case for each case of the step. -/
theorem Waits.feedOperator (h : s.Waits named) {x : Number}
    (hstep : s.feedOperator setting x t = .ok s') : s'.Waits named := by
  cases s.feedOperator_cases x t with
  | factor y value result =>
      obtain rfl := Except.ok.inj ((result setting).symm.trans hstep)
      exact ⟨h.statement, h.enclosing⟩
  -- The statement that waits goes around the group, and the one inside has
  -- no names yet.
  | openGroup content result =>
      obtain rfl := Except.ok.inj ((result setting).symm.trans hstep)
      exact ⟨List.forall_mem_nil _, List.forall_mem_cons.mpr ⟨h.statement, h.enclosing⟩⟩
  | operator kind statement content waits result =>
      obtain rfl := Except.ok.inj ((result setting).symm.trans hstep)
      exact ⟨targets_awaitAfter waits ▸ h.statement, h.enclosing⟩
  | semicolon content result =>
      obtain rfl := Except.ok.inj ((result setting).symm.trans hstep)
      exact ⟨List.forall_mem_nil _, h.enclosing⟩
  | closeGroup waiting enclosing content inside result =>
      obtain rfl := Except.ok.inj ((result setting).symm.trans hstep)
      exact (h.endStatement x).closeGroup _
  | skip waiting enclosing content inside result =>
      rw [result] at hstep
      obtain ⟨next, hnext, hclose⟩ := bind_eq_ok hstep
      obtain rfl := Except.ok.inj hclose
      exact ((h.endStatement x).complain hnext).closeGroup _
  | stop kind content stops result =>
      rw [result] at hstep
      exact absurd hstep (s.endAll_fail_ne_ok setting x t _ s')
  | unbound name content unbound result => cases (result setting).symm.trans hstep
  | leftover content outside result => cases (result setting).symm.trans hstep

/-- A name to assign to is one whose fate was open, with the assignment mark
behind it. The hypothesis speaks of the token before, which only the run
knows. -/
theorem Waits.feed (h : s.Waits named)
    (hassigned : ∀ name offset, s.focus = .name name offset → t.kind = .assign → named name)
    (hstep : State.feed setting s t = .ok s') : s'.Waits named := by
  cases s.feed_cases t with
  | operand y focus value result =>
      obtain rfl := Except.ok.inj ((result setting).symm.trans hstep)
      exact ⟨h.statement, h.enclosing⟩
  | name name focus content allowed result =>
      obtain rfl := Except.ok.inj ((result setting).symm.trans hstep)
      exact ⟨h.statement, h.enclosing⟩
  | openGroup focus content result =>
      obtain rfl := Except.ok.inj ((result setting).symm.trans hstep)
      exact ⟨List.forall_mem_nil _, List.forall_mem_cons.mpr ⟨h.statement, h.enclosing⟩⟩
  | sign focus content allowed result =>
      obtain rfl := Except.ok.inj ((result setting).symm.trans hstep)
      exact ⟨h.statement, h.enclosing⟩
  | target name offset focus kind result =>
      obtain rfl := Except.ok.inj ((result setting).symm.trans hstep)
      exact ⟨List.forall_mem_cons.mpr ⟨hassigned name offset focus kind, h.statement⟩, h.enclosing⟩
  | follow x ready unassigned result => exact h.feedOperator ((result setting).symm.trans hstep)
  | missing kind focus content other unsigned result =>
      rw [result, feedMissing] at hstep
      obtain ⟨next, hnext, hrest⟩ := bind_eq_ok hstep
      have hwaits := h.complain hnext
      split at hrest
      · obtain rfl := Except.ok.inj hrest
        exact ⟨hwaits.statement, hwaits.enclosing⟩
      · exact hwaits.feedOperator hrest
  | unbound name focus content unbound result => cases (result setting).symm.trans hstep
  | unboundName name offset focus kind unbound result =>
      cases (result setting).symm.trans hstep

/-- Over tokens that assign to such names only, a run does. Induction over
the tokens: a name that a token leaves open is assigned to by the next one,
or not at all. Hence the second hypothesis, about a name that is open to
begin with. -/
theorem runWrites_named (tokens : List Token) :
    ∀ {s : State}, s.Waits named →
      (∀ name offset, s.focus = .name name offset → ∀ t ∈ tokens.head?, t.kind = .assign →
        named name) →
      (∀ name, Assigned tokens name → named name) →
        ∀ w ∈ runWrites setting s tokens, named w.1 := by
  induction tokens with
  | nil =>
      intro s hwaits _ _ w hw
      obtain ⟨x, -, hend⟩ := mem_endAllWrites_of_ending hw
      exact hwaits.of_mem hend
  | cons t tokens ih =>
      intro s hwaits hopen hassigned w hw
      rw [runWrites] at hw
      rcases List.mem_append.mp hw with hw | hw
      · obtain ⟨x, -, hend⟩ := mem_endAllWrites_of_feed hw
        exact hwaits.of_mem hend
      · -- Behind a failure nothing is assigned.
        cases hstep : State.feed setting s t with
        | error failure => rw [hstep] at hw; cases hw
        | ok next =>
            rw [hstep] at hw
            have hnext := hwaits.feed
              (fun name offset hfocus hkind => hopen name offset hfocus t rfl hkind) hstep
            refine ih hnext (fun name offset hfocus u hu hkind => ?_)
              (fun name hname => hassigned name (hname.cons t)) w hw
            -- The open name and the mark behind it are the first two tokens
            -- here.
            obtain ⟨rest, rfl⟩ := List.head?_eq_some_iff.mp hu
            exact hassigned name ⟨[], t, u, rest, rfl, (feed_focus hstep hfocus).1, hkind⟩

end Waits

/-! ### The values to assign

Values come into a state as operands: from a number, from a variable, or as
the value of a group. Of waiting operations nothing is asked, as none of
them yields the signalling number. -/

/-- Nothing that the state holds is the signalling one that is no number. Of
the operations that wait nothing has to be said, as an operation yields
none. -/
structure Quiet (s : State) : Prop where
  environment : ∀ b ∈ s.environment.bindings, b.2 ≠ .signalling
  operand : ∀ x, s.focus = .value x → x ≠ .signalling

section Quiet

variable {setting : Setting} {s s' : State} {t : Token}

/-- The last operand is none either, whether it was read, is a variable, or
was put there. This is where the variables have to be part of the
invariant. -/
theorem Quiet.last (h : s.Quiet) {x : Number} (hx : s.Last x) : x ≠ .signalling := by
  cases hx with
  | missing => intro hx; cases hx
  | ready ready =>
      cases ready with
      | value focus => exact h.operand x focus
      | name focus bound => exact h.environment _ (Environment.mem_of_get? bound)

/-- A complaint adds none, as it touches neither the variables nor the
operand. -/
theorem Quiet.note (h : s.Quiet) (d : Diagnostic) : (s.note d).Quiet := ⟨h.environment, h.operand⟩

/-- The ends of statements assign none, behind an operand that is none. Each
value is that of a statement, or a group around it, with this operand as its
last. -/
theorem ne_signalling_of_mem {x : Number} (hx : x ≠ .signalling) {w : String × Number}
    (hw : w ∈ s.endAllWrites .substituteNan x) : w.2 ≠ .signalling := by
  -- Induction on the statements around, each of which gets the value of the
  -- one inside as its operand.
  have hclose : ∀ (enclosing : List Statement) {y : Number}, y ≠ .signalling →
      w ∈ closeWrites enclosing y → w.2 ≠ .signalling := by
    intro enclosing
    induction enclosing with
    | nil => intro y _ hw; cases hw
    | cons waiting enclosing ih =>
        intro y hy hw
        have hvalue := waiting.value_ne_signalling hy
        rcases List.mem_append.mp hw with hw | hw
        · obtain ⟨name, -, rfl⟩ := List.mem_map.mp hw
          exact hvalue
        · exact ih hvalue hw
  have hvalue := s.statement.value_ne_signalling hx
  rcases List.mem_append.mp hw with hw | hw
  · obtain ⟨name, -, rfl⟩ := List.mem_map.mp hw
    exact hvalue
  · exact hclose _ hvalue hw

/-- A token that has a value has none that is signalling. The hypothesis on
the token excludes a numeral with that number, which no text has. -/
theorem Quiet.denotes (h : s.Quiet) (htoken : t.content ≠ .number .signalling) {y : Number}
    (hy : Denotes s.environment t y) : y ≠ .signalling := by
  cases hy with
  | number content =>
      rintro rfl
      exact htoken content
  | bound content bound => exact h.environment _ (Environment.mem_of_get? bound)

/-- The operand that a token after an operand leaves. Only the focus is
looked at; the variables are the matter of `Quiet.feed`. -/
theorem Quiet.feedOperator (h : s.Quiet) (htoken : t.content ≠ .number .signalling) {x : Number}
    (hx : x ≠ .signalling) (hstep : s.feedOperator setting x t = .ok s') :
    ∀ y, s'.focus = .value y → y ≠ .signalling := by
  -- What a group leaves is the value of its last statement.
  have hclose : ∀ s' : State, ∀ y, (s'.closeGroup (s.endStatement x).1).focus = .value y →
      y ≠ .signalling := by
    intro s' y hy
    rw [closeGroup_focus] at hy
    obtain rfl := Focus.value.inj hy
    exact s.statement.value_ne_signalling hx
  intro y hy
  cases s.feedOperator_cases x t with
  | factor z value result =>
      obtain rfl := Except.ok.inj ((result setting).symm.trans hstep)
      obtain rfl := Focus.value.inj hy
      exact h.denotes htoken value
  | closeGroup waiting enclosing content inside result =>
      obtain rfl := Except.ok.inj ((result setting).symm.trans hstep)
      exact hclose _ y hy
  | skip waiting enclosing content inside result =>
      rw [result] at hstep
      obtain ⟨next, -, hnext⟩ := bind_eq_ok hstep
      obtain rfl := Except.ok.inj hnext
      exact hclose _ y hy
  | openGroup content result =>
      obtain rfl := Except.ok.inj ((result setting).symm.trans hstep)
      cases hy
  | operator kind statement content waits result =>
      obtain rfl := Except.ok.inj ((result setting).symm.trans hstep)
      cases hy
  | semicolon content result =>
      obtain rfl := Except.ok.inj ((result setting).symm.trans hstep)
      cases hy
  | stop kind content stops result =>
      rw [result] at hstep
      exact absurd hstep (s.endAll_fail_ne_ok setting x t _ s')
  | unbound name content unbound result => cases (result setting).symm.trans hstep
  | leftover content outside result => cases (result setting).symm.trans hstep

/-- The operand that a token leaves, if it leaves one: its own value, that
of a group, or the number in the place of one that is missing. -/
theorem Quiet.feed_operand (h : s.Quiet) (htoken : t.content ≠ .number .signalling)
    (hstep : State.feed setting s t = .ok s') : ∀ y, s'.focus = .value y → y ≠ .signalling := by
  intro y hy
  cases s.feed_cases t with
  | operand z focus value result =>
      obtain rfl := Except.ok.inj ((result setting).symm.trans hstep)
      obtain rfl := Focus.value.inj hy
      exact h.denotes htoken value
  | follow x ready unassigned result =>
      exact h.feedOperator htoken (h.last (.ready ready)) ((result setting).symm.trans hstep) y hy
  | missing kind focus content other unsigned result =>
      rw [result, feedMissing] at hstep
      obtain ⟨next, hnext, hrest⟩ := bind_eq_ok hstep
      split at hrest
      · obtain rfl := Except.ok.inj hrest
        obtain rfl := Focus.value.inj hy
        exact h.last .missing
      · obtain rfl := complain_ok hnext
        exact (h.note _).feedOperator htoken (h.last .missing) hrest y hy
  | name name focus content allowed result =>
      obtain rfl := Except.ok.inj ((result setting).symm.trans hstep)
      cases hy
  | openGroup focus content result =>
      obtain rfl := Except.ok.inj ((result setting).symm.trans hstep)
      cases hy
  | sign focus content allowed result =>
      obtain rfl := Except.ok.inj ((result setting).symm.trans hstep)
      cases hy
  | target name offset focus kind result =>
      obtain rfl := Except.ok.inj ((result setting).symm.trans hstep)
      cases hy
  | unbound name focus content unbound result => cases (result setting).symm.trans hstep
  | unboundName name offset focus kind unbound result =>
      cases (result setting).symm.trans hstep

/-- A token leaves nothing signalling. The variables after it are those
before with its writes made. -/
theorem Quiet.feed (h : s.Quiet) (htoken : t.content ≠ .number .signalling)
    (hstep : State.feed setting s t = .ok s') : s'.Quiet := by
  refine ⟨?_, h.feed_operand htoken hstep⟩
  have henvironment := feed_environment setting s t
  rw [hstep] at henvironment
  rw [show s'.environment = _ from henvironment]
  refine Environment.forall_write (fun w hw => ?_) h.environment
  obtain ⟨x, hx, hend⟩ := mem_endAllWrites_of_feed hw
  exact ne_signalling_of_mem (h.last hx) hend

/-- Over tokens of a text, a run assigns nothing signalling unless a
variable was. Induction over the tokens. -/
theorem runWrites_quiet (tokens : List Token) :
    ∀ {s : State}, s.Quiet → (∀ t ∈ tokens, t.content ≠ .number .signalling) →
      ∀ w ∈ runWrites setting s tokens, w.2 ≠ .signalling := by
  induction tokens with
  | nil =>
      intro s hquiet _ w hw
      obtain ⟨x, hx, hend⟩ := mem_endAllWrites_of_ending hw
      exact ne_signalling_of_mem (hquiet.last hx) hend
  | cons t tokens ih =>
      intro s hquiet htokens w hw
      obtain ⟨htoken, hrest⟩ := List.forall_mem_cons.mp htokens
      rw [runWrites] at hw
      rcases List.mem_append.mp hw with hw | hw
      · obtain ⟨x, hx, hend⟩ := mem_endAllWrites_of_feed hw
        exact ne_signalling_of_mem (hquiet.last hx) hend
      · cases hstep : State.feed setting s t with
        | error failure => rw [hstep] at hw; cases hw
        | ok next =>
            rw [hstep] at hw
            exact ih (hquiet.feed htoken hstep) hrest w hw

end Quiet

end State

/-! ### Whole texts

A run over a text begins with a state that holds nothing but the
variables. -/

/-- A text assigns to nothing but identifiers that have the assignment mark
behind them. This is what leaves all other variables as they are. -/
theorem evaluateWrites_assigned (policy : Policy) (text : String) (env : Environment) :
    ∀ w ∈ evaluateWrites policy text env, Assigned (Cursor.ofText text).tokens w.1 :=
  State.runWrites_named _ ⟨List.forall_mem_nil _, List.forall_mem_nil _⟩
    (fun _ _ hfocus => by cases hfocus) fun _ hname => hname

/-- A text assigns nothing signalling unless a variable was to begin with,
since no numeral is read as that number. -/
theorem evaluateWrites_quiet (policy : Policy) (text : String) {env : Environment}
    (h : ∀ b ∈ env.bindings, b.2 ≠ .signalling) :
    ∀ w ∈ evaluateWrites policy text env, w.2 ≠ .signalling := by
  refine State.runWrites_quiet _ ⟨h, fun _ hfocus => by cases hfocus⟩ fun t ht => ?_
  -- The only tokens with a number are numerals, and these are read as
  -- doubles.
  obtain ⟨lexeme, rest, hlexed⟩ := Cursor.lexed_of_mem t ht
  exact hlexed.ne_signalling

end DeskCalculator
