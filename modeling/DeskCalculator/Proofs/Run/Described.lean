import DeskCalculator.Proofs.Run.Writes
import DeskCalculator.Proofs.Tokens.Tiling

/-!
# `DeskCalculator.Proofs.Run.Described`: what is reported is true of a token

Every error and every complaint is about a token of the text, at its start,
and what it says of that token is so (`Diagnostic.Describes`,
`EvalError.Describes`). Which kinds can be reported as found follows from
where the token stood: a token is complained about in the place of an
operand only if it begins none, and behind an operand only if nothing goes
on with it.

* `Noted.feed`, `Sound.ending`: what one token reports, and the end of a
  text. `run_accurate`: what a run reports.
* `evaluate_describes`: what is reported over a whole text.

The invariant of a run is `Sound`: the complaint that is kept is true of a
token, and so is the name whose fate is open, since it is read, and
reported, one token later. A step from a sound state either fails with an
error that is accurate or leads to a sound state, and `Accurate` says both
in one, so that the steps of a computation are put together by
`Accurate.bind`.

The tokens are those of a text, which is needed twice: an unknown token
covers one character, and a token that carries nothing is neither a number
nor a name. For tokens that are made up neither has to hold.
-/

set_option autoImplicit false

namespace DeskCalculator

open Text (byteLength)

/-! ### Descriptions

What it is for a complaint or an error to be true of a token: one case for
each form that it can have, with what it says of the text there. -/

/-- The complaint is about the token, and says what is so. The kinds that
can be found are listed for each place; an unknown character is quoted
instead. -/
inductive Diagnostic.Describes (text : String) (t : Token) : Diagnostic → Prop where
  /-- In the place of an operand. -/
  | operand (found : t.kind ∉ [.identifier, .number, .openParen, .unknown]) :
      Describes text t (.unexpectedToken Kind.factorStarts t.kind t.start)
  /-- In the place of a closing parenthesis. -/
  | closing (found : t.kind ∈ [.assign, .greater, .less, .shiftRight, .shiftLeft, .endOfInput]) :
      Describes text t (.unexpectedToken [.closeParen] t.kind t.start)
  /-- The one character that the token covers is quoted. -/
  | character {before : List Char} {c : Char} {rest : List Char} (found : t.kind = .unknown)
      (covers : Covers text t before [c] rest) :
      Describes text t (.unexpectedCharacter (String.ofList [c]) t.start)
  | trailing (found : t.kind ∈ [.closeParen, .assign, .greater, .less, .shiftRight, .shiftLeft]) :
      Describes text t (.trailingInput t.kind t.start)

/-- The error is about the token, and says what is so. An error over a
variable names what the token carries; that the variable has no value then
is said apart, as it is about the state of the run. -/
inductive EvalError.Describes (text : String) (t : Token) : EvalError → Prop where
  | malformed {d : Diagnostic} (describes : d.Describes text t) : Describes text t (.malformed d)
  | unbound {name : String} (content : t.content = .identifier name) :
      Describes text t (.undefinedVariable name t.start)

/-- The complaint is true of a token of the text. Which token it is follows
from the place, since tokens start at different places. -/
def Diagnostic.Described (text : String) (d : Diagnostic) : Prop :=
  ∃ t ∈ tokenize text, d.Describes text t

/-- The error is true of a token of the text, and if it is about a variable,
that has no value, with the variables as they are when the run fails. -/
structure Failure.Accurate (text : String) (failure : Failure) : Prop where
  described : ∃ t ∈ tokenize text, failure.error.Describes text t
  unbound : ∀ name offset, failure.error = .undefinedVariable name offset →
    failure.environment.get? name = none

/-! ### The tokens of a text

What complaints say about tokens of a text is true because of what tokens
are: they cover their lexemes, and an unknown one is one character. -/

section Tokens

variable {text : String} {t : Token}

/-- An unknown token of a text covers one character of it, so there is one
to quote. Here the run meets the lexer: the rest of the module is about
kinds. -/
theorem covers_of_unknown (ht : t ∈ tokenize text) (hkind : t.kind = .unknown) :
    ∃ before c rest, Covers text t before [c] rest := by
  rcases List.mem_append.mp ht with ht | ht
  · obtain ⟨before, lexeme, rest, hcovers, hlexed⟩ :=
      Cursor.covers_of_mem (Cursor.standsIn_ofText text) t ht
    obtain ⟨c, rfl⟩ := hlexed.eq_singleton_of_unknown hkind
    exact ⟨before, c, rest, hcovers⟩
  · obtain rfl := List.mem_singleton.mp ht
    cases hkind

/-- The setting of an evaluation of the text, the one that `evaluate` runs
under. Complaints quote the text of the setting, so it has to be the one
whose tokens are read. -/
def Setting.over (policy : Policy) (text : String) : Setting := { policy, text := text.toList }

/-- A quoted token is the character that it covers. The slice between its
two offsets is what the message shows. -/
theorem described_unexpectedCharacter (policy : Policy) (ht : t ∈ tokenize text)
    (hkind : t.kind = .unknown) :
    (Diagnostic.unexpectedCharacter ((Setting.over policy text).quote t) t.start).Described
      text := by
  obtain ⟨before, c, rest, hcovers⟩ := covers_of_unknown ht hkind
  have hquote : (Setting.over policy text).quote t = String.ofList [c] :=
    congrArg String.ofList hcovers.slice_eq
  rw [hquote]
  exact ⟨t, ht, .character hkind hcovers⟩

/-- A complaint about a token is true of it if its kind is one that can be
found there, or it is quoted. -/
theorem described_complaint (policy : Policy) {expected : List Kind} (ht : t ∈ tokenize text)
    (h : t.kind ≠ .unknown →
      (Diagnostic.unexpectedToken expected t.kind t.start).Describes text t) :
    ((Setting.over policy text).complaint expected t).Described text := by
  rw [Setting.complaint]
  split
  · next hkind => exact described_unexpectedCharacter policy ht hkind
  · next hkind => exact ⟨t, ht, h hkind⟩

/-- A complaint about a token that is left over is true of it if its kind is
one that can be left over, or it is quoted. -/
theorem described_leftover (policy : Policy) (ht : t ∈ tokenize text)
    (h : t.kind ≠ .unknown →
      t.kind ∈ [.closeParen, .assign, .greater, .less, .shiftRight, .shiftLeft]) :
    ((Setting.over policy text).leftover t).Described text := by
  rw [Setting.leftover]
  split
  · next hkind => exact described_unexpectedCharacter policy ht hkind
  · next hkind => exact ⟨t, ht, .trailing (h hkind)⟩

end Tokens

/-! ### Computations that report

A step may keep a complaint or fail. `Accurate` covers both, and goes along
with the steps of the model by its `bind`. -/

/-- A computation that fails with an error that is accurate, or yields what
is `good`. With `good` a predicate, the same relation serves for steps,
which yield states, and for the end, which yields an evaluation. -/
def Accurate {α : Type} (text : String) (good : α → Prop) : Except Failure α → Prop
  | .ok a => good a
  | .error failure => failure.Accurate text

/-- Accuracy step by step: of a computation that goes on after the first
part. What is good of the first result is what the second part may
assume. -/
theorem Accurate.bind {α β : Type} {text : String} {good : α → Prop} {good' : β → Prop}
    {x : Except Failure α} {f : α → Except Failure β} (h : Accurate text good x)
    (hnext : ∀ a, good a → Accurate text good' (f a)) : Accurate text good' (x >>= f) := by
  cases x with
  | error failure => exact h
  | ok a => exact hnext a h

namespace State

/-- The complaint that the state keeps is true of a token of the text. There
may be none. -/
def Noted (text : String) (s : State) : Prop := ∀ d, s.diagnostic = some d → d.Described text

section Steps

variable {policy : Policy} {text : String} {s : State} {t : Token}

/-- Stopping with a complaint that is true is accurate. Nothing is asked of
the variables, as no variable is named. -/
theorem accurate_fail {α : Type} {good : α → Prop} {d : Diagnostic} (h : d.Described text)
    (s : State) : Accurate text good (s.fail (α := α) (.malformed d)) := by
  obtain ⟨t, ht, hdescribes⟩ := h
  exact ⟨⟨t, ht, .malformed hdescribes⟩, fun name offset heq => by cases heq⟩

/-- A complaint that is true is accurate, whether it stops the run or is
kept. The state after it has noted this complaint, or an earlier one that
was true already. -/
theorem Noted.complain (h : s.Noted text) {expected : List Kind}
    (hcomplaint : ((Setting.over policy text).complaint expected t).Described text) :
    Accurate text (Noted text) (s.complain (Setting.over policy text) expected t) := by
  cases policy with
  | abort =>
      rw [complain_abort rfl]
      exact accurate_fail hcomplaint s
  | substituteNan =>
      rw [complain_substituteNan rfl]
      intro d hd
      -- An earlier complaint stays, and only where there is none the new
      -- one is kept.
      cases hs : s.diagnostic with
      | some d' => exact h d (by simpa [note, hs] using hd)
      | none =>
          obtain rfl : (Setting.over .substituteNan text).complaint expected t = d := by
            simpa [note, hs] using hd
          exact hcomplaint

/-- Reading a variable that the token names is accurate: it is read because
it has no value. If it has one, nothing is reported. -/
theorem accurate_unbound {α : Type} {good : α → Prop} {name : String} (ht : t ∈ tokenize text)
    (hcontent : t.content = .identifier name) (hunbound : s.environment.get? name = none) :
    Accurate text good (s.fail (α := α) (.undefinedVariable name t.start)) := by
  refine ⟨⟨t, ht, .unbound hcontent⟩, fun name' offset heq => ?_⟩
  obtain ⟨rfl, -⟩ := EvalError.undefinedVariable.inj heq
  exact hunbound

/-- What is left over behind an operand, or closes no parenthesis there, is
one of the kinds with which nothing goes on. Of these a text has no bare
number and no bare name, and the mark is not among its tokens. -/
theorem found_of_stops (ht : t ∈ (Cursor.ofText text).tokens) {kind : Kind}
    (hcontent : t.content = .bare kind) (hstops : kind.stops = true) :
    t.kind ∈ [.assign, .greater, .less, .shiftRight, .shiftLeft] := by
  obtain ⟨hnumber, hidentifier, hend⟩ := kind_of_content_bare ht hcontent
  have hkind : t.kind = kind := congrArg Content.kind hcontent
  rw [hkind]
  cases kind <;> simp_all [Kind.stops]

/-- What a token after an operand reports is accurate. One case for each
case of the step. -/
theorem Noted.feedOperator (h : s.Noted text) (ht : t ∈ (Cursor.ofText text).tokens) (x : Number) :
    Accurate text (Noted text) (s.feedOperator (Setting.over policy text) x t) := by
  have htoken : t ∈ tokenize text := List.mem_append_left _ ht
  cases s.feedOperator_cases x t with
  | factor y value result => rw [result]; exact h
  | openGroup content result => rw [result]; exact h
  | operator kind statement content waits result => rw [result]; exact h
  | semicolon content result => rw [result]; exact h
  | closeGroup waiting enclosing content inside result =>
      rw [result]
      intro d hd
      rw [closeGroup_diagnostic] at hd
      exact h d hd
  | unbound name content unbound result =>
      rw [result]
      exact accurate_unbound htoken content unbound
  | skip waiting enclosing content inside result =>
      rw [result]
      have hkind : t.kind = .unknown := congrArg Content.kind content
      have hended : (s.endStatement x).2.Noted text := h
      refine (hended.complain
        (described_complaint policy htoken fun hother => absurd hkind hother)).bind fun s' hs' => ?_
      intro d hd
      rw [closeGroup_diagnostic] at hd
      exact hs' d hd
  | leftover content outside result =>
      rw [result]
      refine accurate_fail (described_leftover policy htoken fun hother => ?_) _
      rcases content with hcontent | hcontent
      · rw [show t.kind = .closeParen from congrArg Content.kind hcontent]
        decide
      · exact absurd (congrArg Content.kind hcontent) hother
  | stop kind content stops result =>
      rw [result]
      have hfound := found_of_stops ht content stops
      have hleftover : ((Setting.over policy text).leftover t).Described text :=
        described_leftover policy htoken fun _ => List.mem_cons_of_mem _ hfound
      cases he : s.enclosing with
      | nil =>
          rw [endAll_outside he]
          exact accurate_fail hleftover _
      | cons waiting enclosing =>
          -- The parenthesis that is missing is complained about first, and
          -- then the token itself.
          rw [endAll_inside he, bind_assoc]
          have hended : (s.endStatement x).2.Noted text := h
          refine (hended.complain (described_complaint policy htoken fun _ => .closing ?_)).bind
            fun s' _ => accurate_fail hleftover _
          exact List.mem_append_left [.endOfInput] hfound

/-- What a token in the place of an operand reports that it cannot be, is
accurate. It is no operand and announces none, which is the list of kinds
that cannot be found. -/
theorem Noted.feedMissing (h : s.Noted text) (ht : t ∈ (Cursor.ofText text).tokens) {kind : Kind}
    (hcontent : t.content = .bare kind) (hother : kind ≠ .openParen) :
    Accurate text (Noted text) (s.feedMissing (Setting.over policy text) t) := by
  have hkind : t.kind = kind := congrArg Content.kind hcontent
  obtain ⟨hnumber, hidentifier, -⟩ := kind_of_content_bare ht hcontent
  refine (h.complain
    (described_complaint policy (List.mem_append_left _ ht) fun hknown => .operand ?_)).bind
    fun s' hs' => ?_
  · rw [hkind] at hknown ⊢
    simp [hnumber, hidentifier, hother, hknown]
  · split
    · exact hs'
    · exact hs'.feedOperator ht _

/-- What a token reports is accurate, if a name whose fate is open is that
of a token of the text. The hypothesis is the second half of `Sound`. -/
theorem Noted.feed (h : s.Noted text) (ht : t ∈ (Cursor.ofText text).tokens)
    (hname : ∀ name offset, s.focus = .name name offset →
      ∃ u ∈ tokenize text, u.content = .identifier name ∧ u.start = offset) :
    Accurate text (Noted text) (feed (Setting.over policy text) s t) := by
  cases s.feed_cases t with
  | operand y focus value result => rw [result]; exact h
  | name name focus content allowed result => rw [result]; exact h
  | openGroup focus content result => rw [result]; exact h
  | sign focus content allowed result => rw [result]; exact h
  | target name offset focus kind result => rw [result]; exact h
  | unbound name focus content unbound result =>
      rw [result]
      exact accurate_unbound (List.mem_append_left _ ht) content unbound
  | missing kind focus content other unsigned result =>
      rw [result]
      exact h.feedMissing ht content other
  | follow x ready unassigned result =>
      rw [result]
      exact h.feedOperator ht x
  | unboundName name offset focus kind unbound result =>
      rw [result]
      obtain ⟨u, hu, hcontent, rfl⟩ := hname name offset focus
      exact accurate_unbound hu hcontent unbound

end Steps

/-! ### A run

The complaint that is kept and the name that is open are the two things of a
state that will be reported later. Both are of tokens of the text, and every
step keeps it so. -/

/-- What a state keeps is true of tokens of the text: its complaint, and the
name whose fate is open. -/
structure Sound (text : String) (s : State) : Prop where
  noted : s.Noted text
  name : ∀ name offset, s.focus = .name name offset →
    ∃ t ∈ tokenize text, t.content = .identifier name ∧ t.start = offset

section Run

variable (policy : Policy) {text : String} {s : State}

/-- A token reports what is accurate and leaves what is sound. The step
lemma of this module. It needs the token to be one of the text, which the
run provides. -/
theorem Sound.feed (h : s.Sound text) {t : Token} (ht : t ∈ (Cursor.ofText text).tokens) :
    Accurate text (Sound text) (feed (Setting.over policy text) s t) := by
  have hnoted : Accurate text (Noted text) (State.feed (Setting.over policy text) s t) :=
    h.noted.feed ht h.name
  cases hstep : State.feed (Setting.over policy text) s t with
  | error failure => rwa [hstep] at hnoted
  | ok s' =>
      rw [hstep] at hnoted
      refine ⟨hnoted, fun name offset hfocus => ?_⟩
      -- A name whose fate is open is the token that was just read.
      obtain ⟨hcontent, rfl⟩ := feed_focus hstep hfocus
      exact ⟨t, List.mem_append_left _ ht, hcontent, rfl⟩

/-- So do any number of tokens. Induction over them, for every sound
state. -/
theorem Sound.feedAll {tokens : List Token}
    (htokens : ∀ t ∈ tokens, t ∈ (Cursor.ofText text).tokens) :
    ∀ {s : State}, s.Sound text →
      Accurate text (Sound text) (feedAll (Setting.over policy text) s tokens) := by
  induction tokens with
  | nil => intro s h; exact h
  | cons t tokens ih =>
      intro s h
      obtain ⟨ht, htokens⟩ := List.forall_mem_cons.mp htokens
      rw [feedAll_cons]
      exact (h.feed policy ht).bind fun s' hs' => ih htokens hs'

/-- What the end of the text reports behind an operand is accurate: a
parenthesis that is missing, at the mark. -/
theorem Noted.endingWith (h : s.Noted text) (x : Number) :
    Accurate text (fun p => ∀ d, p.1.diagnostic = some d → d.Described text)
      (s.endingWith (Setting.over policy text) (byteLength text.toList) x) := by
  cases he : s.enclosing with
  | nil => rw [endingWith_outside he]; exact h
  | cons waiting enclosing =>
      rw [endingWith_inside he]
      have hended : (s.endStatement x).2.Noted text := h
      have hmark : Token.endOfInput (byteLength text.toList) ∈ tokenize text :=
        List.mem_append_right _ List.mem_cons_self
      have hfound : Kind.endOfInput
          ∈ [.assign, .greater, .less, .shiftRight, .shiftLeft, .endOfInput] := by decide
      exact (hended.complain
        (described_complaint policy hmark fun _ => .closing hfound)).bind fun s' hs' => hs'

/-- What the end of the text reports is accurate. Its complaints are about
the mark, which covers nothing and stands at the end. -/
theorem Sound.ending (h : s.Sound text) :
    Accurate text (fun p => ∀ d, p.1.diagnostic = some d → d.Described text)
      (s.ending (Setting.over policy text) (byteLength text.toList)) := by
  have hmark : Token.endOfInput (byteLength text.toList) ∈ tokenize text :=
    List.mem_append_right _ List.mem_cons_self
  cases s.ending_cases with
  | ready x ready =>
      rw [ending_of_ready ready]
      exact h.noted.endingWith policy x
  | unboundName name offset focus unbound =>
      rw [ending_of_unbound focus unbound]
      obtain ⟨t, ht, hcontent, rfl⟩ := h.name name offset focus
      exact accurate_unbound ht hcontent unbound
  | missing focus =>
      rw [ending_of_operand focus]
      have hfound : Kind.endOfInput ∉ [.identifier, .number, .openParen, .unknown] := by decide
      exact (h.noted.complain
        (described_complaint policy hmark fun _ => .operand hfound)).bind
        fun s' hs' => hs'.endingWith policy _

/-- A run begins with nothing to report: no complaint is kept, and no name
is open. -/
theorem sound_initial (text : String) (env : Environment) :
    Sound text { environment := env } where
  noted := fun _ hd => nomatch hd
  name := fun _ _ hfocus => nomatch hfocus

/-- What a run over a text reports is accurate. Both `evaluate_describes`
and the account of a script are read off it. -/
theorem run_accurate (text : String) (env : Environment) :
    Accurate text (fun p => ∀ d, p.1.diagnostic = some d → d.Described text)
      (run (Setting.over policy text) (byteLength text.toList) { environment := env }
        (Cursor.ofText text).tokens) :=
  (Sound.feedAll policy (fun _ ht => ht) (sound_initial text env)).bind
    fun _ hs => hs.ending policy

end Run
end State

/-- Over any text and with any policy, every error and every complaint,
those kept on the way included, is true of a token of the text. A variable
that an error is about had no value before the evaluation and has none after
it. -/
theorem evaluate_describes (policy : Policy) (text : String) (env : Environment) :
    let outcome := evaluate policy text env
    (∀ error, outcome.result = .error error →
      (∃ t ∈ tokenize text, error.Describes text t) ∧
        ∀ name offset, error = .undefinedVariable name offset →
          env.get? name = none ∧ outcome.environment.get? name = none) ∧
      (∀ evaluation d, outcome.result = .ok evaluation → evaluation.diagnostic = some d →
        ∃ t ∈ tokenize text, d.Describes text t) ∧
      ∀ before s d, before <+: (Cursor.ofText text).tokens →
        State.feedAll { policy, text := text.toList } { environment := env } before = .ok s →
          s.diagnostic = some d → ∃ t ∈ tokenize text, d.Describes text t := by
  intro outcome
  have hrun := State.run_accurate policy text env
  have houtcome : outcome = .ofRun (State.run (Setting.over policy text) (byteLength text.toList)
      { environment := env } (Cursor.ofText text).tokens) := evaluateTokens_eq _ _ _ _
  refine ⟨fun error herror => ?_, fun evaluation d hvalue hd => ?_,
    fun before s d hbefore hread hd => ?_⟩
  · rw [houtcome] at herror
    obtain ⟨failure, hfail, rfl⟩ := Outcome.ofRun_error herror
    rw [hfail] at hrun houtcome
    refine ⟨hrun.described, fun name offset hname => ?_⟩
    have hfinal : outcome.environment.get? name = none := by
      rw [houtcome]
      exact hrun.unbound name offset hname
    refine ⟨?_, hfinal⟩
    -- A name with a value before would have one after.
    by_contra hbound
    have hwrites : outcome.environment = env.write (evaluateWrites policy text env) :=
      evaluate_environment policy text env
    exact Environment.get?_write_ne_none _ hbound (hwrites ▸ hfinal)
  · rw [houtcome] at hvalue
    obtain ⟨final, hok⟩ := Outcome.ofRun_ok hvalue
    rw [hok] at hrun
    exact hrun d hd
  · have hsound := State.Sound.feedAll policy (fun t ht => hbefore.subset ht)
      (State.sound_initial text env)
    change Accurate text (State.Sound text)
      (State.feedAll { policy, text := text.toList } _ before) at hsound
    rw [hread] at hsound
    exact hsound.noted d hd

end DeskCalculator
