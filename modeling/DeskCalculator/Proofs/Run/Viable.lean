import DeskCalculator.Proofs.Run.Meaning
import DeskCalculator.Proofs.Run.Outline
import Mathlib.Control.Monad.Basic

/-!
# `DeskCalculator.Proofs.Run.Viable`: completing what was read

A spelled state says what its tokens are the beginning of. Here that
beginning is completed: an operand where one is missing, and then one
closing parenthesis for each that is open.

* `Spelled.viable`: the tokens behind which a spelled state stands begin a
  sentence.
* `Spelled.sentence`: behind an operand and outside parentheses they are
  one.
* `Spelled.viableReading`, `Spelled.viableReading_of_ready`: a name that
  comes next can be an operand, in the place of one or beside one.
* `sentence_of_ok`: a run that aborts accepts sentences only. Together with
  the meaning of sentences (`evaluateTokens_tokens`) this is
  `evaluate_abort`, what a run that aborts is over any text.

All of it is for runs that abort. A run that recovers goes on behind tokens
that begin no sentence, and what it is then is the matter of
`Proofs.Run.Policies` and `Proofs.Run.Repair`.

The tokens that complete a beginning are made up, and stand in no text;
sentences are lists of tokens, so nothing has to be lexed. The viable
prefixes are used by `Proofs.Run.FirstOffence`, to say that the token a run
complains about is the first one with which nothing goes on.
-/

set_option autoImplicit false

namespace DeskCalculator

open Text (byteLength)

/-- Some sentence begins with the tokens. The tokens behind may be any, so
nothing is asked of the text from which the tokens come. -/
def Viable (tokens : List Token) : Prop := ∃ after, Sentence (tokens ++ after)

/-- Some sentence begins with the tokens and `t` behind them, and has a
derivation in which `t` is a primary by itself. -/
def ViableReading (tokens : List Token) (t : Token) : Prop :=
  ∃ e : Expr, e.Valid ∧ ∃ before after : List Leaf,
    e.leaves = before ++ ⟨t, true⟩ :: after ∧ before.map Leaf.token = tokens

/-- The tokens of a derivation are a sentence, of whatever level it is: each
level may stand for the loosest. -/
theorem Derives.sentence {level : Level} {ls : List Leaf} (h : Derives level ls) :
    Sentence (ls.map Leaf.token) := by
  obtain ⟨e, hvalid, -, rfl⟩ := h
  exact ⟨e, hvalid, e.leaves_tokens.symm⟩

/-! ### Closing what is open

Behind an operand everything that waits can be completed, by closing
parentheses only. -/

section Closing

variable {enclosing : List Statement} {s : Statement} {around ended begun last : List Leaf}

/-- A sequence inside parentheses is completed by closing them. Induction on
the parentheses, from the inside out: each group that is closed is the last
operand of the statement around it. -/
theorem Inside.exists_closers (h : Inside enclosing around) :
    ∀ {ended : List Leaf}, Derives .sequence ended →
      ∃ closers, Derives .sequence (around ++ ended ++ closers) := by
  induction h with
  | outermost =>
      intro ended hended
      exact ⟨[], by simpa using hended⟩
  | group opening _ hbefore hrow ih =>
      intro ended hended
      -- Where the closing parenthesis stands does not matter, so it stands
      -- on the opening one.
      have hgroup := derives_group hended opening opening
      obtain ⟨closers, hclosed⟩ := ih (hbefore _ (hrow.derives hgroup))
      refine ⟨⟨.bare .closeParen opening, false⟩ :: closers, ?_⟩
      simpa using hclosed

/-- What was begun is completed behind any operand: the sequence ends with
it, and the parentheses around it are closed. -/
theorem Begun.exists_closers (h : Begun enclosing s begun) (hlast : Derives .primary last) :
    ∃ closers, Derives .sequence (begun ++ last ++ closers) := by
  obtain ⟨around, ended, hinside, hended, hleaves⟩ := h.exists_sequence hlast
  rw [hleaves]
  exact hinside.exists_closers hended

/-- A name behind what was begun can be read as an operand. The derivation
that completes the tokens has it as a primary of its own. -/
theorem Begun.viableReading (h : Begun enclosing s begun) (name : String) (span : Span) :
    ViableReading (begun.map Leaf.token) (.identifier name span) := by
  obtain ⟨closers, e, hvalid, -, hleaves⟩ := h.exists_closers (derives_name name span)
  exact ⟨e, hvalid, begun, closers, by simpa using hleaves, rfl⟩

end Closing

/-! ### States that can go on

So what was read begins a sentence, wherever a run stands that has found
nothing wrong. -/

section States

variable {s : State} {ts : List Token}

/-- What was begun can be completed behind any operand. A closing
parenthesis for each open one is enough. -/
theorem Begun.viable {enclosing : List Statement} {statement : Statement} {begun last : List Leaf}
    (h : Begun enclosing statement begun) (hlast : Derives .primary last) :
    Viable ((begun ++ last).map Leaf.token) := by
  obtain ⟨closers, hclosed⟩ := h.exists_closers hlast
  exact ⟨closers.map Leaf.token, by simpa using hclosed.sentence⟩

/-- What was read can be completed. Where an operand was read, that operand
is the one to go on from. -/
theorem Spelled.viable (h : Spelled s ts) : Viable ts := by
  by_cases hfocus : s.focus = .operand
  · -- An operand that is missing can be any number.
    have hnumber : Denotes .empty (.number .nan ⟨0, 0⟩) .nan := .number rfl
    obtain ⟨begun, hbegun, rfl⟩ := h.of_operand hfocus
    obtain ⟨after, hafter⟩ := hbegun.viable (derives_operand hnumber)
    exact ⟨.number .nan ⟨0, 0⟩ :: after, by simpa using hafter⟩
  · obtain ⟨begun, last, hbegun, hlast, rfl⟩ := h.of_read hfocus
    exact hbegun.viable hlast

/-- Behind an operand and outside parentheses, what was read is complete. -/
theorem Spelled.sentence (h : Spelled s ts) (henclosing : s.enclosing = [])
    (hfocus : s.focus ≠ .operand) : Sentence ts := by
  obtain ⟨begun, last, hbegun, hlast, rfl⟩ := h.of_read hfocus
  obtain ⟨around, ended, hinside, hended, hleaves⟩ := hbegun.exists_sequence hlast
  rw [henclosing] at hinside
  -- No parenthesis is open, so nothing was read around the sequence.
  cases hinside
  rw [hleaves]
  exact hended.sentence

/-- Where an operand is missing, a name can be one. So a variable that is
read there is read in the middle of a sentence. -/
theorem Spelled.viableReading (h : Spelled s ts) (hfocus : s.focus = .operand) (name : String)
    (span : Span) : ViableReading ts (.identifier name span) := by
  obtain ⟨begun, hbegun, rfl⟩ := h.of_operand hfocus
  exact hbegun.viableReading name span

/-- Behind an operand, a name can be another factor. So a variable without a
value is reported there as one, and not as a token that nothing goes on
with. -/
theorem Spelled.viableReading_of_ready {x : Number} (h : Spelled s ts) (hready : s.Ready x)
    (name : String) (span : Span) : ViableReading ts (.identifier name span) := by
  obtain ⟨begun, last, hbegun, hlast, rfl⟩ := h.of_read hready.focus_ne
  exact (hbegun.awaitFactor hlast x).viableReading name span

end States

/-! ### Runs that abort

A run that aborts finds nothing wrong up to where it stops, by induction
over the tokens. -/

section Runs

variable {setting : Setting} {s s' : State} {ts : List Token}

/-- Before the first token nothing was read. The induction over the tokens
begins here. -/
theorem spelled_initial (env : Environment) : Spelled { environment := env } [] := by
  have hbegun : Begun [] {} [] := .intro .outermost (opens_nil (by decide)) outlined_empty
  exact Spelled.operand (s := { environment := env }) hbegun rfl

/-- Tokens that find nothing wrong keep a state spelled. Induction over the
tokens, for every state and all the tokens read before. -/
theorem spelled_feedAll (hp : setting.policy = .abort) (us : List Token) :
    ∀ {s : State} {ts : List Token}, Spelled s ts → State.feedAll setting s us = .ok s' →
      Spelled s' (ts ++ us) := by
  induction us with
  | nil =>
      intro s ts h hrun
      obtain rfl := Except.ok.inj hrun
      simpa using h
  | cons t us ih =>
      intro s ts h hrun
      rw [State.feedAll_cons] at hrun
      obtain ⟨next, hstep, hrest⟩ := bind_eq_ok hrun
      simpa using ih (spelled_feed hp h hstep) hrest

/-- Where a text can end, a sentence was read. The three cases of the end:
in two of them the run fails. -/
theorem Spelled.sentence_of_ending (hp : setting.policy = .abort) (h : Spelled s ts) {stop : Nat}
    {p : Evaluation × Environment} (hend : s.ending setting stop = .ok p) : Sentence ts := by
  cases s.ending_cases with
  | missing focus =>
      rw [State.ending_of_operand focus, State.complain_abort hp] at hend
      cases hend
  | unboundName name offset focus unbound =>
      rw [State.ending_of_unbound focus unbound] at hend
      cases hend
  | ready x ready =>
      rw [State.ending_of_ready ready] at hend
      -- A parenthesis that is still open is complained about.
      cases henclosing : s.enclosing with
      | nil => exact h.sentence henclosing ready.focus_ne
      | cons waiting enclosing =>
          rw [State.endingWith_inside henclosing, State.complain_abort hp] at hend
          cases hend

/-- A run that aborts gives a value to sentences only. The variables do not
matter for it, as they decide no step but by their absence. -/
theorem sentence_of_ok (hp : setting.policy = .abort) {env : Environment} {tokens : List Token}
    {stop : Nat} {evaluation : Evaluation}
    (h : (evaluateTokens setting env tokens stop).result = .ok evaluation) : Sentence tokens := by
  rw [evaluateTokens_eq] at h
  obtain ⟨env', hrun⟩ := Outcome.ofRun_ok h
  obtain ⟨s, hread, hend⟩ := bind_eq_ok hrun
  have hspelled := spelled_feedAll hp tokens (spelled_initial env) hread
  exact hspelled.sentence_of_ending hp hend

end Runs

/-! ### Sentences and texts that are none

A run complains about the form of a text, or about a variable. Sentences are
never complained about for their form, so a complaint about it shows that
there is none. -/

/-- If the computation fails, it fails because of a variable. This is all
that can be wrong with a sentence. -/
def FailsUnbound (meaning : Except Failure (Number × Environment)) : Prop :=
  ∀ failure, meaning = .error failure →
    ∃ name offset, failure.error = .undefinedVariable name offset

/-- What does not fail fails for no other reason. For the leaves of a
derivation that have a value. -/
theorem failsUnbound_ok (p : Number × Environment) : FailsUnbound (.ok p) := by
  intro failure h
  cases h

/-- A computation fails because of a variable if both its halves do so when
they fail. -/
theorem FailsUnbound.bind {meaning : Except Failure (Number × Environment)}
    {next : Number × Environment → Except Failure (Number × Environment)} (h : FailsUnbound meaning)
    (hnext : ∀ p, FailsUnbound (next p)) : FailsUnbound (meaning >>= next) := by
  cases meaning with
  | error failure => exact h
  | ok p => exact hnext p

/-- A meaning never fails because of the form of a text. Induction on the
derivation; there is no other failure in `Expr.evaluate` than that of a
name. -/
theorem Expr.evaluate_failsUnbound (e : Expr) : ∀ env, FailsUnbound (e.evaluate env) := by
  have hboth : ∀ {operator : BinaryOperator} {left right : Expr},
      (∀ env, FailsUnbound (left.evaluate env)) → (∀ env, FailsUnbound (right.evaluate env)) →
      ∀ env, FailsUnbound (both operator left.evaluate right.evaluate env) :=
    fun hleft hright env => (hleft env).bind fun p => (hright p.2).bind fun _ => failsUnbound_ok _
  induction e with
  | number value span => exact fun env => failsUnbound_ok _
  | identifier name span =>
      intro env failure h
      rw [evaluate] at h
      split at h
      · cases h
      · obtain rfl := Except.error.inj h
        exact ⟨name, span.start, rfl⟩
  | group opening body closing ih => exact ih
  | negated mark body ih => exact fun env => (ih env).bind fun _ => failsUnbound_ok _
  | assignment name span mark body ih => exact fun env => (ih env).bind fun _ => failsUnbound_ok _
  | power base mark exponent ihbase ihexponent => exact hboth ihbase ihexponent
  | factors left right ihleft ihright => exact hboth ihleft ihright
  | product left sign mark right ihleft ihright => exact hboth ihleft ihright
  | sum left sign mark right ihleft ihright => exact hboth ihleft ihright
  | sequence first mark second ihfirst ihsecond => exact hboth ihfirst ihsecond

/-- Tokens about whose form a run complains are no sentence. For either
policy, since the run over a sentence is its meaning under both. -/
theorem not_sentence_of_malformed {setting : Setting} {env : Environment} {tokens : List Token}
    {stop : Nat} {d : Diagnostic}
    (h : (evaluateTokens setting env tokens stop).result = .error (.malformed d)) :
    ¬Sentence tokens := by
  rintro ⟨e, hvalid, rfl⟩
  rw [evaluateTokens_tokens setting env hvalid stop] at h
  cases hmeaning : e.evaluate env with
  | ok p => rw [hmeaning] at h; cases h
  | error failure =>
      rw [hmeaning] at h
      -- The failure would be about the form and about a variable.
      have hmalformed : failure.error = .malformed d := Except.error.inj h
      obtain ⟨name, offset, hunbound⟩ := e.evaluate_failsUnbound env failure hmeaning
      cases hmalformed.symm.trans hunbound

/-- Over any text, a run that aborts computes the meaning of the tokens if
they are a sentence, whichever derivation they are given, and gives no value
if they are none. The two halves are the two directions: from a derivation
to the run, and from a run that succeeds to a derivation. -/
theorem evaluate_abort (text : String) (env : Environment) :
    (∀ e : Expr, e.Valid → e.tokens = (Cursor.ofText text).tokens →
      evaluate .abort text env = .ofMeaning (e.evaluate env)) ∧
    (¬Sentence (Cursor.ofText text).tokens →
      ∀ evaluation, (evaluate .abort text env).result ≠ .ok evaluation) := by
  constructor
  · intro e hvalid htokens
    rw [evaluate, ← htokens]
    exact evaluateTokens_tokens _ env hvalid _
  · intro hnone evaluation hresult
    exact hnone (sentence_of_ok rfl hresult)

/-- A row of factors under a sign, behind an assignment that it reads, and a
text that ends where an operand is missing. -/
theorem evaluate_abort_instances :
    (evaluate .abort "a = 2; -3 a" .empty = .ofMeaning
      (Expr.evaluate
        (.sequence
          (.assignment "a" ⟨0, 1⟩ ⟨2, 3⟩ (.number (.double (Double.ofNumeral ['2'])) ⟨4, 5⟩)) ⟨5, 6⟩
          (.negated ⟨7, 8⟩
            (.factors (.number (.double (Double.ofNumeral ['3'])) ⟨8, 9⟩)
              (.identifier "a" ⟨10, 11⟩))))
        .empty)) ∧
    ∀ evaluation, (evaluate .abort "1 +" .empty).result ≠ .ok evaluation := by
  refine ⟨(evaluate_abort _ _).1 _ (by decide) (by decide +kernel), (evaluate_abort _ _).2 ?_⟩
  -- By evaluation the text is complained about, and a sentence never is.
  have hmalformed : (evaluate .abort "1 +" .empty).result
      = .error (.malformed (.unexpectedToken Kind.factorStarts .endOfInput 3)) := by decide +kernel
  exact not_sentence_of_malformed hmalformed

end DeskCalculator
