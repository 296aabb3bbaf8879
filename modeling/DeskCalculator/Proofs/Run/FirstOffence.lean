import DeskCalculator.Proofs.Run.Viable
import DeskCalculator.Proofs.Tokens.Stream

/-!
# `DeskCalculator.Proofs.Run.FirstOffence`: an error is where the text first goes wrong

When a run that aborts fails, the tokens before the one that it blames begin
a sentence. With that token they do not: if they did, the run over that
sentence would have stopped at the same token, and a sentence is never
complained about. A variable without a value is blamed at its own token even
though a name at the beginning of a statement is read one token later.

* `Blames`: which token a failing step is about.
* `spelled_feed_error`, `Spelled.ending_error`: a failing step, and a
  failing end, blame a token.
* `exists_blamed`: a failing run, over any tokens.
* `evaluate_abort_error`: the error of a whole text, with the number of the
  token that it is about.

The argument uses both directions of what is known about runs that abort.
That what was read begins a sentence is `Spelled.viable`, for which a
completion is built. That with the next token it does not is
`not_sentence_of_malformed`, for which none has to be ruled out by hand: it
would be read up to the same token and complained about there.
-/

set_option autoImplicit false

namespace DeskCalculator

open Text (byteLength)

/-- What a step that fails at the token `t`, with the tokens `read` before
it, is about: the form of the text at `t`, the variable that `t` names, or
the variable that the token before `t` names.

Only the first case is about the form. In the others the text may well go
on, which is what `ViableReading` says of the name. -/
inductive Blames (read : List Token) (t : Token) : EvalError → Prop where
  | malformed (d : Diagnostic) : d.offset = t.start → Blames read t (.malformed d)
  | unbound (name : String) :
      t.content = .identifier name → ViableReading read t →
        Blames read t (.undefinedVariable name t.start)
  | pending (name : String) (before : List Token) (u : Token) :
      read = before ++ [u] → u.content = .identifier name → ViableReading before u →
        Blames read t (.undefinedVariable name u.start)

section Steps

variable {setting : Setting} {s : State} {t : Token} {ts : List Token} {failure : Failure}

/-- A name whose fate was open blames its own token. It is the last one
read, and there is a sentence in which it is read as an operand. -/
theorem Spelled.blames_pending (h : Spelled s ts) {name : String} {offset : Nat}
    (hfocus : s.focus = .name name offset) (t : Token) :
    Blames ts t (.undefinedVariable name offset) := by
  obtain ⟨begun, span, hbegun, rfl, -, rfl⟩ := h.of_name hfocus
  exact .pending name _ _ rfl rfl (hbegun.viableReading name span)

/-- A token that fails blames itself, or the name before it. From
`State.feed_error`, which says why a token fails, and the spelled state,
which says what the tokens before it could become. -/
theorem spelled_feed_error (h : Spelled s ts) (hstep : State.feed setting s t = .error failure) :
    Blames ts t failure.error := by
  rcases State.feed_error hstep with ⟨herror, hplace⟩ | ⟨name, offset, hfocus, herror⟩
  · generalize failure.error = error at herror ⊢
    cases herror with
    | unbound name content =>
        refine .unbound name content ?_
        rw [Token.eq_identifier content]
        -- The name stands in the place of an operand, or beside one as
        -- another factor.
        rcases hplace with hfocus | ⟨x, hready⟩
        · exact h.viableReading hfocus name t.toSpan
        · exact h.viableReading_of_ready hready name t.toSpan
    | complaint expected hp => exact .malformed _ (setting.complaint_offset expected t)
    | leftover => exact .malformed _ (setting.leftover_offset t)
  · rw [herror]
    exact h.blames_pending hfocus t

/-- An end that fails blames the mark behind the last token, or the name
before it. The mark is blamed for what is missing, and the name for having
no value. -/
theorem Spelled.ending_error (h : Spelled s ts) {stop : Nat}
    (hend : s.ending setting stop = .error failure) :
    Blames ts (Token.endOfInput stop) failure.error := by
  rcases State.ending_error hend with ⟨-, expected, herror⟩ | ⟨name, offset, hfocus, herror⟩
  · rw [herror]
    exact .malformed _ (setting.complaint_offset expected _)
  · rw [herror]
    exact h.blames_pending hfocus _

end Steps

/-! ### The token that a run blames -/

/-- Tokens over which a run complains are the beginning of no sentence. No
hypothesis on the policy: a run that recovers fails only on what cannot be
repaired, and a sentence would not have it either. -/
theorem not_viable_of_malformed {setting : Setting} {env : Environment} {tokens : List Token}
    {failure : Failure} {d : Diagnostic} (hd : failure.error = .malformed d)
    (h : State.feedAll setting { environment := env } tokens = .error failure) :
    ¬Viable tokens := by
  rintro ⟨after, hsentence⟩
  -- What comes behind is not read, so the complaint is one about the whole
  -- sentence.
  have hmalformed : (evaluateTokens setting env (tokens ++ after) 0).result
      = .error (.malformed d) := by
    rw [evaluateTokens_eq, State.run_append, h]
    exact congrArg Except.error hd
  exact not_sentence_of_malformed hmalformed hsentence

/-- A run that aborts and fails blames one of its tokens or the mark behind
them. What was read before is viable, and with the token that a complaint is
about it is not. At the mark there is no token to add, so the statement is
that the text is not finished. -/
theorem exists_blamed {setting : Setting} (hp : setting.policy = .abort) {env : Environment}
    {tokens : List Token} {stop : Nat} {error : EvalError}
    (h : (evaluateTokens setting env tokens stop).result = .error error) :
    ∃ read t after, tokens ++ [Token.endOfInput stop] = read ++ t :: after ∧ Viable read ∧
      Blames read t error ∧ ∀ d, error = .malformed d →
        (t ∈ tokens ∧ ¬Viable (read ++ [t])) ∨ (t = Token.endOfInput stop ∧ ¬Sentence read) := by
  have hresult := h
  rw [evaluateTokens_eq] at hresult
  obtain ⟨failure, hrun, rfl⟩ := Outcome.ofRun_error hresult
  rcases bind_eq_error hrun with hfail | ⟨s, hread, hend⟩
  · -- The run fails at a token.
    obtain ⟨read, t, after, s, rfl, hread, hstep⟩ := State.feedAll_error tokens hfail
    have hspelled := spelled_feedAll hp read (spelled_initial env) hread
    refine ⟨read, t, after ++ [Token.endOfInput stop], by simp, hspelled.viable,
      spelled_feed_error hspelled hstep, ?_⟩
    have hstopped : State.feedAll setting { environment := env } (read ++ [t])
        = .error failure := by
      rw [State.feedAll_append, hread, ok_bind, State.feedAll_cons, hstep]
      rfl
    exact fun d hd => .inl ⟨by simp, not_viable_of_malformed hd hstopped⟩
  · -- It reads all of them and fails at the end.
    have hspelled := spelled_feedAll hp tokens (spelled_initial env) hread
    refine ⟨tokens, _, [], rfl, hspelled.viable, hspelled.ending_error hend, ?_⟩
    intro d hd
    exact .inr ⟨rfl, not_sentence_of_malformed (hd ▸ h)⟩

/-! ### Errors of a whole text -/

/-- The error is about the token number `k` of a text, which is `t`. No
other token starts at the place that it names. A complaint is about the
first token with which the text is no longer the beginning of a sentence; at
the mark, the text is one that is not finished. A variable without a value
is named by its token, where the text could go on with it as an operand. -/
structure FirstOffence (tokens : List Token) (error : EvalError) (k : Nat) (t : Token) : Prop where
  token : tokens[k]? = some t
  offset : t.start = error.offset
  unique : ∀ i u, tokens[i]? = some u → u.start = error.offset → i = k
  viable : Viable (tokens.take k)
  malformed : ∀ d, error = .malformed d →
    (t.kind ≠ .endOfInput → ¬Viable (tokens.take (k + 1))) ∧
      (t.kind = .endOfInput → ¬Sentence (tokens.take k))
  unbound : ∀ name offset, error = .undefinedVariable name offset →
    t.content = .identifier name ∧ ViableReading (tokens.take k) t

/-- A name that can be read as an operand has a beginning of a sentence
before it. The sentence that goes on with the name is one that begins with
what is before. -/
theorem ViableReading.viable {tokens : List Token} {t : Token} (h : ViableReading tokens t) :
    Viable tokens := by
  obtain ⟨e, hvalid, before, after, hleaves, rfl⟩ := h
  refine ⟨t :: after.map Leaf.token, e, hvalid, ?_⟩
  rw [← e.leaves_tokens, hleaves]
  simp

/-- Over any text, the error of a run that aborts is about the first token
at which the text goes wrong. What is left to do after `exists_blamed` is to
number the tokens of the text: the offset that an error names is the start
of one token only. -/
theorem evaluate_abort_error (text : String) (env : Environment) {error : EvalError}
    (h : (evaluate .abort text env).result = .error error) :
    ∃ k t, FirstOffence (tokenize text) error k t := by
  obtain ⟨read, t, after, htokens, hviable, hblames, hmalformed⟩ := exists_blamed rfl h
  have hall : tokenize text = read ++ t :: after := htokens
  -- The offset of the error tells the token, as no two tokens start at one
  -- place.
  have hunique : ∀ {k : Nat} {u : Token},
      (tokenize text)[k]? = some u → u.start = error.offset →
        ∀ (i : Nat) (v : Token), (tokenize text)[i]? = some v → v.start = error.offset → i = k :=
    fun hu hstart i v hv hoffset => eq_of_start_eq hv hu (hoffset.trans hstart.symm)
  cases hblames with
  | malformed d hoffset =>
      have htoken : (tokenize text)[read.length]? = some t := by simp [hall]
      refine ⟨read.length, t, htoken, hoffset.symm, hunique htoken hoffset.symm, by simpa [hall],
        ?_, fun _ _ h => by cases h⟩
      intro d' hd'
      have htake : (tokenize text).take (read.length + 1) = read ++ [t] := by
        rw [hall, List.take_length_add_append]
        rfl
      rw [htake, show (tokenize text).take read.length = read by simp [hall]]
      -- Only the mark behind the last token has its kind.
      rcases hmalformed d' hd' with ⟨hmem, hnone⟩ | ⟨rfl, hnone⟩
      · exact ⟨fun _ => hnone, fun hkind => absurd hkind (Cursor.kind_ne_endOfInput _ t hmem)⟩
      · exact ⟨fun hkind => absurd rfl hkind, fun _ => hnone⟩
  | unbound name hcontent hreading =>
      have htoken : (tokenize text)[read.length]? = some t := by simp [hall]
      refine ⟨read.length, t, htoken, rfl, hunique htoken rfl, by simpa [hall],
        (fun _ h => by cases h), ?_⟩
      rintro name' offset' heq
      obtain ⟨rfl, -⟩ := EvalError.undefinedVariable.inj heq
      exact ⟨hcontent, by simpa [hall] using hreading⟩
  | pending name before u hread hcontent hreading =>
      -- The name was read too late, so the error is about the token before
      -- the one that failed.
      subst hread
      have htoken : (tokenize text)[before.length]? = some u := by simp [hall]
      have htake : (tokenize text).take before.length = before := by simp [hall]
      refine ⟨before.length, u, htoken, rfl, hunique htoken rfl, ?_,
        (fun _ h => by cases h), ?_⟩
      · rw [htake]
        exact hreading.viable
      · rintro name' offset' heq
        obtain ⟨rfl, -⟩ := EvalError.undefinedVariable.inj heq
        rw [htake]
        exact ⟨hcontent, hreading⟩

/-- An operand that is missing, and a name that is read only at the token
after it. -/
theorem evaluate_abort_error_instances :
    (∃ k t, FirstOffence (tokenize "1 + * 2")
      (.malformed (.unexpectedToken Kind.factorStarts .star 4)) k t) ∧
    ∃ k t, FirstOffence (tokenize "a = 1; b)") (.undefinedVariable "b" 7) k t :=
  ⟨evaluate_abort_error _ .empty (by decide +kernel),
    evaluate_abort_error _ .empty (by decide +kernel)⟩

end DeskCalculator
