import DeskCalculator.Proofs.Run.Change
import DeskCalculator.Proofs.Tokens.Layout

/-!
# `DeskCalculator.Proofs.Run.Layout`: gaps do not matter

An evaluation depends on what its tokens carry and on the characters that
they cover. It depends on their places only in what it reports, and that is
always the start of one of them (`State.run_reports`). So a text with the
same lexemes behind other gaps is evaluated alike, and what is reported is
reported of the corresponding token (`evaluate_layout`).

Both parts use that moving the places of tokens moves what is reported and
nothing else (`Change.relocation`, in `Proofs.Run.Change`). For the first
part the places are moved that do *not* occur: the run stays as it is, so it
reports none of these. For the second part the starts of the tokens of one
text are moved to those of the other (`exists_place`).

What a text with other gaps is, and that its tokens carry the same, comes
from `Proofs.Tokens.Layout`.
-/

set_option autoImplicit false

namespace DeskCalculator

open Text (byteLength)

/-! ### What is reported -/

/-- Whatever a run reports is about one of the given places: the complaint
that a value comes with, or the failure. -/
def Reports (places : List Nat) : Except Failure (Evaluation × Environment) → Prop
  | .ok (evaluation, _) => ∀ d ∈ evaluation.diagnostic, d.offset ∈ places
  | .error failure => failure.error.offset ∈ places

/-- A run reports the starts of its tokens and of the mark, and no other
places. No induction: the run is not changed by moving all other places, so
it cannot mention them. -/
theorem State.run_reports (setting : Setting) (stop : Nat) (env : Environment)
    (tokens : List Token) :
    Reports ((tokens ++ [Token.endOfInput stop]).map (·.start))
      (run setting stop { environment := env } tokens) := by
  let starts := (tokens ++ [Token.endOfInput stop]).map (·.start)
  -- If every other place is moved on by one, the run stays as it is.
  let place : Nat → Nat := fun offset => if offset ∈ starts then offset else offset + 1
  have hfixed : ∀ {offset : Nat}, place offset = offset → offset ∈ starts := by
    intro offset h
    by_contra hother
    have hmoved : place offset = offset + 1 := if_neg hother
    omega
  have hcarries : ∀ t ∈ tokens ++ [Token.endOfInput stop],
      (Change.relocation place).Carries setting setting t t := by
    intro t ht
    have hstart : place t.start = t.start := if_pos (List.mem_map_of_mem ht)
    exact Change.carries_relocation rfl rfl hstart.symm fun _ => rfl
  have hrun := run_change
    (List.forall₂_same.mpr fun t ht => hcarries t (List.mem_append_left _ ht))
    (hcarries _ (List.mem_append_right _ List.mem_cons_self)) { environment := env }
  change run setting stop { environment := env } tokens = _ at hrun
  cases h : run setting stop { environment := env } tokens with
  | ok p =>
      rw [h] at hrun
      have hdiagnostic : p.1.diagnostic = p.1.diagnostic.map (Diagnostic.relocate place) :=
        congrArg (fun p => p.1.diagnostic) (Except.ok.inj hrun)
      intro d hd
      rw [Option.mem_def.mp hd] at hdiagnostic
      have hsame := congrArg Diagnostic.offset (Option.some.inj hdiagnostic)
      exact hfixed ((d.offset_relocate place).symm.trans hsame.symm)
  | error failure =>
      rw [h] at hrun
      have hsame : failure.error.offset = (failure.error.relocate place).offset :=
        congrArg (fun failure => failure.error.offset) (Except.error.inj hrun)
      exact hfixed ((failure.error.offset_relocate place).symm.trans hsame.symm)

/-- Tokens that start one after the other can be moved to the starts of any
others. A function on places is enough for this, as no two of them start at
the same one. Induction on the tokens. -/
theorem exists_place {ts : List Token} (h : ts.Pairwise fun t u => t.start < u.start)
    (us : List Token) :
    ∃ place : Nat → Nat, ∀ pair ∈ ts.zip us, pair.2.start = place pair.1.start := by
  induction ts generalizing us with
  | nil => exact ⟨id, fun pair hpair => by cases hpair⟩
  | cons t ts ih =>
      cases us with
      | nil => exact ⟨id, fun pair hpair => by cases hpair⟩
      | cons u us =>
          obtain ⟨hfirst, hothers⟩ := List.pairwise_cons.mp h
          obtain ⟨place, hplace⟩ := ih hothers us
          refine ⟨Function.update place t.start u.start, fun pair hpair => ?_⟩
          rcases List.mem_cons.mp hpair with rfl | hpair
          · rw [Function.update_self]
          · have hlt := hfirst pair.1 (List.of_mem_zip hpair).1
            rw [Function.update_of_ne (Nat.ne_of_gt hlt)]
            exact hplace pair hpair

/-! ### Evaluations of texts with the same lexemes -/

/-- The same result for tokens that stand elsewhere. What is reported at the
start of a token is reported at the start of the one that is paired with it;
everything else of a report is the same, also the characters that it
quotes. -/
inductive Corresponds (pairs : List (Token × Token)) :
    Except EvalError Evaluation → Except EvalError Evaluation → Prop where
  | value (x : Number) : Corresponds pairs (.ok ⟨x, none⟩) (.ok ⟨x, none⟩)
  | recovered (x : Number) {d : Diagnostic} {t t' : Token} (pair : (t, t') ∈ pairs)
      (offset : t.start = d.offset) :
      Corresponds pairs (.ok ⟨x, some d⟩) (.ok ⟨x, some (d.relocate fun _ => t'.start)⟩)
  | failed {error : EvalError} {t t' : Token} (pair : (t, t') ∈ pairs)
      (offset : t.start = error.offset) :
      Corresponds pairs (.error error) (.error (error.relocate fun _ => t'.start))

/-- A run over tokens that stand elsewhere has a corresponding result, and
leaves the same variables. The run is taken as it is and moved as a whole,
by `place`; only the report has a place in it. -/
theorem Corresponds.of_reports {pairs : List (Token × Token)} {place : Nat → Nat}
    (hplace : ∀ pair ∈ pairs, pair.2.start = place pair.1.start)
    {run : Except Failure (Evaluation × Environment)}
    (h : Reports (pairs.map (·.1.start)) run) :
    let moved := (Change.relocation place).result (Change.relocation place).outcome run
    (Outcome.ofRun moved).environment = (Outcome.ofRun run).environment ∧
      Corresponds pairs (Outcome.ofRun run).result (Outcome.ofRun moved).result := by
  intro moved
  cases run with
  | ok p =>
      obtain ⟨⟨x, diagnostic⟩, env⟩ := p
      refine ⟨rfl, ?_⟩
      cases diagnostic with
      | none => exact .value x
      | some d =>
          obtain ⟨pair, hpair, hstart⟩ := List.mem_map.mp (h d rfl)
          have hmoved : d.relocate place = d.relocate fun _ => pair.2.start := by
            rw [d.relocate_eq place, hplace pair hpair, hstart]
          show Corresponds pairs (.ok ⟨x, some d⟩) (.ok ⟨x, some (d.relocate place)⟩)
          rw [hmoved]
          exact .recovered x hpair hstart
  | error failure =>
      obtain ⟨pair, hpair, hstart⟩ := List.mem_map.mp h
      refine ⟨rfl, ?_⟩
      have hmoved : failure.error.relocate place
          = failure.error.relocate fun _ => pair.2.start := by
        rw [failure.error.relocate_eq place, hplace pair hpair, hstart]
      show Corresponds pairs (.error failure.error) (.error (failure.error.relocate place))
      rw [hmoved]
      exact .failed hpair hstart

/-- Texts whose tokens carry the same and cover the same characters are
evaluated alike. The hypothesis on the characters is for complaints about
unknown ones, which quote them. -/
theorem evaluate_corresponds {text text' : String}
    (hcontents : (tokenize text').map Token.content = (tokenize text).map Token.content)
    (hslices : (tokenize text').map (slice text') = (tokenize text).map (slice text))
    (policy : Policy) (env : Environment) :
    (evaluate policy text' env).environment = (evaluate policy text env).environment ∧
      Corresponds ((tokenize text).zip (tokenize text')) (evaluate policy text env).result
        (evaluate policy text' env).result := by
  let pairs := (tokenize text).zip (tokenize text')
  let tokens := (Cursor.ofText text).tokens
  let tokens' := (Cursor.ofText text').tokens
  let stop := byteLength text.toList
  let stop' := byteLength text'.toList
  have hlength : (tokenize text').length = (tokenize text).length := by
    simpa using congrArg List.length hcontents
  have hcount : tokens.length = tokens'.length := by
    simpa [tokenize] using hlength.symm
  have hsplit : pairs = tokens.zip tokens' ++ [(Token.endOfInput stop, Token.endOfInput stop')] :=
    List.zip_append hcount
  obtain ⟨place, hplace⟩ := exists_place (tokenize_ordered text) (tokenize text')
  -- The two runs are over tokens that carry the same, at other places.
  have hcarries : ∀ {t t' : Token}, (t, t') ∈ pairs →
      (Change.relocation place).Carries ⟨policy, text.toList⟩ ⟨policy, text'.toList⟩ t t' := by
    intro t t' hpair
    have hcontent := (List.forall₂_iff_zip.mp (forall₂_of_map_eq hcontents.symm)).2 hpair
    have hslice := (List.forall₂_iff_zip.mp (forall₂_of_map_eq hslices.symm)).2 hpair
    exact Change.carries_relocation rfl hcontent.symm (hplace _ hpair) fun _ =>
      congrArg String.ofList hslice.symm
  have htokens : List.Forall₂
      ((Change.relocation place).Carries ⟨policy, text.toList⟩ ⟨policy, text'.toList⟩)
      tokens tokens' :=
    List.forall₂_iff_zip.mpr
      ⟨hcount, fun hpair => hcarries (hsplit ▸ List.mem_append_left _ hpair)⟩
  have hmark := hcarries (hsplit ▸ List.mem_append_right _ List.mem_cons_self)
  have hrun := State.run_change htokens hmark { environment := env }
  change State.run _ stop' { environment := env } tokens' = _ at hrun
  have hreports := State.run_reports ⟨policy, text.toList⟩ stop env tokens
  -- The places that a run can report are the starts of the pairs, and each
  -- pair has its own.
  have hstarts : (tokens ++ [Token.endOfInput stop]).map (·.start) = pairs.map (·.1.start) := by
    have hfirst : pairs.map Prod.fst = tokenize text := List.map_fst_zip hlength.ge
    rw [show tokens ++ [Token.endOfInput stop] = pairs.map Prod.fst from hfirst.symm, List.map_map]
    rfl
  rw [hstarts] at hreports
  rw [evaluate, evaluate, evaluateTokens_eq, evaluateTokens_eq, hrun]
  exact Corresponds.of_reports hplace hreports

/-- A text with the same lexemes behind other gaps has tokens that carry the
same, where their lexemes were put, and is evaluated alike, with any policy
and any variables. -/
theorem evaluate_layout {text : String} {pieces : List (List Char × List Char)}
    (h : Spacing text pieces) :
    let text' := String.ofList (layout pieces)
    (tokenize text').map Token.content = (tokenize text).map Token.content ∧
      (tokenize text').map Token.toSpan = spans 0 pieces ∧
      ∀ (policy : Policy) (env : Environment),
        (evaluate policy text' env).environment = (evaluate policy text env).environment ∧
          Corresponds ((tokenize text).zip (tokenize text')) (evaluate policy text env).result
            (evaluate policy text' env).result := by
  intro text'
  obtain ⟨hcontents, hspans, hslices⟩ := tokenize_layout h
  exact ⟨hcontents, hspans, evaluate_corresponds hcontents hslices⟩

/-- The point that begins no fraction is found where the lexer turned back,
and stays alone. -/
theorem evaluate_layout_instance :
    let pieces := [([' '], ['1']), (['\t'], ['.']), ([' ', ' '], ['.', '5']), ([], [])]
    let text' := String.ofList (layout pieces)
    (tokenize text').map Token.toSpan = [⟨1, 2⟩, ⟨3, 4⟩, ⟨6, 8⟩, ⟨8, 8⟩] ∧
      Corresponds ((tokenize "1..5").zip (tokenize text')) (evaluate .abort "1..5" .empty).result
        (evaluate .abort text' .empty).result := by
  intro pieces text'
  have hspacing : Spacing "1..5" pieces :=
    ⟨by decide +kernel, by simp [pieces], by simp [pieces]⟩
  obtain ⟨-, hspans, hevaluate⟩ := evaluate_layout hspacing
  exact ⟨hspans.trans (by decide), (hevaluate .abort .empty).2⟩

end DeskCalculator
