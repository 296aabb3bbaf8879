import DeskCalculator.Proofs.CommandLine.Listing
import DeskCalculator.Proofs.Run.Described
import Mathlib.Data.List.Forall2

/-!
# `DeskCalculator.Proofs.CommandLine.Account`: what a script writes accounts for its lines

A script writes one line of output for each of its lines that has a value,
and one line of complaint for each that fails or is put up with. This is
said of what is written, so the lines must be found in it again: nothing
that is written has an end mark of its own, since a line that is evaluated
has none, and an error quotes nothing else.

* `OneLine`: a text without end marks. `Diagnostic.Describes.oneLine`,
  `EvalError.Describes.oneLine` and `Number.oneLine_text` say so of messages
  and values.
* `sayable_calculate` is the step, for one evaluation, and `sayable_history`
  the run.
* `script_accounts`: the lines of output and of complaint of a script, and
  its status.

What may be quoted is known from what errors and complaints describe
(`Proofs/Run/Described.lean`): a name that was read, or a character of the
line. For an arbitrary value of `Diagnostic` it would be false, as the
lexeme in it could be anything. In the same way, a name that is listed is an
identifier because the variables are those of evaluations.
-/

set_option autoImplicit false

namespace DeskCalculator

/-! ### Texts that are one line

What has no end mark is found again as one line, where lines were put
together. `OneLine` is decidable, so the fixed words of messages are checked
by evaluation. -/

/-- There is no end mark in the text. A carriage return may be in it: the
lines of what is written are cut at newlines alone. -/
def OneLine (s : String) : Prop := '\n' ∉ s.toList

instance (s : String) : Decidable (OneLine s) := inferInstanceAs (Decidable ('\n' ∉ s.toList))

/-- Texts that are put together are one line if each of them is. With this
`simp` goes through the pieces of a message. -/
@[simp] theorem oneLine_append {a b : String} : OneLine (a ++ b) ↔ OneLine a ∧ OneLine b := by
  unfold OneLine
  rw [String.toList_append, List.mem_append, not_or]

/-- A place is written in digits, and no digit ends a line. -/
@[simp] theorem oneLine_repr (n : Nat) : OneLine n.repr := by
  intro hmem
  rw [Nat.repr, String.toList_ofList] at hmem
  exact absurd (Nat.isDigit_of_mem_toDigits (by decide) (by decide) hmem) (by decide)

/-- A message is one line if what it says of its place is. Both kinds of
errors are written by this one function. -/
@[simp] theorem oneLine_messageAt {offset : Nat} {s : String} :
    OneLine (messageAt offset s) ↔ OneLine s := by
  have hbegin : OneLine "Error at offset " := by decide
  have hbetween : OneLine ": " := by decide
  unfold messageAt
  rw [oneLine_append, oneLine_append, oneLine_append]
  exact ⟨fun h => h.2, fun h => ⟨⟨⟨hbegin, oneLine_repr offset⟩, hbetween⟩, h⟩⟩

/-- What a kind is called is one line, for every kind. Decided by going
through them. -/
@[simp] theorem Kind.oneLine_describe (kind : Kind) : OneLine kind.describe := by
  cases kind <;> decide

/-- A spelling is one line, and so is a name. An end mark is a character
that no rule of the lexer takes. -/
theorem oneLine_of_spells {kind : Kind} {s : String} (h : Lexeme.Spells kind s.toList) :
    OneLine s := by
  intro hmem
  exact absurd (CommandLine.not_isLineEnd_of_spells h _ hmem) (by decide)

/-- A value is written in one line. Its characters are digits, a point, a
sign or the letters of a word. -/
theorem Number.oneLine_text (x : Number) : OneLine x.text := by
  intro hmem
  rw [Number.text, Double.text, String.toList_ofList] at hmem
  exact absurd (CommandLine.not_isLineEnd_of_mem_chars _ _ hmem) (by decide)

/-! ### Messages

What a message quotes is a character of the text or the name of a variable,
and both are without end marks if the text is. -/

/-- A message begins with its place, whatever it says of it. The place is
that of the error, so the line tells it. -/
theorem messageAt_begins (offset : Nat) (s : String) :
    "Error at offset ".toList <+: (messageAt offset s).toList := by
  unfold messageAt
  simp only [String.toList_append, List.append_assoc]
  exact List.prefix_append _ _

/-- A complaint about a text that is one line is one line. The only piece of
the text that it quotes is a character. -/
theorem Diagnostic.Describes.oneLine {text : String} (htext : OneLine text) {t : Token}
    {d : Diagnostic} (h : d.Describes text t) : OneLine d.message := by
  cases h with
  | operand found =>
      simp +decide [message]
  | closing found =>
      simp +decide [message]
  | @character before c rest found covers =>
      -- The character stands in the text between what is before the token
      -- and what is behind it.
      have hquoted : OneLine (String.ofList [c]) := by
        intro hmem
        rw [String.toList_ofList] at hmem
        refine htext ?_
        rw [covers.split]
        exact List.mem_append_right _ (List.mem_append_left _ hmem)
      exact oneLine_messageAt.mpr (oneLine_append.mpr ⟨oneLine_append.mpr ⟨by decide, hquoted⟩,
        by decide⟩)
  | trailing found => simp +decide [message]

/-- An error about a text that is one line is one line. The name of a
variable is a spelling, as the token that is described is one of the
text. -/
theorem EvalError.Describes.oneLine {text : String} (htext : OneLine text) {t : Token}
    (ht : t ∈ tokenize text) {error : EvalError} (h : error.Describes text t) :
    OneLine error.message := by
  cases h with
  | malformed describes => exact describes.oneLine htext
  | @unbound name content =>
      have hname : OneLine name := by
        -- The mark at the end is no name.
        rcases List.mem_append.mp ht with ht | ht
        · obtain ⟨lexeme, rest, hlexed⟩ := Cursor.lexed_of_mem t ht
          rw [content] at hlexed
          exact oneLine_of_spells hlexed.spells_name.2
        · rw [List.mem_singleton.mp ht] at content
          cases content
      simp +decide [message, hname]

/-- The message of a complaint begins with its place. Complaints are
reported in two ways, as an error and beside a value, and both use this. -/
theorem Diagnostic.begins (d : Diagnostic) :
    "Error at offset ".toList <+: d.message.toList := by
  cases d <;> exact messageAt_begins _ _

/-- So does that of an error. This is how a line of complaint can be told
from a warning. -/
theorem EvalError.begins (error : EvalError) :
    "Error at offset ".toList <+: error.message.toList := by
  cases error with
  | malformed d => exact d.begins
  | undefinedVariable name offset => exact messageAt_begins _ _

/-! ### Evaluations

Texts are evaluated one after the other by one calculator. What is said
about each of them depends on the result and on the calculator after it. -/

namespace Calculator

/-- The result of an evaluation, and the calculator after it. Everything
that is written about a line depends on these two. -/
abbrev Step := Except EvalError Number × Calculator

/-- The evaluations of texts one after the other. Each has the outcome and
the calculator after it, which is all that a run reports of. -/
def history : Calculator → List String → List Step
  | _, [] => []
  | c, text :: texts => c.calculate text :: (c.calculate text).2.history texts

end Calculator

/-- What can be said about an evaluation is all in one line: its value or
its error, and the complaint that was put up with. The variables are those
of evaluations, which is what makes their list one line for each, and is
what the next evaluation starts from. -/
structure Sayable (step : Calculator.Step) : Prop where
  value : ∀ x, step.1 = .ok x → OneLine x.text
  error : ∀ error, step.1 = .error error → OneLine error.message
  diagnostic : ∀ d, step.2.diagnostic = some d → OneLine d.message
  reachable : step.2.environment.Reachable

/-- What is said about an evaluation is in one line each if the text is one
line: a failure is about a token of the text, and so is a complaint that was
put up with. -/
theorem sayable_calculate {c : Calculator} (hc : c.environment.Reachable) {text : String}
    (htext : OneLine text) : Sayable (c.calculate text) := by
  have hreachable := Environment.Reachable.calculate c text hc
  have hrun : Accurate text (fun p => ∀ d, p.1.diagnostic = some d → d.Described text)
      (c.run text) := State.run_accurate c.options.policy text c.initial
  -- The calculator is opened at its run, since only that has the complaint
  -- together with its token.
  cases h : c.run text with
  | ok p =>
      rw [h] at hrun
      rw [Calculator.calculate_of_ok h] at hreachable ⊢
      refine ⟨fun x _ => x.oneLine_text, fun _ herror => (nomatch herror), fun d hd => ?_,
        hreachable⟩
      obtain ⟨t, -, hdescribes⟩ := hrun d hd
      exact hdescribes.oneLine htext
  | error failure =>
      rw [h] at hrun
      rw [Calculator.calculate_of_error h] at hreachable ⊢
      refine ⟨fun _ hx => (nomatch hx), fun error herror => ?_, fun d hd => (nomatch hd),
        hreachable⟩
      obtain ⟨t, ht, hdescribes⟩ := hrun.described
      exact Except.error.inj herror ▸ hdescribes.oneLine htext ht

/-- So it is of one text after the other. Induction over the texts: each
evaluation leaves variables that evaluations lead to. -/
theorem sayable_history {texts : List String} (htexts : ∀ text ∈ texts, OneLine text) :
    ∀ {c : Calculator}, c.environment.Reachable → ∀ step ∈ c.history texts, Sayable step := by
  induction texts with
  | nil =>
      intro c _ step hstep
      cases hstep
  | cons text texts ih =>
      intro c hc step hstep
      obtain ⟨htext, htexts⟩ := List.forall_mem_cons.mp htexts
      have hfirst := sayable_calculate hc htext
      rcases List.mem_cons.mp hstep with rfl | hstep
      · exact hfirst
      · exact ih htexts hfirst.reachable step hstep

namespace CommandLine

/-! ### Lines about evaluations

The lines that are written about one evaluation, as functions of it, and
what they begin with. -/

section Lines

variable (listed : Bool) (step : Calculator.Step)

/-- The lines of output about an evaluation: its value, if it has one, and
the list of the variables if it is asked for. The variables are listed after
a failure as well. -/
def said : List String :=
  step.1.toOption.toList.map Number.text ++ if listed then listing step.2.environment else []

/-- The line of complaint about an evaluation, if there is anything to
complain about. There is never more than one, as a calculator keeps no
complaint from an evaluation that fails. -/
def complaint? : Option String :=
  match step.1 with
  | .error error => some error.message
  | .ok _ => step.2.diagnostic.map fun d => "warning: " ++ d.message

/-- How the line of complaint about an evaluation has to begin: a failure
with its place, and what was put up with as a warning. -/
def beginning? : Option String :=
  match step.1 with
  | .error _ => some "Error at offset "
  | .ok _ => step.2.diagnostic.map fun _ => "warning: Error at offset "

/-- What is said about an evaluation. That the program says just this is
`evaluateLine_fst`. -/
def report : Report :=
  { output := said listed step
    errors := (complaint? step).toList
    succeeded := step.1.isOk }

variable {listed step}

/-- Every line of output is one line. So the output can be cut into as many
lines again as were written. -/
theorem oneLine_of_mem_said (h : Sayable step) : ∀ line ∈ said listed step, OneLine line := by
  intro line hline
  rcases List.mem_append.mp hline with hline | hline
  · obtain ⟨x, -, rfl⟩ := List.mem_map.mp hline
    exact x.oneLine_text
  · split at hline
    · obtain ⟨b, hb, rfl⟩ := List.mem_map.mp hline
      have hname := oneLine_of_spells (h.reachable.forall_bindings b hb).1
      simp +decide [hname, b.2.oneLine_text]
    · cases hline

/-- The line of complaint is one line, the same for the error output. -/
theorem oneLine_of_complaint? (h : Sayable step) : ∀ line ∈ complaint? step, OneLine line := by
  intro line hline
  unfold complaint? at hline
  split at hline
  · next error herror =>
      obtain rfl := Option.some.inj hline
      exact h.error error herror
  · obtain ⟨d, hd, rfl⟩ := Option.map_eq_some_iff.mp hline
    exact oneLine_append.mpr ⟨by decide, h.diagnostic d hd⟩

/-- There is a line of complaint just where one has to begin, and it begins
like that. -/
theorem complaint?_begins (step : Calculator.Step) :
    Option.Rel (fun beginning line => beginning.toList <+: line.toList) (beginning? step)
      (complaint? step) := by
  unfold beginning? complaint?
  split
  · next error herror => exact .some error.begins
  · cases step.2.diagnostic with
    | none => exact .none
    | some d =>
        have hbegin : "warning: Error at offset ".toList
            = "warning: ".toList ++ "Error at offset ".toList := by decide
        refine .some ?_
        rw [String.toList_append, hbegin]
        exact (List.prefix_append_right_inj _).mpr d.begins

/-- A line of complaint is a warning if the evaluation did not fail. It is
stated for the line with its end mark, as it is found in what was
written. -/
theorem warning_iff {line : String} (h : complaint? step = some line) :
    "warning: ".toList <+: line.toList ++ ['\n'] ↔ step.1.isOk = true := by
  obtain ⟨error | x, c⟩ := step
  · obtain rfl := Option.some.inj h
    refine ⟨fun hwarning => ?_, fun hok => nomatch hok⟩
    -- An error begins with other words.
    have hbegins := error.begins.trans (List.prefix_append _ ['\n'])
    have hboth := List.prefix_of_prefix_length_le hwarning hbegins (by decide)
    exact absurd hboth (by decide)
  · obtain ⟨d, -, rfl⟩ := Option.map_eq_some_iff.mp h
    rw [String.toList_append, List.append_assoc]
    exact ⟨fun _ => rfl, fun _ => List.prefix_append _ _⟩

end Lines

/-- What is said about a line is the report on the evaluation of its text.
Separates what is computed from how it is written. -/
theorem evaluateLine_fst (mode : Mode) (c : Calculator) (text : String) :
    (evaluateLine mode c text).1 = report mode.listing (c.calculate text) := by
  unfold evaluateLine
  generalize c.calculate text = outcome
  obtain ⟨error | value, next⟩ := outcome <;> rfl

/-- What is said about texts one after the other is what is to be said about
their evaluations. -/
theorem reports_eq (mode : Mode) (texts : List (List Char)) :
    ∀ c : Calculator, (reports mode c texts).1
      = (c.history (texts.map String.ofList)).map (report mode.listing) := by
  induction texts with
  | nil => intro c; rfl
  | cons text texts ih =>
      intro c
      rw [reports, ih, evaluateLine_fst, evaluateLine_snd, List.map_cons, Calculator.history,
        List.map_cons]

/-- What is written accounts for the evaluations. Each field is about the
lines of the transcript as a reader finds them, cut behind each end mark. -/
structure Accounts (listed : Bool) (history : List Calculator.Step) (t : Transcript) : Prop where
  /-- The lines of output are those about the evaluations, in order, each
  with an end mark. -/
  output : Text.lines t.output.toList =
    (history.flatMap (said listed)).map fun line => line.toList ++ ['\n']
  /-- There is one for each evaluation that has a value. -/
  values : listed = false →
    (Text.lines t.output.toList).length = history.countP fun step => step.1.isOk
  /-- And one for each variable after each evaluation, if the variables are
  listed. -/
  bindings : listed = true → (Text.lines t.output.toList).length =
    (history.countP fun step => step.1.isOk) +
      (history.map fun step => step.2.environment.size).sum
  /-- The lines of complaint are those about the evaluations, in order, each
  with an end mark. -/
  errors : Text.lines t.errors.toList =
    (history.filterMap complaint?).map fun line => line.toList ++ ['\n']
  /-- They begin with a place where an evaluation failed, and as a warning
  where it did not. -/
  beginnings : List.Forall₂ (fun beginning line => beginning.toList <+: line)
    (history.filterMap beginning?) (Text.lines t.errors.toList)
  /-- No value and no message has an end mark in it. -/
  oneLine : ∀ step ∈ history, (∀ x, step.1 = .ok x → OneLine x.text) ∧
    (∀ error, step.1 = .error error → OneLine error.message) ∧
    ∀ d, step.2.diagnostic = some d → OneLine d.message
  status : t.status = 0 ↔ ∀ line ∈ Text.lines t.errors.toList, "warning: ".toList <+: line

section Account

variable (listed : Bool) {history : List Calculator.Step}

/-- As many lines of output as there are values, and variables if they are
listed. Induction over the evaluations. -/
theorem length_said (history : List Calculator.Step) :
    (history.flatMap (said listed)).length = (history.countP fun step => step.1.isOk) +
      if listed then (history.map fun step => step.2.environment.size).sum else 0 := by
  induction history with
  | nil => cases listed <;> rfl
  | cons step history ih =>
      have hfirst : (said listed step).length = (if step.1.isOk then 1 else 0) +
          if listed then step.2.environment.size else 0 := by
        obtain ⟨error | x, c⟩ := step <;> cases listed <;>
          simp [said, Except.toOption, Except.isOk, Except.toBool, listing, Environment.size,
            Nat.add_comm]
      rw [List.flatMap_cons, List.length_append, ih, hfirst, List.countP_cons, List.map_cons,
        List.sum_cons]
      -- Without a list, the variables are not counted.
      cases listed with
      | false => simp; omega
      | true => simp; omega

/-- What is put together from the reports on evaluations accounts for them.
It is here that lines are found again in what was written: `lines_unlines`
needs each of them to be one line, which is `Sayable`. -/
theorem accounts_reports (h : ∀ step ∈ history, Sayable step) :
    let said := history.map (report listed)
    Accounts listed history
      { output := unlines (said.flatMap Report.output)
        errors := unlines (said.flatMap Report.errors)
        status := statusOf (said.all Report.succeeded) } := by
  intro all
  have houtput : Text.lines (unlines (all.flatMap Report.output)).toList
      = (history.flatMap (said listed)).map fun line => line.toList ++ ['\n'] := by
    rw [List.flatMap_map]
    refine lines_unlines fun line hline => ?_
    obtain ⟨step, hstep, hline⟩ := List.mem_flatMap.mp hline
    exact oneLine_of_mem_said (h step hstep) line hline
  have herrors : Text.lines (unlines (all.flatMap Report.errors)).toList
      = (history.filterMap complaint?).map fun line => line.toList ++ ['\n'] := by
    rw [List.flatMap_map, List.filterMap_eq_flatMap_toList]
    refine lines_unlines fun line hline => ?_
    obtain ⟨step, hstep, hline⟩ := List.mem_flatMap.mp hline
    exact oneLine_of_complaint? (h step hstep) line (Option.mem_toList.mp hline)
  refine
    { output := houtput
      values := fun hlisted => ?_
      bindings := fun hlisted => ?_
      errors := herrors
      beginnings := ?_
      oneLine := fun step hstep => ⟨(h step hstep).value, (h step hstep).error,
        (h step hstep).diagnostic⟩
      status := ?_ }
  · rw [houtput, List.length_map, length_said, hlisted]
    rfl
  · rw [houtput, List.length_map, length_said, hlisted]
    rfl
  · -- Both lists come from one history, and have a member for the same
    -- evaluations.
    rw [herrors, List.forall₂_map_right_iff]
    have hbegins : List.Forall₂ (fun beginning line => beginning.toList <+: line.toList)
        (history.filterMap beginning?) (history.filterMap complaint?) := by
      refine List.rel_filterMap (R := (· = ·)) ?_ (List.forall₂_refl history)
      rintro step _ rfl
      exact complaint?_begins step
    exact hbegins.imp fun _ _ h => h.trans (List.prefix_append _ _)
  · show statusOf (all.all Report.succeeded) = 0 ↔ _
    rw [statusOf_eq_zero, List.all_map, List.all_eq_true, herrors]
    constructor
    · intro hok _ hmem
      obtain ⟨line, hline, rfl⟩ := List.mem_map.mp hmem
      obtain ⟨step, hstep, hline⟩ := List.mem_filterMap.mp hline
      exact (warning_iff hline).mpr (hok step hstep)
    · intro hwarnings step hstep
      cases hcomplaint : complaint? step with
      | none =>
          -- Every failure is complained about.
          obtain ⟨error | x, c⟩ := step
          · cases hcomplaint
          · rfl
      | some line =>
          exact (warning_iff hcomplaint).mp <| hwarnings _ <| List.mem_map_of_mem <|
            List.mem_filterMap.mpr ⟨step, hstep, hcomplaint⟩

end Account

/-- What a script writes accounts for each of its lines. For each line that
is not blank, and for no other, there is a line of output if it has a value,
and a line of complaint if it fails or if something in it is put up with;
the first words of it say which. If the variables are listed, there is a
line for each of them after each of these lines. Nothing that is written has
an end mark in it, and the status is that of success just where all
complaints are warnings. -/
theorem script_accounts (mode : Mode) (file : String → Option ByteArray) (path : String)
    {bytes : ByteArray} (hfile : file path = some bytes) (input : ByteArray) {text : List Char}
    (htext : Text.decode? bytes.toList = some text) :
    Accounts mode.listing (mode.calculator.history ((Text.entries text).map String.ofList))
      (run file (mode.arguments ++ ["--file", "--", path]) input) := by
  have hentries : ∀ entry ∈ (Text.entries text).map String.ofList, OneLine entry := by
    rintro _ hentry
    obtain ⟨line, hline, rfl⟩ := List.mem_map.mp hentry
    unfold OneLine
    rw [String.toList_ofList]
    exact Text.not_mem_of_mem_entries hline
  -- A run starts without variables.
  have hsayable := sayable_history hentries (c := mode.calculator) .empty
  rw [run_script_text file mode input hfile htext, runLines_eq, reports_eq, Bool.true_and,
    String.empty_append, String.empty_append]
  exact accounts_reports mode.listing hsayable

/-- Three lines and a blank one, with the variables listed: the first one
has a value, the second one fails, and the third one lacks an operand, which
is put up with. The variable is listed each time. -/
theorem script_accounts_recovered :
    let bytes := (Text.encode ['a', '=', '1', '\n', '\n', 'b', '\n', '1', '+', '*']).toByteArray
    let t := run (fun _ => some bytes) ["--recover", "--vars", "--file", "--", "-"] default
    (Text.lines t.output.toList).length = 2 + 3 ∧ (Text.lines t.errors.toList).length = 2 := by
  intro bytes t
  have htext : Text.decode? bytes.toList
      = some ['a', '=', '1', '\n', '\n', 'b', '\n', '1', '+', '*'] := by
    rw [Text.toList_toByteArray, Text.decode?_encode]
  have haccounts := script_accounts ⟨⟨.substituteNan, true⟩, true⟩ (fun _ => some bytes) "-" rfl
    default htext
  refine ⟨(haccounts.bindings rfl).trans (by decide +kernel), ?_⟩
  have herrors := congrArg List.length haccounts.errors
  rw [List.length_map] at herrors
  exact herrors.trans (by decide +kernel)

end CommandLine

end DeskCalculator
