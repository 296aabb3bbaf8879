import DeskCalculator.CommandLine.Transcript
import DeskCalculator.Proofs.Text.Lines

/-!
# `DeskCalculator.Proofs.CommandLine.Session`: the texts of a run, one after the other

A run that evaluates several texts writes what is said about each of them
and hands the calculator on. This module says so for both kinds of such
runs, so that whatever is proved about all lines of a run is proved about a
list of reports and no longer about a loop.

* `Mode.arguments`: the flags that ask for a mode. `run_script`,
  `run_expression` and `run_interactive` are the three kinds of run with
  these flags.
* `lines_unlines`: lines that were put together are cut again where they
  were. It needs lines without end marks of their own; that values and
  messages are such lines is shown where it is used.
* `reports`: what is said about the texts of a script. `runLines_eq` is what
  the loop of a script writes in terms of it, and `reports_succeeded` says
  when all texts have values.
* `responses`: what is said about the lines that are typed in, blank ones
  included. `forall₂_responses` says that there is one response for each
  line, and `responses_agree` that the two loops say the same: the blank
  lines say nothing and change nothing, and the other ones are the texts of
  a script.
-/

set_option autoImplicit false

namespace DeskCalculator

/-- The results of texts that are evaluated one after the other. A failure
does not keep those after it from being evaluated. -/
def Calculator.results : Calculator → List String → List (Except EvalError Number)
  | _, [] => []
  | c, text :: texts => (c.calculate text).1 :: (c.calculate text).2.results texts

namespace CommandLine

/-! ### Arguments

Which run the arguments ask for. Statements about runs are made of these
arguments, and only here is it looked at how they are read. -/

/-- The flags that ask for a mode, in their long forms and in a fixed order.
A theorem about a run in a mode is about the run with these flags, so that
it speaks of the program as it is called. -/
def Mode.arguments (mode : Mode) : List String :=
  (match mode.options.policy with
    | .abort => []
    | .substituteNan => ["--recover"]) ++
  (if mode.options.persist then [] else ["--fresh"]) ++ if mode.listing then ["--vars"] else []

/-- With these flags, a mode is asked for in each kind of run. A text behind
`--` is one whatever it begins with. -/
theorem ofArguments_arguments (mode : Mode) (text : String) :
    Request.ofArguments mode.arguments = .interactive mode ∧
      Request.ofArguments (mode.arguments ++ ["--", text]) = .expression text mode ∧
      Request.ofArguments (mode.arguments ++ ["--file", "--", text]) = .script text mode := by
  obtain ⟨⟨policy, persist⟩, listing⟩ := mode
  cases policy <;> cases persist <;> cases listing <;> exact ⟨rfl, rfl, rfl⟩

section Arguments

variable (file : String → Option ByteArray) (mode : Mode) (input : ByteArray)

/-- Without a text, a run is interactive. It reads no file, whatever there
is. -/
theorem run_interactive : run file mode.arguments input = runInteractive mode input := by
  rw [run, (ofArguments_arguments mode "").1]

/-- The text behind the flags is evaluated. It is one text, also if there
are end marks in it. -/
theorem run_expression (text : String) :
    run file (mode.arguments ++ ["--", text]) input = runExpression mode text := by
  rw [run, (ofArguments_arguments mode text).2.1]

/-- With one flag more, the text is the path of a script. Whether there is a
file at it is found out by the run. -/
theorem run_script (path : String) :
    run file (mode.arguments ++ ["--file", "--", path]) input
      = runScript mode path (file path) := by
  rw [run, (ofArguments_arguments mode path).2.2]

/-- A file that holds a text is run line by line, over the entries of that
text. Each statement on scripts begins with this equation. -/
theorem run_script_text {path : String} {bytes : ByteArray} {text : List Char}
    (hfile : file path = some bytes) (htext : Text.decode? bytes.toList = some text) :
    run file (mode.arguments ++ ["--file", "--", path]) input
      = runLines mode mode.calculator (Text.entries text) "" "" true := by
  rw [run_script, runScript, hfile, Option.bind_some, htext]

end Arguments

/-! ### Lines

Lines that are put together, and cut again. -/

/-- No lines are no text. -/
@[simp] theorem unlines_nil : unlines [] = "" := rfl

/-- A line comes before the others, with its end mark. The equation for
inductions over lines. -/
@[simp] theorem unlines_cons (line : String) (lines : List String) :
    unlines (line :: lines) = line ++ "\n" ++ unlines lines := by
  rw [unlines, List.map_cons, String.join_cons]
  rfl

/-- Lines behind others are behind them in the text. -/
theorem unlines_append (a b : List String) : unlines (a ++ b) = unlines a ++ unlines b := by
  induction a with
  | nil => simp
  | cons line a ih => simp only [List.cons_append, unlines_cons, ih, String.append_assoc]

/-- Lines can be put together in parts. A run writes part by part, one for
each of its texts. -/
theorem join_unlines {α : Type} (parts : α → List String) (items : List α) :
    String.join (items.map fun item => unlines (parts item)) = unlines (items.flatMap parts) := by
  induction items with
  | nil => rfl
  | cons item items ih =>
      rw [List.map_cons, String.join_cons, ih, List.flatMap_cons, unlines_append]

/-- Lines without end marks of their own that were put together are cut
where they were. -/
theorem lines_unlines {lines : List String} (h : ∀ line ∈ lines, '\n' ∉ line.toList) :
    Text.lines (unlines lines).toList = lines.map fun line => line.toList ++ ['\n'] := by
  induction lines with
  | nil => rfl
  | cons line lines ih =>
      obtain ⟨hline, hlines⟩ := List.forall_mem_cons.mp h
      have hchars : (unlines (line :: lines)).toList
          = line.toList ++ '\n' :: (unlines lines).toList := by
        rw [unlines_cons]
        simp
      rw [hchars, Text.lines, Text.cutBehind_append (fun c hc => ?_) (by decide), ← Text.lines,
        ih hlines, List.map_cons]
      exact decide_eq_false fun hc' => hline (hc' ▸ hc)

/-! ### Scripts

The loop of a script carries along what was written. What it says is a list
of reports, one for each of its texts. -/

/-- What is said about texts that are evaluated one after the other, and the
calculator after them. -/
def reports (mode : Mode) : Calculator → List (List Char) → List Report × Calculator
  | c, [] => ([], c)
  | c, text :: texts =>
    let first := evaluateLine mode c (String.ofList text)
    let others := reports mode first.2 texts
    (first.1 :: others.1, others.2)

/-- A script writes what is said about its texts, and succeeds if all of
them do. Induction over the texts, for whatever was written before and
whether or not all was well until then. -/
theorem runLines_eq (mode : Mode) (texts : List (List Char)) :
    ∀ (c : Calculator) (output errors : String) (succeeded : Bool),
      let said := (reports mode c texts).1
      runLines mode c texts output errors succeeded =
        { output := output ++ unlines (said.flatMap Report.output)
          errors := errors ++ unlines (said.flatMap Report.errors)
          status := statusOf (succeeded && said.all Report.succeeded) } := by
  induction texts with
  | nil => intro c output errors succeeded; simp [runLines, reports]
  | cons text texts ih =>
      intro c output errors succeeded
      simp only [runLines, reports, ih, List.flatMap_cons, List.all_cons, unlines_append,
        String.append_assoc, Bool.and_assoc]

/-- Reporting on a text changes the calculator as evaluating it does.
Nothing is kept between two texts but the calculator. -/
theorem evaluateLine_snd (mode : Mode) (c : Calculator) (text : String) :
    (evaluateLine mode c text).2 = (c.calculate text).2 := by
  unfold evaluateLine
  generalize c.calculate text = outcome
  obtain ⟨error | value, next⟩ := outcome <;> rfl

/-- A report is that of a success if the text has a value. A complaint
beside the value does not count as a failure. -/
theorem evaluateLine_succeeded (mode : Mode) (c : Calculator) (text : String) :
    (evaluateLine mode c text).1.succeeded = true ↔ ∃ x, (c.calculate text).1 = .ok x := by
  unfold evaluateLine
  generalize c.calculate text = outcome
  obtain ⟨error | value, next⟩ := outcome
  · constructor
    · intro h
      cases h
    · rintro ⟨x, hx⟩
      cases hx
  · exact ⟨fun _ => ⟨value, rfl⟩, fun _ => rfl⟩

/-- All reports are those of successes if all of the texts have values. What
the status of a script depends on. -/
theorem reports_succeeded (mode : Mode) (texts : List (List Char)) :
    ∀ c : Calculator, (reports mode c texts).1.all Report.succeeded = true ↔
      ∀ result ∈ c.results (texts.map String.ofList), ∃ x, result = .ok x := by
  induction texts with
  | nil => intro c; simp [reports, Calculator.results]
  | cons text texts ih =>
      intro c
      rw [reports, List.all_cons, Bool.and_eq_true, evaluateLine_succeeded, ih,
        evaluateLine_snd, List.map_cons, Calculator.results, List.forall_mem_cons]

/-- The status is that of success if all succeeded, and of failure
otherwise. A misuse of the arguments is reported before this is asked. -/
theorem statusOf_eq_zero {succeeded : Bool} : statusOf succeeded = 0 ↔ succeeded = true := by
  cases succeeded <;> decide

/-! ### Conversations

The loop of an interactive run, and that its reports are those of a script
with the same lines, but for the blank ones. -/

/-- What is said about lines that are typed in one after the other, and the
calculator after them. -/
def responses (mode : Mode) : Calculator → List (List Char) → List Report × Calculator
  | c, [] => ([], c)
  | c, line :: lines =>
    let first := respond mode c line
    let others := responses mode first.2 lines
    (first.1 :: others.1, others.2)

/-- The responses to the lines, one for each. There is nothing to say about
a blank line. -/
theorem forall₂_responses (mode : Mode) (lines : List (List Char)) :
    ∀ c : Calculator, List.Forall₂ (fun line report => Text.isBlank line = true → report = {})
      lines (responses mode c lines).1 := by
  induction lines with
  | nil => intro c; exact .nil
  | cons line lines ih =>
      intro c
      refine .cons (fun hblank => ?_) (ih _)
      rw [← Text.isBlank_content] at hblank
      simp only [respond, hblank, if_true]

/-- The two loops say the same and leave the same calculator. The lines that
are typed in are trimmed and tested one by one, where those of a script are
trimmed and tested before; a line that is dropped there is one to which the
response is empty here. -/
theorem responses_agree (mode : Mode) (lines : List (List Char)) :
    ∀ c : Calculator,
      let typed := responses mode c lines
      let script := reports mode c ((lines.map Text.content).filter (!Text.isBlank ·))
      typed.1.flatMap Report.output = script.1.flatMap Report.output ∧
        typed.1.flatMap Report.errors = script.1.flatMap Report.errors ∧
        typed.2 = script.2 := by
  induction lines with
  | nil => intro c; exact ⟨rfl, rfl, rfl⟩
  | cons line lines ih =>
      intro c
      cases hblank : Text.isBlank (Text.content line) with
      | true => simpa [responses, respond, hblank] using ih c
      | false =>
          obtain ⟨houtput, herrors, hafter⟩ :=
            ih (evaluateLine mode c (String.ofList (Text.content line))).2
          simp [responses, respond, reports, hblank, houtput, herrors, hafter]

end CommandLine

end DeskCalculator
