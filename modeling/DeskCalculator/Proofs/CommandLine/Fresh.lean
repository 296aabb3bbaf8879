import DeskCalculator.Proofs.CommandLine.Session

/-!
# `DeskCalculator.Proofs.CommandLine.Fresh`: a calculator that forgets has no past

An evaluation reads the policy of its calculator and the variables that it
starts with, and nothing else (`Calculator.calculate_congr`). A calculator
that forgets its variables starts with none, so each evaluation is like the
first one. A script is then nothing but its lines, each on its own
(`fresh_forgets`).

The complaint of the last evaluation is part of a calculator too, and is not
forgotten by an option: every evaluation begins without it. What an
evaluation leaves behind are therefore only the variables, and these can be
seen after it, in a list, before the next one forgets them.
-/

set_option autoImplicit false

namespace DeskCalculator

namespace Calculator

/-- The calculator after texts that are evaluated one after the other, some
of which may have failed. -/
def after (c : Calculator) (texts : List String) : Calculator :=
  texts.foldl (fun c text => (c.calculate text).2) c

/-- An evaluation depends on the policy and on the variables that it starts
with. The calculators may differ in everything else; what the evaluation
leaves differs in the options alone. -/
theorem calculate_congr {c d : Calculator} (hpolicy : c.options.policy = d.options.policy)
    (hinitial : c.initial = d.initial) (text : String) :
    c.calculate text
      = ((d.calculate text).1, { (d.calculate text).2 with options := c.options }) := by
  rw [calculate, calculate, hinitial, hpolicy]
  split <;> rfl

/-- An evaluation leaves the options as they are, whether it fails or not.
So a calculator forgets its variables before every text, or before none. -/
theorem options_calculate (c : Calculator) (text : String) :
    (c.calculate text).2.options = c.options := by
  rw [calculate]
  split <;> rfl

/-- Evaluations leave the options as they are, so a calculator that forgets
goes on to forget. -/
theorem options_after (texts : List String) :
    ∀ c : Calculator, (c.after texts).options = c.options := by
  induction texts with
  | nil => intro c; rfl
  | cons text texts ih => intro c; exact (ih _).trans (c.options_calculate text)

/-- A calculator that forgets its variables starts without any. What it held
before has no effect on an evaluation. -/
theorem initial_of_fresh {c : Calculator} (h : c.options.persist = false) : c.initial = .empty := by
  rw [initial, h, if_neg Bool.false_ne_true]

/-- A calculator that forgets its variables evaluates like a new one. The
result is the same, and so is the calculator that is left. -/
theorem calculate_fresh {c : Calculator} (h : c.options.persist = false) (text : String) :
    c.calculate text = calculate { options := c.options } text := by
  let new : Calculator := { options := c.options }
  have hnew : new.initial = .empty := initial_of_fresh h
  have hpolicy : c.options.policy = new.options.policy := rfl
  have hcalculate := calculate_congr hpolicy ((initial_of_fresh h).trans hnew.symm) text
  rw [← new.options_calculate text] at hcalculate
  exact hcalculate

end Calculator

namespace CommandLine

/-- A run starts without variables. -/
theorem initial_calculator (mode : Mode) : mode.calculator.initial = .empty := by
  unfold Calculator.initial
  split <;> rfl

/-- What is said about a text depends on the policy, on the variables that
its evaluation starts with, and on whether they are listed. -/
theorem evaluateLine_congr {mode mode' : Mode} {c d : Calculator}
    (hlisting : mode.listing = mode'.listing) (hpolicy : c.options.policy = d.options.policy)
    (hinitial : c.initial = d.initial) (text : String) :
    (evaluateLine mode c text).1 = (evaluateLine mode' d text).1 := by
  unfold evaluateLine
  rw [Calculator.calculate_congr hpolicy hinitial, hlisting]
  generalize d.calculate text = outcome
  obtain ⟨error | value, next⟩ := outcome <;> rfl

/-- Where variables are forgotten, each text is evaluated as if it were the
only one, whether they are forgotten there or not. Induction over the texts,
for every calculator with these options: its variables are those of the text
before, and do not matter. -/
theorem reports_fresh {policy : Policy} {listing : Bool} (persist : Bool)
    (texts : List (List Char)) :
    ∀ c : Calculator, c.options = ⟨policy, false⟩ →
      (reports ⟨⟨policy, false⟩, listing⟩ c texts).1
        = texts.map fun text =>
            let mode : Mode := ⟨⟨policy, persist⟩, listing⟩
            (evaluateLine mode mode.calculator (String.ofList text)).1 := by
  induction texts with
  | nil => intro c _; rfl
  | cons text texts ih =>
      intro c hc
      let mode : Mode := ⟨⟨policy, persist⟩, listing⟩
      have hfirst : (evaluateLine ⟨⟨policy, false⟩, listing⟩ c (String.ofList text)).1
          = (evaluateLine mode mode.calculator (String.ofList text)).1 := by
        apply evaluateLine_congr
        · rfl
        · rw [hc]
          rfl
        · rw [Calculator.initial_of_fresh (congrArg Options.persist hc), initial_calculator]
      have hnext :
          (evaluateLine ⟨⟨policy, false⟩, listing⟩ c (String.ofList text)).2.options
            = ⟨policy, false⟩ := by
        rw [evaluateLine_snd, Calculator.options_calculate, hc]
      rw [reports, ih _ hnext, hfirst, List.map_cons]

/-- A calculator that forgets its variables evaluates each text like a new
one, whatever it has evaluated before. So a script that is run like this
writes what runs on its lines alone would write, and succeeds if all of
these do. In a run on one line there is nothing to forget. -/
theorem fresh_forgets :
    (∀ (c : Calculator) (earlier : List String) (text : String), c.options.persist = false →
      (c.after earlier).calculate text = Calculator.calculate { options := c.options } text) ∧
    (∀ (policy : Policy) (listing persist : Bool) (file : String → Option ByteArray)
        (path : String) (bytes input : ByteArray) (text : List Char),
      file path = some bytes → Text.decode? bytes.toList = some text →
      let fresh : Mode := ⟨⟨policy, false⟩, listing⟩
      let single : Mode := ⟨⟨policy, persist⟩, listing⟩
      let script := run file (fresh.arguments ++ ["--file", "--", path]) input
      let alone := (Text.entries text).map fun line =>
        run file (single.arguments ++ ["--", String.ofList line]) input
      script.output = String.join (alone.map Transcript.output) ∧
        script.errors = String.join (alone.map Transcript.errors) ∧
        (script.status = 0 ↔ ∀ transcript ∈ alone, transcript.status = 0)) := by
  constructor
  · intro c earlier text h
    have hoptions := Calculator.options_after earlier c
    rw [Calculator.calculate_fresh (hoptions ▸ h), hoptions]
  · intro policy listing persist file path bytes input text hfile htext fresh single script alone
    have halone : alone = (Text.entries text).map fun line =>
        runExpression single (String.ofList line) :=
      List.map_congr_left fun line _ => run_expression file single input (String.ofList line)
    -- What the script says of its lines is what the runs on them say.
    have hreports : (reports fresh fresh.calculator (Text.entries text)).1 = _ :=
      reports_fresh persist (Text.entries text) fresh.calculator rfl
    have hscript :=
      (run_script_text file fresh input hfile htext).trans (runLines_eq fresh _ _ _ _ _)
    rw [hreports] at hscript
    rw [show script = _ from hscript, halone]
    refine ⟨?_, ?_, ?_⟩
    · simp [runExpression, Function.comp_def, join_unlines, List.flatMap_map, single]
    · simp [runExpression, Function.comp_def, join_unlines, List.flatMap_map, single]
    · simp [runExpression, statusOf_eq_zero, single]

/-- A variable is unknown again on the next line, and the run on that line
alone says so too. -/
theorem fresh_forgets_instance :
    let text := ['x', '=', '3', '\n', 'x']
    let file : String → Option ByteArray := fun _ => some (Text.encode text).toByteArray
    let script := run file ["--fresh", "--file", "--", "x"] default
    ((Calculator.after ⟨⟨.abort, false⟩, .empty, none⟩ ["x = 3", "x = "]).calculate "x").1
        = (Calculator.calculate ⟨⟨.abort, false⟩, .empty, none⟩ "x").1 ∧
      script.errors = "Error at offset 0: Unknown variable 'x'.\n" := by
  intro text file script
  have hdecoded : Text.decode? (Text.encode text).toByteArray.toList = some text := by
    rw [Text.toList_toByteArray, Text.decode?_encode]
  have hcalculate := fresh_forgets.1 ⟨⟨.abort, false⟩, .empty, none⟩ ["x = 3", "x = "] "x" rfl
  obtain ⟨-, herrors, -⟩ :=
    fresh_forgets.2 .abort false true file "x" _ default text rfl hdecoded
  have halone : String.join ((((Text.entries text).map fun line =>
      run file ["--", String.ofList line] default)).map Transcript.errors)
        = "Error at offset 0: Unknown variable 'x'.\n" := by decide +kernel
  exact ⟨congrArg Prod.fst hcalculate, herrors.trans halone⟩

end CommandLine

end DeskCalculator
