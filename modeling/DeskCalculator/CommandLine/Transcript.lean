import DeskCalculator.CommandLine.Report
import DeskCalculator.Text.Line

/-!
# `DeskCalculator.CommandLine.Transcript`: what a run of the program writes

Everything that the program writes is a function of its arguments, of the
file they name and of the bytes of the standard input (`run`). There are
three kinds of run that evaluate anything:

* on one text, which is an argument (`runExpression`);
* on a script, whose lines are found before the first one is evaluated
  (`runScript`);
* on what is typed in (`runInteractive`). This writes a prompt before each
  line and once more before the end, and finds out only line by line whether
  its input is text at all. A turn of it is one `answer`, which is also what
  the program itself calls between reading and writing.

The loops of the last two are stated apart, each in its own form. That they
say the same about the same bytes is a theorem
(`Proofs/CommandLine/Conversation.lean`).
-/

set_option autoImplicit false

namespace DeskCalculator.CommandLine

/-- What a run writes and the status with which it ends. The two streams are
kept apart, so nothing is said about how they are interleaved. -/
structure Transcript where
  output : String := ""
  errors : String := ""
  status : Nat := 0
  deriving Repr, DecidableEq

/-- What an interactive run writes before it reads a line, the one included
that it does not get. -/
def prompt : String := "> "

/-- What is said about bytes that encode no text. In an interactive run it
is the last thing that is said. -/
def notText : String := "stream did not contain valid UTF-8\n"

/-- What is said about a file that cannot be read. -/
def unreadable (path : String) : String :=
  "Failed to read the input file '" ++ path ++ "'. Perhaps this file does not exist?\n"

/-- The name and version of the program. -/
def versionText : String := "reckon 0.1.0\n"

/-- How the program is called. -/
def usageText : String :=
  unlines
    ["Usage: reckon [OPTIONS] [CONTENTS]",
      "",
      "Evaluates CONTENTS, or each line of the standard input if there is none.",
      "",
      "Options:",
      "  -f, --file     Evaluate each line of the file CONTENTS",
      "  -r, --recover  Use NaN for a malformed operand and keep going",
      "      --fresh    Forget variables between evaluations",
      "  -v, --vars     Print all variables after each evaluation",
      "  -h, --help     Print this help",
      "  -V, --version  Print the version"]

/-- The calculator with which a run starts: without variables, and without a
complaint. -/
def Mode.calculator (mode : Mode) : Calculator := { options := mode.options }

/-- The status of success, or of failure. A misuse of the arguments has a
third one. -/
def statusOf (succeeded : Bool) : Nat := if succeeded then 0 else 1

/-! ### One text -/

/-- The run on one text. It is evaluated as it is, without being trimmed,
and even if it is blank. -/
def runExpression (mode : Mode) (text : String) : Transcript :=
  let report := (evaluateLine mode mode.calculator text).1
  { output := unlines report.output
    errors := unlines report.errors
    status := statusOf report.succeeded }

/-! ### Scripts -/

/-- The run on the texts that a script has evaluated, after what was written
so far. A text that fails does not stop the ones after it, but the run as a
whole has failed then. What was written is carried along, so that the length
of a script is no depth of recursion. -/
def runLines (mode : Mode) : Calculator → List (List Char) → String → String → Bool → Transcript
  | _, [], output, errors, succeeded => { output, errors, status := statusOf succeeded }
  | c, text :: texts, output, errors, succeeded =>
    let (report, c) := evaluateLine mode c (String.ofList text)
    runLines mode c texts (output ++ unlines report.output) (errors ++ unlines report.errors)
      (succeeded && report.succeeded)

/-- The run on a script, if it could be read. A script is decoded as a
whole, so nothing of it is evaluated if any part of it is no text. -/
def runScript (mode : Mode) (path : String) (file : Option ByteArray) : Transcript :=
  match file.bind fun bytes => Text.decode? bytes.toList with
  | none => { errors := unreadable path, status := statusOf false }
  | some text => runLines mode mode.calculator (Text.entries text) "" "" true

/-! ### Conversations -/

/-- Evaluates a line as it was typed in, unless it is blank. A blank one is
answered by the next prompt alone. -/
def respond (mode : Mode) (c : Calculator) (line : List Char) : Report × Calculator :=
  let content := Text.content line
  if Text.isBlank content then ({}, c) else evaluateLine mode c (String.ofList content)

/-- What is written once a line was read, and the calculator for the next
line, if there is to be one. There is none at the end of the input, where
nothing is read, and none behind bytes that are no text, with which the run
fails. That an evaluation fails is no reason to end. -/
def answer (mode : Mode) (c : Calculator) : Option (List UInt8) → Transcript × Option Calculator
  | none => ({}, none)
  | some bytes =>
    match Text.decode? bytes with
    | none => ({ errors := notText, status := statusOf false }, none)
    | some line =>
      let (report, c) := respond mode c line
      ({ output := unlines report.output, errors := unlines report.errors }, some c)

/-- The interactive run on lines of bytes, after what was written so far.
Each turn writes the prompt, reads a line, if there is one left, and answers
it. -/
def converse (mode : Mode) : Calculator → List (List UInt8) → String → String → Transcript
  | c, [], output, errors =>
    let (last, _) := answer mode c none
    { last with output := output ++ prompt ++ last.output, errors := errors ++ last.errors }
  | c, line :: lines, output, errors =>
    match answer mode c (some line) with
    | (turn, some c) =>
      converse mode c lines (output ++ prompt ++ turn.output) (errors ++ turn.errors)
    | (last, none) =>
      { last with output := output ++ prompt ++ last.output, errors := errors ++ last.errors }

/-- The interactive run on an input, cut into lines as it would be read. -/
def runInteractive (mode : Mode) (input : ByteArray) : Transcript :=
  converse mode mode.calculator (Text.byteLines input.toList) "" ""

/-- The run with the given arguments. `file` gives the bytes of a file, if
it can be read. -/
def run (file : String → Option ByteArray) (arguments : List String) (input : ByteArray) :
    Transcript :=
  match Request.ofArguments arguments with
  | .misuse => { errors := usageText, status := 2 }
  | .help => { output := usageText }
  | .version => { output := versionText }
  | .expression text mode => runExpression mode text
  | .script path mode => runScript mode path (file path)
  | .interactive mode => runInteractive mode input

end DeskCalculator.CommandLine
