import DeskCalculator.Proofs.CommandLine.Session
import Mathlib.Data.List.Forall2

/-!
# `DeskCalculator.Proofs.CommandLine.Conversation`: an interactive run is a script with prompts

The same bytes can be typed in or be put in a file. A script is decoded and
then cut into lines; an interactive run cuts lines of bytes and decodes them
one by one, so it also answers the lines before the first one that is no
text.

* `converse_append`: what an interactive run does with lines that are texts.
* `interactive_script`: an interactive run and a script, on the same bytes
  and with the same flags.

The two loops are not the same function. That of a script evaluates
`Text.entries`, from which blank lines have been dropped; that of an
interactive run looks at each line as it comes (`respond`), and writes a
prompt for blank ones too. `responses_agree` in
`Proofs/CommandLine/Session.lean` is where the evaluations of both are
compared, and `Text.byteLines_encode` is where the two ways to cut are.
-/

set_option autoImplicit false

namespace DeskCalculator.CommandLine

open Text (byteLines decode? encode)

/-- What a run writes for each line of a text, blank lines included. -/
def outputs (mode : Mode) (text : List Char) : List String :=
  (responses mode mode.calculator (Text.lines text)).1.map fun report => unlines report.output

/-- A run writes one text for each line of the bytes of a text, and nothing
for a blank one. The lines are paired by their places, so it is also said
that there are as many of the one as of the other. -/
theorem forall₂_outputs (mode : Mode) (text : List Char) :
    List.Forall₂ (fun chunk output =>
        ∀ line, decode? chunk = some line → Text.isBlank line = true → output = "")
      (byteLines (encode text)) (outputs mode text) := by
  rw [Text.byteLines_encode, outputs, List.forall₂_map_left_iff, List.forall₂_map_right_iff]
  refine (forall₂_responses mode _ _).imp fun text report hreport line hline hblank => ?_
  rw [Text.decode?_encode, Option.some.injEq] at hline
  rw [hreport (hline ▸ hblank)]
  rfl

/-- The answer to bytes that are a text is the response to this text, and
the run goes on. -/
theorem answer_encode (mode : Mode) (c : Calculator) (text : List Char) :
    answer mode c (some (encode text))
      = ({ output := unlines (respond mode c text).1.output
           errors := unlines (respond mode c text).1.errors }, some (respond mode c text).2) := by
  simp only [answer, Text.decode?_encode]

/-- The answer to bytes that are no text says so, and ends the run. Its
status is that of a failure, whatever was said before. -/
theorem answer_undecodable (mode : Mode) (c : Calculator) {bytes : List UInt8}
    (h : decode? bytes = none) :
    answer mode c (some bytes) = ({ errors := notText, status := 1 }, none) := by
  simp only [answer, h]
  rfl

/-- An interactive run responds to lines that are texts, each behind a
prompt, and goes on with what follows. What follows is left open, since it
may be the end of the input or bytes that are no text. Induction over the
texts, for every calculator and everything written so far. -/
theorem converse_append (mode : Mode) (texts : List (List Char)) (rest : List (List UInt8)) :
    ∀ (c : Calculator) (output errors : String),
      let said := responses mode c texts
      converse mode c (texts.map encode ++ rest) output errors
        = converse mode said.2 rest
            (output ++ String.join (said.1.map fun report => prompt ++ unlines report.output))
            (errors ++ unlines (said.1.flatMap Report.errors)) := by
  induction texts with
  | nil => intro c output errors; simp [responses]
  | cons text texts ih =>
      intro c output errors
      simp only [List.map_cons, List.cons_append, converse, answer_encode, ih, responses,
        String.join_cons, List.flatMap_cons, unlines_append, String.append_assoc]

/-- An interactive run on lines that are texts. One more prompt is written
before the end of the input is found. -/
theorem runInteractive_texts (mode : Mode) {bytes : ByteArray} {texts : List (List Char)}
    (h : byteLines bytes.toList = texts.map encode) :
    let said := (responses mode mode.calculator texts).1
    runInteractive mode bytes
      = { output := String.join (said.map fun report => prompt ++ unlines report.output) ++ prompt
          errors := unlines (said.flatMap Report.errors) } := by
  intro said
  rw [runInteractive, h, ← List.append_nil (texts.map encode), converse_append]
  simp [converse, answer, said]

/-- An interactive run on lines of which one is no text ends with that one.
Up to there it writes what it writes on the lines before alone: the last
prompt of the shorter run is the one in front of the bytes that are no text.
What comes after them is never looked at. -/
theorem runInteractive_undecodable (mode : Mode) {bytes : ByteArray} {texts : List (List Char)}
    {bad : List UInt8} {after : List (List UInt8)}
    (h : byteLines bytes.toList = texts.map encode ++ bad :: after) (hbad : decode? bad = none) :
    let alone := runInteractive mode (texts.map encode).flatten.toByteArray
    runInteractive mode bytes
      = { output := alone.output, errors := alone.errors ++ notText, status := 1 } := by
  have halone : byteLines (texts.map encode).flatten.toByteArray.toList = texts.map encode := by
    rw [Text.toList_toByteArray]
    exact Text.cutBehind_flatten h
  rw [runInteractive_texts mode halone, runInteractive, h, converse_append, converse,
    answer_undecodable mode _ hbad]
  simp

/-- On the same bytes and with the same flags, an interactive run and a
script say the same. If the bytes are a text, they write the same for each
line, the interactive run behind a prompt; if they are none, the script is
not begun, and the interactive run ends at the first line that is none.
Their statuses differ by design: a failed line makes a script fail, and no
interactive run. -/
theorem interactive_script (mode : Mode) (file : String → Option ByteArray) (path : String)
    {bytes : ByteArray} (hfile : file path = some bytes) (input : ByteArray) :
    let chunks := byteLines bytes.toList
    let conversation := run file mode.arguments bytes
    let script := run file (mode.arguments ++ ["--file", "--", path]) input
    (∀ text, decode? bytes.toList = some text →
      List.Forall₂ (fun chunk output =>
          ∀ line, decode? chunk = some line → Text.isBlank line = true → output = "")
        chunks (outputs mode text) ∧
      conversation.output = String.join ((outputs mode text).map (prompt ++ ·)) ++ prompt ∧
      conversation.status = 0 ∧
      script.output = String.join (outputs mode text) ∧
      script.errors = conversation.errors ∧
      (script.status = 0 ↔
        ∀ result ∈ mode.calculator.results ((Text.entries text).map String.ofList),
          ∃ x, result = .ok x)) ∧
    (decode? bytes.toList = none →
      script = { output := "", errors := unreadable path, status := 1 } ∧
      ∃ before bad after, chunks = before ++ bad :: after ∧
        (∀ chunk ∈ before, ∃ line, decode? chunk = some line) ∧ decode? bad = none ∧
        let alone := run file mode.arguments before.flatten.toByteArray
        conversation
          = { output := alone.output, errors := alone.errors ++ notText, status := 1 }) := by
  intro chunks conversation script
  have hconversation : conversation = runInteractive mode bytes := run_interactive file mode bytes
  constructor
  · intro text htext
    have hbytes : bytes.toList = encode text := Text.decode?_eq_some_iff.mp htext
    -- Decoding and cutting may change places, since no character but the
    -- newline has its byte.
    have hchunks : chunks = (Text.lines text).map encode := by
      rw [← Text.byteLines_encode, ← hbytes]
    have hscript := (run_script_text file mode input hfile htext).trans (runLines_eq mode _ _ _ _ _)
    rw [runInteractive_texts mode hchunks] at hconversation
    -- Both loops evaluate the same lines.
    obtain ⟨houtput, herrors, -⟩ := responses_agree mode (Text.lines text) mode.calculator
    rw [Text.filter_content_lines] at houtput herrors
    refine ⟨?_, ?_, ?_, ?_, ?_, ?_⟩
    · rw [show chunks = byteLines (encode text) from congrArg byteLines hbytes]
      exact forall₂_outputs mode text
    · rw [hconversation, outputs, List.map_map]
      rfl
    · rw [hconversation]
    · rw [show script = _ from hscript, outputs, join_unlines, houtput]
      exact String.empty_append
    · rw [show script = _ from hscript, hconversation, herrors]
      exact String.empty_append
    · rw [show script = _ from hscript, statusOf_eq_zero, Bool.true_and]
      exact reports_succeeded mode _ _
  · intro hnone
    constructor
    · rw [show script = _ from run_script file mode input path, runScript, hfile,
        Option.bind_some, hnone]
      rfl
    · -- Not every line can be a text, as all of them together would be one
      -- then.
      obtain ⟨texts, bad, after, hchunks, hbad⟩ := Text.exists_undecodable hnone
      refine ⟨texts.map encode, bad, after, hchunks, ?_, hbad, ?_⟩
      · intro chunk hchunk
        obtain ⟨text, -, rfl⟩ := List.mem_map.mp hchunk
        exact ⟨text, Text.decode?_encode text⟩
      · intro alone
        rw [hconversation, show alone = _ from run_interactive file mode _]
        exact runInteractive_undecodable mode hchunks hbad

/-- A text with a blank line in it, and bytes of which the second line is no
text. -/
theorem interactive_script_instances :
    let bytes := (encode ['2', '\r', '\n', '\t', '\n', 'y']).toByteArray
    let undecodable : ByteArray := [0x32, 0x0A, 0xFF, 0x0A, 0x33].toByteArray
    (run (fun _ => some bytes) [] bytes).output = "> 2\n> > > " ∧
      (run (fun _ => some bytes) ["--file", "--", "-"] default).output = "2\n" ∧
      (run (fun _ => some undecodable) ["--file", "--", "-"] default).output = "" ∧
      (run (fun _ => some undecodable) [] undecodable).status = 1 := by
  intro bytes undecodable
  have hdecoded : decode? bytes.toList = some ['2', '\r', '\n', '\t', '\n', 'y'] := by
    rw [Text.toList_toByteArray, Text.decode?_encode]
  have hundecodable : decode? undecodable.toList = none := by decide +kernel
  have houtputs : outputs {} ['2', '\r', '\n', '\t', '\n', 'y'] = ["2\n", "", ""] := by
    decide +kernel
  obtain ⟨-, hconversation, -, hscript, -⟩ :=
    (interactive_script {} (fun _ => some bytes) "-" rfl default).1 _ hdecoded
  obtain ⟨hunread, before, bad, after, -, -, -, hends⟩ :=
    (interactive_script {} (fun _ => some undecodable) "-" rfl default).2 hundecodable
  rw [houtputs] at hconversation hscript
  refine ⟨hconversation.trans (by decide), hscript.trans (by decide), ?_, ?_⟩
  · exact congrArg Transcript.output hunread
  · exact congrArg Transcript.status hends

end DeskCalculator.CommandLine
