import DeskCalculator.CommandLine.Transcript

/-!
# `DeskCalculator.Main`: the program

Reads files and the standard input, and writes what the transcripts say. An
interactive run answers each line before it reads the next one, so it is a
loop of its own here. Each turn of it calls `answer`, as each turn of
`converse` does, and adds nothing to it.
-/

set_option autoImplicit false

namespace DeskCalculator.CommandLine

/-- Writes a transcript and gives its status. Output goes first, so that it
stands in front of the complaint about the same line if both go to one
place. -/
def Transcript.write (t : Transcript) : IO UInt32 := do
  let stdout ← IO.getStdout
  stdout.putStr t.output
  stdout.flush
  (← IO.getStderr).putStr t.errors
  return t.status.toUInt32

/-- The bytes of a file, if it can be read. Why it cannot is not told
apart. -/
def readFile? (path : String) : IO (Option ByteArray) := do
  try
    return some (← IO.FS.readBinFile path)
  catch _ =>
    return none

/-- The bytes of the standard input up to the end of the line, if there are
any left. They are read one by one, since more than a line may not have been
typed in yet. These are the pieces that `Text.byteLines` cuts. -/
partial def readLine? (stdin : IO.FS.Stream) (read : ByteArray := .empty) :
    IO (Option ByteArray) := do
  let bytes ← stdin.read 1
  match bytes[0]? with
  | none => return if read.isEmpty then none else some read
  | some byte =>
    if byte = 0x0A then return some (read.push byte) else readLine? stdin (read.push byte)

/-- Answers one line after the other, until an answer leaves no calculator
to go on with. The line is read behind the prompt, and its answer is written
before the next prompt. -/
partial def interact (mode : Mode) (stdin : IO.FS.Stream) (c : Calculator) : IO UInt32 := do
  (← IO.getStdout).putStr prompt
  (← IO.getStdout).flush
  let read ← readLine? stdin
  let (turn, next) := answer mode c (read.map (·.toList))
  let status ← turn.write
  match next with
  | some c => interact mode stdin c
  | none => return status

/-- The program. What an interactive run writes is not known before it
begins to write; all others are transcripts, and are written as a whole. -/
def start (arguments : List String) : IO UInt32 := do
  match Request.ofArguments arguments with
  | .interactive mode => interact mode (← IO.getStdin) mode.calculator
  | .script path mode => (runScript mode path (← readFile? path)).write
  | _ => (run (fun _ => none) arguments .empty).write

end DeskCalculator.CommandLine

/-- The entry of the program. -/
def main (arguments : List String) : IO UInt32 := DeskCalculator.CommandLine.start arguments
