import DeskCalculator.Calculator

/-!
# `DeskCalculator.CommandLine.Request`: what the arguments ask for

Arguments are flags, in a long or a short form, and at most one text. Short
flags can be put together behind one dash. A lone dash is a text, and so is
everything behind `--`. Arguments are read from left to right: the first one
that asks for the help or the version, or that is wrong, decides. So reading
them is an `Except` whose errors are requests, and `Given` holds what can
still be added to.
-/

set_option autoImplicit false

namespace DeskCalculator.CommandLine

/-- An option of the command line. None of them takes a value: a text is
never joined to an option. -/
inductive Flag where
  /-- The text is the path of a file to evaluate line by line. -/
  | file
  /-- Put a number in the place of a missing operand and go on. -/
  | recover
  /-- Forget the variables between evaluations. -/
  | fresh
  /-- List the variables after each evaluation. -/
  | vars
  | help
  | version
  deriving Repr, DecidableEq

namespace Flag

/-- The long names of the flags, which are written behind two dashes. Every
flag has one. -/
def longNames : List (List Char × Flag) :=
  [("file".toList, file), ("recover".toList, recover), ("fresh".toList, fresh),
    ("vars".toList, vars), ("help".toList, help), ("version".toList, version)]

/-- The short names of the flags that have one, which are written behind one
dash. -/
def shortNames : List (Char × Flag) :=
  [('f', file), ('r', recover), ('v', vars), ('h', help), ('V', version)]

/-- The flag of a long name. No shorter form of the name will do, and
nothing may be joined to it with an equals sign. -/
def ofLong? (name : List Char) : Option Flag := longNames.lookup name

/-- The flag of a short name. -/
def ofShort? (name : Char) : Option Flag := shortNames.lookup name

end Flag

/-- How to evaluate, and whether to list the variables. This is all that the
arguments say about an evaluation, so theorems about runs are for all
modes. -/
structure Mode where
  options : Options := {}
  listing : Bool := false
  deriving Repr, DecidableEq

/-- What the arguments ask for. The three that evaluate anything have the
mode with them. -/
inductive Request where
  /-- Nothing that makes sense. -/
  | misuse
  | help
  | version
  /-- Evaluate one text. -/
  | expression (text : String) (mode : Mode)
  /-- Evaluate a file line by line. -/
  | script (path : String) (mode : Mode)
  /-- Evaluate the standard input line by line, with a prompt before
  each. -/
  | interactive (mode : Mode)
  deriving Repr, DecidableEq

/-- The arguments read so far. The flags are a list in the order of reading,
last one first; only whether a flag is in it matters. -/
structure Given where
  flags : List Flag := []
  text : Option String := none
  deriving Repr, DecidableEq

namespace Given

/-- One more flag. A flag is given at most once, and the two that ask for
information end the reading at once, whatever was given before. -/
def flag (given : Given) : Flag → Except Request Given
  | .help => .error .help
  | .version => .error .version
  | flag =>
    if flag ∈ given.flags then .error .misuse
    else .ok { given with flags := flag :: given.flags }

/-- One more flag, if it is one. -/
def flag? (given : Given) : Option Flag → Except Request Given
  | some flag => given.flag flag
  | none => .error .misuse

/-- One more text. There is at most one. -/
def positional (given : Given) (text : String) : Except Request Given :=
  match given.text with
  | none => .ok { given with text := some text }
  | some _ => .error .misuse

/-- One more argument that is not behind `--`. What begins with two dashes
is a long flag, what begins with one and goes on is a row of short ones, and
everything else is a text. -/
def argument (given : Given) (argument : String) : Except Request Given :=
  match argument.toList with
  | '-' :: '-' :: name => given.flag? (Flag.ofLong? name)
  | '-' :: name :: names =>
    -- A row of short flags is read like one flag after the other, and the
    -- first wrong one decides.
    (name :: names).foldlM (fun given name => given.flag? (Flag.ofShort? name)) given
  | _ => given.positional argument

/-- All arguments. Behind `--` there are only texts, of which more than one
is wrong here too. -/
def arguments (given : Given) : List String → Except Request Given
  | [] => .ok given
  | "--" :: rest => rest.foldlM positional given
  | argument :: rest => do (← given.argument argument).arguments rest

/-- Whether a flag was given. -/
def has (given : Given) (flag : Flag) : Bool := given.flags.contains flag

/-- How to evaluate. Without flags a run aborts, keeps its variables and
lists none. -/
def mode (given : Given) : Mode :=
  { options :=
      { policy := if given.has .recover then .substituteNan else .abort
        persist := !given.has .fresh }
    listing := given.has .vars }

/-- What the arguments ask for, once all are read. A file needs a path, and
that path is the text. -/
def request (given : Given) : Request :=
  match given.text with
  | some text =>
    if given.has .file then .script text given.mode else .expression text given.mode
  | none => if given.has .file then .misuse else .interactive given.mode

end Given

/-- What a list of arguments asks for. The name of the program is not among
them. -/
def Request.ofArguments (arguments : List String) : Request :=
  match Given.arguments {} arguments with
  | .ok given => given.request
  | .error request => request

end DeskCalculator.CommandLine
