import DeskCalculator.Cursor
import DeskCalculator.Outcome
import DeskCalculator.Statement

/-!
# `DeskCalculator.Evaluation`: evaluating a text while it is read

A text of the grammar in `Grammar` is evaluated without building its tree. A
`State` holds the numbers computed so far: the statement being read, the
statements around it that wait for a parenthesis to close, and whether an
operand comes next or was just read. `feed` takes one token; a run feeds all
tokens one after the other and then the end, so a run over one list of
tokens and another is the second run going on where the first one stopped.
No step recurses into parentheses, so they can be nested to any depth.

A variable is read, and an assignment made, as soon as the tokens decide it.
When a run fails, the environment holds what was assigned before.

What the policies differ in is a single function, `complain`: one of them
stops the run there, the other one keeps the complaint and goes on. A text
in which nothing is missing never gets there.

Most properties of runs are proved in one way. A property of a state is kept
by `feed`, which has three cases, one for each `Focus`; then by `feedAll`,
by induction over the tokens; and `finish` is looked at once.
`Proofs/Run/Steps.lean` has the lemmas for this, so that the definitions
below are opened in few places.
-/

set_option autoImplicit false

namespace DeskCalculator

open Text (byteLength byteSlice)

/-- What the next token meets. Together with the two tests of the statement
it decides which tokens can come. -/
inductive Focus where
  /-- An operand is missing. -/
  | operand
  /-- A name at the beginning of a statement. The next token decides whether
  it is assigned to or read. -/
  | name (name : String) (offset : Nat)
  /-- An operand was read; an operator, another factor or the end may
  follow. -/
  | value (x : Number)
  deriving DecidableEq

/-- The state of a run between two tokens. Of the text it has only what the
tokens before have left; the setting is the same in all states of a run, and
is handed to each step. -/
structure State where
  environment : Environment
  /-- The first complaint. -/
  diagnostic : Option Diagnostic := none
  /-- The statements around the open parentheses, the innermost first. -/
  enclosing : List Statement := []
  /-- The statement being read. -/
  statement : Statement := {}
  focus : Focus := .operand
  deriving DecidableEq

/-- What every step of a run depends on: what to do about complaints, and
the text, of which they quote characters. -/
structure Setting where
  policy : Policy
  text : List Char

namespace Setting

/-- The characters that a token covers. They are taken from the text only
where a complaint needs them. -/
def quote (setting : Setting) (t : Token) : String :=
  String.ofList (byteSlice setting.text t.start t.stop)

/-- The complaint about a token in the place of one of the `expected` kinds.
An unknown character is what is wrong, whatever was expected instead. -/
def complaint (setting : Setting) (expected : List Kind) (t : Token) : Diagnostic :=
  if t.kind = .unknown then .unexpectedCharacter (setting.quote t) t.start
  else .unexpectedToken expected t.kind t.start

/-- The complaint about a token after the end of the outermost sequence. -/
def leftover (setting : Setting) (t : Token) : Diagnostic :=
  if t.kind = .unknown then .unexpectedCharacter (setting.quote t) t.start
  else .trailingInput t.kind t.start

end Setting

namespace State

/-- Stops the run. The failure holds the variables as they are at this
step. -/
def fail {α : Type} (s : State) (error : EvalError) : Except Failure α :=
  .error ⟨error, s.environment⟩

/-- Complains about a token in the place of one of the `expected` kinds:
stops, or keeps the complaint if it is the first one, as the policy says. -/
def complain (s : State) (setting : Setting) (expected : List Kind) (t : Token) :
    Except Failure State :=
  match setting.policy, s.diagnostic with
  | .abort, _ => s.fail (.malformed (setting.complaint expected t))
  | .substituteNan, none => .ok { s with diagnostic := some (setting.complaint expected t) }
  | .substituteNan, some _ => .ok s

/-- The value of a variable. One without a value stops the run under either
policy: there is nothing missing in the text that a number could be put in
the place of. -/
def read (s : State) (name : String) (offset : Nat) : Except Failure Number :=
  match s.environment.get? name with
  | some x => .ok x
  | none => s.fail (.undefinedVariable name offset)

/-- Takes an operand. What it is an operand of is decided by the next
token. -/
def take (s : State) (x : Number) : State := { s with focus := .value x }

/-- Goes on with a statement that waits for the next operand. The caller
says how the operand before is settled. -/
def await (s : State) (statement : Statement) : State :=
  { s with statement, focus := .operand }

/-- Begins a sequence in parentheses, inside a statement that waits for its
value. Inside, names can be assigned to again, and a sign may come. -/
def openGroup (s : State) (waiting : Statement) : State :=
  { s with enclosing := waiting :: s.enclosing, statement := {}, focus := .operand }

/-- Ends the sequence in parentheses with its value `x`, which is an operand
of the statement around it. Outside parentheses `x` is taken as it is; no
step calls it there. -/
def closeGroup (s : State) (x : Number) : State :=
  match s.enclosing with
  | [] => s.take x
  | waiting :: enclosing => { s with enclosing, statement := waiting, focus := .value x }

/-- Ends the statement with its last operand `x`: its value, and the state
after its assignments. -/
def endStatement (s : State) (x : Number) : Number × State :=
  let value := s.statement.value x
  (value,
    { s with environment := s.statement.assign value s.environment, statement := {} })

/-- Ends the statements around the open parentheses, each with the value of
the one before, from the inside out. -/
def closeAll : List Statement → Number → Environment → Number × Environment
  | [], x, env => (x, env)
  | waiting :: enclosing, x, env =>
    let value := waiting.value x
    closeAll enclosing value (waiting.assign value env)

/-- Ends everything, in front of a token that nothing can go on with. Of the
parentheses that are open the first one missing is complained about; the
others are missing at the same place, and only the first complaint is
kept. -/
def endAll (s : State) (setting : Setting) (x : Number) (t : Token) :
    Except Failure (Number × State) :=
  let (x, s) := s.endStatement x
  match s.enclosing with
  | [] => .ok (x, s)
  | enclosing => do
    let s ← s.complain setting [.closeParen] t
    let (x, environment) := closeAll enclosing x s.environment
    return (x, { s with environment, enclosing := [] })

/-- A token after the operand `x`. It is a factor beside the operand, an
operator behind it, or the end of a statement; each kind of token is one of
these or cannot go on the text. -/
def feedOperator (s : State) (setting : Setting) (x : Number) (t : Token) : Except Failure State :=
  match t.content with
  -- A factor beside the operand is multiplied with it.
  | .number y => .ok ({ s with statement := s.statement.awaitFactor x }.take y)
  | .identifier name => do
    let y ← s.read name t.start
    return { s with statement := s.statement.awaitFactor x }.take y
  | .bare .openParen => .ok (s.openGroup (s.statement.awaitFactor x))
  | .bare .caret => .ok (s.await (s.statement.awaitExponent x))
  | .bare .star => .ok (s.await (s.statement.awaitProduct .mul x))
  | .bare .slash => .ok (s.await (s.statement.awaitProduct .div x))
  | .bare .plus => .ok (s.await (s.statement.awaitSum .add x))
  | .bare .minus => .ok (s.await (s.statement.awaitSum .sub x))
  -- The next three end the statement, of which the assignments are made
  -- before anything is complained about.
  | .bare .semicolon =>
    let (_, s) := s.endStatement x
    .ok (s.await {})
  | .bare .closeParen =>
    let (x, s) := s.endStatement x
    if s.enclosing.isEmpty then s.fail (.malformed (setting.leftover t)) else .ok (s.closeGroup x)
  | .bare .unknown => do
    let (x, s) := s.endStatement x
    if s.enclosing.isEmpty then s.fail (.malformed (setting.leftover t))
    else
      -- The character stands where the parenthesis is missing, and is
      -- skipped with it.
      let s ← s.complain setting [.closeParen] t
      return s.closeGroup x
  -- Nothing goes on with such a token, but what was read is ended before it
  -- is reported.
  | .bare _ => do
    let (_, s) ← s.endAll setting x t
    s.fail (.malformed (setting.leftover t))

/-- A token in the place of an operand that it cannot be. If the policy puts
a number there, the token follows that number, unless it starts no token at
all and is skipped. -/
def feedMissing (s : State) (setting : Setting) (t : Token) : Except Failure State := do
  let s ← s.complain setting Kind.factorStarts t
  if t.kind = .unknown then return s.take Number.nan
  else s.feedOperator setting Number.nan t

/-- A token in the place of an operand. It is the operand, or begins one, or
is complained about. -/
def feedOperand (s : State) (setting : Setting) (t : Token) : Except Failure State :=
  match t.content with
  | .number x => .ok (s.take x)
  | .identifier name =>
    -- The token behind the name decides what becomes of it.
    if s.statement.allowsTarget then .ok { s with focus := .name name t.start }
    else do
      let x ← s.read name t.start
      return s.take x
  | .bare .openParen => .ok (s.openGroup s.statement)
  | .bare .minus =>
    if s.statement.allowsSign then .ok (s.await { s.statement with negated := true })
    else s.feedMissing setting t
  | .bare _ => s.feedMissing setting t

/-- One token, met by what the state waits for. -/
def feed (setting : Setting) (s : State) (t : Token) : Except Failure State :=
  match s.focus with
  | .operand => s.feedOperand setting t
  | .value x => s.feedOperator setting x t
  | .name name offset =>
    if t.kind = .assign then
      .ok (s.await { s.statement with targets := name :: s.statement.targets })
    else do
      -- The name was an operand, and is read only now that this is known.
      let x ← s.read name offset
      s.feedOperator setting x t

/-- One token after the other, up to the first one that fails. -/
def feedAll (setting : Setting) (s : State) (tokens : List Token) : Except Failure State :=
  tokens.foldlM (feed setting) s

/-- The operand with which the text ends, given the mark at its end. A name
that was left open is read here at the latest. -/
def lastOperand (s : State) (setting : Setting) (mark : Token) :
    Except Failure (Number × State) :=
  match s.focus with
  | .value x => .ok (x, s)
  | .name name offset => do
    let x ← s.read name offset
    return (x, s)
  | .operand => do
    let s ← s.complain setting Kind.factorStarts mark
    return (Number.nan, s)

/-- The end of the text, which is `stop` bytes long. It is met like a token
of its own, one behind all others. -/
def finish (s : State) (setting : Setting) (stop : Nat) : Except Failure (Evaluation × State) := do
  let mark := Token.endOfInput stop
  let (x, s) ← s.lastOperand setting mark
  let (value, s) ← s.endAll setting x mark
  return ({ value, diagnostic := s.diagnostic }, s)

end State

/-- The outcome of feeding all tokens of a text of `stop` bytes, and its
end. Tokens are given apart from the text, so that one can speak of a run
over tokens that are not those of a text, such as a list that was
repaired. -/
def evaluateTokens (setting : Setting) (env : Environment) (tokens : List Token) (stop : Nat) :
    Outcome :=
  let run := do
    let s ← State.feedAll setting { environment := env } tokens
    s.finish setting stop
  match run with
  | .ok (evaluation, s) => { result := .ok evaluation, environment := s.environment }
  | .error failure => { result := .error failure.error, environment := failure.environment }

/-- The outcome of evaluating a text with the given variables, under a
policy. Everything else that evaluates is defined by this. -/
def evaluate (policy : Policy) (text : String) (env : Environment) : Outcome :=
  evaluateTokens { policy, text := text.toList } env (Cursor.ofText text).tokens
    (byteLength text.toList)

end DeskCalculator
