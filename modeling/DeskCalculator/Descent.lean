import DeskCalculator.Evaluation
import DeskCalculator.Grammar

/-!
# `DeskCalculator.Descent`: the rules of the grammar as procedures

The grammar in `Grammar` can be read as a program: each rule is a procedure
that reads an expression of its level and yields its value, calling the
rules of its parts. A `Parser` looks at one token, and reads the next one
when it consumes that. `Evaluation` yields the same without calling
anything.

This is a second account of the same evaluation, nearer to the grammar: what
binds tighter is called later, and the operations wait on the stack of calls
and not in a `Statement`. That both accounts have the same outcome, under
either policy, is proved in `Proofs/Descent/Termination.lean`.

A rule is written with its calls left open (`Rule.body`). What a call may do
is then up to the runner:

* `descend` answers a call only if it has fewer tokens left than the rule
  that makes it, or as many and a lower rank. There is nothing else to be
  said for its recursion to end.
* `within` answers calls that are nested up to a given depth.

Both refuse other calls, with `Halt.refused`. This is no failure of an
evaluation, and the theorems say that no call is refused, so neither the
order of the calls nor the depth is an assumption.
-/

set_option autoImplicit false

namespace DeskCalculator

open Text (byteLength)

/-- The state of a descent between two steps. It has no statement: what
waits is on the stack of calls. -/
structure Parser where
  /-- The text behind the token looked at. -/
  cursor : Cursor
  /-- The token looked at. It is not consumed yet. -/
  lookahead : Token
  environment : Environment
  /-- The first complaint. -/
  diagnostic : Option Diagnostic := none
  /-- The spans of the tokens consumed so far. -/
  consumed : List Span := []

namespace Parser

/-- The parser at the beginning of a text, with the first token read
already. -/
def ofText (text : String) (environment : Environment) : Parser :=
  let (lookahead, cursor) := (Cursor.ofText text).next
  { cursor, lookahead, environment }

/-- How many tokens are left to consume. The mark at the end is not one of
them, since it is looked at and never consumed. -/
def remaining (p : Parser) : Nat :=
  if p.lookahead.kind = .endOfInput then 0 else p.cursor.tokens.length + 1

/-- The parser behind the token that is consumed. At the end of the text the
mark is read again. -/
def advance (p : Parser) : Parser :=
  let (lookahead, cursor) := p.cursor.next
  { p with cursor, lookahead, consumed := p.consumed ++ [p.lookahead.toSpan] }

end Parser

/-- Why a descent stops. Only the first is an outcome of the text. -/
inductive Halt where
  | failed (error : EvalError)
  /-- A call was refused. -/
  | refused
  deriving DecidableEq

/-- A computation over a parser. What it did before it stopped stays done,
as the state is not rolled back: variables that were assigned before an
error are assigned. -/
abbrev Descent := EStateM Halt Parser

namespace Descent

/-! ### Steps -/

/-- Consumes the token looked at, whatever it is. -/
def advance : Descent Unit := modify Parser.advance

/-- Consumes the token looked at if it is of the kind, and tells whether it
did. -/
def eat (kind : Kind) : Descent Bool := do
  if (← get).lookahead.kind = kind then
    advance
    return true
  else return false

/-- The kind of the token behind the one looked at, which a copy of the
cursor reads. -/
def peek : Descent Kind := return (← get).cursor.next.1.kind

/-- What the token looked at carries as a name, which is moved out of it.
The kind and the span stay, so the token can still be consumed. -/
def takeName : Descent (Option String) := do
  let p ← get
  set { p with lookahead := .bare p.lookahead.kind p.lookahead.toSpan }
  return p.lookahead.identifier?

/-- Gives a variable a value. This is done behind the body of the
assignment, so an error in the body assigns nothing. -/
def assign (name : String) (x : Number) : Descent Unit :=
  modify fun p => { p with environment := p.environment.set name x }

/-- Stops with an error. What was done before stays done. -/
def fail {α : Type} (error : EvalError) : Descent α := throw (.failed error)

/-- The value of a variable, or the error that it has none. -/
def read (name : String) (offset : Nat) : Descent Number := do
  match (← get).environment.get? name with
  | some x => return x
  | none => fail (.undefinedVariable name offset)

/-- Complains about the token looked at, in the place of one of the
`expected` kinds: stops, or keeps the complaint if it is the first one and
yields what stands in for a value, as the policy says. A character that
starts no token is skipped then. -/
def complain (setting : Setting) (expected : List Kind) : Descent Number := do
  let t := (← get).lookahead
  match setting.policy with
  | .abort => fail (.malformed (setting.complaint expected t))
  | .substituteNan =>
    if t.kind = .unknown then advance
    modify fun p =>
      { p with diagnostic := p.diagnostic.or (some (setting.complaint expected t)) }
    return Number.nan

/-- Reads a number or a variable. A variable without a value stops the
descent before its name is consumed, and the error is about the place of the
name. -/
def operand (setting : Setting) : Descent Number := do
  let t := (← get).lookahead
  match t.content with
  | .number x =>
    advance
    return x
  | .identifier name =>
    let x ← read name t.start
    advance
    return x
  | .bare _ => complain setting Kind.factorStarts

/-- Ends a group of which `x` is the value. A parenthesis that is missing is
complained about, and the value is kept; what the complaint would put in the
place of an operand is not used. -/
def close (setting : Setting) (x : Number) : Descent Number := do
  if ← eat .closeParen then return x
  else
    let _ ← complain setting [.closeParen]
    return x

end Descent

/-! ### The rules -/

namespace Level

/-- The level of the operands of a row, and of the parts of what is no row:
the next tighter one. -/
def operand : Level → Level
  | sequence => assignment
  | assignment => sum
  | sum => product
  | product => signed
  | signed => term
  | term => power
  | power => primary
  | primary => primary

/-- The operations with marks between the operands of a row. A row of
factors has none, since it has no mark. -/
def operators : Level → List BinaryOperator
  | sequence => [.sequence]
  | sum => [.add, .sub]
  | product => [.mul, .div]
  | power => [.pow]
  | _ => []

/-- The operation with which a row goes on in front of a token of the given
kind. A row of factors goes on in front of a factor, with no mark between
them. -/
def joins (level : Level) (kind : Kind) : Option BinaryOperator :=
  if level = .term then if kind.startsFactor then some .mul else none
  else kind.operator?.filter fun operator => operator ∈ level.operators

end Level

/-- A procedure of the descent. A row has two, so that going on with it is a
call like any other. -/
inductive Rule where
  /-- Reads an expression of the level. -/
  | expression (level : Level)
  /-- Reads what is left of a row of the level, of which the value so far is
  `x`. -/
  | more (level : Level) (x : Number)

namespace Rule

/-- The order of the rules. A tighter level is lower, and of each level what
is left of a row is lower than the whole. A rule that has consumed nothing
calls only rules that are lower. -/
def rank : Rule → Nat
  | expression level => 2 * (Level.primary.rank - level.rank) + 1
  | more level _ => 2 * (Level.primary.rank - level.rank)

/-- What a rule does, with `call` to answer its calls. All rows have one
body, in which only the level differs. -/
def body (setting : Setting) (call : Rule → Descent Number) : Rule → Descent Number
  | more level x => do
    match level.joins (← get).lookahead.kind with
    | none => return x
    | some operator =>
      if level ≠ .term then Descent.advance
      let y ← call (.expression level.operand)
      call (.more level (operator.apply x y))
  | expression .assignment => do
    -- The token behind a name tells whether it is assigned to.
    if (← get).lookahead.kind = .identifier ∧ (← Descent.peek) = .assign then
      match ← Descent.takeName with
      | some name =>
        Descent.advance
        Descent.advance
        let x ← call (.expression .assignment)
        Descent.assign name x
        return x
      | none => call (.expression .sum)
    else call (.expression .sum)
  | expression .signed => do
    if ← Descent.eat .minus then
      let x ← call (.expression .term)
      return -x
    else call (.expression .term)
  | expression .primary => do
    if ← Descent.eat .openParen then
      let x ← call (.expression .sequence)
      Descent.close setting x
    else Descent.operand setting
  -- The rows: the first operand is read, and then what is left.
  | expression level => do
    let x ← call (.expression level.operand)
    call (.more level x)

/-- Whether a call can be answered on the way to an end: fewer tokens are
left than where it is made, or as many and its rank is lower. It is decided
while the descent runs, and it is a theorem that the answer is always
yes. -/
def Allowed (rule : Rule) (p : Parser) (caller : Rule) (q : Parser) : Prop :=
  p.remaining < q.remaining ∨ p.remaining = q.remaining ∧ rule.rank < caller.rank

instance (rule : Rule) (p : Parser) (caller : Rule) (q : Parser) :
    Decidable (rule.Allowed p caller q) :=
  inferInstanceAs (Decidable (_ ∨ _))

/-- Runs a rule, and answers the calls that are allowed. The check is what
makes the recursion end, so it is in the definition, and not only in a proof
about it. -/
def descend (setting : Setting) (rule : Rule) : Descent Number := fun p =>
  rule.body setting
    (fun callee q =>
      if callee.Allowed q rule p then descend setting callee q else .error .refused q)
    p
termination_by p => (p.remaining, rule.rank)
decreasing_by exact Prod.lex_def.mpr ‹_›

/-- Runs a rule, and answers calls that are nested no deeper than the given
depth. This is the literal recursion of the rules, cut off. -/
def within (setting : Setting) : Nat → Rule → Descent Number
  | 0, _ => throw .refused
  | depth + 1, rule => rule.body setting (within setting depth)

end Rule

/-! ### Whole texts -/

/-- Evaluates what the parser is in front of as a sequence, with `run` to
run the rules. Nothing may be left then. -/
def Parser.evaluate (setting : Setting) (run : Rule → Descent Number) : Descent Evaluation := do
  let value ← run (.expression .sequence)
  let p ← get
  if p.lookahead.kind = .endOfInput then return { value, diagnostic := p.diagnostic }
  else Descent.fail (.malformed (setting.leftover p.lookahead))

/-- The outcome of a descent, if no call was refused. -/
def Descent.outcome? : EStateM.Result Halt Parser Evaluation → Option Outcome
  | .ok evaluation p => some { result := .ok evaluation, environment := p.environment }
  | .error (.failed error) p => some { result := .error error, environment := p.environment }
  | .error .refused _ => none

/-- The parser where a descent stops, with a value or without one. Of it the
consumed tokens are of interest. -/
def Descent.final {α : Type} : EStateM.Result Halt Parser α → Parser
  | .ok _ p => p
  | .error _ p => p

end DeskCalculator
