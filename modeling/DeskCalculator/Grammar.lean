import DeskCalculator.Outcome
import DeskCalculator.Token

/-!
# `DeskCalculator.Grammar`: the language of texts and what they mean

The grammar, from the loosest level to the tightest:

    sequence   := assignment (";" assignment)*
    assignment := identifier "=" assignment | sum
    sum        := product (("+" | "-") product)*
    product    := signed (("*" | "/") signed)*
    signed     := "-" term | term
    term       := power power*
    power      := primary ("^" primary)*
    primary    := identifier | number | "(" sequence ")"

An `Expr` is a derivation without its unit steps: `level` is the level of
its outermost rule, and `Valid` says that each part is at the level that the
grammar asks for, or at a tighter one. Rows of operators lean to the left.
`tokens` are the tokens derived, and `evaluate` is the meaning: parts are
evaluated from left to right, each with the variables that the ones before
it left.

This module is the second side of most theorems about evaluation, and runs
nothing. It knows of no policy and no complaint: a `Sentence` is a text in
order, and only a variable can be wrong with it. The spans in a derivation
are there for the place of that variable.
-/

set_option autoImplicit false

namespace DeskCalculator

/-- The levels of the grammar, from the loosest to the tightest. They are
named after what is read there, and `Rule` in `Descent` has one rule for
each. -/
inductive Level where
  | sequence
  | assignment
  | sum
  | product
  | signed
  | term
  | power
  | primary
  deriving DecidableEq

/-- How tight a level binds. That an expression of a tighter level may stand
for one of a looser one takes the place of the unit rules of the grammar. -/
def Level.rank : Level → Nat
  | sequence => 0
  | assignment => 1
  | sum => 2
  | product => 3
  | signed => 4
  | term => 5
  | power => 6
  | primary => 7

/-- The operators of a sum. -/
inductive SumSign where
  | plus
  | minus
  deriving DecidableEq

namespace SumSign

/-- The kind of the token. -/
def kind : SumSign → Kind
  | plus => .plus
  | minus => .minus

/-- The operation. -/
def operator : SumSign → BinaryOperator
  | plus => .add
  | minus => .sub

end SumSign

/-- The operators of a product. -/
inductive ProductSign where
  | star
  | slash
  deriving DecidableEq

namespace ProductSign

/-- The kind of the token. -/
def kind : ProductSign → Kind
  | star => .star
  | slash => .slash

/-- The operation. -/
def operator : ProductSign → BinaryOperator
  | star => .mul
  | slash => .div

end ProductSign

/-- A derivation of the grammar, with the spans of its tokens. The unit
steps are left out, so each constructor is one of the alternatives that has
more than one part. -/
inductive Expr where
  | number (value : Number) (span : Span)
  | identifier (name : String) (span : Span)
  | group (opening : Span) (body : Expr) (closing : Span)
  | power (base : Expr) (mark : Span) (exponent : Expr)
  /-- Two factors side by side. -/
  | factors (left right : Expr)
  | negated (mark : Span) (body : Expr)
  | product (left : Expr) (sign : ProductSign) (mark : Span) (right : Expr)
  | sum (left : Expr) (sign : SumSign) (mark : Span) (right : Expr)
  | assignment (name : String) (span mark : Span) (body : Expr)
  | sequence (first : Expr) (mark : Span) (second : Expr)
  deriving DecidableEq

namespace Expr

/-- The level of the outermost rule. -/
def level : Expr → Level
  | number .. => .primary
  | identifier .. => .primary
  | group .. => .primary
  | power .. => .power
  | factors .. => .term
  | negated .. => .signed
  | product .. => .product
  | sum .. => .sum
  | assignment .. => .assignment
  | sequence .. => .sequence

/-- Whether an expression can stand where the grammar asks for a level. -/
def Fits (e : Expr) (level : Level) : Prop := level.rank ≤ e.level.rank

instance (e : Expr) (level : Level) : Decidable (e.Fits level) :=
  inferInstanceAs (Decidable (level.rank ≤ e.level.rank))

/-- Each part stands where the grammar allows it. The left part of a row may
be of the same level as the row and the right part has to be tighter, so
rows lean to the left; only assignments lean to the right. -/
def Valid : Expr → Prop
  | number .. => True
  | identifier .. => True
  | group _ body _ => body.Valid
  | power base _ exponent =>
    base.Valid ∧ base.Fits .power ∧ exponent.Valid ∧ exponent.Fits .primary
  | factors left right => left.Valid ∧ left.Fits .term ∧ right.Valid ∧ right.Fits .power
  | negated _ body => body.Valid ∧ body.Fits .term
  | product left _ _ right =>
    left.Valid ∧ left.Fits .product ∧ right.Valid ∧ right.Fits .signed
  | sum left _ _ right => left.Valid ∧ left.Fits .sum ∧ right.Valid ∧ right.Fits .product
  | assignment _ _ _ body => body.Valid ∧ body.Fits .assignment
  | sequence first _ second => first.Valid ∧ second.Valid ∧ second.Fits .assignment

/-- Validity can be decided, part by part. The instances are terms, so that
deciding it for a given derivation evaluates. -/
instance decidableValid : (e : Expr) → Decidable e.Valid
  | number .. => .isTrue trivial
  | identifier .. => .isTrue trivial
  | group _ body _ => decidableValid body
  | power base _ exponent =>
    have := decidableValid base
    have := decidableValid exponent
    inferInstanceAs (Decidable (_ ∧ _ ∧ _ ∧ _))
  | factors left right =>
    have := decidableValid left
    have := decidableValid right
    inferInstanceAs (Decidable (_ ∧ _ ∧ _ ∧ _))
  | negated _ body =>
    have := decidableValid body
    inferInstanceAs (Decidable (_ ∧ _))
  | product left _ _ right =>
    have := decidableValid left
    have := decidableValid right
    inferInstanceAs (Decidable (_ ∧ _ ∧ _ ∧ _))
  | sum left _ _ right =>
    have := decidableValid left
    have := decidableValid right
    inferInstanceAs (Decidable (_ ∧ _ ∧ _ ∧ _))
  | assignment _ _ _ body =>
    have := decidableValid body
    inferInstanceAs (Decidable (_ ∧ _))
  | sequence first _ second =>
    have := decidableValid first
    have := decidableValid second
    inferInstanceAs (Decidable (_ ∧ _ ∧ _))

/-- The tokens derived. They are put together from left to right, with the
marks between the parts, so a derivation and its tokens have the same
order. -/
def tokens : Expr → List Token
  | number value span => [.number value span]
  | identifier name span => [.identifier name span]
  | group opening body closing =>
    .bare .openParen opening :: body.tokens ++ [.bare .closeParen closing]
  | power base mark exponent => base.tokens ++ .bare .caret mark :: exponent.tokens
  | factors left right => left.tokens ++ right.tokens
  | negated mark body => .bare .minus mark :: body.tokens
  | product left sign mark right => left.tokens ++ .bare sign.kind mark :: right.tokens
  | sum left sign mark right => left.tokens ++ .bare sign.kind mark :: right.tokens
  | assignment name span mark body =>
    .identifier name span :: .bare .assign mark :: body.tokens
  | sequence first mark second => first.tokens ++ .bare .semicolon mark :: second.tokens

/-- An operation between the values of two expressions, the left one
evaluated first. The right one sees what the left one assigned, and is not
evaluated if the left one fails. -/
def both (operator : BinaryOperator)
    (left right : Environment → Except Failure (Number × Environment)) (env : Environment) :
    Except Failure (Number × Environment) := do
  let (x, env) ← left env
  let (y, env) ← right env
  return (operator.apply x y, env)

/-- The value of an expression and the variables after it, or the first
variable without a value and the variables at that point. -/
def evaluate : Expr → Environment → Except Failure (Number × Environment)
  | number value _, env => .ok (value, env)
  | identifier name span, env =>
    match env.get? name with
    | some x => .ok (x, env)
    | none => .error ⟨.undefinedVariable name span.start, env⟩
  | group _ body _, env => body.evaluate env
  | power base _ exponent, env => both .pow base.evaluate exponent.evaluate env
  | factors left right, env => both .mul left.evaluate right.evaluate env
  | negated _ body, env => do
    let (x, env) ← body.evaluate env
    return (-x, env)
  | product left sign _ right, env => both sign.operator left.evaluate right.evaluate env
  | sum left sign _ right, env => both sign.operator left.evaluate right.evaluate env
  | assignment name _ _ body, env => do
    let (x, env) ← body.evaluate env
    return (x, env.set name x)
  | sequence first _ second, env => both .sequence first.evaluate second.evaluate env

end Expr

/-- A list of tokens that the grammar derives. The mark at the end of a text
is not among them. That no list has two derivations with different meanings
follows from the run over it (`evaluateTokens_tokens`). -/
def Sentence (tokens : List Token) : Prop := ∃ e : Expr, e.Valid ∧ e.tokens = tokens

end DeskCalculator
