import DeskCalculator.Descent
import DeskCalculator.Proofs.Tokens.Tiling

/-!
# `DeskCalculator.Proofs.Descent.Position`: where a parser stands

Between two steps a parser has consumed the first tokens of its text, looks
at the next one, and its cursor has those behind it (`Parser.At`). The mark
at the end is looked at and never consumed, so what is consumed is a
beginning of the tokens of the text (`Parser.At.consumed_prefix`).

The first section says what each step of a descent does to the parser, one
lemma for each step, so that the body of a rule is executed by `simp` and
the definition of the monad is opened only here. The second one says what
`Parser.At` gives: which token is looked at, that it is one of the text and
has a payload of its kind, and that consuming it comes to what is behind
(`Parser.At.advance`).
-/

set_option autoImplicit false

namespace DeskCalculator

open Text (byteLength)

/-! ### What a step does -/

namespace Descent

section Steps

variable {α β : Type} (p : Parser)

/-- Steps one after the other: the second one is done behind the first,
unless that has stopped. This is the one lemma that opens the monad of a
descent. -/
theorem bind_apply (x : Descent α) (f : α → Descent β) :
    (x >>= f) p = match x p with
      | .ok a p => f a p
      | .error halt p => .error halt p := by
  show EStateM.bind x f p = _
  rw [EStateM.bind]
  cases x p <;> rfl

/-- Yielding a value leaves the parser as it is. -/
@[simp] theorem pure_apply (a : α) : (pure a : Descent α) p = .ok a p := rfl

/-- Failing leaves the parser as it is, so the variables that were assigned
before are those of the outcome. -/
@[simp] theorem fail_apply (error : EvalError) :
    (fail error : Descent α) p = .error (.failed error) p := rfl

/-- The parser is looked at, and stays as it is. One of the equations by
which the rules are unfolded step by step. -/
@[simp] theorem get_bind (f : Parser → Descent α) : (get >>= f) p = f p p := rfl

/-- The token looked at is consumed. -/
@[simp] theorem advance_bind (f : Unit → Descent α) : (advance >>= f) p = f () p.advance := rfl

/-- The token behind the one looked at is read by a copy of the cursor, so
the parser stays as it is. -/
@[simp] theorem peek_bind (f : Kind → Descent α) : (peek >>= f) p = f p.cursor.next.1.kind p := rfl

/-- The name is moved out of the token looked at, of which kind and place
are left. -/
@[simp] theorem takeName_bind (f : Option String → Descent α) :
    (takeName >>= f) p = f p.lookahead.identifier?
      { p with lookahead := .bare p.lookahead.kind p.lookahead.toSpan } := rfl

/-- A token is consumed if it is of the kind. Stated for a choice that
follows at once, as each rule that may eat a token makes it. -/
@[simp] theorem eat_ite (kind : Kind) (x y : Descent α) :
    (eat kind >>= fun eaten => if eaten then x else y) p
      = if p.lookahead.kind = kind then x p.advance else y p := by
  by_cases h : p.lookahead.kind = kind
  · simp [eat, bind_assoc, h]
  · simp [eat, bind_assoc, h]

/-- What goes on with the value of a variable fails if it has none. The
failure keeps the state of the parser, and with it the variables. -/
@[simp] theorem read_bind (name : String) (offset : Nat) (f : Number → Descent α) :
    (read name offset >>= f) p =
      match p.environment.get? name with
      | some x => f x p
      | none => .error (.failed (.undefinedVariable name offset)) p := by
  rw [bind_apply, read, get_bind]
  cases p.environment.get? name <;> rfl

end Steps

end Descent

/-! ### Where a parser stands -/

/-- The parser looks at the first of the tokens `rest` of the text, or at
the mark if there is none left, and has consumed the tokens before. This is
what every rule keeps, with fewer tokens left or as many. -/
structure Parser.At (text : String) (p : Parser) (rest : List Token) : Prop where
  split : ∃ before, (Cursor.ofText text).tokens = before ++ rest ∧
    p.consumed = before.map Token.toSpan
  lookahead : p.lookahead = rest.headD (Token.endOfInput (byteLength text.toList))
  tokens : p.cursor.tokens = rest.tail
  stop : p.cursor.stop = byteLength text.toList

namespace Parser.At

variable {text : String} {p : Parser} {t : Token} {rest : List Token}

/-- A parser begins with all tokens left: it has read one ahead, and
consumed none. -/
theorem ofText (text : String) (env : Environment) :
    (Parser.ofText text env).At text (Cursor.ofText text).tokens := by
  have hstop : (Cursor.ofText text).stop = byteLength text.toList := Nat.zero_add _
  obtain ⟨hlookahead, htokens, hnext⟩ := (Cursor.ofText text).next_eq
  refine ⟨⟨[], rfl, rfl⟩, ?_, htokens, hnext.trans hstop⟩
  rw [← hstop]
  exact hlookahead

/-- What is consumed is a beginning of the tokens of the text. Every outcome
of a rule carries this, since `descend_evaluates` promises it of a descent
that fails as well. -/
theorem consumed_prefix (h : p.At text rest) :
    p.consumed <+: (Cursor.ofText text).tokens.map Token.toSpan := by
  obtain ⟨before, hsplit, hconsumed⟩ := h.split
  rw [hsplit, hconsumed, List.map_append]
  exact List.prefix_append _ _

/-- What is left are tokens of the text. From this a token has what every
token of a text has: it is not the mark, and its payload belongs to its
kind. -/
theorem mem (h : p.At text rest) (ht : t ∈ rest) : t ∈ (Cursor.ofText text).tokens := by
  obtain ⟨before, hsplit, -⟩ := h.split
  rw [hsplit]
  exact List.mem_append_right before ht

/-- Where a token is left, the parser looks at it. Connects the parser,
which has read one token ahead, with the tokens of the rest. -/
theorem lookahead_eq (h : p.At text (t :: rest)) : p.lookahead = t := h.lookahead

/-- A parser that does not look at the mark looks at a token. The kind of
the token looked at is all that a rule decides by, and this turns it into a
case of the list. -/
theorem exists_cons (h : p.At text rest) (hkind : p.lookahead.kind ≠ .endOfInput) :
    ∃ t more, rest = t :: more ∧ p.lookahead = t := by
  cases rest with
  | nil => exact absurd (congrArg Token.kind h.lookahead) hkind
  | cons t more => exact ⟨t, more, rfl, h.lookahead⟩

/-- The number of tokens left is what the parser counts. So what `descend`
allows is a condition on `rest`, as `Answerable` has it. -/
theorem remaining (h : p.At text rest) : p.remaining = rest.length := by
  rw [Parser.remaining, h.lookahead, h.tokens]
  cases rest with
  | nil => rfl
  | cons t rest =>
      have hkind := Cursor.kind_ne_endOfInput _ t (h.mem List.mem_cons_self)
      exact if_neg hkind

/-- The token behind the one looked at is read ahead. By this an assignment
is told from an expression that begins with a name. -/
theorem peek (h : p.At text (t :: rest)) :
    p.cursor.next.1 = rest.headD (Token.endOfInput (byteLength text.toList)) := by
  rw [p.cursor.next_eq.1, h.tokens, h.stop]
  rfl

/-- Consuming a token leaves the ones behind it. This needs a token to be
left: behind the mark there is only the mark again, and no rule consumes
it. -/
theorem advance (h : p.At text (t :: rest)) : p.advance.At text rest := by
  obtain ⟨before, hsplit, hconsumed⟩ := h.split
  obtain ⟨-, htokens, hstop⟩ := p.cursor.next_eq
  refine ⟨⟨before ++ [t], by rw [hsplit, List.append_assoc]; rfl, ?_⟩, h.peek,
    htokens.trans (congrArg List.tail h.tokens), hstop.trans h.stop⟩
  show p.consumed ++ [p.lookahead.toSpan] = _
  rw [hconsumed, h.lookahead, List.map_append]
  rfl

/-- A token that is looked at as a name carries one. So the parser has no
case to fear in which the kind and the content differ. -/
theorem exists_name (h : p.At text (t :: rest)) (hkind : t.kind = .identifier) :
    ∃ name, t = .identifier name t.toSpan := by
  obtain ⟨span, content⟩ := t
  cases content with
  | number x => cases hkind
  | identifier name => exact ⟨name, rfl⟩
  | bare kind =>
      exact absurd hkind (kind_of_content_bare (h.mem List.mem_cons_self) rfl).2.1

end Parser.At

end DeskCalculator
