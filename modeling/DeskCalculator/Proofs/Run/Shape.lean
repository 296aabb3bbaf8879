import DeskCalculator.Proofs.Run.Missing
import DeskCalculator.Proofs.Run.Viable

/-!
# `DeskCalculator.Proofs.Run.Shape`: what the form of the tokens decides

Which token can come next depends on the tokens before it, but on none of
the numbers and variables in them. A `Shape` is what is left of a state
without these: how many parentheses are open, and what the next token meets.

* `Shape.next`: the shape behind a token, if the token can stand there.
  `feed_moves`: every step moves the shape so, unless a variable has no
  value.
* `Expr.evaluate_bound`, `exists_run_sentence`: a run over a sentence
  succeeds if all variables have a value.
* `exists_shape_sentence`: so every token of a sentence can stand where it
  does.

Shapes are for `Proofs.Run.Stray`, where a sentence is compared with a text
that has stray characters in it. The two runs have different numbers and
even different variables, since skipping a character may leave NaN; but they
are in the same shape after the same tokens, and that is enough to know
which tokens are complained about.

`exists_shape_sentence` has no variables in its statement, although a run
needs some. It is proved by a run over the sentence with variables that have
a value for every name in it.
-/

set_option autoImplicit false

namespace DeskCalculator

/-- What the next token meets, without numbers and names. A token in the
place of an operand may be a name to assign if `target` says so, and a sign
if `sign` does. A name remembers both, because behind `=` they are as
before. -/
inductive Turn where
  | operand (target sign : Bool)
  | name (target sign : Bool)
  | value
  deriving DecidableEq

/-- How many parentheses are open, and what the next token meets. The number
is all that counts of the statements around: which of them is closed makes
no difference for what may stand there. -/
structure Shape where
  depth : Nat
  turn : Turn
  deriving DecidableEq

namespace Shape

/-- The shape before the first token. Anything that begins an expression may
come, also a name to assign and a sign. -/
def start : Shape := ⟨0, .operand true true⟩

/-- The shape behind an operand and one more token, in front of which
`depth` parentheses are open. None for the kinds that nothing goes on with,
and for a closing parenthesis outside of any. -/
def behind (depth : Nat) : Content → Option Shape
  | .number _ => some ⟨depth, .value⟩
  | .identifier _ => some ⟨depth, .value⟩
  | .bare .openParen => some ⟨depth + 1, .operand true true⟩
  | .bare .caret => some ⟨depth, .operand false false⟩
  | .bare .star => some ⟨depth, .operand false true⟩
  | .bare .slash => some ⟨depth, .operand false true⟩
  | .bare .plus => some ⟨depth, .operand false true⟩
  | .bare .minus => some ⟨depth, .operand false true⟩
  | .bare .semicolon => some ⟨depth, .operand true true⟩
  | .bare .closeParen =>
    match depth with
    | 0 => none
    | depth + 1 => some ⟨depth, .value⟩
  | .bare _ => none

/-- The shape behind a token, if the token can come next. A finite automaton
but for the depth: so the questions about it are decided by cases. -/
def next (shape : Shape) (content : Content) : Option Shape :=
  match shape.turn, content with
  | .operand .., .number _ => some ⟨shape.depth, .value⟩
  | .operand target sign, .identifier _ =>
    some ⟨shape.depth, if target then .name target sign else .value⟩
  | .operand .., .bare .openParen => some ⟨shape.depth + 1, .operand true true⟩
  | .operand _ sign, .bare .minus => if sign then some ⟨shape.depth, .operand false false⟩ else none
  | .operand .., .bare _ => none
  | .name target sign, .bare .assign => some ⟨shape.depth, .operand target sign⟩
  | _, content => behind shape.depth content

/-- The shape behind some tokens, if each can come next. What `feedAll` is
to `feed`. -/
def after (shape : Shape) (tokens : List Token) : Option Shape :=
  tokens.foldlM (fun shape t => shape.next t.content) shape

/-- The first token comes first. The equation for inductions over the
tokens. -/
theorem after_cons (shape : Shape) (t : Token) (tokens : List Token) :
    shape.after (t :: tokens) = (shape.next t.content).bind fun shape => shape.after tokens :=
  List.foldlM_cons

/-- A name is an operand unless it is assigned to. So behind a name the
cases of an operand need not be gone through again. -/
theorem next_name {content : Content} (h : content ≠ .bare .assign) (depth : Nat)
    (target sign : Bool) : next ⟨depth, .name target sign⟩ content = behind depth content := by
  cases content with
  | number x => rfl
  | identifier name => rfl
  | bare kind => cases kind <;> first | rfl | exact absurd rfl h

end Shape

namespace State

/-! ### Shapes of states

A state has a shape, and a step moves it as the token says. Only the tests
of the statement and the number of parentheses are looked at, so the values
do not matter. -/

/-- The shape of a state. Of the statement it keeps the two tests that
decide what an operand may be; operators never fail for what stands before
them. -/
def shape (s : State) : Shape where
  depth := s.enclosing.length
  turn :=
    match s.focus with
    | .operand => .operand s.statement.allowsTarget s.statement.allowsSign
    | .name _ _ => .name s.statement.allowsTarget s.statement.allowsSign
    | .value _ => .value

/-- Where an operand is missing, the shape says what it may be. For the
proof about a step, which begins with the focus of the state. -/
theorem shape_turn {s : State} (hf : s.focus = .operand) :
    s.shape.turn = .operand s.statement.allowsTarget s.statement.allowsSign := by
  simp only [shape, hf]

/-- Where the shape says so, an operand is missing. The way back, for the
module that knows shapes only. -/
theorem focus_of_shape {s : State} {target sign : Bool} (h : s.shape.turn = .operand target sign) :
    s.focus = .operand := by
  cases hf : s.focus with
  | operand => rfl
  | name name offset => simp [shape, hf] at h
  | value x => simp [shape, hf] at h

/-- What becomes of a step with the shape that its token leads to. It has
that shape, or fails because of a variable. Where the token cannot stand, a
run that aborts does not go on; what a run that recovers does there is left
open. -/
inductive Moves (setting : Setting) : Option Shape → Except Failure State → Prop where
  | ok (s : State) : Moves setting (some s.shape) (.ok s)
  | unbound (shape : Option Shape) (name : String) (offset : Nat) (env : Environment) :
      Moves setting shape (.error ⟨.undefinedVariable name offset, env⟩)
  | stuck (result : Except Failure State) :
      (setting.policy = .abort → ∀ s, result ≠ .ok s) → Moves setting none result

section Steps

variable {setting : Setting}

/-- A run that aborts goes on in the shape that its token leads to. Where
the token cannot stand it does not go on, and with a variable that has no
value it fails. -/
theorem Moves.of_abort (hp : setting.policy = .abort) {shape : Option Shape} {s : State}
    (h : Moves setting shape (.ok s)) : shape = some s.shape := by
  cases h with
  | ok => rfl
  | stuck _ hstuck => exact absurd rfl (hstuck hp s)

/-- A group that ends is an operand inside one parenthesis less. The
statement that waited does not count for the shape, since behind an operand
every operator may come. -/
theorem shape_closeGroup {s : State} {waiting : Statement} {enclosing : List Statement}
    (he : s.enclosing = waiting :: enclosing) (x : Number) :
    (s.closeGroup x).shape = ⟨enclosing.length, .value⟩ := by
  rw [closeGroup, he]
  rfl

/-- A statement that waits for the right side of an operator allows no name
to assign there, and a sign behind all operators but one: a power takes no
sign in its exponent. -/
theorem awaitAfter_allows {statement waiting : Statement} {x : Number} {kind : Kind}
    (h : statement.awaitAfter x kind = some waiting) (depth : Nat) :
    Shape.behind depth (.bare kind)
      = some ⟨depth, .operand waiting.allowsTarget waiting.allowsSign⟩ := by
  cases kind <;> first
    | contradiction
    | (obtain rfl := Option.some.inj h
       simp [Shape.behind, Statement.allowsTarget, Statement.allowsSign, Statement.awaitExponent,
         Statement.awaitProduct, Statement.awaitSum])

/-- A token after an operand moves the shape as `Shape.behind` says. One
case for each case of the step. -/
theorem feedOperator_moves (setting : Setting) (s : State) (x : Number) (t : Token) :
    Moves setting (Shape.behind s.enclosing.length t.content) (s.feedOperator setting x t) := by
  cases s.feedOperator_cases x t with
  | factor y value result =>
      -- A factor that is one token: a number, or a variable that has a
      -- value.
      have hshape : Shape.behind s.enclosing.length t.content
          = some ⟨s.enclosing.length, .value⟩ := by
        cases value with
        | number content => rw [content]; rfl
        | bound content bound => rw [content]; rfl
      rw [result, hshape]
      exact .ok ({ s with statement := s.statement.awaitFactor x }.take y)
  | unbound name content unbound result =>
      rw [result]
      exact .unbound _ _ _ _
  | openGroup content result =>
      rw [result, content]
      exact .ok (s.openGroup (s.statement.awaitFactor x))
  | operator kind statement content waits result =>
      rw [result, content, awaitAfter_allows waits]
      exact .ok (s.await statement)
  | semicolon content result =>
      rw [result, content]
      exact .ok ((s.endStatement x).2.await {})
  | closeGroup waiting enclosing content inside result =>
      have hclosed : Moves setting _ _ := .ok ((s.endStatement x).2.closeGroup (s.endStatement x).1)
      rw [shape_closeGroup (s := (s.endStatement x).2) inside] at hclosed
      rw [result, content, inside]
      exact hclosed
  | skip waiting enclosing content inside result =>
      rw [result, content]
      -- An unknown character in a group: only a run that recovers goes on.
      refine .stuck _ fun hp s' h => ?_
      rw [complain_abort hp] at h
      cases h
  | leftover content outside result =>
      -- Both kinds that can be left over have no shape behind them at depth
      -- zero.
      rw [result, outside]
      rcases content with content | content <;> rw [content] <;>
        exact .stuck _ fun _ s' h => by cases h
  | stop kind content stops result =>
      rw [result, content]
      have hnone : Shape.behind s.enclosing.length (.bare kind) = none := by
        cases kind <;> first | contradiction | rfl
      rw [hnone]
      exact .stuck _ fun _ s' h => absurd h (s.endAll_fail_ne_ok setting x t _ s')

/-- A run that aborts does not go on where an operand is missing, whatever
the token is. For a run that recovers nothing is claimed. -/
theorem feedMissing_moves (setting : Setting) (s : State) (t : Token) :
    Moves setting none (s.feedMissing setting t) := by
  refine .stuck _ fun hp s' h => ?_
  rw [feedMissing, complain_abort hp] at h
  cases h

/-- A token in the place of an operand. By what it carries, as both
definitions match on that. -/
theorem feedOperand_moves (setting : Setting) {s : State} (hf : s.focus = .operand) (t : Token) :
    Moves setting (s.shape.next t.content) (s.feedOperand setting t) := by
  simp only [feedOperand, Shape.next, shape_turn hf]
  cases t.content with
  | number x => exact .ok (s.take x)
  | identifier name =>
      -- Where it may be assigned to, the variable is not looked at yet.
      cases ha : s.statement.allowsTarget with
      | true =>
          have hname : Moves setting _ _ := .ok { s with focus := .name name t.start }
          simpa [shape, ha] using hname
      | false =>
          cases hy : s.environment.get? name with
          | none =>
              simp only [State.read, hy]
              exact .unbound _ _ _ _
          | some y =>
              simp only [State.read, hy]
              exact .ok (s.take y)
  | bare kind =>
      cases kind with
      | openParen => exact .ok (s.openGroup s.statement)
      | minus =>
          -- The one kind whose fate the statement decides.
          cases ha : s.statement.allowsSign with
          | true => exact .ok (s.await { s.statement with negated := true })
          | false => exact feedMissing_moves setting s t
      | _ => exact feedMissing_moves setting s t

/-- Every step moves the shape as its token says, under both policies. The
step lemma of this module. Both policies are needed: one for the sentence,
and one for the text with stray characters in it. -/
theorem feed_moves (setting : Setting) (s : State) (t : Token) :
    Moves setting (s.shape.next t.content) (feed setting s t) := by
  cases hf : s.focus with
  | operand =>
      simp only [feed, hf]
      exact feedOperand_moves setting hf t
  | value x =>
      simp only [feed, hf, shape, Shape.next]
      exact feedOperator_moves setting s x t
  | name name offset =>
      simp only [feed, hf, shape]
      -- The mark that assigns is the only token that is not the next one
      -- after an operand.
      by_cases ht : t.kind = .assign
      · rw [Token.content_of_kind ht (by decide) (by decide), if_pos ht]
        exact .ok (s.await { s.statement with targets := name :: s.statement.targets })
      · have hcontent : t.content ≠ .bare .assign := fun h => ht (congrArg Content.kind h)
        rw [Shape.next_name hcontent, if_neg ht]
        cases hx : s.environment.get? name with
        | none =>
            simp only [State.read, hx]
            exact .unbound _ _ _ _
        | some x =>
            simp only [State.read, hx]
            exact feedOperator_moves setting s x t

/-- Tokens that a run that aborts accepts can stand where they do. Induction
over the tokens, for every state to begin with. -/
theorem feedAll_shape (hp : setting.policy = .abort) (tokens : List Token) :
    ∀ {s s' : State}, feedAll setting s tokens = .ok s' →
      s.shape.after tokens = some s'.shape := by
  induction tokens with
  | nil =>
      intro s s' h
      obtain rfl := Except.ok.inj h
      rfl
  | cons t tokens ih =>
      intro s s' h
      rw [feedAll_cons] at h
      obtain ⟨next, hstep, hrest⟩ := bind_eq_ok h
      -- The step went on, so its token can stand there.
      have hmoves := feed_moves setting s t
      rw [hstep] at hmoves
      rw [Shape.after_cons, hmoves.of_abort hp, Option.bind_some]
      exact ih hrest

end Steps

end State

/-! ### Sentences whose variables have values

A derivation that has a value is found by giving a value to every name in
it. Assignments on the way only add to them, which is what the induction has
to carry along (`Environment.Keeps`). -/

/-- The second environment has a value wherever the first one has one. Which
value is of no interest, since none decides whether a computation
succeeds. -/
def Environment.Keeps (env env' : Environment) : Prop :=
  ∀ name, env.get? name ≠ none → env'.get? name ≠ none

/-- All variables among the tokens have a value. Asks it of names that are
assigned to as well, which is more than necessary and simpler to say. -/
def Bound (env : Environment) (tokens : List Token) : Prop :=
  ∀ t ∈ tokens, ∀ name, t.content = .identifier name → env.get? name ≠ none

/-- All variables among some tokens can be given a value. Induction on the
tokens, one more binding for each name. -/
theorem exists_bound (tokens : List Token) : ∃ env, Bound env tokens := by
  induction tokens with
  | nil => exact ⟨.empty, fun t ht => absurd ht List.not_mem_nil⟩
  | cons t tokens ih =>
      obtain ⟨env, hbound⟩ := ih
      cases hcontent : t.content with
      | identifier name =>
          -- Any value will do, so it is the one at hand.
          refine ⟨env.set name .nan, fun u hu other hother => ?_⟩
          rw [Environment.get?_set]
          split
          · exact Option.some_ne_none _
          · next hne =>
              rcases List.mem_cons.mp hu with rfl | hu
              · exact absurd (Content.identifier.inj (hcontent.symm.trans hother)) hne
              · exact hbound u hu other hother
      | _ =>
          refine ⟨env, fun u hu other hother => ?_⟩
          rcases List.mem_cons.mp hu with rfl | hu
          · cases hcontent.symm.trans hother
          · exact hbound u hu other hother

/-- The computation succeeds, and every variable keeps a value. The second
half is for the part behind. -/
def Succeeds (env : Environment) (meaning : Except Failure (Number × Environment)) : Prop :=
  ∃ p, meaning = .ok p ∧ env.Keeps p.2

/-- An operation succeeds if both its operands do. The right one is computed
with the variables that the left one leaves. -/
theorem both_succeeds {operator : BinaryOperator} {env : Environment}
    {left right : Environment → Except Failure (Number × Environment)}
    (hleft : Succeeds env (left env))
    (hright : ∀ env', env.Keeps env' → Succeeds env' (right env')) :
    Succeeds env (Expr.both operator left right env) := by
  obtain ⟨⟨x, env'⟩, hx, hkeeps⟩ := hleft
  obtain ⟨⟨y, env''⟩, hy, hkeeps'⟩ := hright env' hkeeps
  refine ⟨(operator.apply x y, env''), ?_, fun name hname => hkeeps' name (hkeeps name hname)⟩
  simp only [Expr.both, hx, hy, ok_bind, pure_eq_ok]

section Bound

variable {env env' : Environment} {t : Token} {ts us : List Token}

/-- A variable that has a value keeps it. -/
theorem Environment.Keeps.refl (env : Environment) : env.Keeps env := fun _ hname => hname

/-- The first of two rows of tokens, with the same variables. -/
theorem Bound.left (h : Bound env (ts ++ us)) : Bound env ts :=
  fun t ht => h t (List.mem_append_left us ht)

/-- The second of two rows of tokens, with variables that keep a value. It
is evaluated after the first one, which may have assigned to some of
them. -/
theorem Bound.right (h : Bound env (ts ++ us)) (hkeeps : env.Keeps env') : Bound env' us :=
  fun t ht name hname => hkeeps name (h t (List.mem_append_right ts ht) name hname)

/-- The tokens behind the first one. -/
theorem Bound.tail (h : Bound env (t :: ts)) : Bound env ts :=
  fun u hu => h u (List.mem_cons_of_mem t hu)

/-- The tokens behind a mark, with variables that keep a value. The right
operand of an operator with a mark of its own. -/
theorem Bound.behind (h : Bound env (ts ++ t :: us)) (hkeeps : env.Keeps env') : Bound env' us :=
  (h.right hkeeps).tail

end Bound

/-- An expression has a value if all its variables have one. Induction on
the derivation; a part behind another one has its variables by `Keeps`. -/
theorem Expr.evaluate_bound (e : Expr) :
    ∀ env, Bound env e.tokens → Succeeds env (e.evaluate env) := by
  induction e with
  | number value span => exact fun env _ => ⟨_, rfl, .refl env⟩
  | identifier name span =>
      intro env hbound
      obtain ⟨x, hx⟩ := Option.ne_none_iff_exists'.mp (hbound _ List.mem_cons_self name rfl)
      refine ⟨(x, env), ?_, .refl env⟩
      simp only [evaluate, hx]
  | group opening body closing ih => exact fun env hbound => ih env hbound.left.tail
  | power base mark exponent ihbase ihexponent =>
      exact fun env hbound => both_succeeds (ihbase env hbound.left)
        fun env' hkeeps => ihexponent env' (hbound.behind hkeeps)
  | factors left right ihleft ihright =>
      exact fun env hbound => both_succeeds (ihleft env hbound.left)
        fun env' hkeeps => ihright env' (hbound.right hkeeps)
  | negated mark body ih =>
      intro env hbound
      obtain ⟨p, hp, hkeeps⟩ := ih env hbound.tail
      exact ⟨(-p.1, p.2), by rw [evaluate, hp]; rfl, hkeeps⟩
  | product left sign mark right ihleft ihright =>
      exact fun env hbound => both_succeeds (ihleft env hbound.left)
        fun env' hkeeps => ihright env' (hbound.behind hkeeps)
  | sum left sign mark right ihleft ihright =>
      exact fun env hbound => both_succeeds (ihleft env hbound.left)
        fun env' hkeeps => ihright env' (hbound.behind hkeeps)
  | assignment name span mark body ih =>
      intro env hbound
      obtain ⟨p, hp, hkeeps⟩ := ih env hbound.tail.tail
      -- An assignment gives a value and takes none away.
      refine ⟨(p.1, p.2.set name p.1), by rw [evaluate, hp]; rfl, fun other hother => ?_⟩
      rw [Environment.get?_set]
      split
      · exact Option.some_ne_none _
      · exact hkeeps other hother
  | sequence first mark second ihfirst ihsecond =>
      exact fun env hbound => both_succeeds (ihfirst env hbound.left)
        fun env' hkeeps => ihsecond env' (hbound.behind hkeeps)

/-- With some variables, a run over a sentence succeeds. By the meaning of
the sentence, so it holds under every setting. -/
theorem exists_run_sentence {tokens : List Token} (h : Sentence tokens) (setting : Setting)
    (stop : Nat) : ∃ env p, State.run setting stop { environment := env } tokens = .ok p := by
  obtain ⟨e, hvalid, rfl⟩ := h
  obtain ⟨env, hbound⟩ := exists_bound e.tokens
  obtain ⟨p, hp, -⟩ := e.evaluate_bound env hbound
  have hrun := evaluateTokens_tokens setting env hvalid stop
  rw [evaluateTokens_eq, hp] at hrun
  obtain ⟨final, hfinal⟩ := Outcome.ofRun_ok (congrArg Outcome.result hrun)
  exact ⟨env, _, hfinal⟩

/-- Every token of a sentence can stand where it does. Proved by a run over
it, in an environment in which it succeeds. -/
theorem exists_shape_sentence {tokens : List Token} (h : Sentence tokens) :
    ∃ shape, Shape.start.after tokens = some shape := by
  obtain ⟨env, p, hrun⟩ := exists_run_sentence h { policy := .abort, text := [] } 0
  obtain ⟨s, hread, -⟩ := bind_eq_ok hrun
  exact ⟨s.shape, State.feedAll_shape rfl tokens hread⟩

end DeskCalculator
