import DeskCalculator.Proofs.Run.Steps
import DeskCalculator.Grammar

/-!
# `DeskCalculator.Proofs.Run.Outline`: what the tokens read so far can become

A run that has found nothing wrong stands behind tokens that begin some
sentence. The state says which: its statements are rows of waiting
operations, and each part of such a row was spelled by a segment of the
tokens that turns any expression behind it into a looser one (`Opens`).

* `Outline`: the segments of one statement. A part that does not wait has an
  empty segment.
* `Spelled`: the tokens read so far are the segments of all the statements
  of a state, with the open parentheses between them and the operand that
  was read last behind them.
* `spelled_feed`: a step that finds nothing wrong keeps a state spelled.

How a state that is spelled goes on to a sentence is in
`DeskCalculator.Proofs.Run.Viable`.

This is the converse of `Proofs.Run.Meaning`, which starts from a
derivation: here there is only a state, and derivations have to be made.
They cannot be made on the way, because an operand that was read may still
become a part of any looser expression. Hence `Opens`, which speaks of all
the expressions that may follow, and `Derives`, which says that there is
some derivation.

Leaves are tokens with a mark whether the derivation reads them as a
primary. A name before `=` is none, and for the question whether a text
could go on with a variable (`ViableReading`) this makes the difference.
Where it does not matter the marks are dropped again (`Expr.leaves_tokens`).
-/

set_option autoImplicit false

namespace DeskCalculator

/-! ### Derivations and their leaves

The rules of the grammar, said of leaves: what derives an expression, and
what opens one, that is, turns the expression that will come into a looser
one. -/

/-- A token of a derivation, and whether it is a primary by itself. A number
is one, and a name that is read; a name to assign is none. -/
structure Leaf where
  token : Token
  primary : Bool

/-- The tokens derived, each with the mark whether it is a primary by
itself: a number, or a name that is read. The name of an assignment is
none. -/
def Expr.leaves : Expr → List Leaf
  | number value span => [⟨.number value span, true⟩]
  | identifier name span => [⟨.identifier name span, true⟩]
  | group opening body closing =>
    ⟨.bare .openParen opening, false⟩ :: body.leaves ++ [⟨.bare .closeParen closing, false⟩]
  | power base mark exponent => base.leaves ++ ⟨.bare .caret mark, false⟩ :: exponent.leaves
  | factors left right => left.leaves ++ right.leaves
  | negated mark body => ⟨.bare .minus mark, false⟩ :: body.leaves
  | product left sign mark right => left.leaves ++ ⟨.bare sign.kind mark, false⟩ :: right.leaves
  | sum left sign mark right => left.leaves ++ ⟨.bare sign.kind mark, false⟩ :: right.leaves
  | assignment name span mark body =>
    ⟨.identifier name span, false⟩ :: ⟨.bare .assign mark, false⟩ :: body.leaves
  | sequence first mark second => first.leaves ++ ⟨.bare .semicolon mark, false⟩ :: second.leaves

/-- The leaves are the tokens. Both functions have the same recursion, so it
is an induction on the derivation without a hypothesis. -/
theorem Expr.leaves_tokens (e : Expr) : e.leaves.map Leaf.token = e.tokens := by
  induction e with
  | number | identifier => rfl
  | _ => simp_all [leaves, tokens]

/-- Some derivation of the level has these leaves. Its numbers and names are
in the leaves, so nothing else has to be known about it. -/
def Derives (level : Level) (leaves : List Leaf) : Prop :=
  ∃ e : Expr, e.Valid ∧ e.Fits level ∧ e.leaves = leaves

/-- The leaves turn every expression of one level, put behind them, into one
of another. With `Derives` for both sides nothing is said about how the
derivations look. -/
def Opens (inner outer : Level) (leaves : List Leaf) : Prop :=
  ∀ rest, Derives inner rest → Derives outer (leaves ++ rest)

variable {level tighter inner middle outer : Level} {ls ms : List Leaf}

/-- An expression of a tighter level stands where a looser one can. These
are the unit steps of the grammar, which derivations leave out. -/
theorem Derives.loosen (h : Derives tighter ls) (hle : level.rank ≤ tighter.rank) :
    Derives level ls := by
  obtain ⟨e, hvalid, hfits, hleaves⟩ := h
  exact ⟨e, hvalid, Nat.le_trans hle hfits, hleaves⟩

/-- Nothing has to stand before an expression that is tight enough. The
segment of a part that does not wait. -/
theorem opens_nil (hle : outer.rank ≤ inner.rank) : Opens inner outer [] :=
  fun _ h => h.loosen hle

/-- One opening behind another. Used for names to assign, of which there may
be several in a row. -/
theorem Opens.append (h : Opens middle outer ls) (h' : Opens inner middle ms) :
    Opens inner outer (ls ++ ms) := by
  intro rest hrest
  rw [List.append_assoc]
  exact h _ (h' _ hrest)

/-- A number or a name is a primary. The hypothesis is what the cases of a
step give: the token is an operand, with some value. The value is of no
interest here. -/
theorem derives_operand {env : Environment} {t : Token} {x : Number} (h : Denotes env t x) :
    Derives .primary [⟨t, true⟩] := by
  obtain ⟨span, content⟩ := t
  cases h with
  | number h =>
      cases h
      exact ⟨.number x span, trivial, Nat.le_refl _, rfl⟩
  | bound h =>
      cases h
      exact ⟨.identifier _ span, trivial, Nat.le_refl _, rfl⟩

/-- A name is a primary, if it is one that is read. -/
theorem derives_name (name : String) (span : Span) :
    Derives .primary [⟨.identifier name span, true⟩] :=
  ⟨.identifier name span, trivial, Nat.le_refl _, rfl⟩

/-- A sequence in parentheses is a primary, whatever is in it. -/
theorem derives_group (h : Derives .sequence ls) (opening closing : Span) :
    Derives .primary
      (⟨.bare .openParen opening, false⟩ :: ls ++ [⟨.bare .closeParen closing, false⟩]) := by
  obtain ⟨e, hvalid, -, rfl⟩ := h
  exact ⟨.group opening e closing, hvalid, Nat.le_refl _, rfl⟩

/-- A power waits for an exponent. This and the next lemmas are the rules of
the grammar, each with its last part left open. -/
theorem Derives.opens_power (h : Derives .power ls) (mark : Span) :
    Opens .primary .power (ls ++ [⟨.bare .caret mark, false⟩]) := by
  rintro _ ⟨exponent, hvalid', hfits', rfl⟩
  obtain ⟨base, hvalid, hfits, rfl⟩ := h
  exact ⟨.power base mark exponent, ⟨hvalid, hfits, hvalid', hfits'⟩, Nat.le_refl _, by
    simp [Expr.leaves]⟩

/-- A row of factors waits for another one. No token stands between them, so
its segment is the row itself. -/
theorem Derives.opens_factors (h : Derives .term ls) : Opens .power .term ls := by
  rintro _ ⟨right, hvalid', hfits', rfl⟩
  obtain ⟨left, hvalid, hfits, rfl⟩ := h
  exact ⟨.factors left right, ⟨hvalid, hfits, hvalid', hfits'⟩, Nat.le_refl _, rfl⟩

/-- A sign waits for a row of factors. The sign is its own segment. -/
theorem opens_minus (mark : Span) : Opens .term .signed [⟨.bare .minus mark, false⟩] := by
  rintro _ ⟨body, hvalid, hfits, rfl⟩
  exact ⟨.negated mark body, ⟨hvalid, hfits⟩, Nat.le_refl _, rfl⟩

/-- A product waits for its right side, which may have a sign. -/
theorem Derives.opens_product (h : Derives .product ls) (sign : ProductSign) (mark : Span) :
    Opens .signed .product (ls ++ [⟨.bare sign.kind mark, false⟩]) := by
  rintro _ ⟨right, hvalid', hfits', rfl⟩
  obtain ⟨left, hvalid, hfits, rfl⟩ := h
  exact ⟨.product left sign mark right, ⟨hvalid, hfits, hvalid', hfits'⟩, Nat.le_refl _, by
    simp [Expr.leaves]⟩

/-- A sum waits for its right side, which is a product. -/
theorem Derives.opens_sum (h : Derives .sum ls) (sign : SumSign) (mark : Span) :
    Opens .product .sum (ls ++ [⟨.bare sign.kind mark, false⟩]) := by
  rintro _ ⟨right, hvalid', hfits', rfl⟩
  obtain ⟨left, hvalid, hfits, rfl⟩ := h
  exact ⟨.sum left sign mark right, ⟨hvalid, hfits, hvalid', hfits'⟩, Nat.le_refl _, by
    simp [Expr.leaves]⟩

/-- A name to assign waits for its value, which may be an assignment
again. -/
theorem opens_assign (name : String) (span mark : Span) :
    Opens .assignment .assignment
      [⟨.identifier name span, false⟩, ⟨.bare .assign mark, false⟩] := by
  rintro _ ⟨body, hvalid, hfits, rfl⟩
  exact ⟨.assignment name span mark body, ⟨hvalid, hfits⟩, Nat.le_refl _, rfl⟩

/-- A sequence waits for its next statement. What was read is the whole
sequence so far. -/
theorem Derives.opens_sequence (h : Derives .sequence ls) (mark : Span) :
    Opens .assignment .sequence (ls ++ [⟨.bare .semicolon mark, false⟩]) := by
  rintro _ ⟨second, hvalid', hfits', rfl⟩
  obtain ⟨first, hvalid, -, rfl⟩ := h
  exact ⟨.sequence first mark second, ⟨hvalid, hvalid', hfits'⟩, Nat.le_refl _, by
    simp [Expr.leaves]⟩

/-! ### The segments of one statement

A statement that waits for an operand was read in segments, one for each
part that can wait. An operator settles the tighter parts, so their segments
join the one of its own part. -/

/-- The leaves read of a statement, cut into what spelled each of its parts.
There is a segment for each part of the record `Statement`, from the loosest
one to the tightest; behind all of them an operand is missing, or was read
and is no part of the outline yet. -/
structure Outline (s : Statement) where
  targets : List Leaf
  sum : List Leaf
  product : List Leaf
  sign : List Leaf
  factors : List Leaf
  power : List Leaf
  opens_targets : Opens .assignment .assignment targets
  opens_sum : Opens .product .sum sum
  opens_product : Opens .signed .product product
  opens_sign : Opens .term .signed sign
  opens_factors : Opens .power .term factors
  opens_power : Opens .primary .power power
  sum_nil : s.sum = none → sum = []
  product_nil : s.product = none → product = []
  sign_nil : s.negated = false → sign = []
  factors_nil : s.factors = none → factors = []
  power_nil : s.power = none → power = []

namespace Outline

variable {s : Statement} (o : Outline s)

/-- All leaves of the statement, in the order in which they were read: from
the loosest part to the tightest. -/
def leaves : List Leaf := o.targets ++ o.sum ++ o.product ++ o.sign ++ o.factors ++ o.power

/-- A statement of which nothing was read. All segments are empty, which is
allowed since every level is tighter than the one before it. -/
def empty : Outline {} where
  targets := []
  sum := []
  product := []
  sign := []
  factors := []
  power := []
  opens_targets := opens_nil (by decide)
  opens_sum := opens_nil (by decide)
  opens_product := opens_nil (by decide)
  opens_sign := opens_nil (by decide)
  opens_factors := opens_nil (by decide)
  opens_power := opens_nil (by decide)
  sum_nil := fun _ => rfl
  product_nil := fun _ => rfl
  sign_nil := fun _ => rfl
  factors_nil := fun _ => rfl
  power_nil := fun _ => rfl

/-! An operand completes the power, the row of factors and so on, from the inside out. -/

/-- An operand completes the power, if one waits. -/
theorem derives_power (h : Derives .primary ls) : Derives .power (o.power ++ ls) :=
  o.opens_power _ h

/-- The power completes the row of factors. -/
theorem derives_term (h : Derives .primary ls) : Derives .term (o.factors ++ (o.power ++ ls)) :=
  o.opens_factors _ (o.derives_power h)

/-- The row of factors, with its sign, completes the product. -/
theorem derives_product (h : Derives .primary ls) :
    Derives .product (o.product ++ (o.sign ++ (o.factors ++ (o.power ++ ls)))) :=
  o.opens_product _ (o.opens_sign _ (o.derives_term h))

/-- The product completes the sum. -/
theorem derives_sum (h : Derives .primary ls) :
    Derives .sum (o.sum ++ (o.product ++ (o.sign ++ (o.factors ++ (o.power ++ ls))))) :=
  o.opens_sum _ (o.derives_product h)

/-- An operand completes the statement: the sum is the value of the names to
assign. -/
theorem derives_leaves (h : Derives .primary ls) : Derives .assignment (o.leaves ++ ls) := by
  have hsum := o.opens_targets _ ((o.derives_sum h).loosen (by decide))
  simpa only [leaves, List.append_assoc] using hsum

end Outline

/-- The leaves were read of the statement: some outline has them. The
segments matter only for going on, and the lemmas below say how. -/
def Outlined (s : Statement) (row : List Leaf) : Prop := ∃ o : Outline s, o.leaves = row

section Outlined

variable {s : Statement} {row : List Leaf}

/-- Nothing was read of an empty statement. So a statement that begins, in
parentheses or behind a semicolon, is outlined by no leaves. -/
theorem outlined_empty : Outlined {} [] := ⟨Outline.empty, rfl⟩

/-- An operand completes the statement, whichever outline it has. -/
theorem Outlined.derives (h : Outlined s row) (hlast : Derives .primary ls) :
    Derives .assignment (row ++ ls) := by
  obtain ⟨o, rfl⟩ := h
  exact o.derives_leaves hlast

/-- The row of factors goes on. The operand completes the power, and the
power is one more factor. -/
theorem Outlined.awaitFactor (h : Outlined s row) (hlast : Derives .primary ls) (x : Number) :
    Outlined (s.awaitFactor x) (row ++ ls) := by
  obtain ⟨o, rfl⟩ := h
  -- The power that waited is a factor now, so its segment moves into that
  -- of the factors.
  refine ⟨{ o with
    factors := o.factors ++ (o.power ++ ls)
    power := []
    opens_factors := (o.derives_term hlast).opens_factors
    opens_power := opens_nil (by decide)
    factors_nil := fun h => by cases h
    power_nil := fun _ => rfl }, ?_⟩
  simp [Outline.leaves]

/-- The power goes on. All looser parts are left as they are, and the
segment of the power has the operand and the mark. -/
theorem Outlined.awaitExponent (h : Outlined s row) (hlast : Derives .primary ls) (x : Number)
    (mark : Span) :
    Outlined (s.awaitExponent x) (row ++ ls ++ [⟨.bare .caret mark, false⟩]) := by
  obtain ⟨o, rfl⟩ := h
  refine ⟨{ o with
    power := o.power ++ ls ++ [⟨.bare .caret mark, false⟩]
    opens_power := (o.derives_power hlast).opens_power mark
    power_nil := fun h => by cases h }, ?_⟩
  simp [Outline.leaves]

/-- The product goes on. The operand completes the sign and the row of
factors, so both are empty again. -/
theorem Outlined.awaitProduct (h : Outlined s row) (hlast : Derives .primary ls)
    (sign : ProductSign) (x : Number) (mark : Span) :
    Outlined (s.awaitProduct sign.operator x) (row ++ ls ++ [⟨.bare sign.kind mark, false⟩]) := by
  obtain ⟨o, rfl⟩ := h
  -- The segments of all tighter parts move into that of the product.
  refine ⟨{ Outline.empty with
    targets := o.targets
    sum := o.sum
    product := o.product ++ (o.sign ++ (o.factors ++ (o.power ++ ls)))
      ++ [⟨.bare sign.kind mark, false⟩]
    opens_targets := o.opens_targets
    opens_sum := o.opens_sum
    opens_product := (o.derives_product hlast).opens_product sign mark
    sum_nil := o.sum_nil
    product_nil := fun h => by cases h }, ?_⟩
  simp [Outline.leaves, Outline.empty]

/-- The sum goes on, and nothing tighter waits any more. The sum has the
segment of everything read but the names. -/
theorem Outlined.awaitSum (h : Outlined s row) (hlast : Derives .primary ls) (sign : SumSign)
    (x : Number) (mark : Span) :
    Outlined (s.awaitSum sign.operator x) (row ++ ls ++ [⟨.bare sign.kind mark, false⟩]) := by
  obtain ⟨o, rfl⟩ := h
  -- Only the names to assign stay outside the sum.
  refine ⟨{ Outline.empty with
    targets := o.targets
    sum := o.sum ++ (o.product ++ (o.sign ++ (o.factors ++ (o.power ++ ls))))
      ++ [⟨.bare sign.kind mark, false⟩]
    opens_targets := o.opens_targets
    opens_sum := (o.derives_sum hlast).opens_sum sign mark
    sum_nil := fun h => by cases h }, ?_⟩
  simp [Outline.leaves, Outline.empty]

/-- An operator behind an operand is one more leaf. One case for each kind
that `awaitAfter` knows. -/
theorem Outlined.awaitAfter (h : Outlined s row) (hlast : Derives .primary ls) {x : Number}
    {kind : Kind} {s' : Statement} (hs : s.awaitAfter x kind = some s') (mark : Span) :
    Outlined s' (row ++ ls ++ [⟨.bare kind mark, false⟩]) := by
  cases kind <;> simp only [Statement.awaitAfter, Option.some.injEq, reduceCtorEq] at hs
  case caret => exact hs ▸ h.awaitExponent hlast x mark
  case star => exact hs ▸ h.awaitProduct hlast .star x mark
  case slash => exact hs ▸ h.awaitProduct hlast .slash x mark
  case plus => exact hs ▸ h.awaitSum hlast .plus x mark
  case minus => exact hs ▸ h.awaitSum hlast .minus x mark

/-- A sign is one more leaf, where one can stand: no other stands yet, and
no factor does. -/
theorem Outlined.sign (h : Outlined s row) (hs : s.allowsSign = true) (mark : Span) :
    Outlined { s with negated := true } (row ++ [⟨.bare .minus mark, false⟩]) := by
  obtain ⟨o, rfl⟩ := h
  simp only [Statement.allowsSign, Bool.and_eq_true, Bool.not_eq_true', Option.isNone_iff_eq_none]
    at hs
  refine ⟨{ o with
    sign := [⟨.bare .minus mark, false⟩]
    opens_sign := opens_minus mark
    sign_nil := fun h => by cases h }, ?_⟩
  -- Behind the sign there is nothing yet, so it is the last leaf.
  simp [Outline.leaves, o.sign_nil hs.1.1, o.factors_nil hs.1.2, o.power_nil hs.2]

/-- A name to assign and its mark are two more leaves, where they can stand:
nothing but such names was read. The two come together, as the name alone is
read as an operand. -/
theorem Outlined.target (h : Outlined s row) (hs : s.allowsTarget = true) (name : String)
    (span mark : Span) :
    Outlined { s with targets := name :: s.targets }
      (row ++ [⟨.identifier name span, false⟩, ⟨.bare .assign mark, false⟩]) := by
  obtain ⟨o, rfl⟩ := h
  simp only [Statement.allowsTarget, Statement.allowsSign, Bool.and_eq_true, Bool.not_eq_true',
    Option.isNone_iff_eq_none] at hs
  refine ⟨{ o with
    targets := o.targets ++ [⟨.identifier name span, false⟩, ⟨.bare .assign mark, false⟩]
    opens_targets := o.opens_targets.append (opens_assign name span mark) }, ?_⟩
  simp [Outline.leaves, o.sum_nil hs.1.2, o.product_nil hs.2, o.sign_nil hs.1.1.1.1,
    o.factors_nil hs.1.1.1.2, o.power_nil hs.1.1.2]

end Outlined

/-! ### The segments of a whole state

Around each open parenthesis there is a statement that waits for the value
of the group, and before it, inside the same parentheses, there may be
statements that have ended. -/

/-- The leaves read inside the statements around the open parentheses, the
innermost first: of each the sequence before it, itself, and the parenthesis
behind it. The list of statements is that of the state, so a state decides
how many parentheses are open in its leaves. -/
inductive Inside : List Statement → List Leaf → Prop where
  | outermost : Inside [] []
  | group {waiting : Statement} {enclosing : List Statement} {around before row : List Leaf}
      (opening : Span) :
      Inside enclosing around → Opens .assignment .sequence before → Outlined waiting row →
        Inside (waiting :: enclosing)
          (around ++ before ++ row ++ [⟨.bare .openParen opening, false⟩])

/-- The leaves read up to the operand that comes next or was read last:
those around the open parentheses, the sequence before the statement being
read, and that statement. The operand that was read last is kept apart from
them, because what it completes is not known before the next token. -/
inductive Begun (enclosing : List Statement) (s : Statement) : List Leaf → Prop where
  | intro {around before row : List Leaf} :
      Inside enclosing around → Opens .assignment .sequence before → Outlined s row →
        Begun enclosing s (around ++ before ++ row)

section Begun

variable {enclosing : List Statement} {s : Statement} {begun last : List Leaf}

/-- What was begun goes on behind an operator. The leaves around the
statement stay as they are, as in the lemmas that follow. -/
theorem Begun.awaitAfter (h : Begun enclosing s begun) (hlast : Derives .primary last) {x : Number}
    {kind : Kind} {s' : Statement} (hs : s.awaitAfter x kind = some s') (mark : Span) :
    Begun enclosing s' (begun ++ last ++ [⟨.bare kind mark, false⟩]) := by
  obtain ⟨hinside, hbefore, hrow⟩ := h
  simpa using Begun.intro hinside hbefore (hrow.awaitAfter hlast hs mark)

/-- What was begun goes on with another factor, behind no token. -/
theorem Begun.awaitFactor (h : Begun enclosing s begun) (hlast : Derives .primary last)
    (x : Number) : Begun enclosing (s.awaitFactor x) (begun ++ last) := by
  obtain ⟨hinside, hbefore, hrow⟩ := h
  simpa using Begun.intro hinside hbefore (hrow.awaitFactor hlast x)

/-- What was begun goes on with a sign, where the statement allows one. -/
theorem Begun.sign (h : Begun enclosing s begun) (hs : s.allowsSign = true) (mark : Span) :
    Begun enclosing { s with negated := true } (begun ++ [⟨.bare .minus mark, false⟩]) := by
  obtain ⟨hinside, hbefore, hrow⟩ := h
  simpa using Begun.intro hinside hbefore (hrow.sign hs mark)

/-- What was begun goes on with a name to assign, where the statement allows
one. The name and its mark are two tokens, and the first was read when its
fate was open. -/
theorem Begun.target (h : Begun enclosing s begun) (hs : s.allowsTarget = true) (name : String)
    (span mark : Span) :
    Begun enclosing { s with targets := name :: s.targets }
      (begun ++ [⟨.identifier name span, false⟩, ⟨.bare .assign mark, false⟩]) := by
  obtain ⟨hinside, hbefore, hrow⟩ := h
  simpa using Begun.intro hinside hbefore (hrow.target hs name span mark)

/-- A parenthesis opens behind what was begun. The statement goes to those
that wait, and an empty one begins inside the parenthesis. -/
theorem Begun.openGroup (h : Begun enclosing s begun) (opening : Span) :
    Begun (s :: enclosing) {} (begun ++ [⟨.bare .openParen opening, false⟩]) := by
  obtain ⟨hinside, hbefore, hrow⟩ := h
  simpa using Begun.intro (.group opening hinside hbefore hrow) (opens_nil (by decide))
    outlined_empty

/-- The sequence that was begun ends behind an operand. What stays around it
are the open parentheses. Needed wherever a statement ends: before a mark,
before a closing parenthesis, at the end. -/
theorem Begun.exists_sequence (h : Begun enclosing s begun) (hlast : Derives .primary last) :
    ∃ around ended, Inside enclosing around ∧ Derives .sequence ended ∧
      begun ++ last = around ++ ended := by
  obtain ⟨hinside, hbefore, hrow⟩ := h
  exact ⟨_, _, hinside, hbefore _ (hrow.derives hlast), by simp⟩

/-- The next statement begins behind a mark. The one before is complete, and
belongs to the sequence. -/
theorem Begun.semicolon (h : Begun enclosing s begun) (hlast : Derives .primary last)
    (mark : Span) :
    Begun enclosing {} (begun ++ last ++ [⟨.bare .semicolon mark, false⟩]) := by
  obtain ⟨around, ended, hinside, hended, hleaves⟩ := h.exists_sequence hlast
  rw [hleaves]
  simpa using Begun.intro hinside (hended.opens_sequence mark) outlined_empty

/-- A parenthesis closes behind an operand: the group is an operand of the
statement around it. So the leaves are cut anew, into those begun outside
the group and the group itself. -/
theorem Begun.closeGroup {waiting : Statement} (h : Begun (waiting :: enclosing) s begun)
    (hlast : Derives .primary last) (closing : Span) :
    ∃ begun' last', Begun enclosing waiting begun' ∧ Derives .primary last' ∧
      begun ++ last ++ [⟨.bare .closeParen closing, false⟩] = begun' ++ last' := by
  obtain ⟨around, ended, hinside, hended, hleaves⟩ := h.exists_sequence hlast
  cases hinside with
  | group opening hinside hbefore hrow =>
      refine ⟨_, _, .intro hinside hbefore hrow, derives_group hended opening closing, ?_⟩
      rw [hleaves]
      simp

end Begun

/-- The tokens behind which a state stands. One case for each focus. An
operand that was read may be any primary, also a group; a name whose fate is
open is the last token. -/
inductive Spelled (s : State) : List Token → Prop where
  | operand {begun : List Leaf} :
      Begun s.enclosing s.statement begun → s.focus = .operand → Spelled s (begun.map Leaf.token)
  | value {begun last : List Leaf} {x : Number} :
      Begun s.enclosing s.statement begun → s.focus = .value x → Derives .primary last →
        Spelled s ((begun ++ last).map Leaf.token)
  | name {begun : List Leaf} {name : String} (span : Span) :
      Begun s.enclosing s.statement begun → s.focus = .name name span.start →
        s.statement.allowsTarget = true →
          Spelled s ((begun ++ [Leaf.mk (.identifier name span) true]).map Leaf.token)

/-- Where an operand is missing, what was read is what was begun, and there
is nothing else to it. -/
theorem Spelled.of_operand {s : State} {ts : List Token} (h : Spelled s ts)
    (hf : s.focus = .operand) :
    ∃ begun, Begun s.enclosing s.statement begun ∧ ts = begun.map Leaf.token := by
  cases h with
  | operand hbegun => exact ⟨_, hbegun, rfl⟩
  | value _ hfocus => cases hf.symm.trans hfocus
  | name _ _ hfocus => cases hf.symm.trans hfocus

/-- Where the fate of a name is open, it is the last token read. Its place
is that of the token, so that a complaint about it can be traced to the
token. -/
theorem Spelled.of_name {s : State} {ts : List Token} {name : String} {offset : Nat}
    (h : Spelled s ts) (hf : s.focus = .name name offset) :
    ∃ begun span, Begun s.enclosing s.statement begun ∧ span.start = offset ∧
      s.statement.allowsTarget = true ∧
      ts = begun.map Leaf.token ++ [.identifier name span] := by
  cases h with
  | operand _ hfocus => cases hf.symm.trans hfocus
  | value _ hfocus => cases hf.symm.trans hfocus
  | name span hbegun hfocus hallowed =>
      obtain ⟨rfl, rfl⟩ := Focus.name.inj (hf.symm.trans hfocus)
      exact ⟨_, span, hbegun, rfl, hallowed, by simp⟩

/-- Behind an operand, the last leaves are a primary. A name whose fate is
open is one too, if it is read after all. -/
theorem Spelled.of_read {s : State} {ts : List Token} (h : Spelled s ts)
    (hf : s.focus ≠ .operand) :
    ∃ begun last, Begun s.enclosing s.statement begun ∧ Derives .primary last ∧
      ts = (begun ++ last).map Leaf.token := by
  cases h with
  | operand _ hmissing => exact absurd hmissing hf
  | value hbegun _ hlast => exact ⟨_, _, hbegun, hlast, rfl⟩
  | name span hbegun _ _ => exact ⟨_, _, hbegun, derives_name _ span, rfl⟩

/-- Behind an operand that is known, one was read, so the case of a missing
operand is excluded. -/
theorem State.Ready.focus_ne {s : State} {x : Number} (h : s.Ready x) : s.focus ≠ .operand := by
  intro hmissing
  cases h with
  | value hf => cases hmissing.symm.trans hf
  | name hf _ => cases hmissing.symm.trans hf

/-! ### Steps that find nothing wrong

Each case of a step is one of the lemmas above: what was begun goes on, or
ends, with one more leaf. -/

section Steps

variable {setting : Setting} {s s' : State} {t : Token} {ts : List Token}

/-- A token after an operand that is known keeps the state spelled. One case
for each case of the step; those that complain do not go on, as the run
aborts. -/
theorem spelled_feedOperator {x : Number} (hp : setting.policy = .abort) (h : Spelled s ts)
    (hready : s.Ready x) (hstep : s.feedOperator setting x t = .ok s') :
    Spelled s' (ts ++ [t]) := by
  obtain ⟨begun, last, hbegun, hlast, rfl⟩ := h.of_read hready.focus_ne
  cases s.feedOperator_cases x t with
  | factor y value result =>
      obtain rfl := Except.ok.inj ((result setting).symm.trans hstep)
      have := Spelled.value (s := { s with statement := s.statement.awaitFactor x }.take y)
        (hbegun.awaitFactor hlast x) rfl (derives_operand value)
      simpa using this
  | openGroup content result =>
      obtain rfl := Except.ok.inj ((result setting).symm.trans hstep)
      have := Spelled.operand (s := s.openGroup (s.statement.awaitFactor x))
        ((hbegun.awaitFactor hlast x).openGroup t.toSpan) rfl
      simpa [← Token.eq_bare content] using this
  | operator kind statement content waits result =>
      obtain rfl := Except.ok.inj ((result setting).symm.trans hstep)
      have := Spelled.operand (s := s.await statement) (hbegun.awaitAfter hlast waits t.toSpan) rfl
      simpa [← Token.eq_bare content] using this
  | semicolon content result =>
      obtain rfl := Except.ok.inj ((result setting).symm.trans hstep)
      have := Spelled.operand (s := (s.endStatement x).2.await {})
        (hbegun.semicolon hlast t.toSpan) rfl
      simpa [← Token.eq_bare content] using this
  | closeGroup waiting enclosing content inside result =>
      rw [result, State.closeGroup, show (s.endStatement x).2.enclosing = waiting :: enclosing
        from inside] at hstep
      obtain rfl := Except.ok.inj hstep
      rw [inside] at hbegun
      -- The group becomes the last operand, and what was begun is that of
      -- the statement around it.
      obtain ⟨begun', last', hbegun', hlast', hleaves⟩ := hbegun.closeGroup hlast t.toSpan
      rw [← Token.eq_bare content] at hleaves
      have htokens : (begun ++ last).map Leaf.token ++ [t] = (begun' ++ last').map Leaf.token := by
        rw [← hleaves]
        simp
      rw [htokens]
      exact .value hbegun' rfl hlast'
  -- The other cases fail, the ones with a complaint because the run aborts.
  | unbound name content unbound result => cases (result setting).symm.trans hstep
  | skip waiting enclosing content inside result =>
      rw [result, State.complain_abort hp] at hstep
      cases hstep
  | leftover content outside result => cases (result setting).symm.trans hstep
  | stop kind content stops result =>
      rw [result] at hstep
      exact absurd hstep (s.endAll_fail_ne_ok setting x t _ s')

/-- A token that finds nothing wrong keeps the state spelled. The step of
the invariant; the induction over the tokens is `spelled_feedAll`. -/
theorem spelled_feed (hp : setting.policy = .abort) (h : Spelled s ts)
    (hstep : State.feed setting s t = .ok s') : Spelled s' (ts ++ [t]) := by
  cases s.feed_cases t with
  | operand y focus value result =>
      obtain rfl := Except.ok.inj ((result setting).symm.trans hstep)
      obtain ⟨begun, hbegun, rfl⟩ := h.of_operand focus
      have := Spelled.value (s := s.take y) hbegun rfl (derives_operand value)
      simpa using this
  | name name focus content allowed result =>
      obtain rfl := Except.ok.inj ((result setting).symm.trans hstep)
      obtain ⟨begun, hbegun, rfl⟩ := h.of_operand focus
      have := Spelled.name (s := { s with focus := .name name t.start }) t.toSpan hbegun rfl allowed
      simpa [← Token.eq_identifier content] using this
  | openGroup focus content result =>
      obtain rfl := Except.ok.inj ((result setting).symm.trans hstep)
      obtain ⟨begun, hbegun, rfl⟩ := h.of_operand focus
      have := Spelled.operand (s := s.openGroup s.statement) (hbegun.openGroup t.toSpan) rfl
      simpa [← Token.eq_bare content] using this
  | sign focus content allowed result =>
      obtain rfl := Except.ok.inj ((result setting).symm.trans hstep)
      obtain ⟨begun, hbegun, rfl⟩ := h.of_operand focus
      have := Spelled.operand (s := s.await { s.statement with negated := true })
        (hbegun.sign allowed t.toSpan) rfl
      simpa [← Token.eq_bare content] using this
  | target name offset focus kind result =>
      obtain rfl := Except.ok.inj ((result setting).symm.trans hstep)
      -- The name was read as an operand; with the mark behind it, it is one
      -- to assign.
      obtain ⟨begun, span, hbegun, -, hallowed, rfl⟩ := h.of_name focus
      have := Spelled.operand
        (s := s.await { s.statement with targets := name :: s.statement.targets })
        (hbegun.target hallowed name span t.toSpan) rfl
      simpa [← Token.eq_bare (Token.content_of_kind kind (by decide) (by decide))] using this
  | follow x ready unassigned result =>
      rw [result] at hstep
      exact spelled_feedOperator hp h ready hstep
  | missing kind focus content other unsigned result =>
      rw [result, State.feedMissing, State.complain_abort hp] at hstep
      cases hstep
  | unbound name focus content unbound result => cases (result setting).symm.trans hstep
  | unboundName name offset focus kind unbound result =>
      cases (result setting).symm.trans hstep

end Steps

end DeskCalculator
