import DeskCalculator.Proofs.Calculator.Policies
import DeskCalculator.Proofs.Double.ReadBack
import DeskCalculator.Proofs.Tokens.Stream

/-!
# `DeskCalculator.Proofs.Calculator.ReadBack`: a number that is written has itself as its value

What is written of a number is one token, or a sign and another one
(`Double.contents_chars`). As the last thing in a statement it gives the
statement the value that was written (`State.run_chars`). So every number is
read back, to its last bit if it is a number at all (`calculate_text`).

The statements about runs are for a statement that assigns to any names, and
for tokens behind any gap. `calculate_text` needs neither, but a line of a
listing has a name, an equals sign and spaces in front of the number
(`Proofs/CommandLine/Listing.lean`).
-/

set_option autoImplicit false

namespace DeskCalculator

open Lexeme (Lexed Spells)

/-- What is written of a number is one token, or a sign and another one,
behind any gap. The places of the tokens depend on the gap, and the contents
do not. -/
theorem Double.contents_chars {gap : List Char} (hgap : ∀ c ∈ gap, isGap c = true) (x : Float) :
    (∀ offset, (Cursor.mk (gap ++ chars x) offset).tokens.map Token.content
        = [.number (.double x)]) ∨
      ∃ y, -y = x ∧ ∀ offset, (Cursor.mk (gap ++ chars x) offset).tokens.map Token.content
        = [.bare .minus, .number (.double y)] := by
  have hnumber : ∀ {numeral gap : List Char}, (∀ c ∈ gap, isGap c = true) →
      Spells .number numeral → ∀ offset,
        (Cursor.mk (gap ++ (numeral ++ [])) offset).tokens.map Token.content
          = [.number (.double (ofNumeral numeral))] := by
    intro numeral gap hgap hspells
    refine Cursor.contents_append hgap ?_ Cursor.contents_nil
    rw [← Lexeme.content_of_spells_number hspells]
    exact .of_spells hspells fun c hc => by cases hc
  -- The two cases are those of a number without and with a sign; no number
  -- is among the first.
  have hwritten := written_chars x
  generalize chars x = value at hwritten ⊢
  cases hwritten with
  | unsigned hspells hread =>
      have hrest := hnumber hgap hspells
      rw [hread, List.append_nil] at hrest
      exact .inl hrest
  | @signed numeral hspells hread =>
      have hsign : Lexed numeral ['-'] (.bare .minus) :=
        .of_mark (.fixed (show ("-", Kind.minus) ∈ Kind.spellings by decide)) (by decide)
          (by decide) (by decide) (by decide) numeral
      have hrest := hnumber (List.forall_mem_nil _) hspells
      rw [List.nil_append, List.append_nil] at hrest
      exact .inr ⟨_, hread, Cursor.contents_append hgap hsign hrest⟩

namespace State

variable (setting : Setting) (stop : Nat) (env : Environment) (names : List String)

/-- A number ends a statement that has read nothing but names to assign.
There is no operation for it to be part of. -/
theorem run_number {tokens : List Token} {y : Number}
    (h : tokens.map Token.content = [.number y]) :
    run setting stop { environment := env, statement := { targets := names } } tokens
      = .ok (⟨y, none⟩, ({ targets := names } : Statement).assign y env) := by
  obtain ⟨t, _, rfl, ht, h⟩ := List.map_eq_cons_iff.mp h
  obtain rfl := List.map_eq_nil_iff.mp h
  have hnumber : feed setting { environment := env, statement := { targets := names } } t
      = .ok { environment := env, statement := { targets := names }, focus := .value y } := by
    simp only [feed, feedOperand, ht]
    rfl
  rw [run_cons, hnumber, ok_bind]
  rfl

/-- So does a number with a sign, which is applied to the number where the
statement ends. -/
theorem run_negated {tokens : List Token} {y : Number}
    (h : tokens.map Token.content = [.bare .minus, .number y]) :
    run setting stop { environment := env, statement := { targets := names } } tokens
      = .ok (⟨-y, none⟩, ({ targets := names } : Statement).assign (-y) env) := by
  obtain ⟨t, _, rfl, ht, h⟩ := List.map_eq_cons_iff.mp h
  obtain ⟨u, _, rfl, hu, h⟩ := List.map_eq_cons_iff.mp h
  obtain rfl := List.map_eq_nil_iff.mp h
  have hsign : feed setting { environment := env, statement := { targets := names } } t
      = .ok { environment := env, statement := { targets := names, negated := true } } := by
    simp only [feed, feedOperand, ht]
    rfl
  have hnumber :
      feed setting { environment := env, statement := { targets := names, negated := true } } u
        = .ok { environment := env, statement := { targets := names, negated := true },
                focus := .value y } := by
    simp only [feed, feedOperand, hu]
    rfl
  rw [run_cons, hsign, ok_bind, run_cons, hnumber, ok_bind]
  rfl

/-- What is written of a number gives a statement that value, and assigns it
to the names. -/
theorem run_chars {gap : List Char} (hgap : ∀ c ∈ gap, isGap c = true) (x : Float) (offset : Nat) :
    run setting stop { environment := env, statement := { targets := names } }
        (Cursor.mk (gap ++ Double.chars x) offset).tokens
      = .ok (⟨.double x, none⟩, ({ targets := names } : Statement).assign (.double x) env) := by
  rcases Double.contents_chars hgap x with hvalue | ⟨y, rfl, hvalue⟩
  · exact run_number setting stop env names (hvalue offset)
  · exact run_negated setting stop env names (hvalue offset)

end State

/-- What is written of a number is one token, or a sign and another one, and
evaluates to the number with the same bits, or to no number if it was none.
The bits of what is no number are lost, as all of them are written alike. -/
theorem calculate_text (bits : UInt64) :
    let x := Number.ofBits bits
    ((tokenize x.text).map Token.kind = [.number, .endOfInput] ∨
      (tokenize x.text).map Token.kind = [.minus, .number, .endOfInput]) ∧
    ∃ y : Float, calculate x.text = .ok (.double y) ∧
      if Double.infinitePattern < bits.toNat % 2 ^ 63 then y.isNaN = true else y.toBits = bits := by
  intro x
  have hchars : x.text.toList = [] ++ Double.chars x.toDouble := String.toList_ofList
  constructor
  · have hkinds : (tokenize x.text).map Token.kind
        = ((Cursor.ofText x.text).tokens.map Token.content).map Content.kind ++ [.endOfInput] := by
      rw [tokenize, List.map_append, List.map_map]
      rfl
    rw [hkinds, Cursor.ofText, hchars]
    rcases Double.contents_chars (List.forall_mem_nil _) x.toDouble with hvalue | ⟨y, -, hvalue⟩
    · rw [hvalue]
      exact .inl rfl
    · rw [hvalue]
      exact .inr rfl
  · have hrun : Calculator.run {} x.text = .ok (⟨.double x.toDouble, none⟩, .empty) := by
      rw [Calculator.run, Cursor.ofText, hchars]
      exact State.run_chars _ _ _ [] (List.forall_mem_nil _) x.toDouble 0
    refine ⟨x.toDouble, congrArg Prod.fst (Calculator.calculate_of_ok hrun), ?_⟩
    have hdouble := Number.toDouble_ofBits bits
    split at hdouble
    · next habove =>
        rw [if_pos habove, show x.toDouble = Double.nan from hdouble]
        decide +kernel
    · next hbelow =>
        rw [if_neg hbelow]
        exact hdouble

end DeskCalculator
