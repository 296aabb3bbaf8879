import DeskCalculator.Proofs.Descent.Rows
import DeskCalculator.Proofs.Run.Missing

/-!
# `DeskCalculator.Proofs.Descent.Complaints`: where the next token does not fit

A parser and a run complain about the same token and go on behind it alike
(`complain_agrees`). Under `Policy.abort` both stop with the complaint as
their error. Under `Policy.substituteNan` both keep it if it is the first,
and skip the token if it is a character that starts none.

The two differ in how they come to complain. A rule finds that no case of
its body fits the kind of the token looked at. A run is asked about the
token by its content, and has a name for what it lacks (`State.Lacking`,
`State.Unclosed`). The last section leads from the one to the other: a token
that begins no factor is no operand (`lacking_of_not_factor`), and one that
goes on with no row and closes nothing is where a closing parenthesis is
missing (`unclosed_of_settled`).
-/

set_option autoImplicit false

namespace DeskCalculator

open Text (byteLength)

/-- The first token is no sign, if one may stand there. A rule of a level
from `Level.term` on does not look for a sign, so it is called only where
this holds; otherwise it would complain about a sign that the run takes. -/
def Unsigned (s : State) (rest : List Token) : Prop :=
  s.statement.allowsSign = true → ∀ t more, rest = t :: more → t.kind ≠ .minus

/-! ### Complaining -/

section Complaints

variable {text : String} {setting : Setting} {s : State} {p : Parser} {rest : List Token}

/-- The parser behind a complaint has consumed a character that starts no
token and nothing else, as `behindComplaint` says of the tokens that a run
has left. -/
theorem Parser.At.behindComplaint (h : p.At text rest) :
    (if p.lookahead.kind = .unknown then p.advance else p).At text (behindComplaint rest) := by
  cases rest with
  -- The mark at the end is of another kind, so it is not consumed.
  | nil => rwa [if_neg (fun hkind => by rw [h.lookahead] at hkind; cases hkind)]
  | cons t rest =>
      rw [h.lookahead_eq, DeskCalculator.behindComplaint]
      split
      · exact h.advance
      · exact h

/-- A descent complains as a run does: both stop with the same error, or
both keep the complaint. The run is in a state `s` that has the variables
and the complaint of the parser. The second case yields the parser `q` to go
on with, of which the callers need the place, the variables (which stay),
and the complaint (which is that of the run). -/
theorem complain_agrees (hp : p.At text rest) (henvironment : s.environment = p.environment)
    (hdiagnostic : s.diagnostic = p.diagnostic) (setting : Setting) (expected : List Kind) :
    (∃ error, Descent.complain setting expected p = .error (.failed error) p ∧
      s.complain setting expected (upcoming (byteLength text.toList) rest)
        = .error ⟨error, p.environment⟩) ∨
      ∃ q, Descent.complain setting expected p = .ok .nan q ∧
        q.At text (behindComplaint rest) ∧ q.environment = p.environment ∧
        s.complain setting expected (upcoming (byteLength text.toList) rest)
          = .ok { s with diagnostic := q.diagnostic } := by
  have hupcoming : upcoming (byteLength text.toList) rest = p.lookahead := hp.lookahead.symm
  cases hpolicy : setting.policy with
  | abort =>
      refine .inl ⟨.malformed (setting.complaint expected p.lookahead), ?_, ?_⟩
      · simp only [Descent.complain, Descent.get_bind, hpolicy, Descent.fail_apply]
      · rw [State.complain_abort hpolicy, hupcoming, State.fail, henvironment]
  | substituteNan =>
      have hcomplain : Descent.complain setting expected p
          = .ok .nan { (if p.lookahead.kind = .unknown then p.advance else p) with
              diagnostic := p.diagnostic.or (some (setting.complaint expected p.lookahead)) } := by
        simp only [Descent.complain, Descent.get_bind, hpolicy]
        split <;> rfl
      have hat := hp.behindComplaint
      refine .inr ⟨_, hcomplain, ⟨hat.split, hat.lookahead, hat.tokens, hat.stop⟩, ?_, ?_⟩
      · split <;> rfl
      · rw [State.complain_substituteNan hpolicy, hupcoming, State.note, hdiagnostic]

/-- What is left behind a complaint is no more than before. It may be as
much, and so a rule that has complained may have consumed nothing
(`Returns.length_le`). -/
theorem length_behindComplaint_le (rest : List Token) :
    (behindComplaint rest).length ≤ rest.length := by
  cases rest with
  | nil => exact Nat.le_refl 0
  | cons t rest =>
      rw [behindComplaint]
      split
      · exact Nat.le_succ _
      · exact Nat.le_refl _

end Complaints

/-! ### What is missing -/

/-- A token that begins no factor is no operand. `Unsigned` is needed, as a
minus begins no factor either and is still no reason to complain where a
sign may stand. -/
theorem lacking_of_not_factor {s : State} {rest : List Token} (hunsigned : Unsigned s rest)
    (h : ∀ t ∈ rest.head?, t.kind.startsFactor = false) : s.Lacking rest := by
  intro t ht
  obtain ⟨more, rfl⟩ := List.head?_eq_some_iff.mp ht
  have hfactor := h t ht
  cases hcontent : t.content with
  | number x => rw [Token.kind, hcontent] at hfactor; cases hfactor
  | identifier name => rw [Token.kind, hcontent] at hfactor; cases hfactor
  | bare kind =>
      have hkind : t.kind = kind := congrArg Content.kind hcontent
      refine ⟨kind, rfl, ?_, fun hminus => ?_⟩
      · rintro rfl
        rw [hkind] at hfactor
        cases hfactor
      · -- The state allows a sign, and there is one.
        by_contra hallows
        exact hunsigned (Bool.eq_true_of_not_eq_false hallows) t more rfl (hkind.trans hminus)

/-- What a sequence leaves does not go on with it. If it is no parenthesis
that closes, that is missing. Numbers, names and every mark of an operation
go on with a row of some level, so what is left is a character that starts
no token, or one of the marks at which an operand stops. -/
theorem unclosed_of_settled {p : Parser} {text : String} {rest : List Token} (hp : p.At text rest)
    (h : Settled .sequence p.lookahead.kind) (hclose : p.lookahead.kind ≠ .closeParen) :
    State.Unclosed rest := by
  intro t ht
  obtain ⟨more, rfl⟩ := List.head?_eq_some_iff.mp ht
  rw [hp.lookahead_eq] at h hclose
  have hjoins : ∀ level : Level, level.joins t.kind = none := fun level => h level (Nat.zero_le _)
  have hterm := hjoins .term
  cases hcontent : t.content with
  | number x => rw [Token.kind, hcontent] at hterm; cases hterm
  | identifier name => rw [Token.kind, hcontent] at hterm; cases hterm
  | bare kind =>
      have hkind : t.kind = kind := congrArg Content.kind hcontent
      have hsum := hjoins .sum
      have hproduct := hjoins .product
      have hpower := hjoins .power
      have hsequence := hjoins .sequence
      rw [hkind] at hterm hsum hproduct hpower hsequence hclose
      -- Each kind that goes on with a row is joined by it.
      cases kind <;> first
        | contradiction
        | exact .inl rfl
        | exact .inr ⟨_, rfl, rfl⟩

end DeskCalculator
