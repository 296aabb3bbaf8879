import DeskCalculator.Proofs.Calculator.Policies
import DeskCalculator.Proofs.Run.Targets

/-!
# `DeskCalculator.Proofs.Calculator.Reachable`: the variables that evaluations lead to

Starting without variables, every evaluation leaves variables that a text
could have assigned: their names are identifiers, and none of them has the
signalling value that no text spells. This holds whatever the options are,
and of evaluations that fail as well, since all of them only make the writes
of their text (`Calculator.calculate_environment`).

These are the variables whose listing can be read back. An environment that
is built by hand may have other names, and a listing of these is no text of
assignments (`Proofs/CommandLine/Listing.lean`). That names have no newline
is also why each listed variable is a line of its own
(`Proofs/CommandLine/Account.lean`).
-/

set_option autoImplicit false

namespace DeskCalculator.Environment

open Lexeme (Spells)

/-- The environments that evaluations lead to from the empty one, with any
options and however they end. The options may change between two
evaluations, so what is proved of these environments holds of each mixture
of sessions. -/
inductive Reachable : Environment → Prop where
  | empty : Reachable .empty
  | calculate (c : Calculator) (text : String) :
      Reachable c.environment → Reachable (c.calculate text).2.environment

/-- A name that a text assigns to is an identifier, since it is the payload
of a token. -/
theorem spells_of_assigned {c : Cursor} {name : String} (h : Assigned c.tokens name) :
    Spells .identifier name.toList := by
  obtain ⟨before, t, u, after, hsplit, hcontent, -⟩ := h
  have ht : t ∈ c.tokens := by
    rw [hsplit]
    exact List.mem_append_right _ List.mem_cons_self
  obtain ⟨lexeme, rest, hlexed⟩ := Cursor.lexed_of_mem t ht
  rw [hcontent] at hlexed
  exact hlexed.spells_name.2

/-- In an environment that evaluations lead to, every name is an identifier,
and no value is the signalling one. Induction on the evaluations: each
starts from what was kept or from nothing, and makes its writes. -/
theorem Reachable.forall_bindings {env : Environment} (h : Reachable env) :
    ∀ b ∈ env.bindings, Spells .identifier b.1.toList ∧ b.2 ≠ .signalling := by
  induction h with
  | empty => exact List.forall_mem_nil _
  | calculate c text _ ih =>
      have hinitial : ∀ b ∈ c.initial.bindings,
          Spells .identifier b.1.toList ∧ b.2 ≠ .signalling := by
        rw [Calculator.initial]
        split
        · exact ih
        · exact List.forall_mem_nil _
      rw [c.calculate_environment]
      -- The value of a write is computed from the values before, and none
      -- of these is signalling.
      refine forall_write (fun w hw => ⟨?_, ?_⟩) hinitial
      · exact spells_of_assigned (evaluateWrites_assigned _ _ _ w hw)
      · exact evaluateWrites_quiet _ _ (fun b hb => (hinitial b hb).2) w hw

end DeskCalculator.Environment
