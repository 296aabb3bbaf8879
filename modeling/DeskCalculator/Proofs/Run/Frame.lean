import DeskCalculator.Proofs.Run.Targets
import DeskCalculator.Proofs.Tokens.Tiling

/-!
# `DeskCalculator.Proofs.Run.Frame`: what an evaluation leaves alone

However an evaluation ends, the variables after it are those before it with
the writes of the run made (`evaluate_environment`), and a run writes to
nothing but the names that the text assigns to (`evaluateWrites_assigned`).
So the text alone says which variables can change, without being run
(`evaluate_frame`).

The same is said of a run up to some of its tokens
(`get?_feedAll_of_not_assigned`), which `Proofs.Run.Kept` needs of a name
that does not occur: it is still without a value where the run stops.
-/

set_option autoImplicit false

namespace DeskCalculator

/-- What some tokens assign to, they assign to with others behind them. The
mark is behind the tokens of a text, and is neither a name nor a mark of an
assignment. -/
theorem Assigned.append {tokens : List Token} {name : String} (h : Assigned tokens name)
    (more : List Token) : Assigned (tokens ++ more) name := by
  obtain ⟨before, t, u, after, rfl, hcontent, hkind⟩ := h
  exact ⟨before, t, u, after ++ more, by simp, hcontent, hkind⟩

/-- A token that carries a name covers the characters of that name, and they
spell an identifier. The mark at the end carries no name. -/
theorem slice_of_identifier {text : String} {t : Token} {name : String} (ht : t ∈ tokenize text)
    (hcontent : t.content = .identifier name) :
    slice text t = name.toList ∧ Lexeme.Spells .identifier name.toList := by
  rcases List.mem_append.mp ht with ht | ht
  · -- A token in front of the mark covers what it was read from.
    obtain ⟨before, lexeme, rest, hcovers, hlexed⟩ :=
      Cursor.covers_of_mem (Cursor.standsIn_ofText text) t ht
    rw [hcontent] at hlexed
    obtain ⟨hlexeme, hspells⟩ := hlexed.spells_name
    exact ⟨hcovers.slice_eq.trans hlexeme, hspells⟩
  · obtain rfl := List.mem_singleton.mp ht
    cases hcontent

/-- A name to which some tokens do not assign keeps its value while they are
read, or stays without one. The writes made so far are the first ones of the
run over these tokens. -/
theorem get?_feedAll_of_not_assigned {setting : Setting} {env : Environment} {tokens : List Token}
    {s : State} (h : State.feedAll setting { environment := env } tokens = .ok s) {name : String}
    (hname : ¬Assigned tokens name) : s.environment.get? name = env.get? name := by
  obtain ⟨made, hwrites, henvironment⟩ := State.runWrites_append tokens [] h
  rw [List.append_nil] at hwrites
  -- Before the first token no statement waits, and no name is open.
  have hnamed : ∀ w ∈ State.runWrites setting { environment := env } tokens, Assigned tokens w.1 :=
    State.runWrites_named _ ⟨List.forall_mem_nil _, List.forall_mem_nil _⟩
      (fun _ _ hfocus => by cases hfocus) fun _ hassigned => hassigned
  rw [henvironment]
  refine Environment.get?_write_of_forall_ne (fun w hw => ?_) env
  rintro rfl
  exact hname (hnamed w (hwrites ▸ List.mem_append_left _ hw))

/-- A name to which a text does not assign keeps its value, or stays without
one. It is not among the names of the writes, and these are all that an
evaluation does to variables. -/
theorem get?_evaluate_of_not_assigned (policy : Policy) {text : String} (env : Environment)
    {name : String} (h : ¬Assigned (tokenize text) name) :
    (evaluate policy text env).environment.get? name = env.get? name := by
  rw [evaluate_environment]
  refine Environment.get?_write_of_forall_ne (fun w hw => ?_) env
  rintro rfl
  exact h ((evaluateWrites_assigned policy text env w hw).append _)

/-- Over any text, with any policy and whether it succeeds or fails, an
evaluation unbinds no name, changes no name but those of identifiers with
the assignment mark behind them, and binds no others: a name that is new is
spelled like an identifier, and such a token of the text covers it. -/
theorem evaluate_frame (policy : Policy) (text : String) (env : Environment) :
    let final := (evaluate policy text env).environment
    (∀ name, env.get? name ≠ none → final.get? name ≠ none) ∧
      (∀ name, ¬Assigned (tokenize text) name → final.get? name = env.get? name) ∧
      ∀ name, env.get? name = none → final.get? name ≠ none →
        Lexeme.Spells .identifier name.toList ∧
          ∃ before t u after, tokenize text = before ++ t :: u :: after ∧ t.kind = .identifier ∧
            slice text t = name.toList ∧ u.kind = .assign := by
  refine ⟨fun name hbound => ?_, fun name => get?_evaluate_of_not_assigned policy env,
    fun name hunbound hbound => ?_⟩
  · rw [evaluate_environment]
    exact Environment.get?_write_ne_none _ hbound
  · -- A name that was not assigned to would still be without a value.
    have hassigned : Assigned (tokenize text) name := by
      by_contra hnot
      exact hbound ((get?_evaluate_of_not_assigned policy env hnot).trans hunbound)
    obtain ⟨before, t, u, after, htokens, hcontent, hkind⟩ := hassigned
    have ht : t ∈ tokenize text := by
      rw [htokens]
      exact List.mem_append_right _ List.mem_cons_self
    obtain ⟨hslice, hspells⟩ := slice_of_identifier ht hcontent
    exact ⟨hspells, before, t, u, after, htokens, congrArg Content.kind hcontent, hslice, hkind⟩

end DeskCalculator
