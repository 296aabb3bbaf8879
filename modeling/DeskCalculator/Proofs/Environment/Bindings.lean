import DeskCalculator.Environment
import DeskCalculator.Proofs.Text.Order

/-!
# `DeskCalculator.Proofs.Environment.Bindings`: what an environment lists

`get?` is how a run sees an environment, and the bindings are how it is
listed. This module ties the two together.

* `mem_bindings_iff`, `nodup_names`: the bindings are what `get?` finds,
  each name with its value and none twice.
* `bindings_ordered`: they are in the order of the bytes of the names. The
  type has them in the order of the characters, which is the same one.
* `alike_self_iff`: when an environment is like itself. It need not be,
  because of the numbers that are none.
-/

set_option autoImplicit false

namespace DeskCalculator.Environment

variable {α : Type}

/-- What a name is bound to is one of the bindings. This holds of a list in
any order, so the order is forgotten before the induction. -/
theorem mem_of_get? {env : Environment α} {name : String} {x : α}
    (h : env.get? name = some x) : (name, x) ∈ env.bindings := by
  rw [get?] at h
  generalize env.bindings = bindings at h ⊢
  induction bindings with
  | nil => cases h
  | cons b rest ih =>
      rw [lookup] at h
      split at h
      · next hname =>
          obtain rfl := Option.some.inj h
          exact hname ▸ List.mem_cons_self
      · exact List.mem_cons_of_mem _ (ih h)

/-- A binding in a list is what its name is bound to. Here the list has to
be in order: otherwise an earlier binding of the same name could be in the
way. -/
theorem lookup_of_mem {bindings : List (String × α)}
    (h : bindings.Pairwise (fun a b => a.1 < b.1)) {name : String} {x : α}
    (hmem : (name, x) ∈ bindings) : lookup name bindings = some x := by
  induction bindings with
  | nil => cases hmem
  | cons b bindings ih =>
      obtain ⟨hlt, hrest⟩ := List.pairwise_cons.mp h
      rw [lookup]
      rcases List.mem_cons.mp hmem with rfl | hmem
      · exact if_pos rfl
      · have hne : b.1 ≠ name := fun heq => String.lt_irrefl b.1 (heq ▸ hlt _ hmem)
        rw [if_neg hne]
        exact ih hrest hmem

section Bindings

variable (env : Environment α)

/-- The bindings are what the names are bound to. As the names are sorted
there is one binding for each, and it is the one that is found. -/
theorem mem_bindings_iff {name : String} {x : α} :
    (name, x) ∈ env.bindings ↔ env.get? name = some x :=
  ⟨lookup_of_mem env.sorted, mem_of_get?⟩

/-- The names that are listed are those that are bound. From the list to
`get?`, which is what an evaluation looks at. -/
theorem mem_names_iff {name : String} :
    name ∈ env.bindings.map Prod.fst ↔ env.get? name ≠ none := by
  rw [Option.ne_none_iff_exists', List.mem_map]
  constructor
  · rintro ⟨⟨_, x⟩, hb, rfl⟩
    exact ⟨x, env.mem_bindings_iff.mp hb⟩
  · rintro ⟨x, hx⟩
    exact ⟨(name, x), env.mem_bindings_iff.mpr hx, rfl⟩

/-- No name is listed twice. So the length of the list is how many names are
bound. -/
theorem nodup_names : (env.bindings.map Prod.fst).Nodup := by
  refine List.pairwise_map.mpr (env.sorted.imp fun {a b} hlt heq => ?_)
  rw [heq] at hlt
  exact String.lt_irrefl _ hlt

/-- The names are listed in the order of their bytes. That is the order of
their characters as well, by which they are kept. -/
theorem bindings_ordered :
    env.bindings.Pairwise fun a b => Text.encode a.1.toList < Text.encode b.1.toList :=
  env.sorted.imp fun hlt => Text.encode_lt (String.lt_iff.mp hlt)

end Bindings

/-- An environment is like itself if each of its values is. The names are no
condition, as they are compared with themselves. -/
theorem alike_self_iff (env : Environment) :
    env.alike env = true ↔ ∀ b ∈ env.bindings, b.2.alike b.2 = true := by
  have hzip : env.bindings.zip env.bindings = env.bindings.map fun b => (b, b) := by
    simpa using @List.zip_map' _ _ _ id id env.bindings
  simp [alike, hzip]

end DeskCalculator.Environment
