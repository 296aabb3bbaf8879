import DeskCalculator.Number

/-!
# `DeskCalculator.Environment`: variables and their values

An environment is the list of its bindings, in strictly increasing order of
the names. The order is that of the characters of the names, which is also
the order of their bytes (`Proofs/Text/Order.lean`). The order is part of
the type, and has two consequences for everything that is proved about
environments:

* Listing the variables needs no sorting, and no environment has to be shown
  to be in order.
* Environments that bind the same names to the same values are equal
  (`ext`). So two runs that leave the same variables leave the same
  environment, whatever order they assigned them in.

`get?_set` and `get?_empty` are all that proofs about assignments use; none
of them opens the list. Nothing here but `alike` depends on what the values
are; those of the calculator are numbers.
-/

set_option autoImplicit false

namespace DeskCalculator

/-- Bindings of names to values, sorted by name, one for each name. The
order is part of the structure, so that two environments with the same
bindings are equal, and no name is bound twice. -/
structure Environment (α : Type := Number) where
  bindings : List (String × α) := []
  sorted : bindings.Pairwise (fun a b => a.1 < b.1) := by exact .nil
  deriving DecidableEq

namespace Environment

variable {α : Type}

/-- The value bound to a name in a list of bindings: that of the first one
of this name. -/
def lookup (name : String) : List (String × α) → Option α
  | [] => none
  | (n, x) :: rest => if n = name then some x else lookup name rest

/-- A sorted list of bindings with one more, in the place of the old one of
its name, or in front of the first larger name. -/
def insert (name : String) (value : α) : List (String × α) → List (String × α)
  | [] => [(name, value)]
  | (n, x) :: rest =>
    if name < n then (name, value) :: (n, x) :: rest
    else if n = name then (name, value) :: rest
    else (n, x) :: insert name value rest

/-- A list with a binding inserted holds this one and old ones only. Some of
the old ones may be gone, which is why this is no equivalence. -/
theorem mem_insert {name : String} {value : α} {bindings : List (String × α)}
    {b : String × α} (h : b ∈ insert name value bindings) :
    b = (name, value) ∨ b ∈ bindings := by
  fun_induction insert name value bindings with
  | case1 => simpa using h
  | case2 n x rest hlt => simpa using h
  | case3 x rest hlt =>
      rcases List.mem_cons.mp h with h | h
      · exact .inl h
      · exact .inr (List.mem_cons_of_mem _ h)
  | case4 n x rest hlt hne ih =>
      rcases List.mem_cons.mp h with h | h
      · exact .inr (h ▸ List.mem_cons_self)
      · exact (ih h).imp id (List.mem_cons_of_mem _)

/-- Inserting keeps the order of the names. This is what `set` needs to be
an environment again. -/
theorem pairwise_insert (name : String) (value : α) {bindings : List (String × α)}
    (h : bindings.Pairwise (fun a b => a.1 < b.1)) :
    (insert name value bindings).Pairwise (fun a b => a.1 < b.1) := by
  fun_induction insert name value bindings with
  | case1 => exact List.pairwise_singleton _ _
  | case2 n x rest hlt =>
      have hrest := List.pairwise_cons.mp h
      refine List.pairwise_cons.mpr ⟨fun b hb => ?_, h⟩
      rcases List.mem_cons.mp hb with rfl | hb
      · exact hlt
      · exact String.lt_trans hlt (hrest.1 b hb)
  | case3 x rest hlt => exact List.pairwise_cons.mpr (List.pairwise_cons.mp h)
  | case4 n x rest hlt hne ih =>
      have hrest := List.pairwise_cons.mp h
      refine List.pairwise_cons.mpr ⟨fun b hb => ?_, ih hrest.2⟩
      rcases mem_insert hb with rfl | hb
      · exact Std.lt_of_le_of_ne (Std.not_lt.mp hlt) hne
      · exact hrest.1 b hb

/-- The environment without bindings. -/
def empty : Environment α := {}

/-- The value bound to a name, if it is bound. -/
def get? (env : Environment α) (name : String) : Option α := lookup name env.bindings

/-- The environment with a name bound to a value, whatever it was bound to
before. -/
def set (env : Environment α) (name : String) (value : α) : Environment α :=
  ⟨insert name value env.bindings, pairwise_insert name value env.sorted⟩

/-! ### Reading what was written -/

/-- After an insertion its name has its value, and the others have theirs.
It holds of lists in any order: a look-up finds the first binding of a name,
and that is also the one an insertion changes or the one before which it
puts its own. -/
theorem lookup_insert (m name : String) (value : α) (bindings : List (String × α)) :
    lookup m (insert name value bindings) = if name = m then some value else lookup m bindings := by
  fun_induction insert name value bindings with
  | case1 => rfl
  | case2 n x rest hlt => rfl
  | case3 x rest hlt =>
      simp only [lookup]
      split <;> rfl
  | case4 n x rest hlt hne ih =>
      simp only [lookup, ih]
      split <;> split <;> simp_all

/-- After a name was set it has its value, and the others have theirs. -/
@[simp] theorem get?_set (env : Environment α) (name m : String) (value : α) :
    (env.set name value).get? m = if name = m then some value else env.get? m :=
  lookup_insert m name value env.bindings

/-- A name below all bound ones is not bound. In a sorted list, it is enough
that it is below the first one. -/
theorem lookup_eq_none {m : String} {bindings : List (String × α)}
    (h : ∀ b ∈ bindings, m < b.1) : lookup m bindings = none := by
  induction bindings with
  | nil => rfl
  | cons b rest ih =>
      have hb : m < b.1 := h b List.mem_cons_self
      have hne : ¬b.1 = m := fun heq => String.lt_irrefl m (heq ▸ hb)
      rw [lookup, if_neg hne]
      exact ih fun c hc => h c (List.mem_cons_of_mem _ hc)

/-- Sorted lists of bindings in which every name has the same value are the
same. Induction over both lists at once. The first names have to be the
same, and then so are their values; behind them the lists agree about every
name, since neither binds the first one once more. -/
theorem eq_of_lookup_eq {a b : List (String × α)}
    (ha : a.Pairwise (fun p q => p.1 < q.1)) (hb : b.Pairwise (fun p q => p.1 < q.1))
    (h : ∀ m, lookup m a = lookup m b) : a = b := by
  induction a generalizing b with
  | nil =>
      cases b with
      | nil => rfl
      | cons q b => simpa [lookup] using h q.1
  | cons p a ih =>
      have hpa := List.pairwise_cons.mp ha
      cases b with
      | nil => simpa [lookup] using h p.1
      | cons q b =>
          have hqb := List.pairwise_cons.mp hb
          -- The smaller of the two first names is bound on one side only,
          -- unless they are equal.
          have hpq : p.1 = q.1 := by
            rcases Std.lt_trichotomy p.1 q.1 with hlt | heq | hlt
            · have hnone : lookup p.1 (q :: b) = none := lookup_eq_none fun c hc => by
                rcases List.mem_cons.mp hc with rfl | hc
                · exact hlt
                · exact String.lt_trans hlt (hqb.1 c hc)
              have hsome := h p.1
              rw [hnone] at hsome
              simp [lookup] at hsome
            · exact heq
            · have hnone : lookup q.1 (p :: a) = none := lookup_eq_none fun c hc => by
                rcases List.mem_cons.mp hc with rfl | hc
                · exact hlt
                · exact String.lt_trans hlt (hpa.1 c hc)
              have hsome := h q.1
              rw [hnone] at hsome
              simp [lookup] at hsome
          have hvalue : p.2 = q.2 := by
            have := h p.1
            rw [lookup, if_pos rfl, lookup, if_pos hpq.symm] at this
            exact Option.some.inj this
          -- Behind the first binding, its own name is unbound on both
          -- sides.
          have hrest : a = b := ih hpa.2 hqb.2 fun m => by
            have hm := h m
            by_cases hmp : p.1 = m
            · rw [lookup_eq_none fun c hc => hmp ▸ hpa.1 c hc,
                lookup_eq_none fun c hc => hmp ▸ hpq ▸ hqb.1 c hc]
            · rwa [lookup, if_neg hmp, lookup, if_neg (hpq ▸ hmp)] at hm
          rw [hrest, Prod.ext hpq hvalue]

/-- Environments in which every name has the same value are the same. -/
@[ext] theorem ext {a b : Environment α} (h : ∀ m, a.get? m = b.get? m) : a = b := by
  cases a with
  | mk bindings sorted =>
      cases b with
      | mk bindings' sorted' =>
          have : bindings = bindings' := eq_of_lookup_eq sorted sorted' h
          subst this
          rfl

/-! ### The whole environment -/

/-- How many names are bound, since each of them is in the list once. -/
def size (env : Environment α) : Nat := env.bindings.length

/-- Whether no name is bound. -/
def isEmpty (env : Environment α) : Bool := env.bindings.isEmpty

/-- The environment in which the given bindings were made, in order. Of
several of one name the last one counts. -/
def ofList (bindings : List (String × α)) : Environment α :=
  bindings.foldl (fun env b => env.set b.1 b.2) empty

/-- Whether two environments bind the same names to numbers that compare
equal. Zero equals minus zero, and the number that is none equals
nothing. -/
def alike (a b : Environment) : Bool :=
  a.size = b.size &&
    (a.bindings.zip b.bindings).all fun (p, q) => p.1 = q.1 && p.2.alike q.2

end Environment

end DeskCalculator
