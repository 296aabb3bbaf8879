import DeskCalculator.Proofs.Double.Bits
import DeskCalculator.Proofs.Environment.Bindings
import Mathlib.Data.List.Dedup
import Mathlib.Data.List.Induction

/-!
# `DeskCalculator.Proofs.Environment.Settings`: what is left of names that were set

Names are set to values one after the other, any number of times. What an
environment tells of all this is the last value of each name, and nothing
else. This holds of values of any kind, of the bits of numbers as well as of
the numbers themselves. Bits are where something can be said about which
value exactly was kept: two numbers that are none are the same number here,
but were set as different bits.

`lastSet` is the specification. It looks at the row of settings from behind,
and knows of no order of the names. The proofs add one setting at the end of
a row at a time, since this is the one that an environment sees last
(`ofList_concat`, `lastSet_concat`).

* `get?_ofList`: the value that a name was set to last, and no value for a
  name that was never set.
* `bindings_ofBits`: the numbers of bits that were set are those of the bits
  that are listed.
* `settings_listed`: the bindings list each name that was set once, in the
  order of the bytes of the names, and two rows of settings in which each
  name has the same last value lead to the same list. Environments of
  numbers are then alike unless one of these numbers is none.
-/

set_option autoImplicit false

namespace DeskCalculator.Environment

variable {α : Type}

/-- The value that a name was set to last, if it was set. It is looked for
from the end of the settings. -/
def lastSet (name : String) (settings : List (String × α)) : Option α :=
  (settings.reverse.find? fun s => s.1 = name).map Prod.snd

/-- The names that were set, as often as they were. How many different ones
there are is the size of the environment. -/
def namesSet (settings : List (String × α)) : List String := settings.map Prod.fst

/-- The environment in which names were set to the numbers of the given
bits, one after the other. -/
def ofBits (settings : List (String × UInt64)) : Environment :=
  ofList (settings.map (Prod.map id Number.ofBits))

/-! ### One setting after the others

Settings are lists to which one is added at the end, as that is the order in
which they are made. -/

section Concat

variable (settings : List (String × α)) (s : String × α)

/-- One more setting is made in what the others have left. For inductions
from the end, as the last setting wins. -/
theorem ofList_concat : ofList (settings ++ [s]) = (ofList settings).set s.1 s.2 := by
  simp [ofList]

/-- One more setting is the last one of its name, and leaves those of all
other names. -/
theorem lastSet_concat (name : String) :
    lastSet name (settings ++ [s]) = if s.1 = name then some s.2 else lastSet name settings := by
  unfold lastSet
  by_cases h : s.1 = name <;> simp [h]

end Concat

/-! ### All settings

What is bound, and how many, by induction over the settings. -/

section Settings

variable (settings : List (String × α))

/-- A name has the value that it was set to last. Induction over the
settings, the last one first. -/
theorem get?_ofList (name : String) : (ofList settings).get? name = lastSet name settings := by
  induction settings using List.reverseRecOn with
  | nil => rfl
  | append_singleton settings s ih => rw [ofList_concat, get?_set, lastSet_concat, ih]

/-- The names that have a last setting are those that were set, once or
several times. -/
theorem lastSet_ne_none_iff {name : String} :
    lastSet name settings ≠ none ↔ name ∈ namesSet settings := by
  simp [lastSet, namesSet]

/-- The names that are listed are those that were set. Nothing but setting a
name binds it. -/
theorem mem_names_ofList {name : String} :
    name ∈ (ofList settings).bindings.map Prod.fst ↔ name ∈ namesSet settings := by
  rw [mem_names_iff, get?_ofList, lastSet_ne_none_iff]

/-- There are as many bindings as different names were set. Neither row of
names has one twice, and they have the same names, so one is a rearrangement
of the other. -/
theorem size_ofList : (ofList settings).size = (namesSet settings).dedup.length := by
  have hperm : ((ofList settings).bindings.map Prod.fst).Perm (namesSet settings).dedup := by
    refine (List.perm_ext_iff_of_nodup (nodup_names _) (List.nodup_dedup _)).mpr fun name => ?_
    rw [mem_names_ofList, List.mem_dedup]
  simpa [size] using hperm.length_eq

end Settings

/-! ### Bits and numbers

Settings are given by bits, and an environment has numbers. The two differ
only for what is no number. -/

/-- The place of a binding depends on its name only, so values can be
replaced before or after it is inserted. -/
theorem insert_map {β : Type} (f : α → β) (name : String) (value : α)
    (bindings : List (String × α)) :
    insert name (f value) (bindings.map (Prod.map id f)) =
      (insert name value bindings).map (Prod.map id f) := by
  fun_induction insert name value bindings with
  | case1 => rfl
  | case2 n x rest hlt => exact if_pos hlt
  | case3 x rest hlt => exact (if_neg hlt).trans (if_pos rfl)
  | case4 n x rest hlt hne ih =>
      refine ((if_neg hlt).trans (if_neg hne)).trans ?_
      rw [ih]
      rfl

/-- The numbers of bits that were set are the numbers of the bits that are
listed. -/
theorem bindings_ofBits (settings : List (String × UInt64)) :
    (ofBits settings).bindings = (ofList settings).bindings.map (Prod.map id Number.ofBits) := by
  induction settings using List.reverseRecOn with
  | nil => rfl
  | append_singleton settings s ih =>
      have hlast := insert_map Number.ofBits s.1 s.2 (ofList settings).bindings
      rw [← ih] at hlast
      rw [ofBits, List.map_append, List.map_singleton, ofList_concat, ofList_concat]
      exact hlast

/-- What is set is alike to itself unless a last number is none. A setting
that was overwritten does not count, whatever its number. The bits of what
is a number are those up to infinity, with either sign. -/
theorem alike_ofBits_iff (settings : List (String × UInt64)) :
    (ofBits settings).alike (ofBits settings) = true ↔
      ∀ name bits, lastSet name settings = some bits →
        bits.toNat % 2 ^ 63 ≤ Double.infinitePattern := by
  rw [alike_self_iff, bindings_ofBits, List.forall_mem_map]
  constructor
  · intro h name bits hlast
    rw [← get?_ofList, ← mem_bindings_iff] at hlast
    exact (Number.alike_ofBits bits).mp (h (name, bits) hlast)
  · rintro h ⟨name, bits⟩ hb
    rw [mem_bindings_iff, get?_ofList] at hb
    exact (Number.alike_ofBits bits).mpr (h name bits hb)

/-! ### What is listed

All of it together. -/

/-- The environment lists what is left of the settings: what can be asked of
it, in terms of the settings alone. -/
structure Listed (settings : List (String × α)) (env : Environment α) : Prop where
  /-- In strictly increasing order of the bytes of the names. -/
  ordered : env.bindings.Pairwise fun a b => Text.encode a.1.toList < Text.encode b.1.toList
  once : ∀ name, (env.bindings.map Prod.fst).count name = if name ∈ namesSet settings then 1 else 0
  /-- Each name with its last value. -/
  last : ∀ name x, (name, x) ∈ env.bindings ↔ lastSet name settings = some x
  bound : ∀ name, env.get? name = lastSet name settings
  unbound : ∀ name, name ∉ namesSet settings → env.get? name = none
  size : env.size = (namesSet settings).dedup.length
  isEmpty : env.isEmpty = true ↔ env.size = 0

/-- The settings that were made are listed: once for each name, in order,
with the last value of each. -/
theorem listed_ofList (settings : List (String × α)) : Listed settings (ofList settings) where
  ordered := bindings_ordered _
  once name := by
    rw [(nodup_names (ofList settings)).count]
    simp only [mem_names_ofList]
  last name x := by rw [mem_bindings_iff, get?_ofList]
  bound := get?_ofList settings
  unbound name hname := by
    rw [get?_ofList]
    exact not_not.mp fun hne => hname ((lastSet_ne_none_iff settings).mp hne)
  size := size_ofList settings
  isEmpty := by simp [isEmpty, Environment.size]

/-- An environment is what the last settings say. However often and in
whatever order names are set, the bindings list each of them once, in the
order of their bytes and with the value that it was set to last. This value
may be the bits of a number; the numbers are then listed like their bits.
Where the last bits are the same, so are the bindings, and two such
environments are alike unless one of the numbers is none. -/
theorem settings_listed :
    (∀ (α : Type) (settings : List (String × α)), Listed settings (ofList settings)) ∧
    (∀ settings, (ofBits settings).bindings =
      (ofList settings).bindings.map (Prod.map id Number.ofBits)) ∧
    ∀ settings settings' : List (String × UInt64),
      (∀ name, lastSet name settings = lastSet name settings') →
        (ofList settings).bindings = (ofList settings').bindings ∧
        (ofBits settings).bindings = (ofBits settings').bindings ∧
        ((ofBits settings).alike (ofBits settings') = true ↔
          ∀ name bits, lastSet name settings = some bits →
            bits.toNat % 2 ^ 63 ≤ Double.infinitePattern) := by
  refine ⟨fun α => listed_ofList, bindings_ofBits, fun settings settings' hlast => ?_⟩
  -- An environment is what its names are bound to, so these are the same
  -- environments.
  have hlist : ofList settings = ofList settings' := by
    ext1 name
    rw [get?_ofList, get?_ofList, hlast]
  have hbindings : (ofBits settings).bindings = (ofBits settings').bindings := by
    rw [bindings_ofBits, bindings_ofBits, hlist]
  have hsame : ofBits settings = ofBits settings' := by
    ext1 name
    simp only [get?, hbindings]
  refine ⟨congrArg bindings hlist, hbindings, ?_⟩
  rw [← hsame]
  exact alike_ofBits_iff settings

/-- What is none is not alike to itself, in whatever order the names were
set: here those with the empty name and the names `a` and `ab`. -/
theorem settings_listed_reordered :
    (ofBits [("ab", 1), ("", 2), ("a", 3), ("", 0xFFF8000000000001)]).bindings =
      (ofBits [("", 0xFFF8000000000001), ("a", 3), ("ab", 1)]).bindings ∧
    (ofBits [("ab", 1), ("", 2), ("a", 3), ("", 0xFFF8000000000001)]).alike
      (ofBits [("", 0xFFF8000000000001), ("a", 3), ("ab", 1)]) = false := by
  obtain ⟨-, hsame, halike⟩ := settings_listed.2.2
    [("ab", 1), ("", 2), ("a", 3), ("", 0xFFF8000000000001)]
    [("", 0xFFF8000000000001), ("a", 3), ("ab", 1)] (fun name => by
      simp only [lastSet, List.reverse_cons, List.reverse_nil, List.nil_append, List.cons_append,
        List.find?_cons, List.find?_nil]
      by_cases hempty : "" = name
      · subst hempty
        rfl
      · by_cases ha : "a" = name
        · subst ha
          rfl
        · simp [hempty, ha])
  refine ⟨hsame, Bool.eq_false_iff.mpr fun h => ?_⟩
  have := halike.mp h "" 0xFFF8000000000001 (by decide)
  exact absurd this (by decide)

end DeskCalculator.Environment
