import Mathlib.Algebra.BigOperators.Group.List.Basic
import Mathlib.Algebra.Ring.Nat
import Mathlib.Data.List.AList

/-!
# Dictionaries with totals

A dictionary is an association list without repeated keys. The lemmas below say
how the total weight of its items, and the number of items that meet a
condition, change when a key is given an item or erased.
-/

namespace Wings

universe u v

abbrev Dictionary (Key : Type u) (Item : Type v) := AList fun _ : Key => Item

namespace Dictionary

variable {Key : Type u} {Item : Type v}

def items (keep : Item → Bool) (dictionary : Dictionary Key Item) : List Item :=
  (dictionary.entries.map Sigma.snd).filter keep

def total (weight : Item → Nat) (dictionary : Dictionary Key Item) : Nat :=
  (dictionary.entries.map fun entry => weight entry.2).sum

def count (keep : Item → Bool) (dictionary : Dictionary Key Item) : Nat :=
  dictionary.total fun item => if keep item then 1 else 0

variable {dictionary : Dictionary Key Item}

variable [DecidableEq Key]

theorem mem_entries_iff : ⟨key, item⟩ ∈ dictionary.entries ↔ dictionary.lookup key = some item :=
  AList.mem_lookup_iff.symm

theorem lookup_insert_iff :
    (dictionary.insert key item).lookup name = some found ↔ name = key ∧ item = found ∨
    name ≠ key ∧ dictionary.lookup name = some found := by
  by_cases same : name = key
  · subst same
    simp
  · simp [AList.lookup_insert_ne same, same]

theorem lookup_erase_iff : (dictionary.erase key).lookup name = some found ↔
    name ≠ key ∧ dictionary.lookup name = some found := by
  by_cases same : name = key
  · subst same
    simp
  · simp [AList.lookup_erase_ne same, same]

theorem erase_of_fresh (fresh : dictionary.lookup key = none) : dictionary.erase key = dictionary :=
  AList.ext (List.kerase_of_notMem_keys (AList.lookup_eq_none.1 fresh))

theorem total_erase (found : dictionary.lookup key = some item) :
    dictionary.total weight = weight item + total weight (dictionary.erase key) := by
  have present : key ∈ dictionary.entries.keys := List.mem_keys_of_mem (mem_entries_iff.2 found)
  obtain ⟨value, before, after, _, split, erased⟩ := List.exists_of_kerase present
  have same : value = item := by
    have kept : ⟨key, value⟩ ∈ dictionary.entries := by
      rw [split]
      exact List.mem_append_right _ List.mem_cons_self
    exact Option.some.inj ((mem_entries_iff.1 kept).symm.trans found)
  subst same
  have rest : (dictionary.erase key).entries = before ++ after := erased
  rw [total, total, rest, split, List.map_append, List.map_cons,
    List.map_append, List.sum_append, List.sum_cons, List.sum_append]
  exact Nat.add_left_comm _ _ _

theorem total_insert (key : Key) (item : Item) : total weight (dictionary.insert key item) =
    weight item + total weight (dictionary.erase key) := by
  rfl

theorem total_insert_fresh (fresh : dictionary.lookup key = none) (item : Item) :
    total weight (dictionary.insert key item) = weight item + dictionary.total weight := by
  rw [total_insert, erase_of_fresh fresh]

theorem total_congr
    (agree : ∀ key item, dictionary.lookup key = some item → weight item = other item) :
    dictionary.total weight = dictionary.total other := by
  rw [total, total]
  congr 1
  refine List.map_congr_left fun entry member => ?_
  exact agree entry.1 entry.2 (mem_entries_iff.1 member)

theorem total_insert_le (key : Key) (item : Item) : total weight (dictionary.insert key item) ≤
    weight item + dictionary.total weight := by
  rw [total_insert]
  cases found : dictionary.lookup key with
  | none => rw [erase_of_fresh found]
  | some old =>
    rw [total_erase found]
    omega

theorem sum_keys : (dictionary.keys.map fun key =>
    (dictionary.lookup key).elim 0 weight).sum = dictionary.total weight := by
  rw [AList.keys, List.keys, List.map_map, total]
  congr 1
  refine List.map_congr_left fun entry member => ?_
  rw [Function.comp_apply, mem_entries_iff.1 member, Option.elim_some]

omit [DecidableEq Key] in
theorem length_eq_total : dictionary.entries.length = dictionary.total fun _ => 1 := by
  rw [total, List.map_const', List.sum_replicate_nat, Nat.mul_one]

theorem length_insert_le (key : Key) (item : Item) : (dictionary.insert key item).entries.length ≤
    dictionary.entries.length + 1 := by
  rw [length_eq_total, length_eq_total, Nat.add_comm]
  exact total_insert_le key item

theorem length_insert_of_found (found : dictionary.lookup key = some old) (item : Item) :
    (dictionary.insert key item).entries.length = dictionary.entries.length := by
  rw [length_eq_total, length_eq_total, total_insert, total_erase found]

theorem count_insert_fresh (fresh : dictionary.lookup key = none) (item : Item) :
    count keep (dictionary.insert key item) = dictionary.count keep + if keep item then 1 else 0 :=
  (total_insert_fresh fresh item).trans (Nat.add_comm _ _)

theorem count_erase_le (key : Key) : count keep (dictionary.erase key) ≤ dictionary.count keep := by
  cases found : dictionary.lookup key with
  | none => rw [erase_of_fresh found]
  | some item =>
    rw [count, count, total_erase found]
    exact Nat.le_add_left _ _

theorem count_congr (agree : ∀ key item, dictionary.lookup key = some item →
    keep item = also item) : dictionary.count keep = dictionary.count also :=
  total_congr fun key item found => by rw [agree key item found]

end Dictionary
end Wings
