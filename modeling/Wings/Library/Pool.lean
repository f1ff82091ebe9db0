import Mathlib.Algebra.Order.BigOperators.Group.List
import Mathlib.Algebra.Order.Ring.Int
import Mathlib.Tactic.Ring

/-!
# Pools of processes

A scheduler step replaces one process of a list. The lemmas say how a total over the pool and a
property of every process change.
-/

namespace Wings.Pool

universe u

variable {Process : Type u}

def total (weight : Process → Int) (pool : List Process) : Int := (pool.map weight).sum

@[simp] theorem total_nil (weight : Process → Int) : total weight [] = 0 := rfl

@[simp] theorem total_cons (weight : Process → Int) (process : Process) (pool : List Process) :
    total weight (process :: pool) = weight process + total weight pool := by
  simp [total]

@[simp] theorem total_append (weight : Process → Int) (first second : List Process) :
    total weight (first ++ second) = total weight first + total weight second := by
  simp [total]

variable {pool : List Process} {index : Nat}

/-- Replacing one process exchanges its weight in the total. -/
theorem total_set (weight : Process → Int) (found : pool[index]? = some before) (after : Process) :
    total weight (pool.set index after) = total weight pool - weight before + weight after := by
  induction pool generalizing index with
  | nil => simp at found
  | cons head rest ih =>
    cases index with
    | zero =>
      simp only [List.getElem?_cons_zero, Option.some.injEq] at found
      subst found
      simp only [List.set_cons_zero, total_cons]
      ring
    | succ index =>
      simp only [List.set_cons_succ, total_cons, ih found]
      ring

theorem total_nonneg (nonnegative : ∀ process ∈ pool, 0 ≤ weight process) :
    0 ≤ total weight pool := List.sum_nonneg (List.forall_mem_map.2 nonnegative)

theorem total_le_total (below : ∀ process ∈ pool, lower process ≤ upper process) :
    total lower pool ≤ total upper pool := List.sum_le_sum below

theorem total_exchange_le (below : ∀ process ∈ pool, lower process ≤ upper process)
    (found : pool[index]? = some process) :
    total lower pool - lower process + upper process ≤ total upper pool := by
  obtain ⟨before, rest, rfl⟩ := List.append_of_mem (List.mem_of_getElem? found)
  rw [List.forall_mem_append, List.forall_mem_cons] at below
  have first := total_le_total below.1
  have last := total_le_total below.2.2
  simp only [total_append, total_cons]
  omega

theorem weight_le_total (nonnegative : ∀ process ∈ pool, 0 ≤ weight process)
    (member : process ∈ pool) : weight process ≤ total weight pool :=
  List.single_le_sum (List.forall_mem_map.2 nonnegative) _ (List.mem_map_of_mem member)

theorem total_filter (weightless : ∀ process ∈ pool, keep process = false → weight process = 0) :
    total weight (pool.filter keep) = total weight pool := by
  induction pool with
  | nil => rfl
  | cons head rest ih =>
    have restEqual := ih fun process member =>
      weightless process (List.mem_cons_of_mem head member)
    cases kept : keep head with
    | true => simp [kept, restEqual]
    | false => simp [kept, restEqual, weightless head (by simp) kept]

theorem forall_mem_set {holds : Process → Prop}
    (all : ∀ process ∈ pool, holds process) (index : Nat) {after : Process}
    (new : holds after) : ∀ process ∈ pool.set index after, holds process := by
  intro process member
  rcases List.mem_or_eq_of_mem_set member with old | equal
  · exact all process old
  · exact equal ▸ new

end Wings.Pool
