import Mathlib.Data.List.MinMax
import Mathlib.Data.List.Nodup

/-!
# Tables of keyed rows

A table is the list of its rows, each with a numeric key.  A new row gets the
key one above the largest key present, so that a key is used again once every
row at or above it has been deleted.
-/

namespace Wings.Table

variable {Row : Type} (key : Row → Nat)

def nextId (rows : List Row) : Nat := (rows.map key).foldr max 0 + 1

theorem lt_nextId_iff (rows : List Row) (number : Nat) :
    number < nextId key rows ↔ number = 0 ∨ ∃ row ∈ rows, number ≤ key row := by
  induction rows with
  | nil => simp [nextId]
  | cons head tail ih =>
    simp only [nextId, Nat.lt_succ_iff, List.map_cons, List.foldr_cons,
      le_max_iff, List.exists_mem_cons_iff] at ih ⊢
    rw [ih]
    exact or_left_comm

theorem key_lt_nextId (member : row ∈ rows) : key row < nextId key rows :=
  (lt_nextId_iff key rows _).2 (.inr ⟨row, member, le_rfl⟩)

theorem nextId_pos (rows : List Row) : 0 < nextId key rows := Nat.succ_pos _

theorem nextId_concat (fresh : key row = nextId key rows) :
    nextId key (rows ++ [row]) = key row + 1 := by
  refine eq_of_forall_lt_iff fun number => ?_
  rw [lt_nextId_iff, Nat.lt_succ_iff]
  constructor
  · rintro (rfl | ⟨other, member, reached⟩)
    · exact Nat.zero_le _
    · rcases List.mem_append.1 member with old | new
      · exact reached.trans (fresh ▸ (key_lt_nextId key old).le)
      · rwa [List.mem_singleton.1 new] at reached
  · intro reached
    exact .inr ⟨row, by simp, reached⟩

/-- A table whose keys increase along the list. -/
def Ascending (rows : List Row) : Prop := rows.Pairwise fun earlier later => key earlier < key later

variable {key}

theorem Ascending.eq_of_key_eq (ascending : Ascending key rows) (member : row ∈ rows)
    (otherMember : other ∈ rows) (equal : key row = key other) : row = other := by
  have distinct : (rows.map key).Nodup := List.pairwise_map.2 (ascending.imp Nat.ne_of_lt)
  exact List.inj_on_of_nodup_map distinct member otherMember equal

theorem Ascending.concat (ascending : Ascending key rows)
    (fresh : key row = nextId key rows) : Ascending key (rows ++ [row]) := by
  refine List.pairwise_append.2 ⟨ascending, List.pairwise_singleton _ _, ?_⟩
  intro earlier member later later_mem
  rw [List.mem_singleton.1 later_mem, fresh]
  exact key_lt_nextId key member

theorem monotone_concat {Group Value : Type} [Preorder Value]
    {group : Row → Group} {value : Row → Value}
    (monotone : ∀ left ∈ rows, ∀ right ∈ rows, group left = group right →
    key left ≤ key right → value left ≤ value right) (fresh : key row = nextId key rows)
    (above : ∀ old ∈ rows, group old = group row → value old ≤ value row) :
    ∀ left ∈ rows ++ [row], ∀ right ∈ rows ++ [row],
    group left = group right → key left ≤ key right → value left ≤ value right := by
  intro left leftMember right rightMember sameGroup ordered
  rw [List.mem_append, List.mem_singleton] at leftMember rightMember
  rcases leftMember with leftOld | rfl
  · rcases rightMember with rightOld | rfl
    · exact monotone left leftOld right rightOld sameGroup ordered
    · exact above left leftOld sameGroup
  · rcases rightMember with rightOld | rfl
    · have lower := key_lt_nextId key rightOld
      omega
    · exact le_rfl

theorem Ascending.find?_eq_some (ascending : Ascending key rows) (member : row ∈ rows) :
    rows.find? (fun candidate => key candidate = key row) = some row := by
  have present : (rows.find? fun candidate => key candidate = key row).isSome :=
    List.find?_isSome.2 ⟨row, member, by simp⟩
  obtain ⟨found, lookup⟩ := Option.isSome_iff_exists.1 present
  have sameKey : key found = key row := by
    simpa using List.find?_some lookup
  rw [lookup, ascending.eq_of_key_eq (List.mem_of_find?_eq_some lookup) member sameKey]

theorem argmax_concat_of_fresh (fresh : ∀ other ∈ rows, key other < key row) :
    (rows ++ [row]).argmax key = some row := by
  rw [List.argmax_concat]
  cases newest : rows.argmax key with
  | none => rfl
  | some other =>
    have member : other ∈ rows := List.argmax_mem newest
    simp [fresh other member]

end Wings.Table
