import Mathlib.Data.Char
import Mathlib.Data.List.Lex
import Mathlib.Data.List.Sort

/-!
# JSON values

A value is kept as it is written: number literals are texts, and members stand in the order of the
document, repeated keys included. Functions on values are folds.
-/

namespace Wings.Json

abbrev Text := List Char

inductive Value where
  | null
  | bool (value : Bool)
  | number (literal : Text)
  | string (text : Text)
  | array (items : List Value)
  | object (members : List (Text × Value))

namespace Value

@[elab_as_elim, induction_eliminator]
theorem nested_induction {motive : Value → Prop} (null : motive .null)
    (bool : ∀ value, motive (.bool value)) (number : ∀ literal, motive (.number literal))
    (string : ∀ text, motive (.string text))
    (array : ∀ items, (∀ item ∈ items, motive item) → motive (.array items))
    (object : ∀ members, (∀ member ∈ members, motive member.2) → motive (.object members))
    (value : Value) : motive value := by
  refine @Value.rec motive (fun items => ∀ item ∈ items, motive item)
    (fun members => ∀ member ∈ members, motive member.2) (fun member => motive member.2)
    null bool number string array object ?_ ?_ ?_ ?_ ?_ value
  · simp
  · intro item items holds rest
    exact List.forall_mem_cons.2 ⟨holds, rest⟩
  · simp
  · intro member members holds rest
    exact List.forall_mem_cons.2 ⟨holds, rest⟩
  · intro key value holds
    exact holds

structure Algebra (α : Type u) where
  null : α
  bool : Bool → α
  number : Text → α
  string : Text → α
  array : List α → α
  object : List (Text × α) → α

mutual

def fold (algebra : Algebra α) : Value → α
  | .null => algebra.null
  | .bool value => algebra.bool value
  | .number literal => algebra.number literal
  | .string text => algebra.string text
  | .array items => algebra.array (foldItems algebra items)
  | .object members => algebra.object (foldMembers algebra members)

def foldItems (algebra : Algebra α) : List Value → List α
  | [] => []
  | item :: items => fold algebra item :: foldItems algebra items

def foldMembers (algebra : Algebra α) : List (Text × Value) → List (Text × α)
  | [] => []
  | (key, value) :: members =>
    (key, fold algebra value) :: foldMembers algebra members

end

section

variable (algebra : Algebra α)

theorem foldItems_eq_map (items : List Value) :
    foldItems algebra items = items.map (fold algebra) := by
  induction items with
  | nil => rfl
  | cons item items ih =>
    rw [foldItems, ih, List.map_cons]

theorem foldMembers_eq_map (members : List (Text × Value)) :
    foldMembers algebra members = members.map fun member => (member.1, fold algebra member.2) := by
  induction members with
  | nil => rfl
  | cons member members ih =>
    rw [foldMembers, ih, List.map_cons]

theorem fold_array (items : List Value) : fold algebra (.array items) =
    algebra.array (items.map (fold algebra)) := by
  rw [fold, foldItems_eq_map]

theorem fold_object (members : List (Text × Value)) :
    fold algebra (.object members) = algebra.object
    (members.map fun member => (member.1, fold algebra member.2)) := by
  rw [fold, foldMembers_eq_map]

end

def depth : Value → Nat :=
  fold {
    null := 0
    bool := fun _ => 0
    number := fun _ => 0
    string := fun _ => 0
    array := fun depths => depths.foldr max 0 + 1
    object := fun depths => (depths.map Prod.snd).foldr max 0 + 1 }

theorem foldr_max_le_iff {depths : List Nat} {bound : Nat} :
    depths.foldr max 0 ≤ bound ↔ ∀ depth ∈ depths, depth ≤ bound := by
  induction depths with
  | nil => simp
  | cons depth depths ih =>
    rw [List.foldr_cons, Nat.max_le, ih, List.forall_mem_cons]

theorem depth_array_le_iff {bound : Nat} :
    depth (.array items) ≤ bound + 1 ↔ ∀ item ∈ items, item.depth ≤ bound := by
  simp only [depth, fold_array, Nat.add_le_add_iff_right, foldr_max_le_iff, List.forall_mem_map]

theorem depth_object_le_iff {bound : Nat} :
    depth (.object members) ≤ bound + 1 ↔ ∀ member ∈ members, member.2.depth ≤ bound := by
  simp only [depth, fold_object, Nat.add_le_add_iff_right, foldr_max_le_iff, List.forall_mem_map]

theorem depth_lt_array (member : item ∈ items) : item.depth < depth (.array items) :=
  Nat.lt_succ_of_le (depth_array_le_iff.1 (Nat.le_refl _) item member)

theorem depth_lt_object (member : entry ∈ members) : entry.2.depth < depth (.object members) :=
  Nat.lt_succ_of_le (depth_object_le_iff.1 (Nat.le_refl _) entry member)

def Distinct : Value → Prop :=
  fold {
    null := True
    bool := fun _ => True
    number := fun _ => True
    string := fun _ => True
    array := fun items => ∀ item ∈ items, item
    object := fun members =>
      (members.map Prod.fst).Nodup ∧ ∀ member ∈ members, member.2 }

@[simp] theorem distinct_number (literal : Text) : Distinct (.number literal) := trivial

@[simp] theorem distinct_string (text : Text) : Distinct (.string text) := trivial

@[simp] theorem distinct_array (items : List Value) :
    Distinct (.array items) ↔ ∀ item ∈ items, item.Distinct := by
  simp only [Distinct, fold_array, List.forall_mem_map]

@[simp] theorem distinct_object (members : List (Text × Value)) :
    Distinct (.object members) ↔ (members.map Prod.fst).Nodup ∧
        ∀ member ∈ members, member.2.Distinct := by
  simp only [Distinct, fold_object, List.forall_mem_map, List.map_map, Function.comp_def]

end Value

def sortByKey (entries : List (Text × α)) : List (Text × α) :=
  entries.insertionSort fun first second => first.1 ≤ second.1

theorem sortByKey_perm (entries : List (Text × α)) : (sortByKey entries).Perm entries :=
  List.perm_insertionSort _ entries

variable {entries : List (Text × α)}

section

variable (nodup : (entries.map Prod.fst).Nodup)
include nodup

theorem eq_of_nodup_keys (memFirst : first ∈ entries)
    (memSecond : second ∈ entries) (keys : first.1 = second.1) : first = second :=
  List.inj_on_of_nodup_map nodup memFirst memSecond keys

theorem lookup_eq_some_iff : entries.lookup key = some value ↔ (key, value) ∈ entries := by
  induction entries with
  | nil => simp
  | cons entry entries ih =>
    obtain ⟨first, content⟩ := entry
    rw [List.map_cons, List.nodup_cons] at nodup
    rw [List.lookup_cons, List.mem_cons, Prod.mk.injEq]
    by_cases same : key = first
    · rw [same, BEq.rfl]
      constructor
      · intro found
        cases found
        exact .inl ⟨rfl, rfl⟩
      · rintro (⟨_, rfl⟩ | later)
        · rfl
        · exact absurd (List.mem_map_of_mem later) nodup.1
    · rw [beq_false_of_ne same]
      rw [ih nodup.2]
      constructor
      · exact .inr
      · rintro (⟨equal, _⟩ | later)
        · exact absurd equal same
        · exact later

theorem sortByKey_eq_iff_perm : sortByKey entries = sortByKey others ↔ entries.Perm others := by
  constructor
  · intro equal
    exact (sortByKey_perm entries).symm.trans (equal ▸ sortByKey_perm others)
  · intro perm
    have sorted : (sortByKey entries).Perm (sortByKey others) :=
      ((sortByKey_perm entries).trans perm).trans (sortByKey_perm others).symm
    apply List.Perm.eq_of_pairwise _ (List.pairwise_insertionSort _ entries)
      (List.pairwise_insertionSort _ others) sorted
    intro first second memFirst memSecond before after
    have known := (sortByKey_perm entries).mem_iff.1 memFirst
    have other := perm.mem_iff.2 ((sortByKey_perm others).mem_iff.1 memSecond)
    exact eq_of_nodup_keys nodup known other (le_antisymm before after)

theorem sortByKey_sortByKey : sortByKey (sortByKey entries) = sortByKey entries := by
  rw [Eq.comm, sortByKey_eq_iff_perm nodup]
  exact (sortByKey_perm entries).symm

end

theorem sortByKey_map_value (entries : List (Text × α)) (convert : α → β) :
    sortByKey (entries.map fun entry => (entry.1, convert entry.2)) =
    (sortByKey entries).map fun entry => (entry.1, convert entry.2) := by
  symm
  apply List.map_insertionSort
  intro first _ second _
  exact Iff.rfl

section Partners

variable {related : Text × α → Text × β → Prop}
  (keys : ∀ entry other, related entry other → entry.1 = other.1)

include keys

theorem orderedInsert_forall₂ (holds : related entry other)
    (each : List.Forall₂ related entries others) :
    List.Forall₂ related (entries.orderedInsert (fun first second => first.1 ≤ second.1) entry)
    (others.orderedInsert (fun first second => first.1 ≤ second.1) other) := by
  induction each with
  | nil => exact .cons holds .nil
  | @cons first second entries others same rest insertion =>
    rw [List.orderedInsert_cons, List.orderedInsert_cons,
      keys entry other holds, keys first second same]
    by_cases before : other.1 ≤ second.1
    · rw [if_pos before, if_pos before]
      exact .cons holds (.cons same rest)
    · rw [if_neg before, if_neg before]
      exact .cons same insertion

theorem sortByKey_forall₂ (each : List.Forall₂ related entries others) :
    List.Forall₂ related (sortByKey entries) (sortByKey others) := by
  induction each with
  | nil => exact .nil
  | cons holds _ ih =>
    exact orderedInsert_forall₂ keys holds ih

theorem filter_forall₂ (keep : Text → Bool) (each : List.Forall₂ related entries others) :
    List.Forall₂ related (entries.filter fun entry => keep entry.1)
    (others.filter fun other => keep other.1) := by
  refine List.rel_filter ?_ each
  intro entry other holds
  dsimp only
  rw [keys entry other holds]

end Partners

def assign (entries : List (Text × α)) (entry : Text × α) : List (Text × α) :=
  entries.filter (fun other => other.1 ≠ entry.1) ++ [entry]

/-- The map made by assigning the entries in turn: the last one counts. -/
def toMap (entries : List (Text × α)) : List (Text × α) := entries.foldl assign []

theorem toMap_of_nodup (nodup : (entries.map Prod.fst).Nodup) : toMap entries = entries := by
  have assigned : ∀ before, ((before ++ entries).map Prod.fst).Nodup →
        entries.foldl assign before = before ++ entries := by
    clear nodup
    induction entries with
    | nil => simp
    | cons entry entries ih =>
      intro before nodup
      have fresh : assign before entry = before ++ [entry] := by
        rw [assign, List.filter_eq_self.2]
        intro other member
        rw [List.map_append, List.map_cons, List.nodup_append] at nodup
        exact decide_eq_true (nodup.2.2 _ (List.mem_map_of_mem member) _ List.mem_cons_self)
      rw [List.foldl_cons, fresh, ih, List.append_assoc]
      · rfl
      · rw [List.append_assoc]
        exact nodup
  exact assigned [] nodup

namespace Value

def sorted : Value → Value :=
  fold {
    null := .null
    bool := .bool
    number := .number
    string := .string
    array := .array
    object := fun members => .object (sortByKey members) }

theorem sorted_array (items : List Value) : sorted (.array items) = .array (items.map sorted) :=
  fold_array _ items

theorem sorted_object (members : List (Text × Value)) : sorted (.object members) =
    .object (sortByKey (members.map fun member => (member.1, member.2.sorted))) :=
  fold_object _ members

/-- Two values that differ in the order of object members only. -/
inductive Same : Value → Value → Prop
  | null : Same .null .null
  | bool (value : Bool) : Same (.bool value) (.bool value)
  | number (literal : Text) : Same (.number literal) (.number literal)
  | string (text : Text) : Same (.string text) (.string text)
  | array {items others : List Value} (length : items.length = others.length)
      (same : ∀ (index : Nat) (item other : Value),
        items[index]? = some item → others[index]? = some other → Same item other) :
      Same (.array items) (.array others)
  | object {members others : List (Text × Value)} (keys : ∀ key,
        key ∈ members.map Prod.fst ↔ key ∈ others.map Prod.fst)
      (same : ∀ (key : Text) (value other : Value),
        (key, value) ∈ members → (key, other) ∈ others → Same value other) :
      Same (.object members) (.object others)

theorem same_array_iff (decides : ∀ item ∈ items, ∀ other ∈ others,
    Same item other ↔ item.sorted = other.sorted) :
    Same (.array items) (.array others) ↔ items.map sorted = others.map sorted := by
  constructor
  · intro same
    cases same with
    | array length same =>
      apply List.ext_getElem?
      intro index
      rw [List.getElem?_map, List.getElem?_map]
      cases item : items[index]? with
      | none =>
        rw [List.getElem?_eq_none_iff, length] at item
        rw [List.getElem?_eq_none_iff.2 item]
      | some value =>
        have bound : index < others.length := length ▸ (List.getElem?_eq_some_iff.1 item).1
        have other := List.getElem?_eq_getElem bound
        have equal := (decides _ (List.mem_of_getElem? item) _
          (List.mem_of_getElem? other)).1 (same index _ _ item other)
        rw [other, Option.map_some, Option.map_some, equal]
  · intro equal
    refine Same.array ?_ ?_
    · simpa using congrArg List.length equal
    · intro index item other known found
      apply (decides _ (List.mem_of_getElem? known) _ (List.mem_of_getElem? found)).2
      have there := congrArg (fun values => values[index]?) equal
      simpa [known, found] using there

theorem mem_map_value_iff {convert : α → β} {key : Text} {result : β} : (key, result) ∈
    entries.map (fun entry => (entry.1, convert entry.2)) ↔
    ∃ value, (key, value) ∈ entries ∧ convert value = result := by
  constructor
  · intro member
    obtain ⟨⟨_, value⟩, known, equal⟩ := List.mem_map.1 member
    cases equal
    exact ⟨value, known, rfl⟩
  · rintro ⟨value, known, equal⟩
    exact List.mem_map.2 ⟨(key, value), known, by rw [equal]⟩

theorem map_fst_map_value (entries : List (Text × α)) (convert : α → β) :
    (entries.map fun entry => (entry.1, convert entry.2)).map Prod.fst = entries.map Prod.fst := by
  rw [List.map_map]
  rfl

theorem same_object_iff {members others : List (Text × Value)}
    (nodup : (members.map Prod.fst).Nodup) (otherNodup : (others.map Prod.fst).Nodup)
    (decides : ∀ member ∈ members, ∀ other ∈ others,
    Same member.2 other.2 ↔ member.2.sorted = other.2.sorted) :
    Same (.object members) (.object others) ↔
    (members.map fun member => (member.1, member.2.sorted)).Perm
    (others.map fun member => (member.1, member.2.sorted)) := by
  rw [List.perm_ext_iff_of_nodup (List.Nodup.of_map Prod.fst (by rwa [map_fst_map_value]))
    (List.Nodup.of_map Prod.fst (by rwa [map_fst_map_value]))]
  constructor
  · intro same
    cases same with
    | object keys same =>
      rintro ⟨key, result⟩
      rw [mem_map_value_iff, mem_map_value_iff]
      constructor
      · rintro ⟨value, known, equal⟩
        have there := (keys key).1 (List.mem_map_of_mem known)
        obtain ⟨⟨_, other⟩, found, rfl⟩ := List.mem_map.1 there
        refine ⟨other, found, ?_⟩
        rw [← equal, (decides _ known _ found).1 (same _ _ _ known found)]
      · rintro ⟨other, found, equal⟩
        have there := (keys key).2 (List.mem_map_of_mem found)
        obtain ⟨⟨_, value⟩, known, rfl⟩ := List.mem_map.1 there
        refine ⟨value, known, ?_⟩
        rw [← equal, (decides _ known _ found).1 (same _ _ _ known found)]
  · intro entries
    refine Same.object ?_ ?_
    · intro key
      rw [← map_fst_map_value members sorted, ← map_fst_map_value others sorted]
      simp only [List.mem_map (f := Prod.fst), entries]
    · intro key value other known found
      apply (decides _ known _ found).2
      have there := (entries (key, value.sorted)).1 (mem_map_value_iff.2 ⟨value, known, rfl⟩)
      obtain ⟨same, found', equal⟩ := mem_map_value_iff.1 there
      cases eq_of_nodup_keys otherNodup found found' rfl
      exact equal.symm

variable {value : Value}

theorem same_iff_sorted_eq {other : Value} (distinct : value.Distinct)
    (otherDistinct : other.Distinct) : Same value other ↔ value.sorted = other.sorted := by
  induction value generalizing other with
  | null | bool value | number literal | string text =>
    constructor
    · intro same
      cases same
      rfl
    · intro equal
      cases other <;> cases equal
      constructor
  | array items ih =>
    cases other with
    | array others =>
      rw [distinct_array] at distinct otherDistinct
      rw [sorted_array, sorted_array, Value.array.injEq]
      apply same_array_iff
      intro item known other found
      exact ih item known (distinct item known) (otherDistinct other found)
    | null | bool | number | string | object =>
      exact ⟨nofun, nofun⟩
  | object members ih =>
    cases other with
    | object others =>
      rw [distinct_object] at distinct otherDistinct
      rw [sorted_object, sorted_object, Value.object.injEq,
        sortByKey_eq_iff_perm (by rw [map_fst_map_value]; exact distinct.1)]
      apply same_object_iff distinct.1 otherDistinct.1
      intro member known other found
      exact ih member known (distinct.2 member known) (otherDistinct.2 other found)
    | null | bool | number | string | array =>
      exact ⟨nofun, nofun⟩

theorem sorted_sorted (distinct : value.Distinct) : value.sorted.sorted = value.sorted := by
  induction value with
  | null | bool | number | string => rfl
  | array items ih =>
    rw [distinct_array] at distinct
    rw [sorted_array, sorted_array, List.map_map]
    congr 1
    apply List.map_congr_left
    intro item known
    exact ih item known (distinct item known)
  | object members ih =>
    rw [distinct_object] at distinct
    have fixed :
        (sortByKey (members.map fun member =>
          (member.1, member.2.sorted))).map (fun member => (member.1, member.2.sorted)) =
          sortByKey (members.map fun member =>
            (member.1, member.2.sorted)) := by
      refine (List.map_congr_left ?_).trans (List.map_id _)
      intro member known
      obtain ⟨original, there, equal⟩ := List.mem_map.1 ((sortByKey_perm _).mem_iff.1 known)
      rw [← equal, ih original there (distinct.2 original there)]
      rfl
    rw [sorted_object, sorted_object, fixed, sortByKey_sortByKey]
    rw [map_fst_map_value]
    exact distinct.1

theorem Distinct.sorted (distinct : value.Distinct) : value.sorted.Distinct := by
  induction value with
  | null | bool | number | string => exact trivial
  | array items ih =>
    rw [distinct_array] at distinct
    rw [sorted_array, distinct_array, List.forall_mem_map]
    intro item member
    exact ih item member (distinct item member)
  | object members ih =>
    rw [distinct_object] at distinct
    rw [sorted_object, distinct_object]
    constructor
    · apply ((sortByKey_perm _).map Prod.fst).nodup_iff.2
      rw [map_fst_map_value]
      exact distinct.1
    · intro member known
      obtain ⟨original, there, equal⟩ := List.mem_map.1 ((sortByKey_perm _).mem_iff.1 known)
      rw [← equal]
      exact ih original there (distinct.2 original there)

end Value

end Wings.Json
