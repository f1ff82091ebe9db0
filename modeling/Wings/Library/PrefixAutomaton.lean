import Mathlib.Data.List.Infix

/-!
# Search with a failure table

The length of the longest beginning of the pattern that the text ends with is kept while a text is
read. Every access is checked, so a result says that none was out of range.
-/

namespace Wings.PrefixAutomaton

variable {α : Type}

structure Longest (pattern text : List α) (state : Nat) : Prop where
  bounded : state ≤ pattern.length
  suffix : pattern.take state <:+ text
  most : ∀ other ≤ pattern.length, pattern.take other <:+ text → other ≤ state

/-- The longest shorter beginning that each beginning ends with, below a position. -/
def Table (pattern : List α) (failure : List Nat) (position : Nat) : Prop :=
  ∀ index < position, ∃ shorter, failure[index]? = some shorter ∧
    Longest pattern ((pattern.take (index + 1)).drop 1) shorter

section Step

variable [DecidableEq α] (pattern : List α) (failure : List Nat) (value : α)

/-- Go back to shorter beginnings until the value continues one. -/
def retreat : Nat → Nat → Option Nat
  | 0, _ => none
  | bound + 1, state =>
    if state = 0 then some state
    else do
      let expected ← pattern[state]?
      if value = expected then some state
      else do
        let shorter ← failure[state - 1]?
        retreat bound shorter

def advance (state : Nat) : Option Nat := do
  let last ← retreat pattern failure value (state + 1) state
  let expected ← pattern[last]?
  return if value = expected then last + 1 else last

end Step

section Table

variable [DecidableEq α] (pattern : List α)

def fill (built : List Nat × Nat) (index : Nat) : Option (List Nat × Nat) := do
  let value ← pattern[index]?
  let matched ← advance pattern built.1 value built.2
  if index < built.1.length then some (built.1.set index matched, matched)
  else none

def failureTable : Option (List Nat) := do
  let built ← (List.range' 1 (pattern.length - 1)).foldlM (fill pattern)
    (List.replicate pattern.length 0, 0)
  return built.1

end Table

variable {pattern text : List α} {failure : List Nat}

theorem le_length_of_suffix (bounded : state ≤ pattern.length)
    (suffix : pattern.take state <:+ text) : state ≤ text.length := by
  have shorter := suffix.length_le
  rwa [List.length_take_of_le bounded] at shorter

theorem longest_nil : Longest pattern [] 0 :=
  ⟨Nat.zero_le _, List.nil_suffix, fun _ => le_length_of_suffix⟩

theorem take_suffix_concat_iff (short : state < pattern.length) :
    pattern.take (state + 1) <:+ text ++ [value] ↔
    pattern[state]? = some value ∧ pattern.take state <:+ text := by
  rw [← List.take_concat_get' pattern state short, List.suffix_concat_iff,
    List.getElem?_eq_getElem short, Option.some.injEq]
  constructor
  · rintro (empty | ⟨front, equal, suffix⟩)
    · cases List.append_eq_nil_iff.1 empty |>.2
    · obtain ⟨rfl, same⟩ := List.append_singleton_inj.1 equal
      exact ⟨same, suffix⟩
  · rintro ⟨rfl, suffix⟩
    exact .inr ⟨_, rfl, suffix⟩

theorem getElem?_ne (short : state < pattern.length)
    (differs : value ≠ pattern[state]) : pattern[state]? ≠ some value := by
  rw [List.getElem?_eq_getElem short]
  exact fun same => differs (Option.some.inj same).symm

/-- No longer beginning that the text ends with is continued by the value. -/
def Bounds (pattern text : List α) (value : α) (state : Nat) : Prop :=
  ∀ other < pattern.length, pattern.take other <:+ text →
    pattern[other]? = some value → other ≤ state

theorem Bounds.concat (bounds : Bounds pattern text value state) (other : Nat)
    (bounded : other ≤ pattern.length) (suffix : pattern.take other <:+ text ++ [value]) :
    other = 0 ∨ ∃ shorter ≤ state, other = shorter + 1 ∧ pattern[shorter]? = some value := by
  cases other with
  | zero => exact .inl rfl
  | succ shorter =>
    obtain ⟨continues, ends⟩ := (take_suffix_concat_iff bounded).1 suffix
    exact .inr ⟨shorter, bounds shorter bounded ends continues, rfl, continues⟩

theorem Bounds.retreat (bounds : Bounds pattern text value state) (bounded : state ≤ pattern.length)
    (suffix : pattern.take state <:+ text) (differs : pattern[state]? ≠ some value)
    (longest : Longest pattern ((pattern.take state).drop 1) shorter) :
    Bounds pattern text value shorter := by
  intro other short ends continues
  have less : other < state := (bounds other short ends continues).lt_of_ne fun same =>
      differs (same ▸ continues)
  have inner : pattern.take other <:+ pattern.take state := by
    apply List.suffix_of_suffix_length_le ends suffix
    simp only [List.length_take]
    omega
  refine longest.most other short.le ?_
  apply List.suffix_of_suffix_length_le inner (List.drop_suffix 1 _)
  simp only [List.length_drop, List.length_take]
  omega

variable [DecidableEq α]

theorem retreat_spec (table : Table pattern failure position) (enough : state < bound)
    (known : state ≤ position)
    (short : state < pattern.length) (suffix : pattern.take state <:+ text)
    (bounds : Bounds pattern text value state) :
    ∃ last, retreat pattern failure value bound state = some last ∧
    last < pattern.length ∧ pattern.take last <:+ text ∧ Bounds pattern text value last ∧
    (last = 0 ∨ pattern[last]? = some value) := by
  induction bound generalizing state with
  | zero => omega
  | succ bound ih =>
    rw [retreat, List.getElem?_eq_getElem short]
    split_ifs with zero
    · exact ⟨state, rfl, short, suffix, bounds, .inl zero⟩
    · by_cases same : value = pattern[state]
      · refine ⟨state, if_pos same, short, suffix, bounds, .inr ?_⟩
        rw [same, List.getElem?_eq_getElem short]
      · obtain ⟨shorter, entry, longest⟩ := table (state - 1) (by omega)
        rw [Nat.sub_add_cancel (Nat.pos_of_ne_zero zero)] at longest
        have less := le_length_of_suffix longest.bounded longest.suffix
        rw [List.length_drop, List.length_take_of_le short.le] at less
        obtain ⟨last, retreated, rest⟩ := ih (by omega) (by omega) (by omega)
          ((longest.suffix.trans (List.drop_suffix 1 _)).trans suffix)
          (bounds.retreat short.le suffix (getElem?_ne short same) longest)
        refine ⟨last, (if_neg same).trans ?_, rest⟩
        rw [entry]
        exact retreated

theorem advance_spec (table : Table pattern failure position) (value : α)
    (known : state ≤ position) (short : state < pattern.length)
    (longest : Longest pattern text state) :
    ∃ next, advance pattern failure value state = some next ∧
    Longest pattern (text ++ [value]) next := by
  obtain ⟨last, retreated, inside, suffix, bounds, ends⟩ :=
    retreat_spec table (Nat.lt_succ_self state) known short longest.suffix
      fun other short ends _ => longest.most other short.le ends
  have expected := List.getElem?_eq_getElem inside
  refine ⟨if value = pattern[last] then last + 1 else last, ?_, ?_⟩
  · rw [advance, retreated, Option.bind_eq_bind, Option.bind_some, expected]
    rfl
  · split_ifs with same
    · refine ⟨inside, (take_suffix_concat_iff inside).2
        ⟨by rw [expected, same], suffix⟩, fun other bounded found => ?_⟩
      rcases bounds.concat other bounded found with rfl | ⟨shorter, le, rfl, _⟩
      · exact Nat.zero_le _
      · exact Nat.succ_le_succ le
    · have differs := getElem?_ne inside same
      obtain rfl := ends.resolve_right differs
      refine ⟨inside.le, List.nil_suffix, fun other bounded found => ?_⟩
      rcases bounds.concat other bounded found with
        rfl | ⟨shorter, le, rfl, continues⟩
      · exact Nat.le_refl _
      · rw [Nat.le_zero.1 le] at continues
        exact absurd continues differs

structure Built (pattern : List α) (built : List Nat × Nat) (index : Nat) : Prop where
  length : built.1.length = pattern.length
  table : Table pattern built.1 index
  longest : Longest pattern ((pattern.take index).drop 1) built.2

theorem Built.fill (before : Built pattern built index) (positive : 0 < index)
    (inside : index < pattern.length) :
    ∃ after, fill pattern built index = some after ∧ Built pattern after (index + 1) := by
  have less := le_length_of_suffix before.longest.bounded before.longest.suffix
  rw [List.length_drop, List.length_take_of_le inside.le] at less
  obtain ⟨next, advanced, longest⟩ := advance_spec before.table pattern[index]
    (by omega) (by omega) before.longest
  have grown : (pattern.take index).drop 1 ++ [pattern[index]] =
      (pattern.take (index + 1)).drop 1 := by
    rw [← List.take_concat_get' pattern index inside, List.drop_append_of_le_length]
    rw [List.length_take_of_le inside.le]
    exact positive
  rw [grown] at longest
  refine ⟨(built.1.set index next, next), ?_, ?_, ?_, longest⟩
  · rw [PrefixAutomaton.fill, List.getElem?_eq_getElem inside,
      Option.bind_eq_bind, Option.bind_some, advanced]
    exact if_pos (inside.trans_eq before.length.symm)
  · rw [List.length_set]
    exact before.length
  · intro other below
    rw [List.getElem?_set]
    split_ifs with same long
    · subst same
      exact ⟨next, rfl, longest⟩
    · exact absurd (inside.trans_eq before.length.symm) long
    · exact before.table other (by omega)

theorem Built.foldlM (before : Built pattern built index) (positive : 0 < index)
    (inside : index + count = pattern.length) :
    ∃ after, (List.range' index count).foldlM (PrefixAutomaton.fill pattern)
    built = some after ∧ Built pattern after pattern.length := by
  induction count generalizing index built with
  | zero =>
    rw [← inside]
    exact ⟨built, rfl, before⟩
  | succ count ih =>
    obtain ⟨next, filled, grown⟩ := before.fill positive (by omega)
    obtain ⟨after, rest, done⟩ := ih grown (by omega) (by omega)
    refine ⟨after, ?_, done⟩
    rw [List.range'_succ, List.foldlM_cons, filled]
    exact rest

/-- The table of every pattern can be computed and is right. -/
theorem failureTable_spec (pattern : List α) : ∃ failure, failureTable pattern = some failure ∧
    Table pattern failure pattern.length := by
  cases pattern with
  | nil => exact ⟨[], rfl, fun _ below => absurd below (Nat.not_lt_zero _)⟩
  | cons first rest =>
    have start : Built (first :: rest) (List.replicate (rest.length + 1) 0, 0) 1 := by
      refine ⟨List.length_replicate, fun index below => ?_, longest_nil⟩
      obtain rfl := Nat.lt_one_iff.1 below
      exact ⟨0, rfl, longest_nil⟩
    obtain ⟨after, filled, built⟩ := start.foldlM Nat.one_pos (Nat.add_comm 1 rest.length)
    refine ⟨after.1, ?_, built.table⟩
    rw [failureTable, List.length_cons, Nat.add_sub_cancel, filled]
    rfl

end Wings.PrefixAutomaton
