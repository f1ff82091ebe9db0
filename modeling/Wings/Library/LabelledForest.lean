import Mathlib.Data.List.Nodup

/-!
# Forests of labelled trees

A tree is a leaf or a branch with a forest below it, and carries a label and data. When no two
neighbours have the same label, no two leaves have the same way. Changes along a way permute the
contents, up to those of the tree that is taken out or put in.
-/

namespace Wings.LabelledForest

/-- A list of labelled trees, by the first tree and the others. -/
inductive Forest (Label Leaf Branch : Type) where
  | nil
  | leaf (label : Label) (data : Leaf) (rest : Forest Label Leaf Branch)
  | branch (label : Label) (data : Branch) (children rest : Forest Label Leaf Branch)

namespace Forest

variable {Label Leaf Branch : Type}

def labels : Forest Label Leaf Branch → List Label
  | .nil => []
  | .leaf label _ rest => label :: rest.labels
  | .branch label _ _ rest => label :: rest.labels

def leaves : Forest Label Leaf Branch → List (List Label × Leaf)
  | .nil => []
  | .leaf label data rest => ([label], data) :: rest.leaves
  | .branch label _ children rest =>
    children.leaves.map (fun item => (label :: item.1, item.2)) ++ rest.leaves

/-- Trees next to each other have different labels, everywhere. -/
def Distinct : Forest Label Leaf Branch → Prop
  | .nil => True
  | .leaf label _ rest => label ∉ rest.labels ∧ rest.Distinct
  | .branch label _ children rest =>
    label ∉ rest.labels ∧ children.Distinct ∧ rest.Distinct

variable {forest : Forest Label Leaf Branch}

theorem exists_label_of_mem_leaves (member : item ∈ forest.leaves) :
    ∃ label ∈ forest.labels, ∃ way, item.1 = label :: way := by
  induction forest generalizing item with
  | nil => simp [leaves] at member
  | leaf label data rest restIh =>
    rcases List.mem_cons.mp member with rfl | later
    · exact ⟨label, by simp [labels], [], rfl⟩
    · obtain ⟨other, known, way, equal⟩ := restIh later
      exact ⟨other, by simp [labels, known], way, equal⟩
  | branch label data children rest _ restIh =>
    rcases List.mem_append.mp member with inside | later
    · obtain ⟨below, _, rfl⟩ := List.mem_map.mp inside
      exact ⟨label, by simp [labels], below.1, rfl⟩
    · obtain ⟨other, known, way, equal⟩ := restIh later
      exact ⟨other, by simp [labels, known], way, equal⟩

theorem way_ne_nil (member : item ∈ forest.leaves) : item.1 ≠ [] := by
  obtain ⟨label, _, way, equal⟩ := exists_label_of_mem_leaves member
  rw [equal]
  exact List.cons_ne_nil label way

theorem way_head_ne {rest : Forest Label Leaf Branch} {label : Label}
    (fresh : label ∉ rest.labels) (way : List Label) : label :: way ∉ rest.leaves.map Prod.fst := by
  intro member
  obtain ⟨item, leaf, equal⟩ := List.mem_map.mp member
  obtain ⟨other, known, _, begins⟩ := exists_label_of_mem_leaves leaf
  rw [begins, List.cons.injEq] at equal
  exact fresh (equal.1 ▸ known)

theorem leaves_nodup (distinct : forest.Distinct) : (forest.leaves.map Prod.fst).Nodup := by
  induction forest with
  | nil => simp [leaves]
  | leaf label data rest restIh =>
    rw [leaves, List.map_cons, List.nodup_cons]
    exact ⟨way_head_ne distinct.1 [], restIh distinct.2⟩
  | branch label data children rest childIh restIh =>
    obtain ⟨fresh, below, beside⟩ := distinct
    have inside : (children.leaves.map fun item => (label :: item.1, item.2)).map Prod.fst =
          (children.leaves.map Prod.fst).map (label :: ·) := by
      simp
    rw [leaves, List.map_append, inside, List.nodup_append']
    refine ⟨(childIh below).map fun _ _ => List.tail_eq_of_cons_eq, restIh beside, ?_⟩
    intro way first second
    obtain ⟨tail, _, rfl⟩ := List.mem_map.mp first
    exact way_head_ne fresh tail second

theorem leaves_incomparable (distinct : forest.Distinct) :
    forest.leaves.Pairwise fun first second => ¬first.1 <+: second.1 ∧ ¬second.1 <+: first.1 := by
  induction forest with
  | nil => exact .nil
  | leaf label data rest restIh =>
    rw [leaves, List.pairwise_cons]
    refine ⟨?_, restIh distinct.2⟩
    intro item member
    obtain ⟨other, known, way, begins⟩ := exists_label_of_mem_leaves member
    have different : label ≠ other := by
      rintro rfl
      exact distinct.1 known
    rw [begins, List.cons_prefix_cons, List.cons_prefix_cons]
    exact ⟨fun both => different both.1, fun both => different both.1.symm⟩
  | branch label data children rest childIh restIh =>
    obtain ⟨fresh, below, beside⟩ := distinct
    rw [leaves, List.pairwise_append]
    refine ⟨?_, restIh beside, ?_⟩
    · rw [List.pairwise_map]
      apply (childIh below).imp
      intro first second incomparable
      simpa [List.cons_prefix_cons] using incomparable
    · intro first inside second member
      obtain ⟨item, _, rfl⟩ := List.mem_map.mp inside
      obtain ⟨other, known, way, begins⟩ := exists_label_of_mem_leaves member
      have different : label ≠ other := by
        rintro rfl
        exact fresh known
      rw [begins, List.cons_prefix_cons, List.cons_prefix_cons]
      exact ⟨fun both => different both.1, fun both => different both.1.symm⟩

def append : Forest Label Leaf Branch → Forest Label Leaf Branch → Forest Label Leaf Branch
  | .nil, after => after
  | .leaf label data rest, after => .leaf label data (rest.append after)
  | .branch label data children rest, after =>
    .branch label data children (rest.append after)

theorem labels_append (before after : Forest Label Leaf Branch) :
    (before.append after).labels = before.labels ++ after.labels := by
  induction before with
  | nil => rfl
  | leaf label data rest restIh | branch label data children rest _ restIh =>
    rw [append, labels, restIh, labels, List.cons_append]

theorem leaves_append (before after : Forest Label Leaf Branch) :
    (before.append after).leaves = before.leaves ++ after.leaves := by
  induction before with
  | nil => rfl
  | leaf label data rest restIh =>
    rw [append, leaves, restIh, leaves, List.cons_append]
  | branch label data children rest _ restIh =>
    rw [append, leaves, restIh, leaves, List.append_assoc]

theorem distinct_append {before after : Forest Label Leaf Branch}
    (beforeDistinct : before.Distinct) (afterDistinct : after.Distinct)
    (disjoint : ∀ label ∈ before.labels, label ∉ after.labels) :
    (before.append after).Distinct := by
  induction before with
  | nil => exact afterDistinct
  | leaf label data rest restIh =>
    rw [labels, List.forall_mem_cons] at disjoint
    refine ⟨?_, restIh beforeDistinct.2 disjoint.2⟩
    rw [labels_append, List.mem_append, not_or]
    exact ⟨beforeDistinct.1, disjoint.1⟩
  | branch label data children rest _ restIh =>
    rw [labels, List.forall_mem_cons] at disjoint
    refine ⟨?_, beforeDistinct.2.1, restIh beforeDistinct.2.2 disjoint.2⟩
    rw [labels_append, List.mem_append, not_or]
    exact ⟨beforeDistinct.1, disjoint.1⟩

theorem exists_leaf_first (distinct : forest.Distinct) (member : item ∈ forest.leaves) :
    ∃ other : Forest Label Leaf Branch, other.Distinct ∧ other.labels.Perm forest.labels ∧ ∃ later,
    other.leaves = item :: later ∧ (item :: later).Perm forest.leaves := by
  induction forest generalizing item with
  | nil => simp [leaves] at member
  | leaf label data rest restIh =>
    rcases List.mem_cons.mp member with rfl | inner
    · exact ⟨.leaf label data rest, distinct, .refl _, rest.leaves, rfl, .refl _⟩
    · obtain ⟨other, otherDistinct, sameLabels, later, equal, same⟩ := restIh distinct.2 inner
      refine ⟨other.append (.leaf label data .nil), ?_, ?_, later ++ [([label], data)], ?_, ?_⟩
      · refine distinct_append otherDistinct ?_ ?_
        · exact ⟨List.not_mem_nil, trivial⟩
        intro one known
        rw [labels, labels, List.mem_singleton]
        rintro rfl
        exact distinct.1 (sameLabels.mem_iff.mp known)
      · rw [labels_append]
        exact List.perm_append_comm.trans (sameLabels.cons label)
      · rw [leaves_append, equal]
        rfl
      · rw [← List.cons_append]
        exact List.perm_append_comm.trans (same.cons _)
  | branch label data children rest childIh restIh =>
    obtain ⟨fresh, below, beside⟩ := distinct
    rcases List.mem_append.mp member with inside | inner
    · obtain ⟨inward, known, rfl⟩ := List.mem_map.mp inside
      obtain ⟨other, otherDistinct, _, later, equal, same⟩ := childIh below known
      refine ⟨.branch label data other rest, ⟨fresh, otherDistinct, beside⟩, .refl _,
        later.map (fun item => (label :: item.1, item.2)) ++ rest.leaves, ?_, ?_⟩
      · rw [leaves, equal, List.map_cons, List.cons_append]
      · rw [leaves, ← List.cons_append]
        exact (same.map fun item => (label :: item.1, item.2)).append_right _
    · obtain ⟨other, otherDistinct, sameLabels, later, equal, same⟩ := restIh beside inner
      refine ⟨other.append (.branch label data children .nil), ?_, ?_,
        later ++ children.leaves.map (fun item => (label :: item.1, item.2)), ?_, ?_⟩
      · refine distinct_append otherDistinct ?_ ?_
        · exact ⟨List.not_mem_nil, below, trivial⟩
        intro one known
        rw [labels, labels, List.mem_singleton]
        rintro rfl
        exact fresh (sameLabels.mem_iff.mp known)
      · rw [labels_append]
        exact List.perm_append_comm.trans (sameLabels.cons label)
      · rw [leaves_append, equal, leaves, leaves, List.append_nil, List.cons_append]
      · rw [← List.cons_append, leaves]
        exact List.perm_append_comm.trans (same.append_left _)

end Forest

section Keys

variable {Item Key Value : Type}

def Keyed (key : Item → Key) (entries : Item → List (Key × Value)) : Prop :=
  ∀ item, ∀ entry ∈ entries item, entry.1 = key item

theorem keyed_ite (key : Item → Key) (condition : Item → Prop)
    [DecidablePred condition] (value : Item → Value) :
    Keyed key fun item =>
      if condition item then [(key item, value item)] else [] := by
  intro item entry member
  dsimp only at member
  split_ifs at member
  · rw [List.mem_singleton.mp member]
  · simp at member

theorem filter_flatMap_cons [DecidableEq Key]
    {entries : Item → List (Key × Value)} (keyed : Keyed key entries)
    {item : Item} {items : List Item} (fresh : key item ∉ items.map key) :
    ((item :: items).flatMap entries).filter (fun entry => entry.1 = key item) = entries item := by
  have mine : (entries item).filter (fun entry => entry.1 = key item) = entries item := by
    rw [List.filter_eq_self]
    intro entry member
    simpa using keyed item entry member
  have others : (items.flatMap entries).filter (fun entry => entry.1 = key item) = [] := by
    rw [List.filter_eq_nil_iff]
    intro entry member same
    obtain ⟨other, listed, found⟩ := List.mem_flatMap.mp member
    apply fresh
    rw [← of_decide_eq_true same, keyed other entry found]
    exact List.mem_map_of_mem listed
  rw [List.flatMap_cons, List.filter_append, mine, others, List.append_nil]

theorem flatMap_eq_iff_of_nodup {first second : Item → List (Key × Value)}
    (firstKeyed : Keyed key first) (secondKeyed : Keyed key second)
    {items : List Item} (distinct : (items.map key).Nodup) :
    items.flatMap first = items.flatMap second ↔ ∀ item ∈ items, first item = second item := by
  classical
  induction items with
  | nil => simp
  | cons item items ih =>
    rw [List.map_cons, List.nodup_cons] at distinct
    rw [List.forall_mem_cons, ← ih distinct.2]
    constructor
    · intro equal
      have heads : first item = second item := by
        rw [← filter_flatMap_cons firstKeyed distinct.1, equal,
          filter_flatMap_cons secondKeyed distinct.1]
      rw [List.flatMap_cons, List.flatMap_cons, heads] at equal
      exact ⟨heads, List.append_cancel_left equal⟩
    · rintro ⟨heads, tails⟩
      rw [List.flatMap_cons, List.flatMap_cons, heads, tails]

end Keys

end Wings.LabelledForest

namespace Wings.LabelledForest.Forest

variable {Label Leaf Branch : Type}

def contents : Forest Label Leaf Branch → List Leaf
  | .nil => []
  | .leaf _ data rest => data :: rest.contents
  | .branch _ _ children rest => children.contents ++ rest.contents

inductive Item (Label Leaf Branch : Type) where
  | leaf (data : Leaf)
  | branch (data : Branch) (children : Forest Label Leaf Branch)

namespace Item

def contents : Item Label Leaf Branch → List Leaf
  | .leaf data => [data]
  | .branch _ children => children.contents

def single (label : Label) : Item Label Leaf Branch → Forest Label Leaf Branch
  | .leaf data => .leaf label data .nil
  | .branch data children => .branch label data children .nil

theorem contents_single (label : Label) (item : Item Label Leaf Branch) :
    (item.single label).contents = item.contents := by
  cases item with
  | leaf data => rfl
  | branch data children =>
    rw [single, Forest.contents, Forest.contents, List.append_nil, contents]

end Item

/-- Nested branches along a way, without leaves. -/
def chain (data : Branch) : List Label → Forest Label Leaf Branch
  | [] => .nil
  | label :: below => .branch label data (chain data below) .nil

theorem contents_chain (data : Branch) (way : List Label) :
    (chain data way : Forest Label Leaf Branch).contents = [] := by
  induction way with
  | nil => rfl
  | cons label below ih =>
    rw [chain, contents, ih, contents, List.append_nil]

variable [DecidableEq Label]

/-- Take out the tree at the end of a way. -/
def take : Forest Label Leaf Branch → List Label →
    Option (Item Label Leaf Branch × Forest Label Leaf Branch)
  | _, [] => none
  | .nil, _ :: _ => none
  | .leaf label data rest, first :: below =>
    if label = first then
      if below = [] then some (.leaf data, rest) else none
    else
      (rest.take (first :: below)).map fun taken =>
        (taken.1, .leaf label data taken.2)
  | .branch label data children rest, first :: below =>
    if label = first then
      if below = [] then some (.branch data children, rest)
      else
        (children.take below).map fun taken =>
          (taken.1, .branch label data taken.2 rest)
    else
      (rest.take (first :: below)).map fun taken =>
        (taken.1, .branch label data children taken.2)

/-- Put a tree at the end of a way on which there is none. -/
def put : Forest Label Leaf Branch → List Label → Item Label Leaf Branch →
    Option (Forest Label Leaf Branch)
  | _, [], _ => none
  | .nil, label :: below, item =>
    if below = [] then some (item.single label) else none
  | .leaf label data rest, first :: below, item =>
    if label = first then none
    else (rest.put (first :: below) item).map (.leaf label data)
  | .branch label data children rest, first :: below, item =>
    if label = first then
      (children.put below item).map fun below => .branch label data below rest
    else
      (rest.put (first :: below) item).map (.branch label data children)

def makeBranches (made : Branch) : Forest Label Leaf Branch → List Label →
    Option (Forest Label Leaf Branch)
  | forest, [] => some forest
  | .nil, label :: below => some (chain made (label :: below))
  | .leaf label data rest, first :: below =>
    if label = first then none
    else (makeBranches made rest (first :: below)).map (.leaf label data)
  | .branch label data children rest, first :: below =>
    if label = first then
      (makeBranches made children below).map fun below =>
        .branch label data below rest
    else
      (makeBranches made rest (first :: below)).map (.branch label data children)

/-- Whether a leaf stands on a way before its end. -/
def passesLeaf : Forest Label Leaf Branch → List Label → Bool
  | _, [] => false
  | .nil, _ :: _ => false
  | .leaf label _ rest, first :: below =>
    if label = first then below ≠ [] else rest.passesLeaf (first :: below)
  | .branch label _ children rest, first :: below =>
    if label = first then children.passesLeaf below
    else rest.passesLeaf (first :: below)

variable {forest : Forest Label Leaf Branch}

theorem contents_take (taken : forest.take way = some (item, remaining)) :
    forest.contents.Perm (item.contents ++ remaining.contents) := by
  induction forest generalizing way item remaining with
  | nil => cases way <;> cases taken
  | leaf label data rest restIh =>
    cases way with
    | nil => cases taken
    | cons first below =>
      rw [take] at taken
      split_ifs at taken
      · cases taken
        exact .refl _
      · obtain ⟨⟨_, _⟩, later, same⟩ := Option.map_eq_some_iff.mp taken
        obtain ⟨rfl, rfl⟩ := Prod.mk.inj same
        exact ((restIh later).cons data).trans List.perm_middle.symm
  | branch label data children rest childIh restIh =>
    cases way with
    | nil => cases taken
    | cons first below =>
      rw [take] at taken
      split_ifs at taken
      · cases taken
        exact .refl _
      · obtain ⟨⟨_, _⟩, inside, same⟩ := Option.map_eq_some_iff.mp taken
        obtain ⟨rfl, rfl⟩ := Prod.mk.inj same
        rw [contents, contents, ← List.append_assoc]
        exact (childIh inside).append_right _
      · obtain ⟨⟨_, _⟩, later, same⟩ := Option.map_eq_some_iff.mp taken
        obtain ⟨rfl, rfl⟩ := Prod.mk.inj same
        rw [contents, contents]
        refine ((restIh later).append_left _).trans ?_
        rw [← List.append_assoc, ← List.append_assoc]
        exact List.perm_append_comm.append_right _

theorem contents_put (put : forest.put way item = some after) :
    after.contents.Perm (item.contents ++ forest.contents) := by
  induction forest generalizing way after with
  | nil =>
    cases way with
    | nil => cases put
    | cons first below =>
      rw [Forest.put, Option.ite_none_right_eq_some] at put
      rw [← Option.some.inj put.2, Item.contents_single, contents, List.append_nil]
  | leaf label data rest restIh =>
    cases way with
    | nil => cases put
    | cons first below =>
      rw [Forest.put, Option.ite_none_left_eq_some] at put
      obtain ⟨_, later, same⟩ := Option.map_eq_some_iff.mp put.2
      rw [← same, contents, contents]
      exact ((restIh later).cons data).trans List.perm_middle.symm
  | branch label data children rest childIh restIh =>
    cases way with
    | nil => cases put
    | cons first below =>
      rw [Forest.put] at put
      split_ifs at put
      · obtain ⟨_, inside, same⟩ := Option.map_eq_some_iff.mp put
        rw [← same, contents, contents, ← List.append_assoc]
        exact (childIh inside).append_right _
      · obtain ⟨_, later, same⟩ := Option.map_eq_some_iff.mp put
        rw [← same, contents, contents]
        refine ((restIh later).append_left _).trans ?_
        rw [← List.append_assoc, ← List.append_assoc]
        exact List.perm_append_comm.append_right _

theorem contents_makeBranches (done : makeBranches made forest way = some after) :
    after.contents = forest.contents := by
  induction forest generalizing way after with
  | nil =>
    cases way with
    | nil => rw [← Option.some.inj done]
    | cons first below =>
      rw [← Option.some.inj done, contents_chain, contents]
  | leaf label data rest restIh =>
    cases way with
    | nil => rw [← Option.some.inj done]
    | cons first below =>
      rw [makeBranches, Option.ite_none_left_eq_some] at done
      obtain ⟨_, later, same⟩ := Option.map_eq_some_iff.mp done.2
      rw [← same, contents, contents, restIh later]
  | branch label data children rest childIh restIh =>
    cases way with
    | nil => rw [← Option.some.inj done]
    | cons first below =>
      rw [makeBranches] at done
      split_ifs at done
      · obtain ⟨_, inside, same⟩ := Option.map_eq_some_iff.mp done
        rw [← same, contents, contents, childIh inside]
      · obtain ⟨_, later, same⟩ := Option.map_eq_some_iff.mp done
        rw [← same, contents, contents, restIh later]

end Wings.LabelledForest.Forest
