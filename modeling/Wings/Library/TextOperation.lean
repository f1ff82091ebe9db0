import Mathlib.Data.List.Basic

/-!
# Operations on texts

An operation retains, deletes or inserts symbols. Two concurrent operations are transformed into
operations that lead to a common text. `Operations` is the interface of a library with its laws, and
`Act` gives one that satisfies them.
-/

namespace Wings.TextOperation

variable {Symbol : Type}

inductive Component (Symbol : Type) where
  | retain (n : Nat)
  | delete (n : Nat)
  | insert (text : List Symbol)

/-- Walk over a text with a list of components, which must cover it. -/
def applyComponents : List (Component Symbol) → List Symbol → Option (List Symbol)
  | [], [] => some []
  | [], _ :: _ => none
  | .retain n :: rest, text =>
    if n ≤ text.length then
      (applyComponents rest (text.drop n)).map (text.take n ++ ·)
    else none
  | .delete n :: rest, text =>
    if n ≤ text.length then applyComponents rest (text.drop n) else none
  | .insert inserted :: rest, text =>
    (applyComponents rest text).map (inserted ++ ·)

structure Operations (Symbol Seq : Type) where
  /-- The operation that results from calls for the given components. -/
  build : List (Component Symbol) → Seq
  /-- The components of an operation. -/
  ops : Seq → List (Component Symbol)
  /-- Length of the texts an operation applies to. -/
  baseLen : Seq → Nat
  apply : Seq → List Symbol → Option (List Symbol)
  invert : Seq → List Symbol → Seq
  transform : Seq → Seq → Option (Seq × Seq)
  apply_build : ∀ components text, apply (build components) text = applyComponents components text
  apply_ops : ∀ seq text, apply seq text = applyComponents (ops seq) text
  length_of_apply : ∀ seq text after, apply seq text = some after → text.length = baseLen seq
  apply_invert : ∀ seq text after,
    apply seq text = some after → apply (invert seq text) after = some text
  /-- Transformed operations meet. -/
  transform_meets : ∀ left right left' right' text afterLeft afterRight,
    transform left right = some (left', right') →
      apply left text = some afterLeft → apply right text = some afterRight →
        ∃ meeting, apply left' afterRight = some meeting ∧ apply right' afterLeft = some meeting

inductive Act (Symbol : Type) where
  | keep
  | drop
  | put (symbol : Symbol)
  deriving DecidableEq

namespace Act

def apply : List (Act Symbol) → List Symbol → Option (List Symbol)
  | [], [] => some []
  | .keep :: acts, symbol :: text => (apply acts text).map (symbol :: ·)
  | .drop :: acts, _ :: text => apply acts text
  | .put symbol :: acts, text => (apply acts text).map (symbol :: ·)
  | _, _ => none

def invert : List (Act Symbol) → List Symbol → List (Act Symbol)
  | .keep :: acts, _ :: text => .keep :: invert acts text
  | .drop :: acts, symbol :: text => .put symbol :: invert acts text
  | .put _ :: acts, text => .drop :: invert acts text
  | _, _ => []

def passInsertions (next : List (Act Symbol) → Option (List (Act Symbol) × List (Act Symbol))) :
    List (Act Symbol) → Option (List (Act Symbol) × List (Act Symbol))
  | .put symbol :: right =>
    (passInsertions next right).map fun (left, right) =>
      (.keep :: left, .put symbol :: right)
  | right => next right

/-- Insertions of the first operation go before those of the second. -/
def transform :
    List (Act Symbol) → List (Act Symbol) → Option (List (Act Symbol) × List (Act Symbol))
  | [] => passInsertions fun
      | [] => some ([], [])
      | _ => none
  | .put symbol :: left => fun right =>
    (transform left right).map fun (left, right) =>
      (.put symbol :: left, .keep :: right)
  | .keep :: left => passInsertions fun
      | .keep :: right =>
        (transform left right).map fun (left, right) =>
          (.keep :: left, .keep :: right)
      | .drop :: right =>
        (transform left right).map fun (left, right) =>
          (left, .drop :: right)
      | _ => none
  | .drop :: left => passInsertions fun
      | .keep :: right =>
        (transform left right).map fun (left, right) =>
          (.drop :: left, right)
      | .drop :: right => transform left right
      | _ => none

def ofComponent : Component Symbol → List (Act Symbol)
  | .retain n => List.replicate n .keep
  | .delete n => List.replicate n .drop
  | .insert text => text.map .put

def toComponent : Act Symbol → Component Symbol
  | .keep => .retain 1
  | .drop => .delete 1
  | .put symbol => .insert [symbol]

/-- Number of symbols the steps walk over. -/
def baseLen : List (Act Symbol) → Nat
  | [] => 0
  | .put _ :: acts => baseLen acts
  | _ :: acts => baseLen acts + 1

theorem apply_nil_eq_some : apply [] text = some after ↔ text = [] ∧ after = [] := by
  cases text <;> simp [apply, eq_comm]

theorem apply_keep_eq_some :
    apply (.keep :: acts) text = some after ↔ ∃ symbol rest done, text = symbol :: rest ∧
    apply acts rest = some done ∧ after = symbol :: done := by
  cases text <;> simp [apply, @eq_comm _ after]

theorem apply_drop_eq_some : apply (.drop :: acts) text = some after ↔
    ∃ symbol rest, text = symbol :: rest ∧ apply acts rest = some after := by
  cases text <;> simp [apply]

theorem apply_put_eq_some : apply (.put symbol :: acts) text = some after ↔
    ∃ done, apply acts text = some done ∧ after = symbol :: done := by
  simp [apply, @eq_comm _ after]

theorem apply_replicate_keep (n : Nat) (acts : List (Act Symbol)) (text : List Symbol) :
    apply (List.replicate n .keep ++ acts) text = if n ≤ text.length then
        (apply acts (text.drop n)).map (text.take n ++ ·)
      else none := by
  induction n generalizing text with
  | zero => simp
  | succ n ih =>
    cases text with
    | nil => simp [List.replicate_succ, apply]
    | cons symbol text =>
      simp only [List.replicate_succ, List.cons_append, apply,
        ih, List.length_cons, Nat.add_le_add_iff_right]
      split_ifs <;> simp [Function.comp_def]

theorem apply_replicate_drop (n : Nat) (acts : List (Act Symbol)) (text : List Symbol) :
    apply (List.replicate n .drop ++ acts) text =
      if n ≤ text.length then apply acts (text.drop n) else none := by
  induction n generalizing text with
  | zero => simp
  | succ n ih =>
    cases text with
    | nil => simp [List.replicate_succ, apply]
    | cons symbol text =>
      simp only [List.replicate_succ, List.cons_append, apply,
        ih, List.length_cons, Nat.add_le_add_iff_right, List.drop_succ_cons]

theorem apply_map_put (inserted : List Symbol) (acts : List (Act Symbol)) (text : List Symbol) :
    apply (inserted.map .put ++ acts) text = (apply acts text).map (inserted ++ ·) := by
  induction inserted with
  | nil => simp
  | cons symbol inserted ih =>
    simp [apply, ih, Function.comp_def]

theorem apply_build (components : List (Component Symbol)) (text : List Symbol) :
    apply (components.flatMap ofComponent) text = applyComponents components text := by
  induction components generalizing text with
  | nil => cases text <;> rfl
  | cons component rest ih =>
    rw [List.flatMap_cons]
    cases component with
    | retain n =>
      simp only [ofComponent, apply_replicate_keep, ih, applyComponents]
    | delete n =>
      simp only [ofComponent, apply_replicate_drop, ih, applyComponents]
    | insert inserted =>
      simp only [ofComponent, apply_map_put, ih, applyComponents]

theorem apply_ops (acts : List (Act Symbol)) (text : List Symbol) :
    apply acts text = applyComponents (acts.map toComponent) text := by
  have same : (acts.map toComponent).flatMap ofComponent = acts := by
    induction acts with
    | nil => rfl
    | cons act acts ih =>
      cases act <;> simp [toComponent, ofComponent, ih]
  rw [← apply_build, same]

theorem length_of_apply (applied : apply acts text = some after) : text.length = baseLen acts := by
  induction acts generalizing text after with
  | nil =>
    obtain ⟨rfl, rfl⟩ := apply_nil_eq_some.1 applied
    rfl
  | cons act acts ih =>
    cases act with
    | put symbol =>
      obtain ⟨done, walked, rfl⟩ := apply_put_eq_some.1 applied
      exact ih walked
    | keep =>
      obtain ⟨symbol, rest, done, rfl, walked, rfl⟩ := apply_keep_eq_some.1 applied
      rw [List.length_cons, ih walked, baseLen]
      simp
    | drop =>
      obtain ⟨symbol, rest, rfl, walked⟩ := apply_drop_eq_some.1 applied
      rw [List.length_cons, ih walked, baseLen]
      simp

theorem apply_invert (applied : apply acts text = some after) :
    apply (invert acts text) after = some text := by
  induction acts generalizing text after with
  | nil =>
    obtain ⟨rfl, rfl⟩ := apply_nil_eq_some.1 applied
    rfl
  | cons act acts ih =>
    cases act with
    | put symbol =>
      obtain ⟨done, walked, rfl⟩ := apply_put_eq_some.1 applied
      exact apply_drop_eq_some.2 ⟨symbol, done, rfl, ih walked⟩
    | keep =>
      obtain ⟨symbol, rest, done, rfl, walked, rfl⟩ := apply_keep_eq_some.1 applied
      exact apply_keep_eq_some.2 ⟨symbol, done, rest, rfl, ih walked, rfl⟩
    | drop =>
      obtain ⟨symbol, rest, rfl, walked⟩ := apply_drop_eq_some.1 applied
      exact apply_put_eq_some.2 ⟨rest, ih walked, rfl⟩

/-- The transformed operations lead to a common text. -/
def Meets (left right left' right' : List (Act Symbol)) : Prop := ∀ text afterLeft afterRight,
    apply left text = some afterLeft → apply right text = some afterRight →
      ∃ meeting, apply left' afterRight = some meeting ∧ apply right' afterLeft = some meeting

section Meets

theorem meets_nil : Meets ([] : List (Act Symbol)) [] [] [] := by
  intro text afterLeft afterRight appliedLeft appliedRight
  obtain ⟨_, rfl⟩ := apply_nil_eq_some.1 appliedLeft
  obtain ⟨_, rfl⟩ := apply_nil_eq_some.1 appliedRight
  exact ⟨[], rfl, rfl⟩

theorem Meets.put_left (meets : Meets left right left' right') (symbol : Symbol) :
    Meets (.put symbol :: left) right (.put symbol :: left') (.keep :: right') := by
  intro text afterLeft afterRight appliedLeft appliedRight
  obtain ⟨done, walkedLeft, rfl⟩ := apply_put_eq_some.1 appliedLeft
  obtain ⟨meeting, metLeft, metRight⟩ := meets _ _ _ walkedLeft appliedRight
  exact ⟨symbol :: meeting, apply_put_eq_some.2 ⟨_, metLeft, rfl⟩,
    apply_keep_eq_some.2 ⟨_, _, _, rfl, metRight, rfl⟩⟩

theorem Meets.put_right (meets : Meets left right left' right') (symbol : Symbol) :
    Meets left (.put symbol :: right) (.keep :: left') (.put symbol :: right') := by
  intro text afterLeft afterRight appliedLeft appliedRight
  obtain ⟨done, walkedRight, rfl⟩ := apply_put_eq_some.1 appliedRight
  obtain ⟨meeting, metLeft, metRight⟩ := meets _ _ _ appliedLeft walkedRight
  exact ⟨symbol :: meeting, apply_keep_eq_some.2 ⟨_, _, _, rfl, metLeft, rfl⟩,
    apply_put_eq_some.2 ⟨_, metRight, rfl⟩⟩

theorem Meets.keep_keep (meets : Meets left right left' right') :
    Meets (.keep :: left) (.keep :: right) (.keep :: left') (.keep :: right') := by
  intro text afterLeft afterRight appliedLeft appliedRight
  obtain ⟨symbol, rest, doneLeft, rfl, walkedLeft, rfl⟩ := apply_keep_eq_some.1 appliedLeft
  obtain ⟨_, _, doneRight, ⟨⟩, walkedRight, rfl⟩ := apply_keep_eq_some.1 appliedRight
  obtain ⟨meeting, metLeft, metRight⟩ := meets _ _ _ walkedLeft walkedRight
  exact ⟨symbol :: meeting, apply_keep_eq_some.2 ⟨_, _, _, rfl, metLeft, rfl⟩,
    apply_keep_eq_some.2 ⟨_, _, _, rfl, metRight, rfl⟩⟩

theorem Meets.keep_drop (meets : Meets left right left' right') :
    Meets (.keep :: left) (.drop :: right) left' (.drop :: right') := by
  intro text afterLeft afterRight appliedLeft appliedRight
  obtain ⟨symbol, rest, doneLeft, rfl, walkedLeft, rfl⟩ := apply_keep_eq_some.1 appliedLeft
  obtain ⟨_, _, ⟨⟩, walkedRight⟩ := apply_drop_eq_some.1 appliedRight
  obtain ⟨meeting, metLeft, metRight⟩ := meets _ _ _ walkedLeft walkedRight
  exact ⟨meeting, metLeft, apply_drop_eq_some.2 ⟨_, _, rfl, metRight⟩⟩

theorem Meets.drop_keep (meets : Meets left right left' right') :
    Meets (.drop :: left) (.keep :: right) (.drop :: left') right' := by
  intro text afterLeft afterRight appliedLeft appliedRight
  obtain ⟨symbol, rest, doneRight, rfl, walkedRight, rfl⟩ := apply_keep_eq_some.1 appliedRight
  obtain ⟨_, _, ⟨⟩, walkedLeft⟩ := apply_drop_eq_some.1 appliedLeft
  obtain ⟨meeting, metLeft, metRight⟩ := meets _ _ _ walkedLeft walkedRight
  exact ⟨meeting, apply_drop_eq_some.2 ⟨_, _, rfl, metLeft⟩, metRight⟩

theorem Meets.drop_drop (meets : Meets left right left' right') :
    Meets (.drop :: left) (.drop :: right) left' right' := by
  intro text afterLeft afterRight appliedLeft appliedRight
  obtain ⟨symbol, rest, rfl, walkedLeft⟩ := apply_drop_eq_some.1 appliedLeft
  obtain ⟨_, _, ⟨⟩, walkedRight⟩ := apply_drop_eq_some.1 appliedRight
  exact meets _ _ _ walkedLeft walkedRight

theorem passInsertions_meets (nextMeets : ∀ right left' right',
    next right = some (left', right') → Meets left right left' right')
    (passed : passInsertions next right = some (left', right')) :
    Meets left right left' right' := by
  fun_induction passInsertions next right generalizing left' right' with
  | case1 symbol right ih =>
    simp only [Option.map_eq_some_iff, Prod.mk.injEq] at passed
    obtain ⟨⟨left', right'⟩, passed, rfl, rfl⟩ := passed
    exact (ih passed).put_right symbol
  | case2 right noInsertion => exact nextMeets right left' right' passed

end Meets

theorem transform_meets (transformed : transform left right = some (left', right')) :
    Meets left right left' right' := by
  induction left generalizing right left' right' with
  | nil =>
    refine passInsertions_meets ?_ transformed
    intro right left' right' ended
    split at ended
    · cases ended
      exact meets_nil
    · simp at ended
  | cons act left ih =>
    cases act with
    | put symbol =>
      simp only [transform, Option.map_eq_some_iff, Prod.mk.injEq] at transformed
      obtain ⟨⟨left', right'⟩, transformed, rfl, rfl⟩ := transformed
      exact (ih transformed).put_left symbol
    | keep =>
      refine passInsertions_meets ?_ transformed
      intro right left' right' moved
      split at moved
      · simp only [Option.map_eq_some_iff, Prod.mk.injEq] at moved
        obtain ⟨⟨left', right'⟩, moved, rfl, rfl⟩ := moved
        exact (ih moved).keep_keep
      · simp only [Option.map_eq_some_iff, Prod.mk.injEq] at moved
        obtain ⟨⟨left', right'⟩, moved, rfl, rfl⟩ := moved
        exact (ih moved).keep_drop
      · simp at moved
    | drop =>
      refine passInsertions_meets ?_ transformed
      intro right left' right' moved
      split at moved
      · simp only [Option.map_eq_some_iff, Prod.mk.injEq] at moved
        obtain ⟨⟨left', right'⟩, moved, rfl, rfl⟩ := moved
        exact (ih moved).drop_keep
      · exact (ih moved).drop_drop
      · simp at moved

def operations (Symbol : Type) : Operations Symbol (List (Act Symbol)) where
  build components := components.flatMap ofComponent
  ops acts := acts.map toComponent
  baseLen := baseLen
  apply := apply
  invert := invert
  transform := transform
  apply_build := apply_build
  apply_ops := apply_ops
  length_of_apply _ _ _ applied := length_of_apply applied
  apply_invert _ _ _ applied := apply_invert applied
  transform_meets _ _ _ _ _ _ _ transformed appliedLeft appliedRight :=
    transform_meets transformed _ _ _ appliedLeft appliedRight

end Act

end Wings.TextOperation
