import Wings.Library.Fallible

/-!
# Packet filters

The first rule of a chain whose conditions all hold decides, unless it jumps to a chain that
returns; a goto does not come back. What is decided so far is an optional outcome, so that compiled
chains are assembled with `Option.or`.
-/

namespace Wings.PacketFilter

universe u v

/-- How the evaluation of a chain ends. -/
inductive Outcome where
  | returned
  | dropped
  | looping
  deriving DecidableEq

inductive Verdict where
  | accept
  | drop
  deriving DecidableEq

/-- The verdict of a base chain that accepts what it does not decide. -/
def Outcome.verdict : Outcome → Option Verdict
  | .returned => some .accept
  | .dropped => some .drop
  | .looping => none

def Verdict.outcome : Verdict → Outcome
  | .accept => .returned
  | .drop => .dropped

/-- What a rule does with a packet that meets its conditions. -/
inductive Statement (Chain : Type u) where
  | returns
  | drop
  | jump (target : Chain)
  | goto (target : Chain)
  deriving DecidableEq

/-- Conditions, and what happens when all of them hold. -/
structure FilterRule (Chain : Type u) (Condition : Type v) where
  conditions : List Condition
  statement : Statement Chain
  deriving DecidableEq

variable {Chain : Type u} {Condition : Type v}

def Statement.outcome (enter : Chain → Outcome) : Statement Chain → Option Outcome
  | .returns => some .returned
  | .drop => some .dropped
  | .goto target => some (enter target)
  | .jump target =>
    match enter target with
    | .returned => none
    | outcome => some outcome

section Evaluation

variable (holds : Condition → Bool)

def FilterRule.outcome (enter : Chain → Outcome)
    (rule : FilterRule Chain Condition) : Option Outcome :=
  if rule.conditions.all holds then rule.statement.outcome enter else none

/-- What the first matching rule decides. -/
def decision (enter : Chain → Outcome)
    (rules : List (FilterRule Chain Condition)) : Option Outcome :=
  rules.findSome? (FilterRule.outcome holds enter)

/-- The outcome of a chain, following at most `fuel` chains in a row. -/
def run (rulesOf : Chain → List (FilterRule Chain Condition)) : Nat → Chain → Outcome
  | 0, _ => .looping
  | fuel + 1, chain =>
    (decision holds (run rulesOf fuel) (rulesOf chain)).getD .returned

end Evaluation

@[simp] theorem Verdict.verdict_outcome (verdict : Verdict) :
    verdict.outcome.verdict = some verdict := by
  cases verdict <;> rfl

@[simp] theorem decision_append (rules more : List (FilterRule Chain Condition)) :
    decision holds enter (rules ++ more) =
      (decision holds enter rules).or (decision holds enter more) := List.findSome?_append

@[simp] theorem decision_nil :
    decision holds enter ([] : List (FilterRule Chain Condition)) = none :=
  rfl

@[simp] theorem decision_singleton (rule : FilterRule Chain Condition) :
    decision holds enter [rule] = rule.outcome holds enter := by
  simp [decision]

theorem findSome?_cons_or (contribution : Item → Option Result) (item : Item) (rest : List Item) :
    (item :: rest).findSome? contribution =
    (contribution item).or (rest.findSome? contribution) := by
  rw [List.findSome?_cons]
  cases contribution item <;> rfl

theorem findSome?_flatMap_of_unique {Item Element : Type u} {Result : Type v}
    [DecidableEq Item] {block : Item → List Element}
    {contribution : Element → Option Result} {chosen : Item} {result : Option Result}
    (unique : ∀ item, (block item).findSome? contribution = if item = chosen then result else none)
    (items : List Item) :
    (items.flatMap block).findSome? contribution =
      if chosen ∈ items then result else none := by
  induction items with
  | nil => simp
  | cons item rest ih =>
    rw [List.flatMap_cons, List.findSome?_append, ih, unique]
    by_cases here : item = chosen
    · by_cases later : chosen ∈ rest <;> simp [here, later]
    · simp [here, List.mem_cons, Ne.symm here]

/-- A loop decides with the first iteration that contributes. -/
theorem foldlM_or {Source Item Failure Result : Type}
    (view : Source → Option Result) {contribution : Item → Option Result}
    {step : Source → Item → Except Failure Source} (items : List Item)
    (each : ∀ item ∈ items, ∀ state after, step state item = .ok after →
    view after = (view state).or (contribution item)) {state after : Source}
    (finished : items.foldlM step state = .ok after) :
    view after = (view state).or (items.findSome? contribution) := by
  induction items generalizing state with
  | nil =>
    cases finished
    simp
  | cons item rest ih =>
    rw [List.forall_mem_cons] at each
    obtain ⟨middle, stepped, finished⟩ := FallibleProgram.bind_eq_ok_iff.1 finished
    rw [ih each.2 finished, each.1 _ _ stepped, Option.or_assoc, findSome?_cons_or]

end Wings.PacketFilter
