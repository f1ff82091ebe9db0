import Mathlib.Order.Basic

/-!
# Labelled transition systems

A label names the party that moves and the outcome of its move, so that a reachable state is the
state after an arbitrary finite interleaving. `Guarded` restricts a system to the steps that meet a
condition on the state before the step. A move of a process reads and changes the shared state and
its own. Steps that are not prompt stand for what the environment may do.
-/

namespace Wings.Transition

universe u v

variable {State : Type u} {Label : Type v}

inductive Reachable (initial : State → Prop) (step : State → Label → State → Prop) : State → Prop
  | start {state : State} : initial state → Reachable initial step state
  | next {state after : State} :
      Reachable initial step state → (label : Label) →
      step state label after → Reachable initial step after

/-- The steps of a system whose label meets a condition in the source state. -/
def Guarded (guard : State → Label → Prop)
    (step : State → Label → State → Prop) : State → Label → State → Prop :=
  fun state label after => guard state label ∧ step state label after

namespace Reachable

/-- A predicate that holds initially and is kept by every step holds in every reachable state. -/
theorem invariant {holds : State → Prop} (base : ∀ state, initial state → holds state)
    (preserved : ∀ state label after, holds state → step state label after → holds after)
    {state : State} (reached : Reachable initial step state) : holds state := by
  induction reached with
  | start isInitial => exact base _ isInitial
  | next _ label taken ih =>
    exact preserved _ _ _ ih taken

theorem mono (included : ∀ state label after,
    step state label after → larger state label after) (reached :
    Reachable initial step state) : Reachable initial larger state := by
  induction reached with
  | start isInitial => exact .start isInitial
  | next _ label taken ih =>
    exact .next ih label (included _ _ _ taken)

theorem of_guarded {guard : State → Label → Prop} {state : State}
    (reached : Reachable initial (Guarded guard step) state) : Reachable initial step state :=
  reached.mono fun _ _ _ taken => taken.2

end Reachable

def execute (step : State → Label → Option State) : State → List Label → Option State
  | state, [] => some state
  | state, label :: rest =>
    match step state label with
    | none => none
    | some after => execute step after rest

theorem Reachable.executeGuarded {initial : State → Prop}
    {step : State → Label → Option State} {guard : State → Label → Prop} {state after : State}
    (reached : Reachable initial (Guarded guard fun source label target =>
    step source label = some target) state) (labels : List Label)
    (unconditional : ∀ label ∈ labels, ∀ source, guard source label)
    (executed : Transition.execute step state labels = some after) : Reachable initial
    (Guarded guard fun source label target => step source label = some target) after := by
  induction labels generalizing state with
  | nil =>
    cases executed
    exact reached
  | cons label rest ih =>
    rw [List.forall_mem_cons] at unconditional
    cases taken : step state label with
    | none => simp [Transition.execute, taken] at executed
    | some target =>
      simp only [Transition.execute, taken] at executed
      exact ih (reached.next label ⟨unconditional.1 state, taken⟩) unconditional.2 executed

theorem Reachable.execute (reached : Reachable initial
    (fun source label target => step source label = some target) state) (labels : List Label)
    (executed : execute step state labels = some after) : Reachable initial
    (fun source label target => step source label = some target) after :=
  ((reached.mono fun _ _ _ taken => ⟨trivial, taken⟩).executeGuarded labels
    (fun _ _ _ => trivial) executed).of_guarded

end Wings.Transition

namespace Wings.Processes

open Transition

variable {Shared Own Action : Type}

structure Config (Shared Own : Type) where
  shared : Shared
  own : Nat → Own

namespace Config

def step (move : Nat → Action → Shared → Own → Option (Shared × Own)) (config : Config Shared Own)
    (label : Nat × Action) : Option (Config Shared Own) :=
  (move label.1 label.2 config.shared (config.own label.1)).map
    fun moved => ⟨moved.1, Function.update config.own label.1 moved.2⟩

def Steps (move : Nat → Action → Shared → Own → Option (Shared × Own))
    (config : Config Shared Own) (label : Nat × Action) (after : Config Shared Own) : Prop :=
  config.step move label = some after

/-- Every process has a property together with the shared state. -/
def Each (holds : Nat → Shared → Own → Prop) (config : Config Shared Own) : Prop :=
  ∀ process, holds process config.shared (config.own process)

variable {config after : Config Shared Own}

theorem steps_iff : config.Steps move label after ↔ ∃ shared own,
    move label.1 label.2 config.shared (config.own label.1) = some (shared, own) ∧
    after = ⟨shared, Function.update config.own label.1 own⟩ := by
  simp only [Steps, step, Option.map_eq_some_iff, Prod.exists, eq_comm (b := after)]

theorem Each.step (each : config.Each holds) (taken : config.Steps move label after)
    (mover : ∀ shared own, move label.1 label.2 config.shared (config.own label.1) =
    some (shared, own) → holds label.1 shared own) (others : ∀ shared own,
    move label.1 label.2 config.shared (config.own label.1) = some (shared, own) →
    ∀ process, process ≠ label.1 → holds process config.shared (config.own process) →
    holds process shared (config.own process)) : after.Each holds := by
  obtain ⟨shared, own, moved, rfl⟩ := steps_iff.mp taken
  intro process
  dsimp only
  by_cases same : process = label.1
  · subst same
    rw [Function.update_self]
    exact mover shared own moved
  · rw [Function.update_of_ne same]
    exact others shared own moved process same (each process)

theorem unique_step {place : Own → Bool} (unique : ∀ first second, place (config.own first) = true →
    place (config.own second) = true → first = second) (taken : config.Steps move label after)
    (mover : ∀ shared own, move label.1 label.2 config.shared (config.own label.1) =
    some (shared, own) → place own = true → place (config.own label.1) = true ∨
    ∀ process, place (config.own process) = false) :
    ∀ first second, place (after.own first) = true →
    place (after.own second) = true → first = second := by
  obtain ⟨shared, own, moved, rfl⟩ := steps_iff.mp taken
  have before : ∀ process,
      place (Function.update config.own label.1 own process) = true →
      process = label.1 ∧ place own = true ∨ place (config.own process) = true := by
    intro process there
    by_cases same : process = label.1
    · subst same
      rw [Function.update_self] at there
      exact .inl ⟨rfl, there⟩
    · rw [Function.update_of_ne same] at there
      exact .inr there
  have joins : ∀ process, place own = true →
      place (config.own process) = true → label.1 = process := by
    intro process comes there
    rcases mover shared own moved comes with here | nobody
    · exact unique _ _ here there
    · rw [nobody process] at there
      cases there
  intro first second one other
  rcases before first one with ⟨rfl, comes⟩ | one
  · rcases before second other with ⟨rfl, _⟩ | other
    · rfl
    · exact joins second comes other
  · rcases before second other with ⟨rfl, comes⟩ | other
    · exact (joins first comes one).symm
    · exact unique _ _ one other

end Config

end Wings.Processes

namespace Wings.Transition

universe u v

variable {State : Type u} {Label : Type v}

/-- Every run reaches the goal, without waiting for the environment. -/
inductive Inevitable (step : State → Label → State → Prop)
    (prompt : Label → Prop) (goal : State → Prop) : State → Prop
  | reached {state : State} : goal state → Inevitable step prompt goal state
  | next {state : State} :
      (∃ label after, prompt label ∧ step state label after) →
      (∀ label after, step state label after →
        Inevitable step prompt goal after) → Inevitable step prompt goal state

namespace Inevitable

/-- When every step keeps an invariant and decreases a measure, and a prompt step is possible until
the goal, the goal is inevitable. -/
theorem of_measure {holds : State → Prop} (measure : State → Nat) (preserved : ∀ state label after,
    holds state → step state label after → holds after) (decreases : ∀ state label after,
    step state label after → measure after < measure state) (progress : ∀ state, holds state →
    goal state ∨ ∃ label after, prompt label ∧ step state label after) {state : State}
    (initially : holds state) : Inevitable step prompt goal state := by
  generalize bound : measure state = count
  induction count using Nat.strongRecOn generalizing state with
  | _ count ih =>
    subst bound
    rcases progress state initially with isGoal | possible
    · exact .reached isGoal
    · refine .next possible ?_
      intro label after taken
      exact ih _ (decreases _ _ _ taken) (preserved _ _ _ initially taken) rfl

theorem after (inevitable : Inevitable step prompt goal state) (before : ¬goal state)
    (label : Label) (taken : step state label target) : Inevitable step prompt goal target := by
  cases inevitable with
  | reached isGoal => exact absurd isGoal before
  | next _ all => exact all label target taken

theorem not_of_stuck (before : ¬goal state)
    (stuck : ∀ label after, step state label after → ¬prompt label) :
    ¬Inevitable step prompt goal state := by
  intro inevitable
  cases inevitable with
  | reached isGoal => exact before isGoal
  | next possible _ =>
    obtain ⟨label, after, isPrompt, taken⟩ := possible
    exact stuck label after taken isPrompt

end Inevitable

end Wings.Transition
