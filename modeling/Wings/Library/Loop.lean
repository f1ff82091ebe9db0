import Mathlib.Order.Basic

/-!
# Loops with a decreasing measure

A loop repeats a body up to a bound. When a measure decreases with every round that goes on, the
bound is never what ends it.
-/

namespace Wings.Loop

variable {State : Type} (body : State → State × Bool)

/-- Repeat the body until it asks to stop, at most `bound` times. -/
def loop : Nat → State → State
  | 0, state => state
  | bound + 1, state =>
    let (after, goOn) := body state
    if goOn then loop bound after else after

variable {body}

theorem loop_of_stop (stops : body state = (after, false))
    (bound : Nat) : loop body (bound + 1) state = after := by
  simp [loop, stops]

variable {holds : State → Prop}

theorem loop_preserves (preserved : ∀ state, holds state → holds (body state).1)
    (bound : Nat) (initially : holds state) : holds (loop body bound state) := by
  induction bound generalizing state with
  | zero => exact initially
  | succ bound ih =>
    have after := preserved state initially
    simp only [loop]
    split_ifs with goOn
    · exact ih after
    · exact after

theorem loop_establishes {done : State → Prop} (measure : State → Nat)
    (decreases : ∀ state, (body state).2 = true → measure (body state).1 < measure state)
    (preserved : ∀ state, holds state → holds (body state).1)
    (established : ∀ state, holds state → (body state).2 = false → done (body state).1)
    (enough : measure state < bound) (initially : holds state) : done (loop body bound state) := by
  induction bound generalizing state with
  | zero => omega
  | succ bound ih =>
    cases goOn : (body state).2 with
    | false =>
      simpa [loop, goOn] using established state initially goOn
    | true =>
      have less : measure (body state).1 < bound := by
        have decreased := decreases state goOn
        omega
      simpa [loop, goOn] using ih less (preserved state initially)

theorem loop_exits (measure : State → Nat)
    (decreases : ∀ state, (body state).2 = true → measure (body state).1 < measure state)
    (enough : measure state < bound) :
    ∃ last, (body last).2 = false ∧ loop body bound state = (body last).1 :=
  @loop_establishes State body (fun _ => True) state bound
    (fun after => ∃ last, (body last).2 = false ∧ after = (body last).1) measure decreases
    (fun _ => id) (fun last _ stops => ⟨last, stops, rfl⟩) enough trivial

end Wings.Loop
