import Mathlib.Data.List.Forall2

/-!
# Calls and programs that change a state and may fail

`Settles` says under which condition a call succeeds, exactly, and what then holds of the state. A
program of `ExceptT Error (StateM State)` keeps the changes it has made when it fails.
-/

namespace Wings.FallibleCall

variable {Error Item State : Type}

abbrev Outcome (Error State : Type) := Option Error × State

def proceed (rest : State → Outcome Error State) : Outcome Error State → Outcome Error State
  | (none, state) => rest state
  | (some error, state) => (some error, state)

def wrapError (wrap : Error → Error) (outcome : Outcome Error State) : Outcome Error State :=
  (outcome.1.map wrap, outcome.2)

def runAll (call : Item → State → Outcome Error State) : List Item → State → Outcome Error State
  | [], state => (none, state)
  | item :: rest, state => proceed (runAll call rest) (call item state)

/-- A call succeeds exactly under a condition, and then establishes a predicate. -/
structure Settles (outcome : Outcome Error State) (condition : Prop)
    (post : State → Prop) : Prop where
  succeeds_iff : outcome.1 = none ↔ condition
  established : outcome.1 = none → post outcome.2

namespace Settles

variable {outcome : Outcome Error State}

theorem success (holds : condition) (established : post state) :
    Settles ((none, state) : Outcome Error State) condition post :=
  ⟨by simp [holds], fun _ => established⟩

theorem failure (refuted : ¬condition) : Settles (some error, state) condition post :=
    ⟨by simp [refuted], by simp⟩

theorem congr (settles : Settles outcome condition post)
    (same : condition ↔ other) : Settles outcome other post :=
  ⟨settles.succeeds_iff.trans same, settles.established⟩

theorem imp (settles : Settles outcome condition post)
    (implies : ∀ state, post state → weaker state) : Settles outcome condition weaker :=
  ⟨settles.succeeds_iff, fun succeeded => implies _ (settles.established succeeded)⟩

theorem wrapped (settles : Settles outcome condition post) (wrap : Error → Error) :
    Settles (wrapError wrap outcome) condition post := by
  constructor
  · rw [← settles.succeeds_iff]
    exact Option.map_eq_none_iff
  · intro succeeded
    exact settles.established (Option.map_eq_none_iff.mp succeeded)

theorem proceed (settles : Settles outcome condition post)
    (next : ∀ state, post state → Settles (rest state) following final) :
    Settles (proceed rest outcome) (condition ∧ following) final := by
  rcases outcome with ⟨_ | error, state⟩
  · have holds := settles.succeeds_iff.mp rfl
    have after := next state (settles.established rfl)
    exact after.congr (by simp [holds])
  · apply failure
    rintro ⟨holds, _⟩
    exact absurd (settles.succeeds_iff.mpr holds) (by simp)

theorem update {change : State → State} (settles : Settles outcome condition post)
    (kept : ∀ state, post state → final (change state)) :
    Settles (FallibleCall.proceed (fun state => (none, change state)) outcome) condition final := by
  have both := settles.proceed fun state holds =>
    (success trivial (kept state holds) :
      Settles ((none, change state) : Outcome Error State) True final)
  exact both.congr (by simp)

end Settles

theorem runAll_singleton (call : Item → State → Outcome Error State) (item : Item) (state : State) :
    runAll call [item] state = call item state := by
  rw [runAll]
  rcases call item state with ⟨_ | error, after⟩ <;> rfl

theorem runAll_append (call : Item → State → Outcome Error State)
    (first second : List Item) (state : State) : runAll call (first ++ second) state =
    proceed (runAll call second) (runAll call first state) := by
  induction first generalizing state with
  | nil => rfl
  | cons item rest ih =>
    rw [List.cons_append, runAll, runAll]
    rcases call item state with ⟨_ | error, after⟩
    · exact ih after
    · rfl

variable {call : Item → State → Outcome Error State}

theorem runAll_ne (never : ∀ item state, (call item state).1 ≠ some error) (items : List Item)
    (state : State) : (runAll call items state).1 ≠ some error := by
  induction items generalizing state with
  | nil => simp [runAll]
  | cons item rest ih =>
    rw [runAll]
    have first := never item state
    rcases called : call item state with ⟨_ | other, after⟩
    · exact ih after
    · rwa [called] at first

theorem runAll_settles (condition : List Item → Prop) (invariant : List Item → State → Prop)
    (implied : ∀ done state, invariant done state → condition done)
    (fewer : ∀ done more, condition (done ++ more) → condition done)
    (step : ∀ done item state, invariant done state →
    Settles (call item state) (condition (done ++ [item])) (invariant (done ++ [item])))
    (initially : invariant done state) (items : List Item) :
    Settles (runAll call items state) (condition (done ++ items)) (invariant (done ++ items)) := by
  induction items generalizing done state with
  | nil =>
    rw [List.append_nil]
    exact .success (implied done state initially) initially
  | cons item rest ih =>
    have first := step done item state initially
    have both := first.proceed fun after holds => ih holds
    have regroup : done ++ [item] ++ rest = done ++ item :: rest := by simp
    rw [regroup] at both
    apply both.congr
    constructor
    · exact And.right
    · intro holds
      refine ⟨fewer (done ++ [item]) rest ?_, holds⟩
      rwa [regroup]

end Wings.FallibleCall

namespace Wings.FallibleProgram

variable {Error State Value Result : Type}

abbrev Program (Error State Result : Type) := ExceptT Error (StateM State) Result

def orError (value : Option Value) (error : Error) : Except Error Value :=
  match value with
  | none => .error error
  | some value => .ok value

theorem orError_eq_ok_iff {value : Option Value} {result : Value} :
    orError value error = .ok result ↔ value = some result := by
  cases value with
  | none | some value => simp [orError]

theorem run_get_bind (next : State → Program Error State Result) (state : State) :
    (do next (← get) : Program Error State Result).run state = (next state).run state :=
  rfl

theorem run_liftExcept_bind (outcome : Except Error Value)
    (next : Value → Program Error State Result) (state : State) :
    (do next (← liftExcept outcome) : Program Error State Result).run state =
      match outcome with
      | .error error => (.error error, state)
      | .ok value => (next value).run state := by
  cases outcome <;> rfl

theorem run_bind (program : Program Error State Value)
    (next : Value → Program Error State Result) (before : State) :
    (do next (← program) : Program Error State Result).run before =
      match program.run before with
      | (.error error, middle) => (.error error, middle)
      | (.ok value, middle) => (next value).run middle := by
  have unfolded : (do next (← program) : Program Error State Result).run
      before = (fun outcome : Except Error Value × State =>
        ExceptT.bindCont next outcome.1 outcome.2) (program.run before) := rfl
  rw [unfolded]
  rcases program.run before with ⟨error | value, middle⟩ <;> rfl

theorem run_bind_eq_ok_iff {program : Program Error State Value}
    {next : Value → Program Error State Result} {result : Result} {before after : State} :
    (do next (← program) : Program Error State Result).run before =
        (.ok result, after) ↔ ∃ value middle, program.run before = (.ok value, middle) ∧
        (next value).run middle = (.ok result, after) := by
  rw [run_bind]
  rcases program.run before with ⟨error | value, middle⟩
  · constructor
    · nofun
    · rintro ⟨_, _, failed, _⟩
      cases failed
  · constructor
    · intro finished
      exact ⟨value, middle, rfl, finished⟩
    · rintro ⟨_, _, equal, finished⟩
      cases equal
      exact finished

variable {outcome : Except Error Value}

theorem run_liftExcept_eq_ok_iff {value : Value} {before after : State} :
    (liftExcept outcome : Program Error State Value).run before =
    (.ok value, after) ↔ outcome = .ok value ∧ after = before := by
  cases outcome with
  | error error =>
    constructor
    · nofun
    · rintro ⟨failed, _⟩
      cases failed
  | ok other =>
    constructor
    · intro finished
      cases finished
      exact ⟨rfl, rfl⟩
    · rintro ⟨equal, rfl⟩
      cases equal
      rfl

theorem run_modify_eq_ok_iff {change : State → State} {result : Unit} {before after : State} :
    (modify change : Program Error State Unit).run before =
    (.ok result, after) ↔ after = change before := by
  constructor
  · intro finished
    cases finished
    rfl
  · rintro rfl
    rfl

theorem run_get_eq_ok_iff {value before after : State} :
    (get : Program Error State State).run before = (.ok value, after) ↔
    value = before ∧ after = before := by
  constructor
  · intro finished
    cases finished
    exact ⟨rfl, rfl⟩
  · rintro ⟨rfl, rfl⟩
    rfl

/-- What a program does to the state, also when it fails. -/
def Relates (relation : State → State → Prop) (program : Program Error State Result) : Prop :=
  ∀ before, relation before (program.run before).2

namespace Relates

theorem lift (reflexive : ∀ state, relation state state) (outcome : Except Error Value) :
    Relates relation (liftExcept outcome : Program Error State Value) := by
  intro before
  cases outcome <;> exact reflexive before

theorem read (reflexive : ∀ state, relation state state) :
    Relates relation (get : Program Error State State) := reflexive

theorem change {update : State → State} (related : ∀ state, relation state (update state)) :
    Relates relation (modify update : Program Error State Unit) := related

theorem bind (transitive : ∀ first second third, relation first second →
      relation second third → relation first third) {program : Program Error State Value}
    {next : Value → Program Error State Result} (first : Relates relation program)
    (rest : ∀ value, Relates relation (next value)) : Relates relation (do next (← program)) := by
  intro before
  have begun := first before
  rw [run_bind]
  rcases ran : program.run before with ⟨error | value, middle⟩ <;>
    rw [ran] at begun
  · exact begun
  · exact transitive _ _ _ begun (rest value middle)

end Relates

theorem ok_bind (value : Value) (next : Value → Except Error Result) :
    (do next (← .ok value)) = next value :=
  rfl

/-- A sequence succeeds when both of its parts do. -/
theorem bind_eq_ok_iff {next : Value → Except Error Result} {result : Result} :
    (do next (← outcome)) = .ok result ↔
      ∃ value, outcome = .ok value ∧ next value = .ok result := by
  cases outcome with
  | error error | ok value => simp [bind, Except.bind]

theorem mapError_eq_ok_iff {Other : Type} {Value : Type u}
    {change : Error → Other} {outcome : Except Error Value} {value : Value} :
    outcome.mapError change = .ok value ↔ outcome = .ok value := by
  cases outcome with
  | error error | ok other => simp [Except.mapError]

def require (condition : Prop) [Decidable condition] (error : Error) : Except Error Unit :=
  if condition then .ok () else .error error

theorem pure_eq_ok_iff {value result : Value} :
    (pure value : Except Error Value) = .ok result ↔ value = result :=
  ⟨Except.ok.inj, congrArg Except.ok⟩

theorem require_eq_ok_iff {condition : Prop} [Decidable condition]
    {result : Unit} : require condition error = .ok result ↔ condition := by
  by_cases holds : condition
  · simp [require, holds]
  · simp [require, holds]

variable {values : List Value}

theorem forM_eq_ok_iff {round : Value → Except Error Unit} {result : Unit} :
    forM values round = .ok result ↔ ∀ value ∈ values, round value = .ok () := by
  induction values with
  | nil => simp [pure, Except.pure]
  | cons value values ih =>
    rw [List.forM_cons, List.forall_mem_cons]
    constructor
    · intro finished
      obtain ⟨⟨⟩, first, rest⟩ := bind_eq_ok_iff.1 finished
      exact ⟨first, ih.1 rest⟩
    · rintro ⟨first, rest⟩
      exact bind_eq_ok_iff.2 ⟨(), first, ih.2 rest⟩

theorem mapM_eq_ok_iff {convert : Value → Except Error Result} {results : List Result} :
    values.mapM convert = .ok results ↔
    List.Forall₂ (fun value result => convert value = .ok result) values results := by
  induction values generalizing results with
  | nil => simp [pure, Except.pure, eq_comm]
  | cons value values ih =>
    rw [List.mapM_cons, List.forall₂_cons_left_iff, bind_eq_ok_iff]
    constructor
    · rintro ⟨result, converted, rest⟩
      obtain ⟨others, each, rest⟩ := bind_eq_ok_iff.1 rest
      cases rest
      exact ⟨result, others, converted, ih.1 each, rfl⟩
    · rintro ⟨result, others, converted, each, rfl⟩
      exact ⟨result, converted, bind_eq_ok_iff.2 ⟨others, ih.2 each, rfl⟩⟩

theorem foldlM_sees (holds : List Value → State → Prop)
    {round : State → Value → Except Error State} {before after : State}
    (initially : holds [] before) (step : ∀ seen state value next, holds seen state →
    round state value = .ok next → holds (seen ++ [value]) next)
    (finished : values.foldlM round before = .ok after) : holds values after := by
  have general : ∀ seen state, holds seen state →
      values.foldlM round state = .ok after → holds (seen ++ values) after := by
    clear initially finished
    induction values with
    | nil =>
      intro seen state known finished
      cases finished
      rw [List.append_nil]
      exact known
    | cons value values ih =>
      intro seen state known finished
      obtain ⟨next, first, rest⟩ := bind_eq_ok_iff.1 finished
      have later := ih (seen ++ [value]) next (step seen state value next known first) rest
      rw [List.append_assoc] at later
      exact later
  exact general [] before initially finished

end Wings.FallibleProgram
