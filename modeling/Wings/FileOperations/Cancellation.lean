import Wings.Library.Dictionary
import Wings.Library.Transition

/-!
# Cancelling file operations

The goroutine of an operation removes it from the registry and decides in the same critical section
whether it was cancelled. Every call is a process, and a critical section is one move. The context
of an operation may end at any time.
-/

namespace Wings.FileOperations

open Processes Transition
open Function (update update_of_ne update_self)

def maxFileOperationsPerServer : Nat := 64

inductive OperationError where
  | limit
  | canceled
  /-- The error of a context that was cancelled. -/
  | context
  | other (message : String)
  deriving DecidableEq

def OperationError.text : OperationError → String
  | .limit => "too many file operations are active"
  | .canceled => "operation cancelled"
  | .context => "context canceled"
  | .other message => message

def safeFileOperationError (err : OperationError) : String :=
  if err = .context ∨ err = .canceled then OperationError.canceled.text
  else "file operation failed"

structure FileOperation where
  identifier : String
  typ : String
  cancelled : Bool
  /-- The context of the operation has ended. -/
  ended : Bool
  /-- What was sent on the channel. -/
  results : List (Option OperationError)

structure Manager where
  operations : Dictionary String Nat
  objects : Nat → FileOperation
  owner : Dictionary String Nat
  events : List (String × List String)

inductive Call where
  | idle
  | starting
  /-- `Start` has returned an error. -/
  | failed (err : OperationError)
  | working
  | worked (err : Option OperationError)
  | stopped (err : Option OperationError)
  | decided (cancelled : Bool) (err : Option OperationError)
  | published (err : Option OperationError)
  | delivered (err : Option OperationError)
  /-- `Cancel` has returned. -/
  | canceled (identifier : String) (ok : Bool)
  /-- `CancelAll` has returned, with the operations it found. -/
  | canceledAll (identifiers : List String)
  deriving DecidableEq

inductive Action where
  | start (identifier typ : String)
  | register
  | contextEnds
  | workReturns (err : Option OperationError)
  | stopProgress
  | complete
  | publish
  | deliver
  | cancel (identifier : String)
  | cancelAll

def FileOperation.cancel (op : FileOperation) : FileOperation :=
  { op with cancelled := true, ended := true }

namespace Manager

section

variable (m : Manager)

def modify (op : Nat) (change : FileOperation → FileOperation) : Manager :=
  { m with objects := update m.objects op (change (m.objects op)) }

def cancelEach (ops : List Nat) : Manager :=
  { m with
    objects := fun op =>
      if ops.contains op then (m.objects op).cancel else m.objects op }

def make (self : Nat) (identifier typ : String) : Manager :=
  { m with
    owner := m.owner.insert identifier self
    objects := update m.objects self ⟨identifier, typ, false, false, []⟩ }

def register (self : Nat) : Manager × Call :=
  if maxFileOperationsPerServer ≤ m.operations.entries.length then
    (m.modify self fun op => { op with ended := true }, .failed .limit)
  else
    ({ m with operations := m.operations.insert (m.objects self).identifier self }, .working)

def complete (self : Nat) (err : Option OperationError) : Manager × Call :=
  ({ m with operations := m.operations.erase (m.objects self).identifier },
    .decided ((m.objects self).cancelled || (m.objects self).ended) err)

def publish (self : Nat) (cancelled : Bool) (err : Option OperationError) : Manager × Call :=
  let identifier := (m.objects self).identifier
  if cancelled then
    ({ m with events := m.events ++ [("operation error",
      [identifier, OperationError.canceled.text])] }, .published (some .canceled))
  else
    match err with
    | some err =>
      ({ m with events := m.events ++ [("operation error",
        [identifier, safeFileOperationError err])] }, .published (some err))
    | none =>
      ({ m with events := m.events ++ [("operation completed", [identifier])] }, .published none)

def deliver (self : Nat) (err : Option OperationError) : Manager × Call :=
  (m.modify self fun op =>
    { op with results := op.results ++ [err], ended := true }, .delivered err)

end

end Manager

def move (self : Nat) (action : Action) (m : Manager) (call : Call) : Option (Manager × Call) :=
  match action with
  | .start identifier typ =>
    match call with
    | .idle =>
      if (m.owner.lookup identifier).isNone then
        some (m.make self identifier typ, .starting)
      else none
    | _ => none
  | .register =>
    match call with
    | .starting => some (m.register self)
    | _ => none
  | .contextEnds =>
    some (m.modify self fun op => { op with ended := true }, call)
  | .workReturns err =>
    match call with
    | .working => some (m, .worked err)
    | _ => none
  | .stopProgress =>
    match call with
    | .worked err => some (m, .stopped err)
    | _ => none
  | .complete =>
    match call with
    | .stopped err => some (m.complete self err)
    | _ => none
  | .publish =>
    match call with
    | .decided cancelled err => some (m.publish self cancelled err)
    | _ => none
  | .deliver =>
    match call with
    | .published err => some (m.deliver self err)
    | _ => none
  | .cancel identifier =>
    match call with
    | .idle =>
      some (m.cancelEach (m.operations.lookup identifier).toList,
        .canceled identifier (m.operations.lookup identifier).isSome)
    | _ => none
  | .cancelAll =>
    match call with
    | .idle =>
      some (m.cancelEach (m.operations.entries.map Sigma.snd), .canceledAll m.operations.keys)
    | _ => none

abbrev State := Config Manager Call

def Initial (config : State) : Prop := config.shared.operations = ∅ ∧ config.shared.owner = ∅ ∧
    ∀ process, config.own process = .idle

namespace Call

/-- `Start` has made the operation of the call. -/
def made : Call → Bool
  | .idle => false
  | .canceled _ _ => false
  | .canceledAll _ => false
  | _ => true

/-- `Start` has registered the operation and returned it. -/
def started : Call → Bool
  | .working => true
  | .worked _ => true
  | .stopped _ => true
  | .decided _ _ => true
  | .published _ => true
  | .delivered _ => true
  | _ => false

def undecided : Call → Bool
  | .working => true
  | .worked _ => true
  | .stopped _ => true
  | _ => false

def struck (identifier : String) : Call → Bool
  | .canceled found ok => ok && found == identifier
  | .canceledAll found => found.contains identifier
  | _ => false

def outcome : Call → Option (Option OperationError)
  | .decided cancelled err => some (if cancelled then some .canceled else err)
  | .published err => some err
  | .delivered err => some err
  | _ => none

def sent : Call → List (Option OperationError)
  | .delivered err => [err]
  | _ => []

end Call

structure Fits (caller : Nat) (m : Manager) (call : Call) : Prop where
  owned : ∀ identifier, m.owner.lookup identifier = some caller ↔
    call.made = true ∧ (m.objects caller).identifier = identifier
  registered : ∀ identifier, m.operations.lookup identifier = some caller ↔
    call.undecided = true ∧ (m.objects caller).identifier = identifier
  results : call.made = true → (m.objects caller).results = call.sent
  outcome : ∀ err, call.outcome = some err →
    (m.objects caller).cancelled = true → err = some .canceled
  struck : ∀ identifier, call.struck identifier = true → ∃ op, m.owner.lookup identifier = some op ∧
      (m.objects op).cancelled = true

inductive Moved (self : Nat) (m : Manager) : Call → Manager → Call → Prop
  | starts (typ : String) {identifier : String} (fresh : m.owner.lookup identifier = none) :
      Moved self m .idle (m.make self identifier typ) .starting
  | refused : Moved self m .starting (m.modify self fun op => { op with ended := true })
        (.failed .limit)
  | registers (few : m.operations.entries.length < maxFileOperationsPerServer) :
      Moved self m .starting
        { m with operations := m.operations.insert (m.objects self).identifier self } .working
  | contextEnds (call : Call) :
      Moved self m call (m.modify self fun op => { op with ended := true }) call
  | works (err : Option OperationError) : Moved self m .working m (.worked err)
  | stops (err : Option OperationError) : Moved self m (.worked err) m (.stopped err)
  | completes (err : Option OperationError) : Moved self m (.stopped err) (m.complete self err).1
        (m.complete self err).2
  | publishes (cancelled : Bool) (err : Option OperationError)
      (events : List (String × List String)) :
      Moved self m (.decided cancelled err) { m with events := events }
        (.published (if cancelled then some .canceled else err))
  | delivers (err : Option OperationError) : Moved self m (.published err) (m.deliver self err).1
        (m.deliver self err).2
  | cancels (identifier : String) : Moved self m .idle
        (m.cancelEach (m.operations.lookup identifier).toList)
        (.canceled identifier (m.operations.lookup identifier).isSome)
  | cancelsAll : Moved self m .idle (m.cancelEach (m.operations.entries.map Sigma.snd))
        (.canceledAll m.operations.keys)

section Moves

theorem moved_publish (cancelled : Bool) (err : Option OperationError) :
    Moved self m (.decided cancelled err) (m.publish self cancelled err).1
    (m.publish self cancelled err).2 := by
  cases cancelled with
  | true => exact .publishes true err _
  | false =>
    cases err with
    | none => exact .publishes false none _
    | some err => exact .publishes false (some err) _

theorem moved_register : Moved self m .starting (m.register self).1 (m.register self).2 := by
  rw [Manager.register]
  split
  · exact .refused
  · rename_i few
    exact .registers (Nat.lt_of_not_le few)

theorem moved_of_move {action : Action} (moved : move self action m call = some (after, next)) :
    Moved self m call after next := by
  cases action with
  | start identifier typ =>
    cases call with
    | idle =>
      simp only [move] at moved
      split at moved
      · rename_i fresh
        cases moved
        exact .starts typ (Option.isNone_iff_eq_none.1 fresh)
      · cases moved
    | _ => cases moved
  | register =>
    cases call with
    | starting =>
      have registered : Moved self m .starting _ _ := moved_register
      rw [Option.some.inj moved] at registered
      exact registered
    | _ => cases moved
  | contextEnds =>
    cases moved
    exact .contextEnds call
  | workReturns err =>
    cases call with
    | working =>
      cases moved
      exact .works err
    | _ => cases moved
  | stopProgress =>
    cases call with
    | worked err =>
      cases moved
      exact .stops err
    | _ => cases moved
  | complete =>
    cases call with
    | stopped err =>
      cases moved
      exact .completes err
    | _ => cases moved
  | publish =>
    cases call with
    | decided cancelled err =>
      have published : Moved self m (.decided cancelled err) _ _ := moved_publish cancelled err
      rw [Option.some.inj moved] at published
      exact published
    | _ => cases moved
  | deliver =>
    cases call with
    | published err =>
      cases moved
      exact .delivers err
    | _ => cases moved
  | cancel identifier =>
    cases call with
    | idle =>
      cases moved
      exact .cancels identifier
    | _ => cases moved
  | cancelAll =>
    cases call with
    | idle =>
      cases moved
      exact .cancelsAll
    | _ => cases moved

end Moves

structure Change (caller : Nat) (m after : Manager) : Prop where
  owner : ∀ identifier op, op ≠ caller →
    (after.owner.lookup identifier = some op ↔ m.owner.lookup identifier = some op)
  operations : ∀ identifier op, op ≠ caller →
    (after.operations.lookup identifier = some op ↔ m.operations.lookup identifier = some op)
  objects : ∀ op, op ≠ caller → after.objects op = m.objects op ∨
    (∃ identifier, m.operations.lookup identifier = some op) ∧
      after.objects op = (m.objects op).cancel
  own : ∀ identifier, m.owner.lookup identifier = some caller →
    after.owner.lookup identifier = some caller ∧
      ((m.objects caller).cancelled = true → (after.objects caller).cancelled = true)

section Changes

variable {call next : Call} {own : Nat → Call}

theorem Call.made_of_undecided (undecided : call.undecided = true) : call.made = true := by
  cases call with
  | working | worked | stopped => rfl
  | _ => cases undecided

theorem owner_of_registered (each : ∀ process, Fits process m (own process)) {identifier : String}
    (registered : m.operations.lookup identifier = some op) :
    m.owner.lookup identifier = some op := by
  obtain ⟨undecided, same⟩ := ((each op).registered identifier).1 registered
  exact ((each op).owned identifier).2 ⟨Call.made_of_undecided undecided, same⟩

theorem change_of_modify (change : FileOperation → FileOperation)
    (keeps : (change (m.objects self)).cancelled =
      (m.objects self).cancelled) : Change self m (m.modify self change) where
  owner _ _ _ := Iff.rfl
  operations _ _ _ := Iff.rfl
  objects op different := .inl (update_of_ne different _ _)
  own identifier owned := by
    refine ⟨owned, fun marked => ?_⟩
    rw [← keeps] at marked
    rw [Manager.modify]
    dsimp only
    rw [update_self]
    exact marked

theorem change_of_cancelEach {ops : List Nat} (registered : ∀ op ∈ ops, ∃ identifier,
      m.operations.lookup identifier = some op) :
    Change self m (m.cancelEach ops) where
  owner _ _ _ := Iff.rfl
  operations _ _ _ := Iff.rfl
  objects op _ := by
    rw [Manager.cancelEach]
    dsimp only
    split
    · rename_i listed
      exact .inr ⟨registered op (List.contains_iff_mem.1 listed), rfl⟩
    · exact .inl rfl
  own identifier owned := by
    refine ⟨owned, fun marked => ?_⟩
    rw [Manager.cancelEach]
    dsimp only
    split
    · rfl
    · exact marked

theorem change_of_operations {operations : Dictionary String Nat}
    (others : ∀ identifier op, op ≠ self →
      (operations.lookup identifier = some op ↔ m.operations.lookup identifier = some op)) :
    Change self m { m with operations := operations } where
  owner _ _ _ := Iff.rfl
  operations := others
  objects _ _ := .inl rfl
  own _ owned := ⟨owned, fun marked => marked⟩

theorem not_registered_of_owner (each : ∀ process, Fits process m (own process))
    {identifier : String} (owned : m.owner.lookup identifier = some self)
    (different : op ≠ self) : m.operations.lookup identifier ≠ some op := by
  intro registered
  have other := owner_of_registered each registered
  rw [owned] at other
  exact different (Option.some.inj other).symm

theorem change_of_moved (each : ∀ process, Fits process m (own process))
    (moved : Moved self m (own self) after next) : Change self m after := by
  generalize known : own self = call at moved
  have fits := each self
  rw [known] at fits
  cases moved with
  | starts typ fresh =>
    rename_i identifier
    refine ⟨?_, fun _ _ _ => Iff.rfl, fun op different => .inl (update_of_ne different _ _), ?_⟩
    · intro other op different
      refine Dictionary.lookup_insert_iff.trans ⟨?_, fun owned => ?_⟩
      · rintro (⟨_, rfl⟩ | ⟨_, owned⟩)
        · exact absurd rfl different
        · exact owned
      · refine .inr ⟨?_, owned⟩
        rintro rfl
        rw [fresh] at owned
        cases owned
    · intro other owned
      have made := ((fits.owned other).1 owned).1
      cases made
  | refused | contextEnds => exact change_of_modify _ rfl
  | registers few =>
    apply change_of_operations
    intro identifier op different
    by_cases same : identifier = (m.objects self).identifier
    · rw [same, AList.lookup_insert]
      refine iff_of_false (fun equal => different (Option.some.inj equal).symm) ?_
      apply not_registered_of_owner each _ different
      exact (fits.owned _).2 ⟨rfl, rfl⟩
    · rw [AList.lookup_insert_ne same]
  | works | stops => exact change_of_operations fun _ _ _ => Iff.rfl
  | completes err =>
    apply change_of_operations
    intro identifier op different
    by_cases same : identifier = (m.objects self).identifier
    · rw [same, AList.lookup_erase]
      refine iff_of_false (fun impossible => by cases impossible) ?_
      apply not_registered_of_owner each _ different
      exact (fits.owned _).2 ⟨rfl, rfl⟩
    · rw [AList.lookup_erase_ne same]
  | publishes =>
    exact ⟨fun _ _ _ => Iff.rfl, fun _ _ _ => Iff.rfl, fun _ _ => .inl rfl,
      fun _ owned => ⟨owned, fun marked => marked⟩⟩
  | delivers err =>
    exact change_of_modify (fun op =>
      { op with results := op.results ++ [err], ended := true }) rfl
  | cancels identifier =>
    apply change_of_cancelEach
    intro op listed
    exact ⟨identifier, Option.mem_toList.1 listed⟩
  | cancelsAll =>
    apply change_of_cancelEach
    intro op listed
    obtain ⟨entry, member, rfl⟩ := List.mem_map.1 listed
    exact ⟨entry.1, Dictionary.mem_entries_iff.1 member⟩

theorem Change.identifier (change : Change self m after) (different : op ≠ self) :
    (after.objects op).identifier = (m.objects op).identifier ∧
    (after.objects op).results = (m.objects op).results := by
  rcases change.objects op different with same | ⟨_, same⟩
  all_goals
    rw [same]
    exact ⟨rfl, rfl⟩

theorem Change.marked (change : Change self m after) {identifier : String}
    (owned : m.owner.lookup identifier = some op) (marked : (m.objects op).cancelled = true) :
    after.owner.lookup identifier = some op ∧ (after.objects op).cancelled = true := by
  by_cases own : op = self
  · subst own
    obtain ⟨stays, keeps⟩ := change.own identifier owned
    exact ⟨stays, keeps marked⟩
  · refine ⟨(change.owner identifier op own).2 owned, ?_⟩
    rcases change.objects op own with same | ⟨_, same⟩
    · rw [same]
      exact marked
    · rw [same]
      rfl

theorem Fits.other {other : Nat} (fits : Fits other m call)
    (change : Change self m after) (different : other ≠ self) : Fits other after call := by
  obtain ⟨identifier, results⟩ := change.identifier different
  refine ⟨?_, ?_, ?_, ?_, ?_⟩
  · intro name
    rw [change.owner name other different, identifier]
    exact fits.owned name
  · intro name
    rw [change.operations name other different, identifier]
    exact fits.registered name
  · rw [results]
    exact fits.results
  · intro err decided marked
    rcases change.objects other different with same | ⟨found, _⟩
    · rw [same] at marked
      exact fits.outcome err decided marked
    · obtain ⟨name, registered⟩ := found
      have undecided := ((fits.registered name).1 registered).1
      cases call with
      | decided | published | delivered => cases undecided
      | _ => cases decided
  · intro name struck
    obtain ⟨op, owned, marked⟩ := fits.struck name struck
    exact ⟨op, change.marked owned marked⟩

end Changes

section Own

variable {own : Nat → Call}

theorem Fits.modify (fits : Fits self m call) {change : FileOperation → FileOperation}
    (identifier : (change (m.objects self)).identifier = (m.objects self).identifier)
    (cancelled : (change (m.objects self)).cancelled = (m.objects self).cancelled)
    (sent : call.made = true → (change (m.objects self)).results = next.sent)
    (made : next.made = call.made) (undecided : next.undecided = call.undecided)
    (outcome : ∀ err, next.outcome = some err → call.outcome = some err)
    (struck : ∀ name, next.struck name = true → call.struck name = true) :
    Fits self (m.modify self change) next := by
  have object : (m.modify self change).objects self = change (m.objects self) := update_self _ _ _
  refine ⟨?_, ?_, ?_, ?_, ?_⟩
  · intro name
    rw [object, identifier, made]
    exact fits.owned name
  · intro name
    rw [object, identifier, undecided]
    exact fits.registered name
  · rw [object, made]
    exact sent
  · intro err decided
    rw [object, cancelled]
    exact fits.outcome err (outcome err decided)
  · intro name found
    obtain ⟨op, owned, marked⟩ := fits.struck name (struck name found)
    refine ⟨op, owned, ?_⟩
    by_cases own : op = self
    · subst own
      rwa [object, cancelled]
    · exact (congrArg _ (update_of_ne own _ _)).trans marked

theorem Fits.advance (fits : Fits self m call) (made : next.made = call.made)
    (undecided : next.undecided = call.undecided) (sent : next.sent = call.sent)
    (outcome : ∀ err, next.outcome = some err → call.outcome = some err)
    (struck : ∀ name, next.struck name = true → call.struck name = true) : Fits self m next := by
  have same : m.modify self id = m := by simp [Manager.modify]
  rw [← same]
  exact fits.modify rfl rfl (sent ▸ fits.results) made undecided outcome struck

theorem fits_make {identifier : String} (fits : Fits self m .idle)
    (typ : String) : Fits self (m.make self identifier typ) .starting := by
  have object : (m.make self identifier typ).objects self = ⟨identifier, typ, false, false, []⟩ :=
    update_self _ _ _
  refine ⟨?_, ?_, ?_, ?_, ?_⟩
  · intro name
    rw [object]
    by_cases same : name = identifier
    · subst same
      rw [Manager.make, AList.lookup_insert]
      exact iff_of_true rfl ⟨rfl, rfl⟩
    · rw [Manager.make, AList.lookup_insert_ne same]
      refine iff_of_false (fun owned => ?_) fun both => same both.2.symm
      cases ((fits.owned name).1 owned).1
  · intro name
    refine iff_of_false (fun registered => ?_) fun both => (by cases both.1)
    cases ((fits.registered name).1 registered).1
  · intro _
    rw [object]
    rfl
  · intro err decided
    cases decided
  · intro name struck
    cases struck

theorem fits_register (fits : Fits self m .starting) :
    Fits self { m with operations :=
      m.operations.insert (m.objects self).identifier self } .working := by
  refine ⟨fits.owned, ?_, fits.results, ?_, ?_⟩
  · intro name
    by_cases same : name = (m.objects self).identifier
    · rw [same, AList.lookup_insert]
      exact iff_of_true rfl ⟨rfl, rfl⟩
    · rw [AList.lookup_insert_ne same]
      refine iff_of_false (fun registered => ?_) fun both => same both.2.symm
      cases ((fits.registered name).1 registered).1
  · intro err decided
    cases decided
  · intro name struck
    cases struck

theorem fits_complete (fits : Fits self m (.stopped err)) :
    Fits self (m.complete self err).1 (m.complete self err).2 := by
  refine ⟨fits.owned, ?_, fits.results, ?_, ?_⟩
  · intro name
    refine iff_of_false ?_ fun both => (by cases both.1)
    intro registered
    rw [Manager.complete] at registered
    by_cases same : name = (m.objects self).identifier
    · rw [same, AList.lookup_erase] at registered
      cases registered
    · rw [AList.lookup_erase_ne same] at registered
      exact same ((fits.registered name).1 registered).2.symm
  · intro result decided marked
    rw [Manager.complete] at decided marked
    rw [marked, Bool.true_or, Call.outcome, if_pos rfl] at decided
    exact (Option.some.inj decided).symm
  · intro name struck
    cases struck

theorem fits_deliver (fits : Fits self m (.published err)) :
    Fits self (m.deliver self err).1 (m.deliver self err).2 := by
  dsimp only [Manager.deliver]
  refine fits.modify rfl rfl (fun made => ?_) rfl rfl
    (fun _ decided => decided) fun _ struck => struck
  rw [fits.results made]
  rfl

theorem fits_of_unmade (unowned : ∀ name, m.owner.lookup name ≠ some self)
    (unregistered : ∀ name, m.operations.lookup name ≠ some self)
    (made : call.made = false) (undecided : call.undecided = false) (outcome : call.outcome = none)
    (struck : ∀ name, call.struck name = true → ∃ op, m.owner.lookup name = some op ∧
        (m.objects op).cancelled = true) : Fits self m call where
  owned name := iff_of_false (unowned name) (by simp [made])
  registered name := iff_of_false (unregistered name) (by simp [undecided])
  results := by simp [made]
  outcome := by simp [outcome]
  struck := struck

theorem fits_cancelEach {ops : List Nat}
    (each : ∀ process, Fits process m (own process)) (idle : own self = .idle)
    (made : next.made = false) (undecided : next.undecided = false) (outcome : next.outcome = none)
    (found : ∀ identifier, next.struck identifier = true →
    ∃ op ∈ ops, m.operations.lookup identifier = some op) : Fits self (m.cancelEach ops) next := by
  have fits := each self
  rw [idle] at fits
  refine fits_of_unmade (fun name owned => ?_) (fun name registered => ?_)
    made undecided outcome fun name struck => ?_
  · cases ((fits.owned name).1 owned).1
  · cases ((fits.registered name).1 registered).1
  · obtain ⟨op, listed, registered⟩ := found name struck
    refine ⟨op, owner_of_registered each registered, ?_⟩
    rw [Manager.cancelEach]
    dsimp only
    rw [if_pos (List.contains_iff_mem.2 listed)]
    rfl

theorem fits_of_moved (each : ∀ process, Fits process m (own process))
    (moved : Moved self m (own self) after next) : Fits self after next := by
  generalize known : own self = call at moved
  have fits := each self
  rw [known] at fits
  cases moved with
  | starts typ fresh => exact fits_make fits typ
  | refused =>
    exact fits.modify rfl rfl fits.results rfl rfl
      (fun _ decided => by cases decided) fun _ struck => struck
  | registers few => exact fits_register fits
  | contextEnds =>
    exact fits.modify rfl rfl fits.results rfl rfl (fun _ decided => decided) fun _ struck => struck
  | works | stops =>
    exact fits.advance rfl rfl rfl (fun _ decided => by cases decided) fun _ struck => struck
  | completes err => exact fits_complete fits
  | publishes cancelled err events =>
    have noted : Fits self { m with events := events } (.decided cancelled err) := { fits with }
    exact noted.advance rfl rfl rfl (fun _ decided => decided) fun _ struck => struck
  | delivers err => exact fits_deliver fits
  | cancels identifier =>
    apply fits_cancelEach each known rfl rfl rfl
    intro name struck
    obtain ⟨found, same⟩ := Bool.and_eq_true_iff.1 struck
    obtain ⟨op, registered⟩ := Option.isSome_iff_exists.1 found
    refine ⟨op, Option.mem_toList.2 registered, ?_⟩
    rw [← beq_iff_eq.1 same]
    exact registered
  | cancelsAll =>
    apply fits_cancelEach each known rfl rfl rfl
    intro name struck
    have listed : name ∈ m.operations.keys := List.contains_iff_mem.1 struck
    obtain ⟨op, registered⟩ := Option.isSome_iff_exists.1
      (AList.lookup_isSome.2 (AList.mem_keys.2 listed))
    refine ⟨op, ?_, registered⟩
    exact List.mem_map.2 ⟨⟨name, op⟩, Dictionary.mem_entries_iff.2 registered, rfl⟩

end Own

section Runs

structure Orderly (config : State) : Prop where
  fits : config.Each Fits
  few : config.shared.operations.entries.length ≤ maxFileOperationsPerServer

theorem Initial.orderly (initial : Initial config) : Orderly config := by
  obtain ⟨operations, owner, idle⟩ := initial
  refine ⟨?_, ?_⟩
  · intro process
    rw [idle process]
    refine fits_of_unmade (fun name => ?_) (fun name => ?_) rfl rfl rfl
      fun _ struck => by cases struck
    · rw [owner, AList.lookup_empty]
      exact (Option.some_ne_none _).symm
    · rw [operations, AList.lookup_empty]
      exact (Option.some_ne_none _).symm
  · rw [operations]
    exact Nat.zero_le _

variable {m : Manager}

theorem few_of_moved {self : Nat} {next : Manager} {call following : Call}
    (few : m.operations.entries.length ≤ maxFileOperationsPerServer)
    (moved : Moved self m call next following) :
    next.operations.entries.length ≤ maxFileOperationsPerServer := by
  cases moved with
  | registers fewer =>
    exact (Dictionary.length_insert_le _ _).trans fewer
  | completes =>
    exact (List.kerase_sublist _ _).length_le.trans few
  | _ => exact few

theorem Orderly.step {label : Nat × Action} (orderly : Orderly config)
    (taken : config.Steps move label after) : Orderly after := by
  refine ⟨orderly.fits.step taken ?_ ?_, ?_⟩
  · intro shared own moved
    exact fits_of_moved orderly.fits (moved_of_move moved)
  · intro shared own moved process different fits
    exact fits.other (change_of_moved orderly.fits (moved_of_move moved)) different
  · obtain ⟨shared, own, moved, rfl⟩ := Config.steps_iff.1 taken
    exact few_of_moved orderly.few (moved_of_move moved)

theorem orderly_of_reachable
    (reached : Reachable Initial (Config.Steps move) config) : Orderly config :=
  reached.invariant (fun _ initial => initial.orderly) fun _ _ _ orderly taken => orderly.step taken

/-- The call's own moves can lead to its result. -/
def Delivers (config : State) (process : Nat) : Prop :=
  ∃ (actions : List Action) (after : State) (err : Option OperationError),
    execute (Config.step move) config (actions.map fun action => (process, action)) = some after ∧
    after.own process = .delivered err

theorem delivers_of_move {process : Nat} {call : Call} {result : Manager × Call} (action : Action)
    (known : config.own process = call)
    (moved : move process action config.shared call = some result) (delivers : Delivers
    ⟨result.1, update config.own process result.2⟩ process) : Delivers config process := by
  obtain ⟨actions, after, err, executed, delivered⟩ := delivers
  refine ⟨action :: actions, after, err, ?_, delivered⟩
  rw [List.map_cons, execute, Config.step]
  rw [known, moved]
  exact executed

theorem publish_call (self : Nat) (cancelled : Bool) (err : Option OperationError) :
    (m.publish self cancelled err).2 = .published (if cancelled then some .canceled else err) := by
  cases cancelled with
  | true => rfl
  | false =>
    cases err with
    | none | some err => rfl

section Delivery

theorem delivers_of_published (published : config.own process = .published err) :
    Delivers config process := delivers_of_move .deliver published rfl
    ⟨[], _, err, rfl, update_self _ _ _⟩

theorem delivers_of_decided {cancelled : Bool}
    (decided : config.own process = .decided cancelled err) : Delivers config process :=
  delivers_of_move .publish decided rfl (delivers_of_published
    ((update_self _ _ _).trans (publish_call process cancelled err)))

theorem delivers_of_stopped (stopped : config.own process = .stopped err) :
    Delivers config process := delivers_of_move .complete stopped rfl
    (delivers_of_decided (update_self _ _ _))

theorem delivers_of_worked (worked : config.own process = .worked err) : Delivers config process :=
  delivers_of_move .stopProgress worked rfl (delivers_of_stopped (update_self _ _ _))

theorem delivers_of_working (working : config.own process = .working) : Delivers config process :=
  delivers_of_move (.workReturns none) working rfl (delivers_of_worked (update_self _ _ _))

theorem delivers_of_started (started : (config.own process).started = true) :
    Delivers config process := by
  cases known : config.own process with
  | working => exact delivers_of_working known
  | worked err => exact delivers_of_worked known
  | stopped err => exact delivers_of_stopped known
  | decided cancelled err => exact delivers_of_decided known
  | published err => exact delivers_of_published known
  | delivered err => exact ⟨[], config, err, rfl, known⟩
  | _ =>
    rw [known] at started
    cases started

end Delivery

end Runs

variable {call : Call}

theorem Call.made_of_started (started : call.started = true) : call.made = true := by
  cases call with
  | idle | canceled | canceledAll => cases started
  | _ => rfl

theorem Call.undecided_iff (started : call.started = true) :
    call.undecided = true ↔ call.outcome = none := by
  cases call with
  | working | worked | stopped => exact iff_of_true rfl rfl
  | decided | published | delivered => exact iff_of_false Bool.false_ne_true (Option.some_ne_none _)
  | _ => cases started

theorem Orderly.canceled {caller : Nat} {identifier : String} (orderly : Orderly config)
    (struck : (config.own caller).struck identifier = true)
    (same : (config.shared.objects process).identifier = identifier)
    (made : (config.own process).made = true) :
    (config.shared.objects process).cancelled = true := by
  obtain ⟨op, owned, marked⟩ := (orderly.fits caller).struck identifier struck
  have own := ((orderly.fits process).owned identifier).2 ⟨made, same⟩
  rw [owned] at own
  rw [← Option.some.inj own]
  exact marked

theorem Orderly.mem_results {result : Option OperationError}
    (orderly : Orderly config) (made : (config.own process).made = true)
    (sent : result ∈ (config.shared.objects process).results) :
    (config.own process).outcome = some result := by
  rw [(orderly.fits process).results made] at sent
  cases known : config.own process with
  | delivered err =>
    rw [known] at sent
    rw [List.mem_singleton.1 sent]
    rfl
  | _ =>
    rw [known] at sent
    cases sent

theorem Call.length_sent_le (call : Call) : call.sent.length ≤ 1 := by
  cases call with
  | delivered => exact Nat.le_refl 1
  | _ => exact Nat.zero_le 1

private def canceledWork : List (Nat × Action) := [(0, .start "operation" "copy"), (0, .register),
    (0, .workReturns none), (1, .cancel "operation"), (0, .stopProgress),
    (0, .complete), (0, .publish), (0, .deliver)]

private def noCalls : State := ⟨⟨∅, fun _ => ⟨"", "", false, false, []⟩, ∅, []⟩, fun _ => .idle⟩

end Wings.FileOperations
