import Wings.Filesystem.DiskSpace
import Wings.Library.Pool

/-!
# Interleaved writes and disk walks

Every write path is a `Call`: the tree of its ledger sections, branching on their results and on
system calls. A state runs any number of calls beside at most one walk. `reserved` is the space held
by all calls; it agrees with the running ones while no upload makes a file grow.
-/

namespace Wings.Filesystem

open MachineInt

/-- Outcome of a step without the ledger, with the number of bytes concerned if any. -/
inductive Outcome
  | ok
  | failed
  | count (n : Nat)

/-- The ledger sections a write path has yet to execute. -/
inductive Call
  | returned
  | hasSpaceFor (size : Int) (next : Bool → Call)
  | reserveDisk (size : Int) (next : Bool → Call)
  | releaseDisk (reserved used : Int) (next : Call)
  | adjustDisk (size : Int) (next : Call)
  | addUsage (size : Int) (next : Call)
  | await (next : Outcome → Call)

namespace Call

def isReturned : Call → Bool
  | .returned => true
  | _ => false

/-- Number of bytes `io.Copy` takes from a reader limited to `limit` that offers `n`. -/
def copied (limit : Int) (n : Nat) : Int := if 0 < limit then min (n : Int) limit else 0

/-- `Write`, from its reservation on. A copy that panics reports no count. A refused reservation
removes a file that the call created. -/
def write (newSize currentSize : Int) (existed : Bool) : Call :=
  .reserveDisk (wrap (newSize - currentSize)) fun fits =>
    if fits then
      let reserved := max (wrap (newSize - currentSize)) 0
      .await fun
        | .failed => .releaseDisk reserved 0 .returned
        | _ => .await fun
          | .count n =>
            .releaseDisk reserved (copied newSize n - currentSize) .returned
          | _ => .releaseDisk reserved (-currentSize) .returned
    else if existed then .returned
    else .await fun
      | .count freed => .addUsage (-freed) .returned
      | _ => .returned

/-- End of `WriteUpload`: the usage is adjusted by the change of size, unless the file cannot be
stated. -/
def finishUpload (currentSize reserved : Int) : Call := .await fun _ => .await fun
    | .count after =>
      .adjustDisk (wrap (wrap (after - currentSize) - reserved)) .returned
    | _ => .returned

/-- `WriteUpload`, once the destination is open and holds `currentSize` bytes. -/
def writeUpload (size currentSize : Int) : Call :=
  let growth := wrap (size - currentSize)
  .hasSpaceFor growth fun fits =>
    if fits then
      if 0 < growth then
        .reserveDisk growth fun reserved =>
          if reserved then finishUpload currentSize growth else .returned
      else finishUpload currentSize 0
    else .returned

/-- `Copy`, once the source is open and holds `currentSize` bytes. -/
def copy (currentSize : Int) : Call :=
  .reserveDisk currentSize fun fits =>
    if fits then
      .await fun
        | .failed => .releaseDisk currentSize 0 .returned
        | _ => .await fun
          | .count n =>
            .releaseDisk currentSize (copied currentSize n) .returned
          | _ => .releaseDisk currentSize 0 .returned
    else .returned

/-- `writeAtLocked` on a quota file whose tracked size is `previousSize`. -/
def writeAtLocked (previousSize off : Int) (len : Nat) : Call :=
  match quotaWriteEnd off len with
  | none => .returned
  | some stop =>
    let reserved := wrap (stop - previousSize)
    if 0 < reserved then
      .reserveDisk reserved fun fits =>
        if fits then
          .await fun
            | .count n =>
              .releaseDisk reserved (quotaActual previousSize off (min n len)) .returned
            | _ => .releaseDisk reserved 0 .returned
        else .returned
    else .await fun _ => .returned

/-- Every path releases at most what it holds and returns with an amount as `final` says. -/
def Settles (final : Int → Prop) : Int → Call → Prop
  | held, .returned => final held
  | held, .hasSpaceFor _ next => ∀ fits, Settles final held (next fits)
  | held, .reserveDisk size next =>
    Settles final (held + Ledger.reservation size) (next true) ∧ Settles final held (next false)
  | held, .releaseDisk reserved _ next =>
    Ledger.reservation reserved ≤ held ∧ Settles final (held - Ledger.reservation reserved) next
  | held, .adjustDisk _ next => Settles final held next
  | held, .addUsage _ next => Settles final held next
  | held, .await next => ∀ outcome, Settles final held (next outcome)

/-- Final amount of a call that gives back all it reserved. -/
def HoldsNothing (held : Int) : Prop := held = 0

theorem holdsNothing_zero : HoldsNothing 0 := rfl

theorem Settles.nonneg {final : Int → Prop}
    (finalNonnegative : ∀ held, final held → 0 ≤ held) {call : Call}
    {held : Int} (settles : call.Settles final held) : 0 ≤ held := by
  induction call generalizing held with
  | returned => exact finalNonnegative held settles
  | hasSpaceFor _ next ih =>
    exact ih true (settles true)
  | reserveDisk size next ih =>
    exact ih false settles.2
  | releaseDisk reserved _ next ih =>
    exact (Ledger.reservation_nonneg reserved).trans settles.1
  | adjustDisk _ next ih | addUsage _ next ih => exact ih settles
  | await next ih =>
    exact ih .ok (settles .ok)

section Paths

variable {final : Int → Prop} (finalZero : final 0)

include finalZero

theorem settles_write (newSize currentSize : Int) (existed : Bool) :
    (write newSize currentSize existed).Settles final 0 := by
  have capped : Ledger.reservation (max (wrap (newSize - currentSize)) 0) =
        Ledger.reservation (wrap (newSize - currentSize)) := by
    simp [Ledger.reservation]
  refine ⟨?_, ?_⟩
  · rintro (_ | _ | n)
    · rintro (_ | _ | n) <;> simpa [Settles, capped] using finalZero
    · simpa [Settles, capped] using finalZero
    · rintro (_ | _ | n) <;> simpa [Settles, capped] using finalZero
  · cases existed
    · rintro (_ | _ | n) <;> exact finalZero
    · exact finalZero

theorem settles_copy (currentSize : Int) : (copy currentSize).Settles final 0 := by
  refine ⟨?_, finalZero⟩
  rintro (_ | _ | n)
  · rintro (_ | _ | n) <;> simpa [Settles] using finalZero
  · simpa [Settles] using finalZero
  · rintro (_ | _ | n) <;> simpa [Settles] using finalZero

theorem settles_writeAtLocked (previousSize off : Int) (len : Nat) :
    (writeAtLocked previousSize off len).Settles final 0 := by
  unfold writeAtLocked
  split
  · exact finalZero
  · simp only
    split_ifs
    · refine ⟨?_, finalZero⟩
      rintro (_ | _ | n) <;> simpa [Settles] using finalZero
    · exact fun _ => finalZero

theorem settles_writeUpload (leak : 0 < wrap (size - currentSize) →
    final (wrap (size - currentSize))) : (writeUpload size currentSize).Settles final 0 := by
  rintro (_ | _)
  · exact finalZero
  · by_cases grows : 0 < wrap (size - currentSize)
    · simp only [if_true, if_pos grows]
      refine ⟨fun _ => ?_, finalZero⟩
      have held : (0 : Int) + Ledger.reservation
          (wrap (size - currentSize)) = wrap (size - currentSize) := by
        rw [zero_add]
        exact max_eq_left grows.le
      rw [held]
      rintro (_ | _ | n) <;> exact leak grows
    · simp only [if_true, if_neg grows]
      intro _
      rintro (_ | _ | n) <;> exact finalZero

end Paths

end Call

inductive Request
  | write (newSize currentSize : Int) (existed : Bool)
  | writeUpload (size currentSize : Int)
  | copy (currentSize : Int)
  | quotaFile (previousSize off : Int) (len : Nat)

namespace Request

def call : Request → Call
  | .write newSize currentSize existed =>
    .write newSize currentSize existed
  | .writeUpload size currentSize => .writeUpload size currentSize
  | .copy currentSize => .copy currentSize
  | .quotaFile previousSize off len => .writeAtLocked previousSize off len

/-- The request does not upload more bytes than the file it replaces holds. -/
def NoGrowingUpload : Request → Prop
  | .writeUpload size currentSize => wrap (size - currentSize) ≤ 0
  | _ => True

theorem settles_zero {request : Request} (disciplined : request.NoGrowingUpload) :
    request.call.Settles Call.HoldsNothing 0 := by
  cases request with
  | write newSize currentSize existed =>
    exact Call.settles_write Call.holdsNothing_zero newSize currentSize existed
  | writeUpload size currentSize =>
    exact Call.settles_writeUpload Call.holdsNothing_zero fun grows =>
      absurd grows (Int.not_lt.2 disciplined)
  | copy currentSize =>
    exact Call.settles_copy Call.holdsNothing_zero currentSize
  | quotaFile previousSize off len =>
    exact Call.settles_writeAtLocked Call.holdsNothing_zero previousSize off len

end Request

structure Process where
  call : Call
  held : Int

namespace Process

def isRunning (process : Process) : Bool := !process.call.isReturned

def advance (fs : Ledger) (process : Process) (outcome : Outcome) : Option (Ledger × Process) :=
  match process.call with
  | .returned => none
  | .hasSpaceFor size next =>
    some (fs, ⟨next (fs.hasSpaceFor size), process.held⟩)
  | .reserveDisk size next =>
    match fs.reserveDisk size with
    | some after =>
      some (after, ⟨next true, process.held + Ledger.reservation size⟩)
    | none => some (fs, ⟨next false, process.held⟩)
  | .releaseDisk reserved used next =>
    some (fs.releaseDisk reserved used, ⟨next, process.held - Ledger.reservation reserved⟩)
  | .adjustDisk size next =>
    some (fs.adjustDisk size, ⟨next, process.held⟩)
  | .addUsage size next =>
    some ({ fs with unixFS := fs.unixFS.add size }, ⟨next, process.held⟩)
  | .await next => some (fs, ⟨next outcome, process.held⟩)

end Process

structure DiskState where
  ledger : Ledger
  processes : List Process

/-- The moves. `adjust` stands for callers of `adjustDisk` that reserve nothing. -/
inductive DiskLabel
  | spawn (request : Request)
  | advance (index : Nat) (outcome : Outcome)
  | adjust (size : Int)
  | walkBegin
  | walkEnd (size : Int) (failed : Bool)

namespace DiskState

section

variable (state : DiskState)

/-- One move.  A walk holds the lookup mutex, so that walks do not overlap. -/
def step : DiskLabel → Option DiskState
  | .spawn request =>
    some { state with
      processes := state.processes ++ [⟨request.call, 0⟩] }
  | .advance index outcome =>
    match state.processes[index]? with
    | none => none
    | some process =>
      match process.advance state.ledger outcome with
      | none => none
      | some (ledger, process) =>
        some ⟨ledger, state.processes.set index process⟩
  | .adjust size => some { state with ledger := state.ledger.adjustDisk size }
  | .walkBegin =>
    if state.ledger.walking then none
    else some { state with ledger := state.ledger.walkBegin }
  | .walkEnd size failed =>
    if state.ledger.walking then
      some { state with ledger := state.ledger.walkEnd size failed }
    else none

def Steps (label : DiskLabel) (after : DiskState) : Prop := state.step label = some after

def Initial : Prop := state.ledger.reserved = 0 ∧ state.ledger.walking = false ∧
    state.processes = []

def running : List Process := state.processes.filter Process.isRunning

def heldTotal : Int := Pool.total Process.held state.running

end

end DiskState

end Wings.Filesystem

namespace Wings.Filesystem.DiskState

open MachineInt Transition

/-- The move does not take `reserved` above the largest integer. -/
def NoOverflow (state : DiskState) : DiskLabel → Prop
  | .advance index _ =>
    ∀ process, state.processes[index]? = some process →
      match process.call with
      | .reserveDisk size _ => state.ledger.reserved + size ≤ maxInt64
      | _ => True
  | _ => True

/-- The move starts no upload that makes a file grow, and does not overflow. -/
def Disciplined (state : DiskState) (label : DiskLabel) : Prop := state.NoOverflow label ∧
    match label with
    | .spawn request => request.NoGrowingUpload
    | _ => True

/-- The ledger agrees with the space held by all processes, and every process settles. -/
structure Accounted (final : Int → Prop) (state : DiskState) : Prop where
  accounts : state.ledger.Accounts (Pool.total Process.held state.processes)
  settles : ∀ process ∈ state.processes, process.call.Settles final process.held

theorem advance_accounts {fs after : Ledger} {process next : Process}
    {outcome : Outcome} {total : Int} (accounts : fs.Accounts total) (within : process.held ≤ total)
    (settles : process.call.Settles final process.held)
    (noOverflow : match process.call with
      | .reserveDisk size _ => fs.reserved + size ≤ maxInt64
      | _ => True)
    (advanced : process.advance fs outcome = some (after, next)) :
    after.Accounts (total - process.held + next.held) ∧
      next.call.Settles final next.held := by
  obtain ⟨call, held⟩ := process
  have unchanged : total - held + held = total := by omega
  cases call with
  | returned => simp [Process.advance] at advanced
  | hasSpaceFor size following =>
    cases advanced
    exact ⟨by simpa only [unchanged] using accounts, settles _⟩
  | reserveDisk size following =>
    simp only [Process.advance] at advanced
    cases result : fs.reserveDisk size with
    | none =>
      simp only [result] at advanced
      cases advanced
      exact ⟨by simpa only [unchanged] using accounts, settles.2⟩
    | some reservedLedger =>
      simp only [result] at advanced
      cases advanced
      have added := accounts.reserveDisk noOverflow result
      refine ⟨?_, settles.1⟩
      have regrouped : total - held + (held + Ledger.reservation size) =
            total + Ledger.reservation size := by omega
      simpa only [regrouped] using added
  | releaseDisk reserved used following =>
    cases advanced
    have removed := accounts.releaseDisk used (settles.1.trans within)
    refine ⟨?_, settles.2⟩
    have regrouped : total - held + (held - Ledger.reservation reserved) =
          total - Ledger.reservation reserved := by omega
    simpa only [regrouped] using removed
  | adjustDisk size following =>
    cases advanced
    exact ⟨by simpa only [unchanged] using accounts.adjustDisk size, settles⟩
  | addUsage size following =>
    cases advanced
    refine ⟨?_, settles⟩
    simp only [unchanged]
    exact { accounts with }
  | await following =>
    cases advanced
    exact ⟨by simpa only [unchanged] using accounts, settles _⟩

theorem held_le_total (finalNonnegative : ∀ held, final held → 0 ≤ held) {processes : List Process}
    (settles : ∀ process ∈ processes, process.call.Settles final process.held) {process : Process}
    (member : process ∈ processes) : process.held ≤ Pool.total Process.held processes := by
  apply Pool.weight_le_total _ member
  intro other present
  exact (settles other present).nonneg finalNonnegative

variable {state : DiskState}

theorem Accounted.step (finalNonnegative : ∀ held, final held → 0 ≤ held)
    {after : DiskState} {label : DiskLabel} (accounted : state.Accounted final)
    (noOverflow : state.NoOverflow label)
    (spawned : ∀ request, label = .spawn request → request.call.Settles final 0)
    (taken : state.Steps label after) : after.Accounted final := by
  cases label with
  | spawn request =>
    cases taken
    refine ⟨by simpa using accounted.accounts, ?_⟩
    exact List.forall_mem_append.2
      ⟨accounted.settles, List.forall_mem_singleton.2 (spawned request rfl)⟩
  | advance index outcome =>
    simp only [Steps, DiskState.step] at taken
    cases found : state.processes[index]? with
    | none => simp [found] at taken
    | some process =>
      have member := List.mem_of_getElem? found
      cases advanced : process.advance state.ledger outcome with
      | none => simp [found, advanced] at taken
      | some result =>
        simp only [found, advanced] at taken
        cases taken
        obtain ⟨accounts, settles⟩ := advance_accounts accounted.accounts
          (held_le_total finalNonnegative accounted.settles member)
          (accounted.settles process member) (noOverflow process found) advanced
        refine ⟨?_, Pool.forall_mem_set accounted.settles index settles⟩
        rw [Pool.total_set Process.held found]
        exact accounts
  | adjust size =>
    cases taken
    exact ⟨accounted.accounts.adjustDisk size, accounted.settles⟩
  | walkBegin =>
    simp only [Steps, DiskState.step, Option.ite_none_left_eq_some] at taken
    obtain rfl := Option.some.inj taken.2
    exact ⟨accounted.accounts.walkBegin, accounted.settles⟩
  | walkEnd size failed =>
    simp only [Steps, DiskState.step, Option.ite_none_right_eq_some] at taken
    obtain rfl := Option.some.inj taken.2
    exact ⟨accounted.accounts.walkEnd size failed, accounted.settles⟩

theorem Initial.accounted (fresh : state.Initial) (final : Int → Prop) : state.Accounted final := by
  obtain ⟨reservedZero, notWalking, empty⟩ := fresh
  refine ⟨?_, by simp [empty]⟩
  rw [empty]
  exact ⟨le_rfl, by decide, reservedZero, by simp [notWalking]⟩

theorem accounted_of_disciplined (reached : Reachable Initial (Guarded Disciplined Steps) state) :
    state.Accounted Call.HoldsNothing := by
  refine reached.invariant (fun _ fresh => fresh.accounted _) ?_
  intro before label after accounted taken
  refine accounted.step (fun _ nothing => nothing.ge) taken.1.1 ?_ taken.2
  rintro request rfl
  exact Request.settles_zero taken.1.2

theorem Accounted.heldTotal_eq (accounted : state.Accounted Call.HoldsNothing) :
    state.heldTotal = Pool.total Process.held state.processes := by
  apply Pool.total_filter
  intro process member stopped
  obtain ⟨call, held⟩ := process
  have settled := accounted.settles _ member
  cases call with
  | returned => exact settled
  | _ => simp [Process.isRunning, Call.isReturned] at stopped

/-- `reserved` is the sum of what the calls hold, and so is `walkReserved` during a walk. -/
def LedgerAgrees (state : DiskState) : Prop := state.ledger.reserved = state.heldTotal ∧
    (state.ledger.walking = true → state.ledger.walkReserved = state.heldTotal)

/-- In every disciplined interleaving the ledger agrees with the running calls, so that nothing is
reserved when none runs. -/
theorem ledger_agrees_of_disciplined {state : DiskState}
    (reached : Reachable Initial (Guarded Disciplined Steps) state) : state.LedgerAgrees ∧
      (state.running = [] → state.ledger.reserved = 0) ∧
      ∀ size after, state.running = [] → InRange size →
        state.Steps (.walkEnd size false) after → after.ledger.unixFS.usage = size := by
  have accounted := accounted_of_disciplined reached
  have total := accounted.heldTotal_eq
  have idleTotal : state.running = [] → Pool.total Process.held state.processes = 0 := by
    intro idle
    rw [← total, heldTotal, idle, Pool.total_nil]
  refine ⟨⟨?_, ?_⟩, ?_, ?_⟩
  · rw [accounted.accounts.reserved_eq, total]
  · intro walking
    rw [accounted.accounts.walkReserved_eq walking, total]
  · intro idle
    rw [accounted.accounts.reserved_eq, idleTotal idle]
  · intro size after idle representable taken
    simp only [Steps, DiskState.step, Option.ite_none_right_eq_some] at taken
    obtain ⟨walking, stored⟩ := taken
    cases stored
    have idleAccounts := accounted.accounts
    rw [idleTotal idle] at idleAccounts
    exact idleAccounts.walkEnd_usage walking representable

/-- A filesystem without a limit, before anything was written to it. -/
def unlimited : DiskState := ⟨⟨⟨0, 0⟩, 0, false, 0⟩, []⟩

theorem unlimited_initial : unlimited.Initial := ⟨rfl, rfl, rfl⟩

theorem ledger_agrees_after_write_during_walk :
    ∃ state after, Reachable Initial (Guarded Disciplined Steps) state ∧
      state.LedgerAgrees ∧ state.running = [] ∧ state.Steps (.walkEnd 10 false) after ∧
          after.ledger.unixFS.usage = 10 := by
  have start : Reachable Initial (Guarded Disciplined Steps) unlimited := .start unlimited_initial
  have opened := start.next (.spawn (.write 10 0 false)) ⟨⟨trivial, trivial⟩, rfl⟩
  have reserved := opened.next (.advance 0 .ok) ⟨⟨by
      rintro process ⟨⟩
      change (0 : Int) + wrap (10 - 0) ≤ maxInt64
      decide, trivial⟩, rfl⟩
  have walking := reserved.next .walkBegin ⟨⟨trivial, trivial⟩, rfl⟩
  have truncated := walking.next (.advance 0 .ok) ⟨⟨by rintro process ⟨⟩; trivial, trivial⟩, rfl⟩
  have copied := truncated.next (.advance 0 (.count 10))
    ⟨⟨by rintro process ⟨⟩; trivial, trivial⟩, rfl⟩
  have released := copied.next (.advance 0 .ok) ⟨⟨by rintro process ⟨⟩; trivial, trivial⟩, rfl⟩
  obtain ⟨agrees, _, walkStores⟩ := ledger_agrees_of_disciplined released
  exact ⟨_, _, released, agrees, rfl, rfl, walkStores 10 _ rfl (by decide) rfl⟩

/-- An upload that makes a file grow keeps its reservation for ever. -/
theorem ledger_disagrees_after_growing_upload : ∃ state, Reachable Initial Steps state ∧
      state.running = [] ∧ state.ledger.reserved = 10 ∧ ¬state.LedgerAgrees := by
  have start : Reachable Initial Steps unlimited := .start unlimited_initial
  refine ⟨_, start.execute [.spawn (.writeUpload 10 0), .advance 0 .ok, .advance 0 .ok,
      .advance 0 .ok, .advance 0 (.count 10), .advance 0 .ok] rfl,
    rfl, rfl, ?_⟩
  intro agrees
  exact absurd agrees.1 (by decide)

end Wings.Filesystem.DiskState
