import Wings.Filesystem.DiskSpace
import Wings.Library.Pool

/-!
# Writes through quota files

A write reserves, writes and releases. The kernel writes at the end of the file for a descriptor
opened for appending, while the reservation is computed from the offset of the descriptor. The disk
limit holds as long as no such offset is short of the end of the file.
-/

namespace Wings.Filesystem

open MachineInt Transition

inductive WriteOp
  | write
  | writeAt (off : Int)

namespace WriteOp

/-- Whether the method goes to a given offset and leaves that of the descriptor. -/
def isPositioned : WriteOp → Bool
  | .write => false
  | .writeAt _ => true

end WriteOp

structure PendingWrite where
  op : WriteOp
  off : Int
  len : Nat
  reserved : Int
  written : Option Nat

/-- Its open flags, the offset of its descriptor, its tracked size, and the write in progress. -/
structure QuotaFile where
  append : Bool
  offset : Nat
  size : Nat
  pending : Option PendingWrite

/-- A regular file on disk and the quota file it is open through, if any. -/
structure RegularFile where
  fileSize : Nat
  handle : Option QuotaFile

namespace RegularFile

/-- `Touch` with `openForWrite`: the size is read before a requested truncation. -/
def touch (file : RegularFile) (append truncate : Bool) : RegularFile where
  fileSize := if truncate then 0 else file.fileSize
  handle := some ⟨append, 0, file.fileSize, none⟩

def assumedOffset (handle : QuotaFile) : WriteOp → Int
  | .write => handle.offset
  | .writeAt off => off

def position (file : RegularFile) (handle : QuotaFile) (off : Int) : WriteOp → Int
  | .write => if handle.append then file.fileSize else off
  | .writeAt _ => off

/-- First part of `writeAtLocked`: reserve the growth of the file, or fail. -/
def reserve (fs : Ledger) (file : RegularFile) (handle : QuotaFile)
    (op : WriteOp) (off : Int) (len : Nat) : Option (Ledger × RegularFile) :=
  match quotaWriteEnd off len with
  | none => none
  | some stop =>
    let reserved := wrap (stop - handle.size)
    let pending : PendingWrite := ⟨op, off, len, reserved, none⟩
    let locked : RegularFile := { file with handle := some { handle with pending := some pending } }
    if 0 < reserved then
      match fs.reserveDisk reserved with
      | none => none
      | some after => some (after, locked)
    else some (fs, locked)

/-- Start `Write` or `WriteAt`. An empty write and a negative offset do not touch the ledger. -/
def begin (fs : Ledger) (file : RegularFile) (handle : QuotaFile) (op : WriteOp)
    (len : Nat) : Option (Ledger × RegularFile) :=
  let off := assumedOffset handle op
  if off < 0 then none
  else if len = 0 then some (fs, file)
  else reserve fs file handle op off len

/-- The system call of a pending write. A positioned write to an appending descriptor is refused. -/
def kernelWrite (file : RegularFile) (handle : QuotaFile)
    (pending : PendingWrite) (n : Nat) : RegularFile :=
  let written := if pending.op.isPositioned && handle.append then 0 else min n pending.len
  let target := (file.position handle pending.off pending.op).toNat
  { fileSize :=
      if 0 < written then max file.fileSize (target + written)
      else file.fileSize
    handle := some
      { handle with
        offset :=
          if 0 < written && !pending.op.isPositioned then target + written
          else handle.offset
        pending := some { pending with written := some written } } }

/-- Last part of `writeAtLocked`: track the new size and release the space. -/
def finish (fs : Ledger) (file : RegularFile) (handle : QuotaFile)
    (pending : PendingWrite) (n : Nat) : Ledger × RegularFile :=
  let writtenEnd := quotaWrittenEnd handle.size pending.off n
  let size := if writtenEnd > handle.size then writtenEnd.toNat else handle.size
  let ledger := if 0 < pending.reserved then
      fs.releaseDisk pending.reserved (quotaActual handle.size pending.off n)
    else fs
  (ledger, { file with handle := some { handle with size, pending := none } })

end RegularFile

structure FileState where
  ledger : Ledger
  files : List RegularFile

inductive FileLabel
  | touch (index : Nat) (append truncate : Bool)
  | begin (index : Nat) (op : WriteOp) (len : Nat)
  | kernelWrite (index : Nat) (n : Nat)
  | finish (index : Nat)

namespace FileState

def put (state : FileState) (index : Nat) (ledger : Ledger) (file : RegularFile) : FileState :=
  ⟨ledger, state.files.set index file⟩

/-- One move. A handle runs one write at a time. -/
def step (state : FileState) : FileLabel → Option FileState
  | .touch index append truncate =>
    match state.files[index]? with
    | some file =>
      if file.handle.isSome then none
      else some (state.put index state.ledger (file.touch append truncate))
    | none => none
  | .begin index op len =>
    match state.files[index]? with
    | some file =>
      match file.handle with
      | some handle =>
        if handle.pending.isSome then none
        else
          match file.begin state.ledger handle op len with
          | some (ledger, after) => some (state.put index ledger after)
          | none => some state
      | none => none
    | none => none
  | .kernelWrite index n =>
    match state.files[index]? with
    | some file =>
      match file.handle with
      | some handle =>
        match handle.pending with
        | some pending =>
          if pending.written.isSome then none
          else some (state.put index state.ledger (file.kernelWrite handle pending n))
        | none => none
      | none => none
    | none => none
  | .finish index =>
    match state.files[index]? with
    | some file =>
      match file.handle with
      | some handle =>
        match handle.pending with
        | some pending =>
          match pending.written with
          | some n =>
            let result := file.finish state.ledger handle pending n
            some (state.put index result.1 result.2)
          | none => none
        | none => none
      | none => none
    | none => none

def Steps (state : FileState) (label : FileLabel) (after : FileState) : Prop :=
  state.step label = some after

def bytesOnDisk (state : FileState) : Int :=
  Pool.total (fun file => (file.fileSize : Int)) state.files

/-- No file is open, and the cached usage is exact and within the limit. -/
structure Initial (limit : Int) (state : FileState) : Prop where
  limit_eq : state.ledger.unixFS.limit = limit
  usage_eq : state.ledger.unixFS.usage = state.bytesOnDisk
  usage_le : state.ledger.unixFS.usage ≤ limit
  closed : ∀ file ∈ state.files, file.handle = none

section Inversion

variable {state after : FileState}

theorem steps_touch (taken : state.Steps (.touch index append truncate) after) :
    ∃ file, state.files[index]? = some file ∧ file.handle = none ∧
    after = state.put index state.ledger (file.touch append truncate) := by
  simp only [Steps, step] at taken
  split at taken
  · rename_i file found
    split_ifs at taken with opened
    cases taken
    exact ⟨file, found, by simpa using opened, rfl⟩
  · cases taken

theorem steps_begin (taken : state.Steps (.begin index op len) after) :
    ∃ file handle, state.files[index]? = some file ∧
    file.handle = some handle ∧ handle.pending = none ∧ ((∃ ledger next,
    file.begin state.ledger handle op len = some (ledger, next) ∧
    after = state.put index ledger next) ∨
    (file.begin state.ledger handle op len = none ∧ after = state)) := by
  simp only [Steps, step] at taken
  split at taken
  · rename_i file found
    split at taken
    · rename_i handle opened
      split_ifs at taken with busy
      refine ⟨file, handle, found, opened, by simpa using busy, ?_⟩
      split at taken <;> rename_i begun <;> cases taken
      · exact .inl ⟨_, _, begun, rfl⟩
      · exact .inr ⟨begun, rfl⟩
    · cases taken
  · cases taken

theorem steps_kernelWrite (taken : state.Steps (.kernelWrite index n) after) :
    ∃ file handle pending, state.files[index]? = some file ∧
    file.handle = some handle ∧ handle.pending = some pending ∧ pending.written = none ∧
    after = state.put index state.ledger (file.kernelWrite handle pending n) := by
  simp only [Steps, step] at taken
  split at taken
  · rename_i file found
    split at taken
    · rename_i handle opened
      split at taken
      · rename_i pending busy
        split_ifs at taken with written
        cases taken
        exact ⟨file, handle, pending, found, opened, busy, by simpa using written, rfl⟩
      · cases taken
    · cases taken
  · cases taken

theorem steps_finish (taken : state.Steps (.finish index) after) :
    ∃ file handle pending n, state.files[index]? = some file ∧
    file.handle = some handle ∧ handle.pending = some pending ∧ pending.written = some n ∧
    after = state.put index (file.finish state.ledger handle pending n).1
    (file.finish state.ledger handle pending n).2 := by
  simp only [Steps, step] at taken
  split at taken
  · rename_i file found
    split at taken
    · rename_i handle opened
      split at taken
      · rename_i pending busy
        split at taken
        · rename_i n written
          cases taken
          exact ⟨file, handle, pending, n, found, opened, busy, written, rfl⟩
        · cases taken
      · cases taken
    · cases taken
  · cases taken

end Inversion

end FileState

namespace RegularFile

/-- The tracked size and the growth that a pending write has reserved. -/
def budget (file : RegularFile) : Int :=
  match file.handle with
  | none => file.fileSize
  | some handle =>
    match handle.pending with
    | none => handle.size
    | some pending => handle.size + Ledger.reservation pending.reserved

/-- End of the data after a pending write wrote `n` bytes. -/
def endAfter (handle : QuotaFile) (pending : PendingWrite) (n : Nat) : Int :=
  if 0 < n then max (handle.size : Int) (pending.off + n) else handle.size

/-- Before the system call the file is within the tracked size, and an appending write starts at its
end. After it the file ends where the written bytes do, if not before. -/
structure PendingTracked (file : RegularFile) (handle : QuotaFile)
    (pending : PendingWrite) : Prop where
  off_nonneg : 0 ≤ pending.off
  stop_le : pending.off + pending.len ≤ maxInt64
  reserved_eq : pending.reserved = pending.off + pending.len - handle.size
  unwritten : pending.written = none → (file.fileSize : Int) ≤ handle.size ∧
      file.position handle pending.off pending.op = pending.off
  written : ∀ n, pending.written = some n →
    n ≤ pending.len ∧ (file.fileSize : Int) ≤ endAfter handle pending n

/-- What is on disk is within the tracked size or the reach of the pending write. -/
def Tracked (file : RegularFile) : Prop :=
  match file.handle with
  | none => True
  | some handle =>
    match handle.pending with
    | none => file.fileSize ≤ handle.size
    | some pending => file.PendingTracked handle pending

theorem budget_nonneg (file : RegularFile) : 0 ≤ file.budget := by
  unfold budget
  split
  · omega
  · split
    · omega
    · rename_i pending _
      have := Ledger.reservation_nonneg pending.reserved
      omega

theorem Tracked.fileSize_le_budget {file : RegularFile}
    (tracked : file.Tracked) : (file.fileSize : Int) ≤ file.budget := by
  unfold Tracked at tracked
  unfold budget
  cases opened : file.handle with
  | none => simp
  | some handle =>
    cases busy : handle.pending with
    | none =>
      simp only [opened, busy] at tracked ⊢
      exact_mod_cast tracked
    | some pending =>
      simp only [opened, busy] at tracked ⊢
      have reservedEqual := tracked.reserved_eq
      have covers : handle.size + pending.reserved ≤
          handle.size + Ledger.reservation pending.reserved := by
        simp [Ledger.reservation]
      have nonnegative := Ledger.reservation_nonneg pending.reserved
      cases done : pending.written with
      | none =>
        have within := (tracked.unwritten done).1
        omega
      | some n =>
        obtain ⟨short, within⟩ := tracked.written n done
        unfold endAfter at within
        split_ifs at within <;> omega

section Touch

variable (file : RegularFile) (append truncate : Bool)

theorem budget_touch (closed : file.handle = none) :
    (file.touch append truncate).budget = file.budget := by
  simp [budget, touch, closed]

theorem tracked_touch : (file.touch append truncate).Tracked := by
  simp only [Tracked, touch]
  split_ifs <;> omega

end Touch

section KernelWrite

variable {file : RegularFile} {handle : QuotaFile}

theorem budget_kernelWrite (opened : file.handle = some handle)
    (busy : handle.pending = some pending) (n : Nat) :
    (file.kernelWrite handle pending n).budget = file.budget := by
  simp [budget, kernelWrite, opened, busy]

theorem tracked_kernelWrite (tracked : file.PendingTracked handle pending)
    (unwritten : pending.written = none) (n : Nat) :
    (file.kernelWrite handle pending n).Tracked := by
  obtain ⟨within, atOffset⟩ := tracked.unwritten unwritten
  have offNonnegative := tracked.off_nonneg
  refine ⟨tracked.off_nonneg, tracked.stop_le, tracked.reserved_eq, by simp, ?_⟩
  intro m stored
  simp only [Option.some.injEq] at stored
  subst stored
  constructor
  · change _ ≤ pending.len
    split_ifs <;> omega
  · simp only [kernelWrite, atOffset, endAfter]
    split_ifs <;> push_cast <;> omega

end KernelWrite

end RegularFile

open RegularFile (assumedOffset budget Tracked)

namespace FileState

structure Sound (limit : Int) (state : FileState) : Prop where
  limit_eq : state.ledger.unixFS.limit = limit
  usage_eq : state.ledger.unixFS.usage = Pool.total budget state.files
  usage_le : state.ledger.unixFS.usage ≤ limit
  tracked : ∀ file ∈ state.files, file.Tracked

namespace Sound

variable {state : FileState} {index : Nat}

section

variable (sound : state.Sound limit)
include sound

theorem usage_nonneg : 0 ≤ state.ledger.unixFS.usage := by
  rw [sound.usage_eq]
  exact Pool.total_nonneg fun file _ => file.budget_nonneg

theorem budget_le_usage (found : state.files[index]? = some file) :
    file.budget ≤ state.ledger.unixFS.usage := by
  rw [sound.usage_eq]
  exact Pool.weight_le_total (fun file _ => file.budget_nonneg) (List.mem_of_getElem? found)

theorem bytesOnDisk_add_slack_le
    (found : state.files[index]? = some file) : state.bytesOnDisk - file.fileSize + file.budget ≤
    state.ledger.unixFS.usage := by
  rw [sound.usage_eq, bytesOnDisk]
  exact Pool.total_exchange_le
    (fun file member => (sound.tracked file member).fileSize_le_budget) found

theorem bytesOnDisk_le : state.bytesOnDisk ≤ limit := by
  refine le_trans ?_ sound.usage_le
  rw [sound.usage_eq, bytesOnDisk]
  exact Pool.total_le_total fun file member =>
    (sound.tracked file member).fileSize_le_budget

theorem put (found : state.files[index]? = some file) {ledger : Ledger}
    {after : RegularFile} (sameLimit : ledger.unixFS.limit = limit)
    (usageFollows : ledger.unixFS.usage = state.ledger.unixFS.usage - file.budget + after.budget)
    (within : ledger.unixFS.usage ≤ limit)
    (tracked : after.Tracked) : (state.put index ledger after).Sound limit where
  limit_eq := sameLimit
  usage_eq := by
    simp only [FileState.put]
    rw [usageFollows, sound.usage_eq, Pool.total_set _ found]
  usage_le := within
  tracked := Pool.forall_mem_set sound.tracked index tracked

end

section Moves

variable (limitBounded : limit ≤ maxInt64) (sound : state.Sound limit)
  (found : state.files[index]? = some file) (opened : file.handle = some handle)

include limitBounded sound found opened

theorem reserved_exact (idle : handle.pending = none) (stopNonnegative : 0 ≤ stop)
    (stopBounded : stop ≤ maxInt64) : wrap (stop - handle.size) = stop - handle.size := by
  have counted := sound.budget_le_usage found
  have within := sound.usage_le
  simp only [budget, opened, idle] at counted
  exact wrap_sub_eq_self stopNonnegative stopBounded (by omega) (by omega)

variable {len : Nat}

theorem begin (limitPositive : 0 < limit) (idle : handle.pending = none)
    (aligned : file.position handle (assumedOffset handle op) op =
    assumedOffset handle op) {ledger : Ledger} {next : RegularFile}
    (begun : file.begin state.ledger handle op len = some (ledger, next)) :
    (state.put index ledger next).Sound limit := by
  have tracked := sound.tracked file (List.mem_of_getElem? found)
  have limitEqual := sound.limit_eq
  have usageNonnegative := sound.usage_nonneg
  have budgetEqual : file.budget = handle.size := by
    simp [budget, opened, idle]
  have withinSize : (file.fileSize : Int) ≤ handle.size := by
    simpa [Tracked, opened, idle] using tracked
  simp only [RegularFile.begin] at begun
  split_ifs at begun with negative empty
  · cases begun
    exact sound.put found limitEqual (by omega) sound.usage_le tracked
  · simp only [RegularFile.reserve] at begun
    cases ends : quotaWriteEnd (assumedOffset handle op) len with
    | none => simp [ends] at begun
    | some stop =>
      obtain ⟨rfl, stopBounded⟩ := quotaWriteEnd_eq_some ends
      have exact := sound.reserved_exact limitBounded found opened idle (by omega) stopBounded
      have offNonnegative : 0 ≤ assumedOffset handle op := Int.not_lt.1 negative
      have pendingTracked : ∀ reserved, reserved = assumedOffset handle op + len -
            handle.size →
          Tracked { file with handle := some { handle with
            pending := some ⟨op, assumedOffset handle op, len, reserved, none⟩ } } :=
        fun reserved reservedEqual =>
          ⟨offNonnegative, stopBounded, reservedEqual, fun _ => ⟨withinSize, aligned⟩, by simp⟩
      simp only [ends, exact] at begun
      split_ifs at begun with grows
      · cases granted : state.ledger.reserveDisk
            (assumedOffset handle op + len - handle.size) with
        | none => simp [granted] at begun
        | some after =>
          simp only [granted] at begun
          cases begun
          obtain ⟨sameLimit, usageEqual, fits⟩ := Ledger.reserveDisk_usage
            (by omega) (by omega) usageNonnegative grows granted
          refine sound.put found (by omega) ?_ (by omega) (pendingTracked _ rfl)
          simp only [budget, Ledger.reservation, max_eq_left grows.le] at budgetEqual ⊢
          omega
      · cases begun
        refine sound.put found limitEqual ?_ sound.usage_le (pendingTracked _ rfl)
        simp only [budget, Ledger.reservation, max_eq_right (Int.not_lt.1 grows)] at budgetEqual ⊢
        omega

theorem finish (busy : handle.pending = some pending) (done : pending.written = some n) :
    (state.put index (file.finish state.ledger handle pending n).1
    (file.finish state.ledger handle pending n).2).Sound limit := by
  have tracked := sound.tracked file (List.mem_of_getElem? found)
  simp only [Tracked, opened, busy] at tracked
  obtain ⟨short, endBound⟩ := tracked.written n done
  have stopBounded := tracked.stop_le
  have reservedEqual := tracked.reserved_eq
  have usageBounded := sound.usage_le
  have counted := sound.budget_le_usage found
  have writtenEqual := quotaWrittenEnd_eq (handle.size : Int)
    (show pending.off + n ≤ maxInt64 by omega)
  have budgetEqual : file.budget = handle.size + Ledger.reservation pending.reserved := by
    simp [budget, opened, busy]
  have nextTracked : (file.finish state.ledger handle pending n).2.Tracked := by
    simp only [Tracked, RegularFile.finish, writtenEqual]
    simp only [RegularFile.endAfter] at endBound
    split_ifs at endBound ⊢ <;> omega
  by_cases grows : 0 < pending.reserved
  · have reservationEqual : Ledger.reservation pending.reserved =
        pending.reserved := max_eq_left grows.le
    have actualBounds : 0 ≤ quotaActual handle.size pending.off n ∧
          quotaActual handle.size pending.off n ≤ pending.reserved := by
      simp only [quotaActual, writtenEqual]
      split_ifs <;> omega
    have usageEqual : (state.ledger.releaseDisk pending.reserved
        (quotaActual handle.size pending.off n)).unixFS.usage = state.ledger.unixFS.usage +
            quotaActual handle.size pending.off n - pending.reserved :=
      Ledger.releaseDisk_exact grows.le (by omega) (by omega) (by omega) (by omega)
    refine sound.put found ?_ ?_ ?_ nextTracked
    · simpa [RegularFile.finish, if_pos grows] using sound.limit_eq
    · simp only [RegularFile.finish, if_pos grows, usageEqual]
      simp only [budget, quotaActual, writtenEqual, opened, busy, reservationEqual] at budgetEqual ⊢
      split_ifs <;> omega
    · simp only [RegularFile.finish, if_pos grows, usageEqual]
      omega
  · have reservationEqual : Ledger.reservation pending.reserved = 0 :=
      max_eq_right (Int.not_lt.1 grows)
    refine sound.put found ?_ ?_ ?_ nextTracked
    · simpa [RegularFile.finish, if_neg grows] using sound.limit_eq
    · simp only [RegularFile.finish, if_neg grows]
      simp only [budget, writtenEqual, opened, busy, reservationEqual] at budgetEqual ⊢
      split_ifs <;> omega
    · simpa [RegularFile.finish, if_neg grows] using sound.usage_le

theorem begin_eq_none (limitPositive : 0 < limit) (idle : handle.pending = none)
    (nonempty : 0 < len) (exceeds : limit < state.bytesOnDisk - file.fileSize +
    max (file.fileSize : Int) (assumedOffset handle op + len)) :
    file.begin state.ledger handle op len = none := by
  have slack := sound.bytesOnDisk_add_slack_le found
  have limitEqual := sound.limit_eq
  have usageBounded := sound.usage_le
  have budgetEqual : file.budget = handle.size := by
    simp [budget, opened, idle]
  have withinSize := (sound.tracked file (List.mem_of_getElem? found)).fileSize_le_budget
  simp only [RegularFile.begin]
  split_ifs with negative empty
  · rfl
  · omega
  · simp only [RegularFile.reserve]
    cases ends : quotaWriteEnd (assumedOffset handle op) len with
    | none => rfl
    | some stop =>
      obtain ⟨rfl, stopBounded⟩ := quotaWriteEnd_eq_some ends
      have exact := sound.reserved_exact limitBounded found opened idle (by omega) stopBounded
      have grows : 0 < assumedOffset handle op + len - handle.size := by
        omega
      have refused := (Ledger.reserveDisk_eq_none_iff (by omega)
        (by omega) sound.usage_nonneg grows).2 (by omega)
      simp only [exact, if_pos grows, refused]

end Moves

end Sound

/-- No write through an appending descriptor whose offset is away from the end. -/
def AppendsAtEnd (state : FileState) : FileLabel → Prop
  | .begin index .write _ =>
    ∀ file handle, state.files[index]? = some file →
      file.handle = some handle → handle.append = true → handle.offset = file.fileSize
  | _ => True

variable {state : FileState}

theorem AppendsAtEnd.aligned (atEnd : state.AppendsAtEnd (.begin index op len))
    (found : state.files[index]? = some file) (opened : file.handle = some handle) :
    file.position handle (assumedOffset handle op) op = assumedOffset handle op := by
  cases op with
  | writeAt off => rfl
  | write =>
    simp only [RegularFile.position, assumedOffset]
    split_ifs with append
    · rw [atEnd file handle found opened append]
    · rfl

theorem Sound.step (limitPositive : 0 < limit) (limitBounded : limit ≤ maxInt64)
    (sound : state.Sound limit)
    (atEnd : state.AppendsAtEnd label) (taken : state.Steps label after) : after.Sound limit := by
  cases label with
  | touch index append truncate =>
    obtain ⟨file, found, closed, rfl⟩ := steps_touch taken
    have sameBudget := file.budget_touch append truncate closed
    exact sound.put found sound.limit_eq (by omega) sound.usage_le
      (file.tracked_touch append truncate)
  | begin index op len =>
    obtain ⟨file, handle, found, opened, idle, begun | refused⟩ := steps_begin taken
    · obtain ⟨ledger, next, begun, rfl⟩ := begun
      exact sound.begin limitBounded found opened limitPositive idle
        (atEnd.aligned found opened) begun
    · obtain ⟨_, rfl⟩ := refused
      exact sound
  | kernelWrite index n =>
    obtain ⟨file, handle, pending, found, opened, busy, unwritten, rfl⟩ := steps_kernelWrite taken
    have tracked := sound.tracked file (List.mem_of_getElem? found)
    simp only [Tracked, opened, busy] at tracked
    have sameBudget := RegularFile.budget_kernelWrite opened busy n
    exact sound.put found sound.limit_eq (by omega) sound.usage_le
      (RegularFile.tracked_kernelWrite tracked unwritten n)
  | finish index =>
    obtain ⟨file, handle, pending, n, found, opened, busy, done, rfl⟩ := steps_finish taken
    exact sound.finish limitBounded found opened busy done

theorem Initial.sound (initial : state.Initial limit) : state.Sound limit where
  limit_eq := initial.limit_eq
  usage_eq := by
    rw [initial.usage_eq, bytesOnDisk, Pool.total, Pool.total,
      List.map_congr_left fun file member => ?_]
    simp [budget, initial.closed file member]
  usage_le := initial.usage_le
  tracked := by
    intro file member
    simp [Tracked, initial.closed file member]

def bytesAfter (state : FileState) (file : RegularFile) (handle : QuotaFile)
    (op : WriteOp) (len : Nat) : Int := state.bytesOnDisk - file.fileSize +
    max (file.fileSize : Int) (file.position handle (assumedOffset handle op) op + len)

/-- If files are only appended to at their end, the bytes on disk stay within the limit, and a write
above it fails and changes nothing. -/
theorem bytesOnDisk_le_limit_of_appendsAtEnd {limit : Int}
    (limitPositive : 0 < limit) (limitBounded : limit ≤ maxInt64) {state : FileState}
    (reached : Reachable (Initial limit) (Guarded AppendsAtEnd Steps) state) :
    state.bytesOnDisk ≤ limit ∧ ∀ index file handle op len,
        state.files[index]? = some file → file.handle = some handle →
        handle.pending = none → 0 < len →
        state.AppendsAtEnd (.begin index op len) →
        limit < state.bytesAfter file handle op len → file.begin state.ledger handle op len = none ∧
            state.step (.begin index op len) = some state := by
  have sound : state.Sound limit := reached.invariant (fun _ initial => initial.sound)
      fun _ _ _ sound taken =>
        sound.step limitPositive limitBounded taken.1 taken.2
  refine ⟨sound.bytesOnDisk_le, ?_⟩
  intro index file handle op len found opened idle nonempty atEnd exceeds
  rw [bytesAfter, atEnd.aligned found opened] at exceeds
  have refused := sound.begin_eq_none limitBounded found opened limitPositive idle nonempty exceeds
  exact ⟨refused, by simp [step, found, opened, idle, refused]⟩

def oneFile (limit : Int) : FileState := ⟨⟨⟨limit, 10⟩, 0, false, 0⟩, [⟨10, none⟩]⟩

theorem oneFile_initial (within : 10 ≤ limit) : (oneFile limit).Initial limit where
  limit_eq := rfl
  usage_eq := rfl
  usage_le := within
  closed := by simp [oneFile]

theorem bytesOnDisk_le_limit_of_overwrite :
    ∃ state, Reachable (Initial 12) (Guarded AppendsAtEnd Steps) state ∧
      state.bytesOnDisk = 12 ∧ state.bytesOnDisk ≤ 12 ∧
        state.step (.begin 0 .write 1) = some state := by
  have start : Reachable (Initial 12) (Guarded AppendsAtEnd Steps)
      (oneFile 12) := .start (oneFile_initial (by decide))
  have opened := start.next (.touch 0 false false) ⟨trivial, rfl⟩
  have begun := opened.next (.begin 0 .write 12) ⟨by rintro file handle ⟨⟩ ⟨⟩ ⟨⟩, rfl⟩
  have written := begun.next (.kernelWrite 0 12) ⟨trivial, rfl⟩
  have finished := written.next (.finish 0) ⟨trivial, rfl⟩
  obtain ⟨within, refused⟩ := bytesOnDisk_le_limit_of_appendsAtEnd (by decide) (by decide) finished
  exact ⟨_, finished, rfl, within, (refused 0 _ _ .write 1 rfl rfl rfl (by decide)
      (by rintro file handle ⟨⟩ ⟨⟩ ⟨⟩) (by decide)).2⟩

/-- Appending five bytes starts at offset zero, so that nothing is reserved. -/
theorem bytesOnDisk_above_limit_after_append : ∃ state, Reachable (Initial 12) Steps state ∧
      12 < state.bytesOnDisk := by
  have start : Reachable (Initial 12) Steps (oneFile 12) := .start (oneFile_initial (by decide))
  exact ⟨_, start.execute [.touch 0 true false, .begin 0 .write 5, .kernelWrite 0 5, .finish 0] rfl,
    by decide⟩

end FileState

end Wings.Filesystem
