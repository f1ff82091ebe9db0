import Wings.Filesystem.Volume

/-!
# The cached usage stays exact

While a file is open, the usage counts the size that its quota file tracks, and `Close` puts the
size of the file in its place. There are two exceptions: `Replace` subtracts the size of the file
whose name it takes over, also when that file stays, and without a disk limit a usage above the
largest integer is counted for less than it releases.
-/

namespace Wings.Filesystem.Volume

open MachineInt
open RegularFile (assumedOffset)

/-- How far a write may reach beyond the offset of the descriptor. -/
def FileWrite.reach (call : FileWrite) : Int :=
  match call.op with
  | .write => call.len
  | .writeAt off => max off 0 + call.len

theorem FileWrite.reach_nonneg (call : FileWrite) : 0 ≤ call.reach := by
  unfold reach
  split <;> omega

/-- The ledger counts a file by its tracked size, next to `others` bytes. -/
structure Held (append : Bool) (limit others reach : Int)
    (state : Ledger × RegularFile) (handle : QuotaFile) : Prop where
  opened : state.2.handle = some handle
  idle : handle.pending = none
  mode : handle.append = append
  limit_eq : state.1.unixFS.limit = limit
  usage_eq : state.1.unixFS.usage = others + handle.size
  bounded : state.1.unixFS.usage ≤ maxInt64
  offset_le : (handle.offset : Int) ≤ reach
  fileSize_le : (state.2.fileSize : Int) ≤ reach
  tracked : append = false → state.2.fileSize ≤ handle.size

theorem Held.mono (held : Held append limit others reach state handle) (longer : reach ≤ further) :
    Held append limit others further state handle :=
  { held with
    offset_le := held.offset_le.trans longer
    fileSize_le := held.fileSize_le.trans longer }

def pendingOf (handle : QuotaFile) (call : FileWrite) : PendingWrite where
  op := call.op
  off := assumedOffset handle call.op
  len := call.len
  reserved := wrap (assumedOffset handle call.op + call.len - handle.size)
  written := none

def withPending (file : RegularFile) (handle : QuotaFile) (pending : PendingWrite) : RegularFile :=
  { file with handle := some { handle with pending := some pending } }

variable {ledger : Ledger} {call : FileWrite}

theorem reserve_eq_some (granted : file.reserve ledger handle call.op
      (assumedOffset handle call.op) call.len = some (reserved, locked)) :
    assumedOffset handle call.op + call.len ≤ maxInt64 ∧
      (if 0 < (pendingOf handle call).reserved then
          ledger.reserveDisk (pendingOf handle call).reserved
        else some ledger) = some reserved ∧
      locked = withPending file handle (pendingOf handle call) := by
  rw [RegularFile.reserve] at granted
  cases stops : quotaWriteEnd (assumedOffset handle call.op)
      call.len with
  | none => simp [stops] at granted
  | some stop =>
    obtain ⟨rfl, representable⟩ := quotaWriteEnd_eq_some stops
    refine ⟨representable, ?_⟩
    simp only [stops] at granted
    split_ifs at granted with grows
    · rw [if_pos (show 0 < (pendingOf handle call).reserved from grows)]
      split at granted
      · cases granted
      · rename_i after isGranted
        cases granted
        exact ⟨isGranted, rfl⟩
    · rw [if_neg (show ¬0 < (pendingOf handle call).reserved from grows)]
      cases granted
      exact ⟨rfl, rfl⟩

theorem quotaWrite_eq_some (opened : file.handle = some handle) (idle : handle.pending = none)
    (written : quotaWrite (ledger, file) call = some after) : after = (ledger, file) ∨
      0 ≤ assumedOffset handle call.op ∧
      assumedOffset handle call.op + call.len ≤ maxInt64 ∧ ∃ reserved,
        (if 0 < (pendingOf handle call).reserved then
            ledger.reserveDisk (pendingOf handle call).reserved
          else some ledger) = some reserved ∧
        after = completeWrite reserved
          (withPending file handle (pendingOf handle call)) call.written := by
  simp only [quotaWrite, opened] at written
  split at written
  · cases written
  · rename_i reserved locked begun
    cases written
    simp only [RegularFile.begin] at begun
    split_ifs at begun with negative empty
    · left
      cases begun
      simp only [completeWrite, opened, idle]
    · right
      obtain ⟨representable, granted, rfl⟩ := reserve_eq_some begun
      exact ⟨by omega, representable, reserved, granted, rfl⟩

/-- The size that is tracked after a write of `n` bytes. -/
def trackedAfter (handle : QuotaFile) (off : Int) (n : Nat) : Nat :=
  if quotaWrittenEnd handle.size off n > handle.size then
    (quotaWrittenEnd handle.size off n).toNat
  else handle.size

def writtenBy (handle : QuotaFile) (call : FileWrite) : Nat :=
  if call.op.isPositioned && handle.append then 0
  else min call.written call.len

theorem completeWrite_eq (ledger : Ledger) (file : RegularFile)
    (handle : QuotaFile) (call : FileWrite) :
    completeWrite ledger (withPending file handle (pendingOf handle call)) call.written =
      (if 0 < (pendingOf handle call).reserved then
          ledger.releaseDisk (pendingOf handle call).reserved
            (quotaActual handle.size (pendingOf handle call).off (writtenBy handle call))
        else ledger,
        { fileSize :=
            if 0 < writtenBy handle call then
              max file.fileSize ((file.position handle (pendingOf handle call).off
                  call.op).toNat + writtenBy handle call)
            else file.fileSize
          handle := some
            { handle with
              offset := if 0 < writtenBy handle call && !call.op.isPositioned then
                  (file.position handle (pendingOf handle call).off
                    call.op).toNat + writtenBy handle call
                else handle.offset
              size := trackedAfter handle (pendingOf handle call).off (writtenBy handle call)
              pending := none } }) := by
  rfl

section Write

theorem Held.size_le (held : Held append limit others reach state handle)
    (othersNonnegative : 0 ≤ others) : (handle.size : Int) ≤ maxInt64 := by
  have usage := held.usage_eq
  have bounded := held.bounded
  omega

theorem reserved_pendingOf (offNonnegative : 0 ≤ assumedOffset handle call.op)
    (representable : assumedOffset handle call.op + call.len ≤ maxInt64)
    (sizeBounded : (handle.size : Int) ≤ maxInt64) : (pendingOf handle call).reserved =
    assumedOffset handle call.op + call.len - handle.size := by
  exact wrap_sub_eq_self (by omega) representable (by omega) sizeBounded

variable {n : Nat}

theorem trackedAfter_eq (handle : QuotaFile) (offNonnegative : 0 ≤ off)
    (representable : off + n ≤ maxInt64) : (trackedAfter handle off n : Int) =
      if 0 < n then max (handle.size : Int) (off + n) else handle.size := by
  unfold trackedAfter quotaWrittenEnd
  by_cases wrote : 0 < n
  · rw [if_pos wrote, if_pos wrote, quotaWriteEnd_of_le representable, Option.getD_some]
    split_ifs <;> omega
  · rw [if_neg wrote, if_neg wrote, if_neg (lt_irrefl _)]

theorem quotaActual_eq (handle : QuotaFile) (representable : off + n ≤ maxInt64) :
    quotaActual handle.size off n = trackedAfter handle off n - handle.size := by
  unfold quotaActual trackedAfter quotaWrittenEnd
  by_cases wrote : 0 < n
  · rw [if_pos wrote, quotaWriteEnd_of_le representable, Option.getD_some]
    dsimp only
    split_ifs <;> omega
  · rw [if_neg wrote]
    rw [if_neg (lt_irrefl _), if_neg (lt_irrefl _), Int.sub_self]

theorem writtenBy_le (handle : QuotaFile) (call : FileWrite) :
    writtenBy handle call ≤ call.len := by
  unfold writtenBy
  split_ifs <;> omega

theorem position_eq (file : RegularFile) (handle : QuotaFile) (call : FileWrite) :
    file.position handle (pendingOf handle call).off call.op =
      if call.op.isPositioned = false ∧ handle.append = true then
        (file.fileSize : Int)
      else assumedOffset handle call.op := by
  rw [pendingOf]
  cases call.op with
  | write =>
    rw [RegularFile.position, WriteOp.isPositioned]
    simp only [true_and]
  | writeAt off => rfl

theorem FileWrite.reach_of_not_isPositioned (moves : call.op.isPositioned = false) :
    call.reach = call.len := by
  unfold reach
  cases isOp : call.op with
  | write => rfl
  | writeAt off =>
    rw [isOp] at moves
    cases moves

section

variable (held : Held append limit others reach state handle)
include held

theorem Held.end_le (call : FileWrite) :
    assumedOffset handle call.op + call.len ≤ reach + call.reach := by
  have offset := held.offset_le
  unfold assumedOffset FileWrite.reach
  cases call.op with
  | write | writeAt off =>
    dsimp only
    omega

theorem Held.ledger_after_write (othersNonnegative : 0 ≤ others) (limitBounded : limit ≤ maxInt64)
    (fits : limit ≠ 0 ∨ others + (reach + call.reach) ≤ maxInt64)
    (offNonnegative : 0 ≤ assumedOffset handle call.op) (representable :
      assumedOffset handle call.op + call.len ≤ maxInt64) (granted :
        (if 0 < (pendingOf handle call).reserved then
        state.1.reserveDisk (pendingOf handle call).reserved
      else some state.1) = some reserved) :
    ∃ ledger : Ledger, (if 0 < (pendingOf handle call).reserved then
          reserved.releaseDisk (pendingOf handle call).reserved
            (quotaActual handle.size (pendingOf handle call).off (writtenBy handle call))
        else reserved) = ledger ∧
      ledger.unixFS.limit = limit ∧
      ledger.unixFS.usage = others +
        trackedAfter handle (pendingOf handle call).off (writtenBy handle call) ∧
      ledger.unixFS.usage ≤ maxInt64 := by
  have growth := reserved_pendingOf offNonnegative representable (held.size_le othersNonnegative)
  have short := writtenBy_le handle call
  have within : assumedOffset handle call.op + writtenBy handle call ≤
      maxInt64 := by omega
  have tracked := trackedAfter_eq handle offNonnegative within
  have actual := quotaActual_eq handle within
  have ends := held.end_le call
  have usage := held.usage_eq
  have bounded := held.bounded
  have usageNonnegative : 0 ≤ state.1.unixFS.usage := by omega
  refine ⟨_, rfl, ?_⟩
  change _ ∧ _ = others + ((trackedAfter handle
    (assumedOffset handle call.op) _ : Nat) : Int) ∧ _
  by_cases grows : 0 < (pendingOf handle call).reserved
  · rw [if_pos grows] at granted ⊢
    have room : state.1.Fits (pendingOf handle call).reserved := by
      rcases fits with limited | fits
      · exact .inl (held.limit_eq ▸ limited)
      · right
        omega
    obtain ⟨usageReserved, boundedReserved, limitReserved⟩ :=
      Ledger.reserveDisk_exact granted usageNonnegative bounded (held.limit_eq ▸ limitBounded) room
    rw [Ledger.reservation, max_eq_left grows.le] at usageReserved
    have released : (reserved.releaseDisk (pendingOf handle call).reserved
        (quotaActual handle.size (pendingOf handle call).off
          (writtenBy handle call))).unixFS.usage = reserved.unixFS.usage + quotaActual handle.size
          (assumedOffset handle call.op) (writtenBy handle call) -
          (pendingOf handle call).reserved := by
      apply Ledger.releaseDisk_exact grows.le
      · omega
      · exact boundedReserved
      · change 0 ≤ _ + quotaActual _ (assumedOffset handle call.op) _ - _
        omega
      · change _ + quotaActual _ (assumedOffset handle call.op) _ - _ ≤ _
        omega
    refine ⟨limitReserved.trans held.limit_eq, ?_, ?_⟩ <;> omega
  · rw [if_neg grows] at granted ⊢
    cases granted
    have same : (trackedAfter handle (assumedOffset handle call.op)
        (writtenBy handle call) : Int) = handle.size := by
      rw [tracked]
      split_ifs <;> omega
    refine ⟨held.limit_eq, ?_, bounded⟩
    rw [same]
    exact usage

theorem Held.write (othersNonnegative : 0 ≤ others) (limitBounded : limit ≤ maxInt64)
    (fits : limit ≠ 0 ∨ others + (reach + call.reach) ≤ maxInt64)
    (written : quotaWrite state call = some after) :
    ∃ moved, Held append limit others (reach + call.reach) after moved := by
  rcases quotaWrite_eq_some held.opened held.idle written with
    rfl | ⟨offNonnegative, representable, reserved, granted, rfl⟩
  · exact ⟨handle, held.mono (by have := call.reach_nonneg; omega)⟩
  · obtain ⟨ledger, isLedger, limitAfter, usageAfter, boundedAfter⟩ :=
      held.ledger_after_write othersNonnegative limitBounded fits offNonnegative
        representable granted
    rw [completeWrite_eq, isLedger]
    have short := writtenBy_le handle call
    have within : assumedOffset handle call.op +
        writtenBy handle call ≤ maxInt64 := by omega
    have tracked := trackedAfter_eq handle offNonnegative within
    have ends := held.end_le call
    have reachNonnegative := call.reach_nonneg
    have offset := held.offset_le
    have fileSize := held.fileSize_le
    have target : (state.2.position handle (pendingOf handle call).off
        call.op).toNat + writtenBy handle call ≤ reach + call.reach := by
      rw [position_eq]
      split_ifs with appends
      · rw [FileWrite.reach_of_not_isPositioned appends.1]
        omega
      · omega
    refine ⟨_, rfl, rfl, held.mode, limitAfter, usageAfter, boundedAfter, ?_, ?_, ?_⟩
    · dsimp only
      split_ifs <;> omega
    · dsimp only
      split_ifs <;> omega
    · intro overwrites
      have before := held.tracked overwrites
      have notAppended : ¬(call.op.isPositioned = false ∧ handle.append = true) := by
        rw [held.mode, overwrites]
        exact fun both => nomatch both.2
      dsimp only
      rw [position_eq, if_neg notAppended]
      change _ ≤ trackedAfter handle (assumedOffset handle call.op) _
      split_ifs at tracked ⊢ <;> omega

end

end Write

/-- How far several writes may reach beyond the offset of the descriptor. -/
def reachOf (calls : List FileWrite) : Int := (calls.map FileWrite.reach).sum

theorem reachOf_nonneg (calls : List FileWrite) : 0 ≤ reachOf calls := by
  apply List.sum_nonneg
  intro reach member
  obtain ⟨call, _, rfl⟩ := List.mem_map.mp member
  exact call.reach_nonneg

section Runs

theorem Held.writes (held : Held append limit others reach state handle)
    (othersNonnegative : 0 ≤ others) (limitBounded : limit ≤ maxInt64)
    (fits : limit ≠ 0 ∨ others + (reach + reachOf calls) ≤ maxInt64) : ∃ moved,
    Held append limit others (reach + reachOf calls) (quotaWrites state calls) moved := by
  induction calls generalizing state handle reach with
  | nil => exact ⟨handle, held.mono (by simp [reachOf])⟩
  | cons call rest ih =>
    have split : reach + reachOf (call :: rest) = reach + call.reach + reachOf rest := by
      rw [reachOf, List.map_cons, List.sum_cons, reachOf, Int.add_assoc]
    have later := reachOf_nonneg rest
    have now := call.reach_nonneg
    rw [split] at fits ⊢
    rw [quotaWrites, List.foldl_cons]
    cases written : quotaWrite state call with
    | none =>
      have refused : Held append limit others (reach + call.reach) state
          handle := held.mono (by omega)
      exact ih refused fits
    | some after =>
      obtain ⟨moved, kept⟩ := held.write othersNonnegative limitBounded
        (fits.imp_right fun fits => by omega) written
      exact ih kept fits

theorem Held.readFrom (held : Held append limit others reach state handle)
    (othersNonnegative : 0 ≤ others) (limitBounded : limit ≤ maxInt64)
    (fits : limit ≠ 0 ∨ others + (reach + chunks.sum) ≤ maxInt64) (err : Option Archives.Failure) :
    ∃ moved, Held append limit others (reach + chunks.sum) (readFrom state chunks err).2 moved := by
  induction chunks generalizing state handle reach with
  | nil => exact ⟨handle, held.mono (by simp)⟩
  | cons len rest ih =>
    have split : reach + ((len :: rest).sum : Nat) = reach + len + (rest.sum : Nat) := by
      rw [List.sum_cons]
      omega
    rw [split] at fits ⊢
    rw [Volume.readFrom]
    cases written : quotaWrite state ⟨.write, len, len⟩ with
    | none => exact ⟨handle, held.mono (by omega)⟩
    | some after =>
      obtain ⟨moved, kept⟩ := held.write othersNonnegative limitBounded
        (fits.imp_right fun fits => by
          dsimp only [FileWrite.reach]
          omega) written
      exact ih kept fits

end Runs

def Exact (volume : Volume) : Prop := Books volume.ledger volume.inodes volume.tree.contents

section Session

variable {volume : Volume}

def othersOf (volume : Volume) (number : Nat) : Int :=
  volume.ledger.unixFS.usage - (volume.inodes number).size

theorem Exact.othersOf_nonneg (exact : volume.Exact)
    (member : number ∈ volume.tree.contents) : 0 ≤ volume.othersOf number := by
  have within := exact.size_le_usage member
  unfold othersOf
  omega

theorem Exact.opened (exact : volume.Exact) (append truncate : Bool) : ∃ handle,
    Held append volume.ledger.unixFS.limit (volume.othersOf number)
    (volume.inodes number).size (volume.opened number append truncate) handle := by
  refine ⟨_, rfl, rfl, rfl, rfl, ?_, exact.bounded, ?_, ?_, ?_⟩
  · dsimp only [Volume.opened, othersOf]
    omega
  · exact Int.natCast_nonneg _
  · dsimp only [Volume.opened, RegularFile.touch]
    split_ifs <;> omega
  · intro _
    dsimp only [Volume.opened, RegularFile.touch]
    split_ifs <;> omega

theorem Exact.close (exact : volume.Exact) (member : number ∈ volume.tree.contents)
    (held : Held append volume.ledger.unixFS.limit (volume.othersOf number) reach state handle)
    (room : append = true → volume.othersOf number + reach ≤ maxInt64) :
    (volume.close number state).Exact := by
  have others := exact.othersOf_nonneg member
  have usage := held.usage_eq
  have bounded := held.bounded
  have fileSize := held.fileSize_le
  have total : volume.othersOf number + state.2.fileSize ≤ maxInt64 := by
    cases isAppend : append with
    | false =>
      have tracked := held.tracked isAppend
      omega
    | true =>
      have fits := room isAppend
      omega
  have size : (state.2.handle.map QuotaFile.size).getD state.2.fileSize =
      handle.size := by
    rw [held.opened, Option.map_some, Option.getD_some]
  have change : wrap ((state.2.fileSize : Int) - handle.size) = state.2.fileSize - handle.size :=
    wrap_sub_eq_self (by omega) (by omega) (by omega) (by omega)
  have adjusted : (state.1.adjustDisk (state.2.fileSize - handle.size)).unixFS.usage =
      volume.othersOf number + state.2.fileSize := by
    rw [Ledger.adjustDisk_exact bounded (by omega) (by omega)]
    omega
  rw [Exact, Volume.close]
  rw [size, change]
  apply Books.resize exact member
  · rw [adjusted, othersOf]
    omega
  · rw [adjusted]
    exact total
  · rw [Ledger.adjustDisk_limit, held.limit_eq]

end Session

end Wings.Filesystem.Volume

namespace Wings.Filesystem

open Archives LabelledForest MachineInt Transition
open LabelledForest.Forest (Item)

theorem Books.of_usage (books : Books ledger inodes names)
    (usage : after.unixFS.usage = ledger.unixFS.usage)
    (limit : after.unixFS.limit = ledger.unixFS.limit) :
    Books after inodes names where
  nlink := books.nlink
  usage := usage.trans books.usage
  bounded := usage ▸ books.bounded
  limit := limit ▸ books.limit

theorem Reader.copy_le (reader : Reader) (limit : Nat) : (reader.copy limit).1 ≤ limit := by
  unfold copy
  split_ifs <;> omega

theorem Reader.copyN_le (reader : Reader) (limit : Nat) : (reader.copyN limit).1 ≤ limit := by
  unfold copyN
  split_ifs <;> omega

namespace Volume

variable {volume : Volume}

theorem mem_contents_of_lookup (found : volume.lookup path = some (.leaf number)) :
    number ∈ volume.tree.contents := by
  cases path with
  | nil => cases found
  | cons first below =>
    obtain ⟨⟨_, remaining⟩, taken, rfl⟩ := Option.map_eq_some_iff.mp found
    exact (Forest.contents_take taken).mem_iff.mpr (List.mem_cons_self ..)

theorem Exact.mkdirAll (exact : volume.Exact) (path : Path) : (volume.mkdirAll path).2.Exact ∧
    (volume.mkdirAll path).2.ledger = volume.ledger := by
  unfold Volume.mkdirAll
  split
  · exact ⟨exact, rfl⟩
  · rename_i tree made
    refine ⟨?_, rfl⟩
    rw [Exact, Forest.contents_makeBranches made]
    exact exact

/-- A file is open, the usage is as before, and a new file is empty. -/
structure Opens (volume : Volume) (exclusive : Bool)
    (result : Except Failure Nat × Volume) : Prop where
  exact : result.2.Exact
  ledger : result.2.ledger = volume.ledger
  member : ∀ number, result.1 = .ok number → number ∈ result.2.tree.contents
  empty : exclusive = true → ∀ number, result.1 = .ok number → (result.2.inodes number).size = 0

section

variable (exact : volume.Exact)
include exact

theorem Opens.failed (exclusive : Bool) (err : Failure) :
    volume.Opens exclusive (.error err, volume) :=
  ⟨exact, rfl, (fun _ ok => nomatch ok), fun _ _ ok => nomatch ok⟩

theorem Exact.create (created : volume.create path = some (number, after)) :
    after.Exact ∧ after.ledger = volume.ledger ∧
    number ∈ after.tree.contents ∧ (after.inodes number).size = 0 := by
  obtain ⟨tree, put, same⟩ := Option.map_eq_some_iff.mp created
  obtain ⟨rfl, rfl⟩ := Prod.mk.inj same
  have contents := Forest.contents_put put
  have fresh : Table.nextId id volume.tree.contents ∉ volume.tree.contents :=
    fun member => lt_irrefl _ (Table.key_lt_nextId id member)
  refine ⟨?_, rfl, ?_, ?_⟩
  · exact (Books.create exact fresh).perm contents.symm
  · exact contents.mem_iff.mpr (List.mem_cons_self ..)
  · dsimp only
    rw [Inodes.create, Function.update_self]

theorem Exact.openFile (exclusive : Bool) (path : Path) :
    volume.Opens exclusive (volume.openFile exclusive path) := by
  unfold Volume.openFile
  split
  · rename_i number found
    split_ifs with mustCreate
    · exact .failed exact exclusive _
    · refine ⟨exact, rfl, ?_, fun must => absurd must mustCreate⟩
      intro other same
      rw [← Except.ok.inj same]
      exact mem_contents_of_lookup found
  · exact .failed exact exclusive _
  · split
    · exact .failed exact exclusive _
    · rename_i number after created
      obtain ⟨kept, ledger, member, empty⟩ := exact.create created
      refine ⟨kept, ledger, ?_, ?_⟩
      · intro other same
        rw [← Except.ok.inj same]
        exact member
      · intro _ other same
        rw [← Except.ok.inj same]
        exact empty

theorem Exact.openForWrite (exclusive : Bool) (path : Path) :
    volume.Opens exclusive (volume.openForWrite exclusive path) := by
  have made := exact.mkdirAll path.dropLast
  unfold Volume.openForWrite
  split
  · rename_i err after isMade
    rw [isMade] at made
    exact ⟨made.1, made.2, (fun _ ok => nomatch ok), fun _ _ ok => nomatch ok⟩
  · rename_i after isMade
    rw [isMade] at made
    have opens := made.1.openFile exclusive path
    exact { opens with ledger := opens.ledger.trans made.2 }

theorem Exact.remove (path : Path) : (volume.remove path).2.Exact := by
  unfold Volume.remove
  split_ifs
  · exact exact
  · split
    · exact exact
    · next number tree taken =>
        exact (Books.perm exact (Forest.contents_take taken)).unlink
    · next tree taken =>
        exact Books.perm exact (Forest.contents_take taken)
    · exact exact

end

theorem books_removeContentsFrom (tree : Tree) {ledger : Ledger}
    {inodes : Inodes} {others : List Nat} (books : Books ledger inodes (tree.contents ++ others)) :
    Books (removeContentsFrom tree (ledger, inodes)).1
    (removeContentsFrom tree (ledger, inodes)).2 others := by
  induction tree generalizing ledger inodes others with
  | nil => exact books
  | leaf name number rest restIh =>
    exact restIh books.unlink
  | branch name data children rest childIh restIh =>
    rw [Forest.contents, List.append_assoc] at books
    exact restIh (childIh books)

section

variable (exact : volume.Exact)
include exact

theorem Exact.removeAll (path : Path) : (volume.removeAll path).2.Exact := by
  have removed := exact.remove path
  unfold Volume.removeAll
  split_ifs
  · exact exact
  · split
    · rename_i isRemoved
      rw [isRemoved] at removed
      exact removed
    · rename_i isRemoved
      rw [isRemoved] at removed
      exact removed
    · split
      · next data children tree taken =>
          exact books_removeContentsFrom children (Books.perm exact (Forest.contents_take taken))
      · exact exact

theorem Exact.renameInto (oldpath newpath : Path) :
    (volume.renameInto oldpath newpath).2.Exact := by
  unfold Volume.renameInto
  split_ifs
  · exact exact
  · exact exact
  · split
    · exact exact
    · rename_i item remaining taken
      split
      · exact exact
      · rename_i tree put
        exact Books.perm exact ((Forest.contents_take taken).trans
          (Forest.contents_put put).symm)

theorem Exact.rename (oldpath newpath : Path) : (volume.rename oldpath newpath).2.Exact := by
  have made := (exact.mkdirAll newpath.dropLast).1
  unfold Volume.rename
  split_ifs
  · exact exact
  · exact exact
  · exact exact
  · split
    · rename_i isMade
      rw [isMade] at made
      exact made
    · rename_i after isMade
      rw [isMade] at made
      exact Exact.renameInto made oldpath newpath

theorem Exact.renameOver (found : volume.lookup newpath = some (.leaf replaced))
    (renamed : volume.renameOver oldpath newpath number = some after) :
    replaced = number ∧ after = volume ∨ replaced ≠ number ∧ after.ledger = volume.ledger ∧
        { after with
          ledger := free volume.ledger (volume.inodes replaced) }.Exact := by
  unfold Volume.renameOver at renamed
  split at renamed
  · rename_i taken remaining isTaken
    have same : taken = replaced := by
      cases newpath with
      | nil => cases found
      | cons first below =>
        change (volume.tree.take _).map Prod.fst = _ at found
        rw [isTaken] at found
        exact Item.leaf.inj (Option.some.inj found)
    subst same
    split_ifs at renamed with isSame
    · exact .inl ⟨isSame, (Option.some.inj renamed).symm⟩
    · right
      split at renamed
      · rename_i item others isOld
        obtain ⟨tree, put, rfl⟩ := Option.map_eq_some_iff.mp renamed
        refine ⟨isSame, rfl, ?_⟩
        have unlinked := (Books.perm exact (Forest.contents_take isTaken)).unlink
        exact unlinked.perm ((Forest.contents_take isOld).trans (Forest.contents_put put).symm)
      · cases renamed
  · cases renamed

theorem Exact.renameFree (renamed : volume.renameFree oldpath newpath = some after) :
    after.Exact := by
  unfold Volume.renameFree at renamed
  split at renamed
  · rename_i item remaining taken
    obtain ⟨tree, put, rfl⟩ := Option.map_eq_some_iff.mp renamed
    exact Books.perm exact ((Forest.contents_take taken).trans (Forest.contents_put put).symm)
  · cases renamed

end

/-- The file whose name is taken over is empty, or another file without other names. -/
def ReplacesOnlyName (volume : Volume) (oldpath newpath : Path) : Prop := ∀ number replaced,
    volume.lookup oldpath = some (.leaf number) →
    volume.lookup newpath = some (.leaf replaced) →
    0 < (volume.inodes replaced).size → replaced ≠ number ∧ (volume.inodes replaced).nlink = 1

theorem Exact.replace (exact : volume.Exact) (onlyName : volume.ReplacesOnlyName oldpath newpath) :
    (volume.replace oldpath newpath).2.Exact := by
  unfold Volume.replace
  split
  · exact exact
  · exact exact
  · rename_i number isOld
    split
    · exact exact
    · rename_i replaced isNew
      split
      · exact exact
      · rename_i after renamed
        rcases exact.renameOver isNew renamed with
          ⟨isSame, rfl⟩ | ⟨_, ledger, unlinked⟩
        · dsimp only
          split_ifs with nonempty
          · exact absurd isSame (onlyName number replaced isOld isNew (by omega)).1
          · exact exact
        · dsimp only
          split_ifs with nonempty
          · have single := (onlyName number replaced isOld isNew (by omega)).2
            have freed : (volume.inodes replaced).freedBy =
                (volume.inodes replaced).size := by
              rw [Inode.freedBy, single, if_neg (by decide)]
            refine Books.of_usage unlinked ?_ ?_
            · dsimp only [free]
              rw [ledger, freed, Ledger.adjustDisk, if_neg (by omega)]
            · dsimp only [free]
              rw [ledger, Ledger.adjustDisk_limit, Quota.add_limit]
          · have nothing : (volume.inodes replaced).freedBy = 0 := by
              rw [Inode.freedBy]
              split_ifs <;> omega
            refine Books.of_usage unlinked ?_ ?_
            · dsimp only [free]
              rw [ledger, nothing, Quota.add_usage, Quota.addUsage]
              simp
            · dsimp only [free]
              rw [ledger, Quota.add_limit]
    · split
      · exact exact
      · next after renamed => exact exact.renameFree renamed

section Write

section

variable (exact : volume.Exact)
include exact

theorem Exact.writeOpened (member : number ∈ volume.tree.contents) (isInt64 : InRange newSize)
    (fits : volume.ledger.unixFS.limit ≠ 0 ∨
    0 ≤ newSize ∧ volume.ledger.unixFS.usage + newSize ≤ maxInt64) (path : Path) (reader : Reader)
    (existed : Bool) : (volume.writeOpened path reader newSize existed number).2.Exact := by
  have within := exact.size_le_usage member
  have bounded := exact.bounded
  have copied := reader.copy_le newSize.toNat
  have plain : 0 ≤ newSize → wrap (newSize - (volume.inodes number).size) =
      newSize - (volume.inodes number).size := by
    intro nonnegative
    exact wrap_sub_eq_self nonnegative isInt64.2 (by omega) (by omega)
  unfold Volume.writeOpened
  dsimp only
  split
  · split_ifs
    · exact exact
    · exact exact.remove path
  · rename_i ledger granted
    have room : volume.ledger.Fits (wrap (newSize - (volume.inodes number).size)) := by
      refine fits.imp_right fun fits => ?_
      omega
    obtain ⟨usageReserved, boundedReserved, limitReserved⟩ :=
      Ledger.reserveDisk_exact granted exact.usage_nonneg bounded exact.limit room
    have reserved : 0 ≤ Ledger.reservation (wrap (newSize - (volume.inodes number).size)) :=
      Ledger.reservation_nonneg _
    have total : volume.ledger.unixFS.usage + (reader.copy newSize.toNat).1 -
        (volume.inodes number).size ≤ maxInt64 := by
      by_cases nonnegative : 0 ≤ newSize
      · have growth : newSize - (volume.inodes number).size ≤
            Ledger.reservation (wrap (newSize - (volume.inodes number).size)) := by
          rw [plain nonnegative]
          exact le_max_left _ _
        omega
      · omega
    have used : wrap (((reader.copy newSize.toNat).1 : Int) - (volume.inodes number).size) =
        (reader.copy newSize.toNat).1 - (volume.inodes number).size := by
      apply wrap_sub_eq_self <;> omega
    have released : (ledger.releaseDisk
        (Ledger.reservation (wrap (newSize - (volume.inodes number).size)))
        ((reader.copy newSize.toNat).1 - (volume.inodes number).size)).unixFS.usage =
          _ :=
      Ledger.releaseDisk_exact reserved (by omega) boundedReserved (by omega) (by omega)
    rw [used]
    apply Books.resize exact member
    · exact released.trans (by omega)
    · exact released.trans_le (by omega)
    · rw [Ledger.releaseDisk_limit, limitReserved]

theorem Exact.uploadOpened (member : number ∈ volume.tree.contents) (isInt64 : InRange size)
    (nonnegative : 0 ≤ size) (fits : volume.ledger.Fits size)
    (reader : Reader) : (volume.uploadOpened reader size number).2.Exact := by
  have within := exact.size_le_usage member
  have bounded := exact.bounded
  have copied := reader.copyN_le size.toNat
  have growth : wrap (size - (volume.inodes number).size) = size - (volume.inodes number).size :=
    wrap_sub_eq_self nonnegative isInt64.2 (by omega) (by omega)
  unfold Volume.uploadOpened
  dsimp only
  rw [growth]
  split_ifs
  · exact exact
  · split
    · exact exact
    · rename_i ledger granted
      obtain ⟨usageReserved, boundedReserved, limitReserved⟩ :=
        Ledger.reserveDisk_exact granted exact.usage_nonneg bounded exact.limit
          (fits.mono (by omega))
      rw [Ledger.reservation] at usageReserved
      have change : wrap (((reader.copyN size.toNat).1 : Int) - (volume.inodes number).size -
            max (size - (volume.inodes number).size) 0) =
          (reader.copyN size.toNat).1 - (volume.inodes number).size -
            max (size - (volume.inodes number).size) 0 := by
        apply wrap_eq_self
        simp only [InRange, minInt64, maxInt64] at isInt64 bounded ⊢
        omega
      have adjusted : (ledger.adjustDisk
          ((reader.copyN size.toNat).1 - (volume.inodes number).size -
            max (size - (volume.inodes number).size) 0)).unixFS.usage = _ :=
        Ledger.adjustDisk_exact boundedReserved (by omega) (by omega)
      rw [change]
      apply Books.resize exact member
      · exact adjusted.trans (by omega)
      · exact adjusted.trans_le (by omega)
      · rw [Ledger.adjustDisk_limit, limitReserved]
  · exact exact

theorem Exact.write (isInt64 : InRange newSize) (fits : volume.ledger.unixFS.limit ≠ 0 ∨
    0 ≤ newSize ∧ volume.ledger.unixFS.usage + newSize ≤ maxInt64) (path : Path)
    (reader : Reader) : (volume.write path reader newSize).2.Exact := by
  have made := exact.mkdirAll path.dropLast
  unfold Volume.write
  split
  · exact exact
  · split
    · rename_i isMade
      rw [isMade] at made
      exact made.1
    · rename_i after isMade
      rw [isMade] at made
      have opens := made.1.openForWrite false path
      split
      · rename_i isOpened
        rw [isOpened] at opens
        exact opens.exact
      · rename_i number file isOpened
        rw [isOpened] at opens
        refine opens.exact.writeOpened (opens.member number rfl) isInt64 ?_ path reader _
        rw [opens.ledger, made.2]
        exact fits

theorem Exact.writeUpload (isInt64 : InRange size)
    (fits : volume.ledger.Fits size) (path : Path) (reader : Reader) :
    (volume.writeUpload path reader size).2.Exact := by
  have opens := exact.openForWrite false path
  unfold Volume.writeUpload
  by_cases refused : size < 0 ∨ path = []
  · rw [if_pos refused]
    exact exact
  · rw [if_neg refused]
    split
    · exact exact
    · split_ifs
      · split
        · rename_i isOpened
          rw [isOpened] at opens
          exact opens.exact
        · rename_i number file isOpened
          rw [isOpened] at opens
          refine opens.exact.uploadOpened (opens.member number rfl) isInt64 (by omega) ?_ reader
          rw [Ledger.Fits, opens.ledger]
          exact fits
      · exact exact

theorem Exact.createCopy (directory : Path) (parts : Text × Text) (now : Text) :
    volume.Opens true (volume.createCopy directory parts now) := by
  unfold Volume.createCopy
  split
  · exact .failed exact true _
  · exact exact.openFile true _

theorem Exact.openCopy (directory : Path)
    (parts : Text × Text) (now : Nat → Text) (attempts : Nat) :
    volume.Opens true (volume.openCopy directory parts now attempts) := by
  induction attempts with
  | zero => exact exact.createCopy directory parts (now 0)
  | succ attempts ih =>
    unfold Volume.openCopy
    split
    · exact ih
    · exact exact.createCopy directory parts (now (attempts + 1))

theorem Exact.copy (fits : ∀ number, volume.lookup path = some (.leaf number) →
    volume.ledger.Fits (volume.inodes number).size) (source : Reader)
    (now : Nat → Text) : (volume.copy path source now).2.Exact := by
  unfold Volume.copy
  split
  · rename_i number base isSource _
    dsimp only
    split
    · exact exact
    · rename_i ledger granted
      have opens := exact.openCopy path.dropLast (splitExtension base.text) now 10
      have nonnegative := exact.usage_nonneg
      obtain ⟨usageReserved, boundedReserved, limitReserved⟩ :=
        Ledger.reserveDisk_exact granted nonnegative exact.bounded exact.limit
          (fits number isSource)
      have reserved : Ledger.reservation (volume.inodes number).size =
          (volume.inodes number).size := max_eq_left (Int.natCast_nonneg _)
      have released : ∀ used : Nat, used ≤ (volume.inodes number).size →
          (ledger.releaseDisk (volume.inodes number).size used).unixFS.usage =
            volume.ledger.unixFS.usage + used := by
        intro used within
        rw [Ledger.releaseDisk_exact (Int.natCast_nonneg _) (by omega)
          boundedReserved (by omega) (by omega)]
        omega
      split
      · rename_i isOpened
        rw [isOpened] at opens
        refine Books.of_usage opens.exact ?_ ?_
        · rw [opens.ledger]
          exact (released 0 (Nat.zero_le _)).trans (Int.add_zero _)
        · rw [Ledger.releaseDisk_limit, limitReserved, opens.ledger]
      · rename_i copy file isOpened
        rw [isOpened] at opens
        have empty := opens.empty rfl copy rfl
        have copied := source.copy_le (volume.inodes number).size
        refine Books.resize opens.exact (opens.member copy rfl) ?_ ?_ ?_
        · rw [released _ copied, opens.ledger, empty]
          omega
        · rw [released _ copied]
          omega
        · rw [Ledger.releaseDisk_limit, limitReserved, opens.ledger]
  · exact exact
  · exact exact

theorem Exact.quotaWrites
    (member : number ∈ volume.tree.contents) (fits : volume.ledger.Fits (reachOf writes))
    (appends : append = true → volume.ledger.unixFS.usage + reachOf writes ≤ maxInt64)
    (truncate : Bool) : (volume.close number
    (quotaWrites (volume.opened number append truncate) writes)).Exact := by
  have session : volume.othersOf number + ((volume.inodes number).size + reachOf writes) =
      volume.ledger.unixFS.usage + reachOf writes := by
    unfold othersOf
    omega
  obtain ⟨handle, held⟩ := exact.opened append truncate
  obtain ⟨moved, after⟩ := held.writes (exact.othersOf_nonneg member) exact.limit
    (fits.imp_right session.trans_le)
  exact exact.close member after fun isAppend => session.trans_le (appends isAppend)

theorem Exact.touch (fits : volume.ledger.Fits (reachOf writes))
    (appends : flags.append = true → volume.ledger.unixFS.usage + reachOf writes ≤ maxInt64)
    (path : Path) : (volume.touch path flags writes).2.Exact := by
  have opens := exact.openForWrite flags.exclusive path
  unfold Volume.touch
  split
  · rename_i isOpened
    rw [isOpened] at opens
    exact opens.exact
  · rename_i number file isOpened
    rw [isOpened] at opens
    rw [← opens.ledger] at fits appends
    exact opens.exact.quotaWrites (opens.member number rfl) fits appends _

theorem Exact.writeFromOpened (member : number ∈ volume.tree.contents)
    (fits : volume.ledger.Fits reader.length) (path : Path) :
    (volume.writeFromOpened path reader number).2.Exact := by
  have session : volume.othersOf number +
      ((volume.inodes number).size + (reader.chunks.sum : Nat)) =
      volume.ledger.unixFS.usage + reader.length := by
    unfold othersOf Reader.length
    omega
  obtain ⟨handle, held⟩ := exact.opened false true
  obtain ⟨moved, after⟩ := held.readFrom (exact.othersOf_nonneg member) exact.limit
    (fits.imp_right session.trans_le) reader.error
  have closed := exact.close member after fun isAppend => nomatch isAppend
  unfold Volume.writeFromOpened
  split
  · rename_i isRead
    rw [isRead] at closed
    exact closed
  · rename_i isRead
    rw [isRead] at closed
    exact closed.remove path

theorem Exact.writeFrom (fits : volume.ledger.Fits reader.length) (path : Path) :
    (volume.writeFrom path reader).2.Exact := by
  have made := exact.mkdirAll path.dropLast
  unfold Volume.writeFrom
  split
  · exact exact
  · split
    · rename_i isMade
      rw [isMade] at made
      exact made.1
    · rename_i after isMade
      rw [isMade] at made
      have opens := made.1.openForWrite false path
      split
      · rename_i isOpened
        rw [isOpened] at opens
        exact opens.exact
      · rename_i number file isOpened
        rw [isOpened] at opens
        rw [← made.2, ← opens.ledger] at fits
        exact opens.exact.writeFromOpened (opens.member number rfl) fits path

end

end Write

structure Initial (volume : Volume) : Prop where
  nlink : ∀ number, (volume.inodes number).nlink = volume.tree.contents.count number
  usage : volume.directorySize = (volume.ledger.unixFS.usage, none)
  representable : volume.inodes.total volume.tree.contents ≤ maxInt64
  limit : volume.ledger.unixFS.limit ≤ maxInt64

/-- `Replace` takes over the only name of another file, unless that is empty, and no write takes the
usage above the largest integer. -/
def Plain (volume : Volume) : Operation → Prop
  | .write _ _ newSize _ =>
    volume.ledger.unixFS.limit ≠ 0 ∨ 0 ≤ newSize ∧ volume.ledger.unixFS.usage + newSize ≤ maxInt64
  | .writeUpload _ _ size _ => volume.ledger.Fits size
  | .writeFrom _ reader => volume.ledger.Fits reader.length
  | .copy path _ _ =>
    ∀ number, volume.lookup path = some (.leaf number) →
      volume.ledger.Fits (volume.inodes number).size
  | .replace oldpath newpath => volume.ReplacesOnlyName oldpath newpath
  | .touch _ flags writes =>
    volume.ledger.Fits (reachOf writes) ∧
      (flags.append = true → volume.ledger.unixFS.usage + reachOf writes ≤ maxInt64)
  | .remove _ | .removeAll _ | .rename _ _ => True

theorem Initial.exact (initial : volume.Initial) : volume.Exact := by
  have counted := initial.usage
  rw [directorySize_eq initial.nlink initial.representable] at counted
  have usage := (Prod.mk.inj counted).1
  exact ⟨initial.nlink, usage.symm, usage ▸ initial.representable, initial.limit⟩

theorem Exact.step (exact : volume.Exact)
    (plain : volume.Plain call) (taken : volume.Steps call after) : after.Exact := by
  rw [← taken]
  cases call with
  | write path reader newSize isInt64 =>
    exact exact.write isInt64 plain path reader
  | writeUpload path reader size isInt64 =>
    exact exact.writeUpload isInt64 plain path reader
  | writeFrom path reader => exact exact.writeFrom plain path
  | copy path source now => exact exact.copy plain source now
  | remove path => exact exact.remove path
  | removeAll path => exact exact.removeAll path
  | rename oldpath newpath => exact exact.rename oldpath newpath
  | replace oldpath newpath => exact exact.replace plain
  | touch path flags writes => exact exact.touch plain.1 plain.2 path

/-- In every run of plain calls the cached usage is the directory size. -/
theorem usage_eq_directorySize (reached : Reachable Initial (Guarded Plain Steps) volume) :
    volume.directorySize = (volume.ledger.unixFS.usage, none) := by
  have exact : volume.Exact := by
    refine reached.invariant (fun _ => Initial.exact) ?_
    rintro before call after exact ⟨plain, taken⟩
    exact exact.step plain taken
  rw [directorySize_eq exact.nlink (exact.usage ▸ exact.bounded), ← exact.usage]

def letter (character : Char) (noSlash : character ≠ '/') (notDot : character ≠ '.') : Name where
  text := [character]
  nonempty := List.cons_ne_nil _ _
  noSlash := by
    rw [List.mem_singleton]
    exact noSlash.symm
  notDot := by
    rw [ne_eq, List.cons.injEq]
    exact fun same => notDot same.1
  notDotDot := by
    rw [ne_eq, List.cons.injEq]
    exact fun same => notDot same.1

def nameA : Name := letter 'a' (by decide) (by decide)

def nameB : Name := letter 'b' (by decide) (by decide)

def nameC : Name := letter 'c' (by decide) (by decide)

/-- A file of five bytes with two names and one of three bytes, without a limit. -/
def linkedFiles : Volume where
  tree := .leaf nameA 1 (.leaf nameB 1 (.leaf nameC 2 .nil))
  inodes
    | 1 => ⟨5, 2⟩
    | 2 => ⟨3, 1⟩
    | _ => ⟨0, 0⟩
  ledger := ⟨⟨0, 8⟩, 0, false, 0⟩
  ignored _ := false

theorem linkedFiles_initial : linkedFiles.Initial := by
  refine ⟨?_, by decide +kernel, by decide +kernel, by decide⟩
  intro number
  match number with
  | 0 | 1 | 2 => rfl
  | other + 3 =>
    rfl

theorem usage_after_plain_replace : ∃ volume, Reachable Initial (Guarded Plain Steps) volume ∧
      volume.ledger.unixFS.usage = 5 ∧ volume.directorySize = (5, none) := by
  have plain : linkedFiles.Plain (.replace [nameA] [nameC]) := by
    intro number replaced isOld isNew _
    obtain rfl : 1 = number := Item.leaf.inj (Option.some.inj isOld)
    obtain rfl : 2 = replaced := Item.leaf.inj (Option.some.inj isNew)
    exact ⟨by decide, rfl⟩
  have reached : Reachable Initial (Guarded Plain Steps)
      (linkedFiles.perform (.replace [nameA] [nameC])).2 :=
    (Reachable.start linkedFiles_initial).next _ ⟨plain, rfl⟩
  have usage : (linkedFiles.perform
      (.replace [nameA] [nameC])).2.ledger.unixFS.usage = 5 := by decide +kernel
  exact ⟨_, reached, usage, usage ▸ usage_eq_directorySize reached⟩

/-- A replaced file with another name, a file that replaces itself, and a size announced as the
largest integer. -/
theorem usage_wrong_after_calls : (∃ volume, Reachable Initial Steps volume ∧
      volume.ledger.unixFS.usage = 3 ∧ volume.directorySize = (8, none)) ∧
    (∃ volume, Reachable Initial Steps volume ∧
      volume.ledger.unixFS.usage = 5 ∧ volume.directorySize = (8, none)) ∧
    ∃ volume, Reachable Initial Steps volume ∧
      volume.ledger.unixFS.usage = 3 ∧ volume.directorySize = (8, none) := by
  have start : Reachable Initial Steps linkedFiles := .start linkedFiles_initial
  refine ⟨⟨_, start.next (.replace [nameC] [nameA]) rfl, ?_⟩,
    ⟨_, start.next (.replace [nameC] [nameC]) rfl, ?_⟩,
    ⟨_, start.next (.write [nameC] ⟨[3], none⟩ maxInt64 (by decide)) rfl, ?_⟩⟩
  all_goals decide +kernel

end Volume

end Wings.Filesystem
