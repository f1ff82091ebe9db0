import Mathlib.Algebra.Order.BigOperators.Group.Finset
import Wings.Filesystem.QuotaFile
import Wings.Library.Table
import Wings.Restore.Paths

/-!
# The data directory of a server and its disk ledger

The names in a tree are listed by their inodes, and a file with several names counts once. The calls
change the tree, the inodes and the ledger one after the other, and fail because of their path,
their source or the disk limit. `DirectorySize` remembers the inodes with several names.
-/

namespace Wings.Filesystem

open MachineInt
open Function (update update_of_ne update_self)

structure Inode where
  size : Nat
  nlink : Nat

abbrev Inodes := Nat → Inode

/-- `freedBy` for a regular file. -/
def Inode.freedBy (inode : Inode) : Int := if inode.nlink > 1 then 0 else inode.size

theorem Inode.freedBy_nonneg (inode : Inode) : 0 ≤ inode.freedBy := by
  rw [freedBy]
  split_ifs <;> omega

namespace Inodes

def create (inodes : Inodes) (number : Nat) : Inodes := update inodes number ⟨0, 1⟩

def resize (inodes : Inodes) (number size : Nat) : Inodes :=
  update inodes number { inodes number with size := size }

def unlink (inodes : Inodes) (number : Nat) : Inodes := update inodes number
    { inodes number with nlink := (inodes number).nlink - 1 }

/-- The bytes of the files with the given names, each counted once. -/
def total (inodes : Inodes) (names : List Nat) : Int :=
  names.toFinset.sum fun number => ((inodes number).size : Int)

variable (inodes : Inodes)

theorem total_nonneg : 0 ≤ inodes.total names := Finset.sum_nonneg fun _ _ => Int.natCast_nonneg _

theorem total_perm (perm : names.Perm others) : inodes.total names = inodes.total others := by
  rw [total, total, List.toFinset_eq_of_perm _ _ perm]

theorem total_cons_of_mem (member : number ∈ names) :
    inodes.total (number :: names) = inodes.total names := by
  rw [total, List.toFinset_cons, Finset.insert_eq_of_mem (List.mem_toFinset.mpr member), total]

theorem total_cons_of_notMem (absent : number ∉ names) : inodes.total (number :: names) =
    (inodes number).size + inodes.total names := by
  rw [total, List.toFinset_cons, Finset.sum_insert (mt List.mem_toFinset.mp absent), total]

theorem size_le_total (member : number ∈ names) :
    ((inodes number).size : Int) ≤ inodes.total names := by
  have each : ∀ other ∈ names.toFinset, 0 ≤ ((inodes other).size : Int) :=
    fun _ _ => Int.natCast_nonneg _
  exact Finset.single_le_sum each (List.mem_toFinset.mpr member)

variable {inodes}

theorem total_congr {others : Inodes}
    (same : ∀ number ∈ names, (others number).size = (inodes number).size) :
    others.total names = inodes.total names := by
  apply Finset.sum_congr rfl
  intro number member
  rw [same number (List.mem_toFinset.mp member)]

theorem total_resize (member : number ∈ names) (size : Nat) :
    (inodes.resize number size).total names = inodes.total names + size - (inodes number).size := by
  have listed := List.mem_toFinset.mpr member
  have others : (names.toFinset.erase number).sum
        (fun other => ((inodes.resize number size other).size : Int)) =
      (names.toFinset.erase number).sum fun other => ((inodes other).size : Int) := by
    apply Finset.sum_congr rfl
    intro other different
    rw [resize, update_of_ne (Finset.ne_of_mem_erase different)]
  have resized : (inodes.resize number size number).size = size := by
    rw [resize, update_self]
  rw [total, total, ← Finset.add_sum_erase _ _ listed, others, resized,
    ← Finset.add_sum_erase _ (fun other => ((inodes other).size : Int)) listed]
  omega

end Inodes

structure Books (ledger : Ledger) (inodes : Inodes) (names : List Nat) : Prop where
  nlink : ∀ number, (inodes number).nlink = names.count number
  usage : ledger.unixFS.usage = inodes.total names
  bounded : ledger.unixFS.usage ≤ maxInt64
  limit : ledger.unixFS.limit ≤ maxInt64

namespace Books

section

variable (books : Books ledger inodes names)
include books

theorem usage_nonneg : 0 ≤ ledger.unixFS.usage := by
  rw [books.usage]
  exact inodes.total_nonneg

theorem size_le_usage (member : number ∈ names) :
    ((inodes number).size : Int) ≤ ledger.unixFS.usage := by
  rw [books.usage]
  exact inodes.size_le_total member

theorem perm (perm : names.Perm others) : Books ledger inodes others where
  nlink number := by rw [books.nlink, perm.count_eq]
  usage := by rw [books.usage, inodes.total_perm perm]
  bounded := books.bounded
  limit := books.limit

theorem create (fresh : number ∉ names) :
    Books ledger (inodes.create number) (number :: names) := by
  have kept : (inodes.create number).total names = inodes.total names := by
    apply Inodes.total_congr
    intro other member
    have different : other ≠ number := fun same => fresh (same ▸ member)
    rw [Inodes.create, update_of_ne different]
  refine ⟨?_, ?_, books.bounded, books.limit⟩
  · intro other
    by_cases same : other = number
    · subst same
      rw [Inodes.create, update_self, List.count_cons_self, List.count_eq_zero_of_not_mem fresh]
    · rw [Inodes.create, update_of_ne same, List.count_cons_of_ne (Ne.symm same), books.nlink]
  · rw [Inodes.total_cons_of_notMem _ fresh, kept, Inodes.create, update_self, books.usage]
    exact (Int.zero_add _).symm

theorem resize (member : number ∈ names) {after : Ledger} {size : Nat} (usage : after.unixFS.usage =
    ledger.unixFS.usage + size - (inodes number).size) (bounded : after.unixFS.usage ≤ maxInt64)
    (limit : after.unixFS.limit = ledger.unixFS.limit) :
    Books after (inodes.resize number size) names := by
  refine ⟨?_, ?_, bounded, limit ▸ books.limit⟩
  · intro other
    rw [← books.nlink other]
    by_cases same : other = number
    · subst same
      rw [Inodes.resize, update_self]
    · rw [Inodes.resize, update_of_ne same]
  · rw [usage, Inodes.total_resize member, books.usage]

end

theorem unlink (books : Books ledger inodes (number :: names)) :
    Books { ledger with unixFS := ledger.unixFS.add (-(inodes number).freedBy) }
      (inodes.unlink number) names := by
  have links : (inodes number).nlink = names.count number + 1 := by
    rw [books.nlink, List.count_cons_self]
  have kept : (inodes.unlink number).total names = inodes.total names := by
    apply Inodes.total_congr
    intro other _
    by_cases same : other = number
    · subst same
      rw [Inodes.unlink, update_self]
    · rw [Inodes.unlink, update_of_ne same]
  have nonnegative : 0 ≤ inodes.total names := inodes.total_nonneg
  have freedNonnegative := (inodes number).freedBy_nonneg
  have freed : inodes.total (number :: names) = (inodes number).freedBy + inodes.total names := by
    by_cases member : number ∈ names
    · have several : (inodes number).nlink > 1 := by
        have := List.count_pos_iff.mpr member
        omega
      rw [inodes.total_cons_of_mem member, Inode.freedBy, if_pos several, Int.zero_add]
    · have single : ¬(inodes number).nlink > 1 := by
        rw [links, List.count_eq_zero_of_not_mem member]
        decide
      rw [inodes.total_cons_of_notMem member, Inode.freedBy, if_neg single]
  have before := books.usage
  have bounded := books.bounded
  have after : (ledger.unixFS.add (-(inodes number).freedBy)).usage = inodes.total names := by
    rw [Quota.add_usage, Quota.addUsage_eq_add bounded] <;> omega
  refine ⟨?_, after.trans kept.symm, ?_, books.limit⟩
  · intro other
    by_cases same : other = number
    · subst same
      rw [Inodes.unlink, update_self]
      dsimp only
      omega
    · rw [Inodes.unlink, update_of_ne same, books.nlink, List.count_cons_of_ne (Ne.symm same)]
  · rw [after]
    omega

end Books

open Archives FallibleCall LabelledForest MachineInt
open LabelledForest.Forest (Item)
open Restore (errBadPathResolution nameOf)

/-- A directory: names of files with their inodes, and directories. -/
abbrev Tree := Forest Name Nat Unit

structure Volume where
  tree : Tree
  inodes : Inodes
  ledger : Ledger
  ignored : Path → Bool

def errDiskSpace : Failure := .message "filesystem: not enough disk space"

def errIsDirectory : Failure := .message "filesystem: cannot perform action: [] is a directory"

def errDenylist (path : Path) : Failure :=
  .wrapped "filesystem: file access prohibited: [%s] is on the denylist" (pathText path) .rejected

/-- The error numbers `ENOTDIR`, `EISDIR`, `EINVAL` and `ENOTEMPTY`. -/
def notDirectory : Failure := .system (.other 20)

@[inherit_doc notDirectory] def isDirectory : Failure := .system (.other 21)

@[inherit_doc notDirectory] def invalid : Failure := .system (.other 22)

@[inherit_doc notDirectory] def notEmpty : Failure := .system (.other 39)

/-- The lengths of the chunks of a reader, and the error after them, if any. -/
structure Reader where
  chunks : List Nat
  error : Option Failure

namespace Reader

def length (reader : Reader) : Nat := reader.chunks.sum

/-- `io.Copy` from a reader limited to a number of bytes. -/
def copy (reader : Reader) (limit : Nat) : Nat × Option Failure :=
  if reader.length < limit then (reader.length, reader.error) else (limit, none)

/-- `io.CopyN`, for which it is an error to end early. -/
def copyN (reader : Reader) (limit : Nat) : Nat × Option Failure :=
  if reader.length < limit then
    (reader.length, some (reader.error.getD (.message "EOF")))
  else (limit, none)

end Reader

namespace Volume

def lookup (volume : Volume) : Path → Option (Item Name Nat Unit)
  | [] => some (.branch () volume.tree)
  | path => (volume.tree.take path).map Prod.fst

def missing (volume : Volume) (path : Path) : Failure :=
  if volume.tree.passesLeaf path then notDirectory else .system .notExist

def mkdirAll (path : Path) (volume : Volume) : FallibleCall.Outcome Failure Volume :=
  match volume.tree.makeBranches () path with
  | none => (some notDirectory, volume)
  | some tree => (none, { volume with tree := tree })

def create (path : Path) (volume : Volume) : Option (Nat × Volume) :=
  let number := Table.nextId id volume.tree.contents
  (volume.tree.put path (.leaf number)).map fun tree =>
    (number, { volume with tree := tree, inodes := volume.inodes.create number })

/-- `OpenFileat` with `O_CREATE`, and with `O_EXCL` if asked for. -/
def openFile (exclusive : Bool) (path : Path) (volume : Volume) : Except Failure Nat × Volume :=
  match volume.lookup path with
  | some (.leaf number) =>
    if exclusive then (.error (.system .exist), volume) else (.ok number, volume)
  | some (.branch _ _) => (.error isDirectory, volume)
  | none =>
    match volume.create path with
    | none => (.error (volume.missing path), volume)
    | some (number, after) => (.ok number, after)

/-- `openForWrite`, as far as the names go: the inode of the opened file. -/
def openForWrite (exclusive : Bool) (path : Path) (volume : Volume) : Except Failure Nat × Volume :=
  match volume.mkdirAll path.dropLast with
  | (some err, after) => (.error err, after)
  | (none, after) => after.openFile exclusive path

def free (ledger : Ledger) (inode : Inode) : Ledger :=
  { ledger with unixFS := ledger.unixFS.add (-inode.freedBy) }

def remove (path : Path) (volume : Volume) : FallibleCall.Outcome Failure Volume :=
  if path = [] then (some invalid, volume)
  else
    match volume.tree.take path with
    | none => (some (volume.missing path), volume)
    | some (.leaf number, tree) =>
      (none, { volume with
        tree := tree
        inodes := volume.inodes.unlink number
        ledger := free volume.ledger (volume.inodes number) })
    | some (.branch _ .nil, tree) => (none, { volume with tree := tree })
    | some (.branch _ _, _) => (some notEmpty, volume)

/-- Every name below a directory is unlinked, after `Quota.unlinkat` has subtracted what that frees.
-/
def removeContentsFrom : Tree → Ledger × Inodes → Ledger × Inodes
  | .nil, state => state
  | .leaf _ number rest, (ledger, inodes) =>
    removeContentsFrom rest (free ledger (inodes number), inodes.unlink number)
  | .branch _ _ children rest, state =>
    removeContentsFrom rest (removeContentsFrom children state)

def removeAll (path : Path) (volume : Volume) : FallibleCall.Outcome Failure Volume :=
  if path = [] then (some errBadPathResolution, volume)
  else
    match volume.remove path with
    | (none, after) => (none, after)
    | (some (.system .notExist), after) => (none, after)
    | (some err, _) =>
      match volume.tree.take path with
      | some (.branch _ children, tree) =>
        let removed := removeContentsFrom children (volume.ledger, volume.inodes)
        (none, { volume with
          tree := tree, ledger := removed.1, inodes := removed.2 })
      | _ => (some err, volume)

section

variable (oldpath newpath : Path)

def renameInto (volume : Volume) : FallibleCall.Outcome Failure Volume :=
  if newpath = [] then (some errBadPathResolution, volume)
  else if (volume.lookup newpath).isSome then
    (some (.system .exist), volume)
  else
    match volume.tree.take oldpath with
    | none => (some (volume.missing oldpath), volume)
    | some (item, remaining) =>
      match remaining.put newpath item with
      | none => (some invalid, volume)
      | some tree => (none, { volume with tree := tree })

/-- `Rename`, which never replaces anything. -/
def rename (volume : Volume) : FallibleCall.Outcome Failure Volume :=
  if oldpath = newpath then (none, volume)
  else if oldpath = [] then (some errBadPathResolution, volume)
  else if (volume.lookup oldpath).isNone then
    (some (volume.missing oldpath), volume)
  else
    match volume.mkdirAll newpath.dropLast with
    | (some err, after) => (some err, after)
    | (none, after) => after.renameInto oldpath newpath

/-- `renameat` to the name of another file: nothing if both name one inode. -/
def renameOver (number : Nat) (volume : Volume) : Option Volume :=
  match volume.tree.take newpath with
  | some (.leaf replaced, remaining) =>
    if replaced = number then some volume
    else
      match remaining.take oldpath with
      | some (item, others) =>
        (others.put newpath item).map fun tree =>
          { volume with
            tree := tree
            inodes := volume.inodes.unlink replaced }
      | none => none
  | _ => none

def renameFree (volume : Volume) : Option Volume :=
  match volume.tree.take oldpath with
  | some (item, remaining) =>
    (remaining.put newpath item).map fun tree => { volume with tree := tree }
  | none => none

def replace (volume : Volume) : FallibleCall.Outcome Failure Volume :=
  match volume.lookup oldpath with
  | none => (some (volume.missing oldpath), volume)
  | some (.branch _ _) => (some errBadPathResolution, volume)
  | some (.leaf number) =>
    match volume.lookup newpath with
    | some (.branch _ _) => (some errBadPathResolution, volume)
    | some (.leaf replaced) =>
      let replacedSize : Int := (volume.inodes replaced).size
      match volume.renameOver oldpath newpath number with
      | none => (some invalid, volume)
      | some after =>
        (none, if replacedSize > 0 then
            { after with ledger := after.ledger.adjustDisk (-replacedSize) }
          else after)
    | none =>
      match volume.renameFree oldpath newpath with
      | none => (some (volume.missing newpath), volume)
      | some after => (none, after)

end

def writeOpened (path : Path) (reader : Reader) (newSize : Int) (existed : Bool)
    (number : Nat) (volume : Volume) : FallibleCall.Outcome Failure Volume :=
  let currentSize : Int := (volume.inodes number).size
  let growth := wrap (newSize - currentSize)
  match volume.ledger.reserveDisk growth with
  | none =>
    (some errDiskSpace, if existed then volume else (volume.remove path).2)
  | some ledger =>
    let copied := reader.copy newSize.toNat
    (copied.2, { volume with
      inodes := volume.inodes.resize number copied.1
      ledger := ledger.releaseDisk (max growth 0) (wrap (copied.1 - currentSize)) })

def write (path : Path) (reader : Reader) (newSize : Int) (volume : Volume) :
    FallibleCall.Outcome Failure Volume :=
  match volume.lookup path with
  | some (.branch _ _) => (some errIsDirectory, volume)
  | _ =>
    match volume.mkdirAll path.dropLast with
    | (some err, volume) => (some err, volume)
    | (none, volume) =>
      let existed := (volume.lookup path).isSome
      match volume.openForWrite false path with
      | (.error err, volume) => (some err, volume)
      | (.ok number, volume) =>
        volume.writeOpened path reader newSize existed number

def uploadOpened (reader : Reader) (size : Int) (number : Nat)
    (volume : Volume) : FallibleCall.Outcome Failure Volume :=
  let currentSize : Int := (volume.inodes number).size
  if (volume.inodes number).nlink ≠ 1 then (some errBadPathResolution, volume)
  else
    let growth := wrap (size - currentSize)
    if ¬volume.ledger.hasSpaceFor growth then (some errDiskSpace, volume)
    else
      match volume.ledger.reserveDisk growth with
      | none => (some errDiskSpace, volume)
      | some ledger =>
        let copied := reader.copyN size.toNat
        (copied.2, { volume with
          inodes := volume.inodes.resize number copied.1
          ledger := ledger.adjustDisk (wrap (copied.1 - currentSize - max growth 0)) })

def writeUpload (path : Path) (reader : Reader) (size : Int)
    (volume : Volume) : FallibleCall.Outcome Failure Volume :=
  if size < 0 ∨ path = [] then (some errBadPathResolution, volume)
  else
    match path.inits.tail.find? volume.ignored with
    | some denied => (some (errDenylist denied), volume)
    | none =>
      if ¬volume.ledger.hasSpaceFor 0 then (some errDiskSpace, volume)
      else
        match volume.openForWrite false path with
        | (.error err, volume) => (some err, volume)
        | (.ok number, volume) => volume.uploadOpened reader size number

def extension (base : Text) : Text :=
  if '.' ∈ base then '.' :: (base.reverse.takeWhile (· ≠ '.')).reverse else []

/-- A name without its extension, and the extension; `.tar` belongs to it. -/
def splitExtension (base : Text) : Text × Text :=
  let tar : Text := ['.', 't', 'a', 'r']
  let ext := extension base
  let baseName := base.take (base.length - ext.length)
  if tar <:+ baseName then
    (baseName.take (baseName.length - tar.length), tar ++ ext)
  else (baseName, ext)

def copySuffix (i : Nat) : Text := if i = 0 then " copy".toList else (" copy " ++ toString i).toList

/-- `findCopySuffix`, at the given time. -/
def findCopySuffix (present : Text → Bool) (name ext now : Text) : Text :=
  let number := (List.range 51).find? fun i =>
    !present (name ++ copySuffix i ++ ext)
  match number with
  | some i => name ++ copySuffix i ++ ext
  | none => name ++ "copy.".toList ++ now ++ ext

def present (volume : Volume) (directory : Path) (text : Text) : Bool :=
  match nameOf text with
  | none => false
  | some name => (volume.lookup (directory ++ [name])).isSome

def createCopy (directory : Path) (parts : Text × Text) (now : Text)
    (volume : Volume) : Except Failure Nat × Volume :=
  match nameOf (findCopySuffix (volume.present directory) parts.1 parts.2 now) with
  | none => (.error errBadPathResolution, volume)
  | some name => volume.openFile true (directory ++ [name])

def openCopy (directory : Path) (parts : Text × Text) (now : Nat → Text)
    (volume : Volume) : Nat → Except Failure Nat × Volume
  | 0 => volume.createCopy directory parts (now 0)
  | attempts + 1 =>
    match volume.createCopy directory parts (now (attempts + 1)) with
    | (.error (.system .exist), _) =>
      openCopy directory parts now volume attempts
    | result => result

/-- `Copy`; `source` is what reading the file gives. -/
def copy (path : Path) (source : Reader) (now : Nat → Text)
    (volume : Volume) : FallibleCall.Outcome Failure Volume :=
  match volume.lookup path, path.getLast? with
  | some (.leaf number), some base =>
    let currentSize := (volume.inodes number).size
    match volume.ledger.reserveDisk currentSize with
    | none => (some errDiskSpace, volume)
    | some ledger =>
      match volume.openCopy path.dropLast (splitExtension base.text) now 10 with
      | (.error err, volume) =>
        (some err, { volume with
          ledger := ledger.releaseDisk currentSize 0 })
      | (.ok copy, volume) =>
        let copied := source.copy currentSize
        (copied.2, { volume with
          inodes := volume.inodes.resize copy copied.1
          ledger := ledger.releaseDisk currentSize copied.1 })
  | some _, _ => (some (.system .notExist), volume)
  | none, _ => (some (volume.missing path), volume)

/-- The flags of `Touch` that matter here; the mode is one for writing. -/
structure OpenFlags where
  append : Bool
  truncate : Bool
  exclusive : Bool

/-- A call of `Write` or `WriteAt`, and how many bytes the system call writes. -/
structure FileWrite where
  op : WriteOp
  len : Nat
  written : Nat

def completeWrite (ledger : Ledger) (file : RegularFile) (n : Nat) : Ledger × RegularFile :=
  match file.handle with
  | none => (ledger, file)
  | some handle =>
    match handle.pending with
    | none => (ledger, file)
    | some pending =>
      let after := file.kernelWrite handle pending n
      match after.handle with
      | none => (ledger, after)
      | some handle =>
        match handle.pending with
        | none => (ledger, after)
        | some pending =>
          after.finish ledger handle pending (pending.written.getD 0)

/-- `Write` or `WriteAt` of a quota file; `none` is an error before the system
call. -/
def quotaWrite (state : Ledger × RegularFile) (call : FileWrite) : Option (Ledger × RegularFile) :=
  match state.2.handle with
  | none => none
  | some handle =>
    match state.2.begin state.1 handle call.op call.len with
    | none => none
    | some (ledger, file) => some (completeWrite ledger file call.written)

def quotaWrites (state : Ledger × RegularFile) (calls : List FileWrite) : Ledger × RegularFile :=
  calls.foldl (fun state call => (quotaWrite state call).getD state) state

/-- `ReadFrom`: the chunks of a reader are written until one is refused. -/
def readFrom : Ledger × RegularFile → List Nat → Option Failure →
    Option Failure × Ledger × RegularFile
  | state, [], err => (err, state)
  | state, len :: rest, err =>
    match quotaWrite state ⟨.write, len, len⟩ with
    | none => (some errDiskSpace, state)
    | some after => readFrom after rest err

def opened (volume : Volume) (number : Nat) (append truncate : Bool) : Ledger × RegularFile :=
  (volume.ledger, RegularFile.touch ⟨(volume.inodes number).size, none⟩ append truncate)

def close (volume : Volume) (number : Nat) (state : Ledger × RegularFile) : Volume :=
  let size := (state.2.handle.map QuotaFile.size).getD state.2.fileSize
  { volume with
    inodes := volume.inodes.resize number state.2.fileSize
    ledger := state.1.adjustDisk (wrap (state.2.fileSize - size)) }

/-- Opening a file with `Touch`, writing to it and closing it. -/
def touch (path : Path) (flags : OpenFlags) (writes : List FileWrite)
    (volume : Volume) : FallibleCall.Outcome Failure Volume :=
  match volume.openForWrite flags.exclusive path with
  | (.error err, volume) => (some err, volume)
  | (.ok number, volume) =>
    (none, volume.close number
      (quotaWrites (volume.opened number flags.append flags.truncate) writes))

/-- The end of `WriteFrom`: the file is removed if writing it has failed. -/
def writeFromOpened (path : Path) (reader : Reader) (number : Nat)
    (volume : Volume) : FallibleCall.Outcome Failure Volume :=
  match readFrom (volume.opened number false true) reader.chunks reader.error with
  | (none, state) => (none, volume.close number state)
  | (some err, state) =>
    (some err, ((volume.close number state).remove path).2)

def writeFrom (path : Path) (reader : Reader) (volume : Volume) :
    FallibleCall.Outcome Failure Volume :=
  match volume.lookup path with
  | some (.branch _ _) => (some errIsDirectory, volume)
  | _ =>
    match volume.mkdirAll path.dropLast with
    | (some err, volume) => (some err, volume)
    | (none, volume) =>
      match volume.openForWrite false path with
      | (.error err, volume) => (some err, volume)
      | (.ok number, volume) => volume.writeFromOpened path reader number

structure Tally where
  hardLinks : List Nat
  size : Int

def Tally.count (inodes : Inodes) (tally : Tally) (number : Nat) : Tally :=
  let size := wrap (tally.size + (inodes number).size)
  if (inodes number).nlink > 1 then
    if number ∈ tally.hardLinks then tally
    else ⟨tally.hardLinks ++ [number], size⟩
  else ⟨tally.hardLinks, size⟩

def sizeOfVisit (inodes : Inodes) (visit : Visit Nat)
    (tally : Tally) : FallibleCall.Outcome Failure Tally :=
  match visit.finding with
  | .failure _ .notExist => (none, tally)
  | .failure _ cause =>
    (some (.wrapped "walkdirat err" visit.name (.system cause)), tally)
  | .entry (.directory _) => (none, tally)
  | .entry (.file number) => (none, tally.count inodes number)

/-- The tree as the walker finds it: every directory can be read. -/
def listing : Tree → Listing Nat Folder
  | .nil => .nil
  | .leaf name number rest => .leaf name number (listing rest)
  | .branch name _ children rest =>
    .branch name ⟨false, none⟩ (listing children) (listing rest)

def directorySize (volume : Volume) : Int × Option Failure :=
  let walked := walkDirat (sizeOfVisit volume.inodes) ['.']
    (.directory ⟨false, none⟩ (listing volume.tree)) ⟨[], 0⟩
  (walked.2.size, walked.1)

/-- A call and its arguments.  Sizes are given as `int64`. -/
inductive Operation where
  | write (path : Path) (reader : Reader) (newSize : Int) (isInt64 : InRange newSize)
  | writeUpload (path : Path) (reader : Reader) (size : Int) (isInt64 : InRange size)
  | writeFrom (path : Path) (reader : Reader)
  | copy (path : Path) (source : Reader) (now : Nat → Text)
  | remove (path : Path)
  | removeAll (path : Path)
  | rename (oldpath newpath : Path)
  | replace (oldpath newpath : Path)
  | touch (path : Path) (flags : OpenFlags) (writes : List FileWrite)

def perform (volume : Volume) : Operation → FallibleCall.Outcome Failure Volume
  | .write path reader newSize _ => volume.write path reader newSize
  | .writeUpload path reader size _ => volume.writeUpload path reader size
  | .writeFrom path reader => volume.writeFrom path reader
  | .copy path source now => volume.copy path source now
  | .remove path => volume.remove path
  | .removeAll path => volume.removeAll path
  | .rename oldpath newpath => volume.rename oldpath newpath
  | .replace oldpath newpath => volume.replace oldpath newpath
  | .touch path flags writes => volume.touch path flags writes

def Steps (volume : Volume) (call : Operation) (after : Volume) : Prop :=
  (volume.perform call).2 = after

end Volume

namespace Inodes

theorem total_le_of_subset (inodes : Inodes) (subset : names ⊆ others) :
    inodes.total names ≤ inodes.total others := by
  apply Finset.sum_le_sum_of_subset_of_nonneg
  · intro number member
    exact List.mem_toFinset.mpr (subset (List.mem_toFinset.mp member))
  · intro number _ _
    exact Int.natCast_nonneg _

theorem total_concat_of_mem (inodes : Inodes) (member : number ∈ names) :
    inodes.total (names ++ [number]) = inodes.total names := by
  rw [inodes.total_perm (List.perm_append_singleton _ _), inodes.total_cons_of_mem member]

theorem total_concat_of_notMem (inodes : Inodes) (absent : number ∉ names) :
    inodes.total (names ++ [number]) = inodes.total names + (inodes number).size := by
  rw [inodes.total_perm (List.perm_append_singleton _ _),
    inodes.total_cons_of_notMem absent, Int.add_comm]

end Inodes

namespace Volume

theorem sizeOfVisit_neverSkips (inodes : Inodes) : NeverSkips (sizeOfVisit inodes) := by
  intro visit tally
  unfold sizeOfVisit
  split <;> simp

theorem runAll_sizeOfVisit (inodes : Inodes) (relative : Text) (tree : Tree) (tally : Tally) :
    runAll (sizeOfVisit inodes) (entryVisits relative (listing tree)) tally =
    (none, tree.contents.foldl (Tally.count inodes) tally) := by
  induction tree generalizing relative tally with
  | nil => rfl
  | leaf name number rest restIh =>
    rw [listing, entryVisits, runAll, sizeOfVisit, proceed, restIh,
      Forest.contents, List.foldl_cons]
  | branch name data children rest childIh restIh =>
    rw [listing, entryVisits, runAll_append, directoryVisits]
    rw [runAll, sizeOfVisit, proceed, childIh, proceed, restIh, Forest.contents, List.foldl_append]

structure Tally.Counts (inodes : Inodes) (names : List Nat) (tally : Tally) : Prop where
  size : tally.size = inodes.total names
  hardLinks : ∀ number, number ∈ tally.hardLinks ↔ number ∈ names ∧ (inodes number).nlink > 1

variable {inodes : Inodes} {tally : Tally}

theorem Tally.Counts.count (counts : tally.Counts inodes names)
    (links : number ∈ names → (inodes number).nlink > 1)
    (bounded : inodes.total (names ++ [number]) ≤ maxInt64) :
    (tally.count inodes number).Counts inodes (names ++ [number]) := by
  by_cases member : number ∈ names
  · have several := links member
    have known := (counts.hardLinks number).mpr ⟨member, several⟩
    rw [Tally.count, if_pos several, if_pos known]
    constructor
    · rw [inodes.total_concat_of_mem member, counts.size]
    · intro other
      rw [counts.hardLinks, List.mem_append, List.mem_singleton]
      constructor
      · exact fun found => ⟨.inl found.1, found.2⟩
      · rintro ⟨found | rfl, links⟩
        · exact ⟨found, links⟩
        · exact ⟨member, several⟩
  · have unknown : number ∉ tally.hardLinks := fun known =>
      member ((counts.hardLinks number).mp known).1
    have total := inodes.total_concat_of_notMem member
    have size : wrap (tally.size + (inodes number).size) = inodes.total (names ++ [number]) := by
      rw [counts.size, ← total]
      exact wrap_eq_self (inRange_of_nonneg inodes.total_nonneg bounded)
    by_cases several : (inodes number).nlink > 1
    · rw [Tally.count, if_pos several, if_neg unknown]
      refine ⟨size, ?_⟩
      intro other
      rw [List.mem_append, List.mem_singleton, counts.hardLinks,
        List.mem_append, List.mem_singleton]
      constructor
      · rintro (found | rfl)
        · exact ⟨.inl found.1, found.2⟩
        · exact ⟨.inr rfl, several⟩
      · rintro ⟨found | rfl, links⟩
        · exact .inl ⟨found, links⟩
        · exact .inr rfl
    · rw [Tally.count, if_neg several]
      refine ⟨size, ?_⟩
      intro other
      rw [counts.hardLinks, List.mem_append, List.mem_singleton]
      constructor
      · exact fun found => ⟨.inl found.1, found.2⟩
      · rintro ⟨found | rfl, linked⟩
        · exact ⟨found, linked⟩
        · exact absurd linked several

theorem Tally.Counts.foldl (counts : tally.Counts inodes names)
    (nlink : ∀ number, (inodes number).nlink = (names ++ rest).count number)
    (bounded : inodes.total (names ++ rest) ≤ maxInt64) :
    (rest.foldl (Tally.count inodes) tally).Counts inodes (names ++ rest) := by
  induction rest generalizing names tally with
  | nil =>
    rw [List.append_nil]
    exact counts
  | cons number rest ih =>
    have regroup : names ++ number :: rest = names ++ [number] ++ rest := by
      rw [List.append_assoc, List.singleton_append]
    rw [regroup] at nlink bounded ⊢
    refine ih (counts.count ?_ ?_) nlink bounded
    · intro member
      have before := List.count_pos_iff.mpr member
      rw [nlink, List.count_append, List.count_append, List.count_singleton_self]
      omega
    · exact (inodes.total_le_of_subset (List.subset_append_left _ _)).trans bounded

theorem directorySize_eq {volume : Volume} (nlink : ∀ number,
    (volume.inodes number).nlink = volume.tree.contents.count number)
    (bounded : volume.inodes.total volume.tree.contents ≤ maxInt64) : volume.directorySize =
    (volume.inodes.total volume.tree.contents, none) := by
  have nothing : (⟨[], 0⟩ : Tally).Counts volume.inodes [] := by
    refine ⟨rfl, ?_⟩
    intro number
    simp
  have counted : (volume.tree.contents.foldl (Tally.count volume.inodes)
      ⟨[], 0⟩).Counts volume.inodes volume.tree.contents := nothing.foldl nlink bounded
  rw [directorySize, walkDirat_eq_runAll (sizeOfVisit_neverSkips _), baseVisits, directoryVisits]
  rw [runAll, sizeOfVisit, proceed, runAll_sizeOfVisit]
  rw [counted.size]

end Volume

end Wings.Filesystem
