import Mathlib.Algebra.BigOperators.Group.List.Basic
import Wings.Restore.Disk

/-!
# Restore inverts backup

The files and links of the tree come back, unless a link lies in a directory whose absolute path
inside the server starts like the path of the root on the host, which is then taken off.
-/

namespace Wings.Restore

open Archives BufferedEncoder FallibleCall LabelledForest MachineInt RecordArchive
open Filesystem (Quota Ledger)
open LexicalPath hiding Text
open Backups (Bytes)

structure HasRoom (quota : Quota) (size : Int) : Prop where
  usage_nonneg : 0 ≤ quota.usage
  bounded : quota.usage + size ≤ maxInt64
  limited : quota.limit = 0 ∨ (0 < quota.limit ∧ quota.limit ≤ maxInt64 ∧
        quota.usage + size ≤ quota.limit)

theorem HasRoom.canFit (room : HasRoom quota size) (positive : 0 < size) :
    quota.canFit size = true := by
  rcases room.limited with unlimited | ⟨limitPositive, limitBounded, within⟩
  · simp [Quota.canFit, unlimited]
  · exact (Quota.canFit_iff limitPositive limitBounded
      room.usage_nonneg positive).mpr within

theorem releaseDisk_all (ledger : Ledger) (size : Nat) :
    (ledger.releaseDisk size size).unixFS = ledger.unixFS := by
  have nonnegative : ¬(size : Int) < 0 := by omega
  simp [Ledger.releaseDisk, nonnegative, Quota.add, Quota.addUsage, wrap]

theorem HasRoom.exists_reservation {ledger : Ledger} {size more : Nat}
    (room : HasRoom ledger.unixFS ((size + more : Nat) : Int)) : ∃ granted,
    ledger.reserveDisk size = some granted ∧
    HasRoom (granted.releaseDisk size size).unixFS more := by
  obtain ⟨nonnegative, bounded, limited⟩ := room
  by_cases empty : size = 0
  · subst empty
    refine ⟨ledger, by simp [Ledger.reserveDisk], ?_⟩
    rw [releaseDisk_all]
    exact ⟨nonnegative, by simpa using bounded, by simpa using limited⟩
  · have room : HasRoom ledger.unixFS size := by
      refine ⟨nonnegative, by omega, ?_⟩
      omega
    have fits := room.canFit (by omega)
    have counted : Quota.addUsage ledger.unixFS.usage size =
          ledger.unixFS.usage + size := Quota.addUsage_eq_add (by omega) (by omega)
        (by omega)
    rw [Ledger.reserveDisk, if_neg (by omega), Ledger.hasSpaceFor, if_pos fits]
    refine ⟨_, rfl, ?_⟩
    rw [releaseDisk_all]
    refine ⟨?_, ?_, ?_⟩ <;>
      simp only [Quota.add_usage, Quota.add_limit, counted]
      <;> omega

variable {headers : HeaderFormat}

variable (headers) in
def entryAt (item : Path × StaticFile) : Header × Bytes :=
  ((item.2.entry headers (pathText item.1)).header,
    (item.2.entry headers (pathText item.1)).content)

def sizeOf (item : Path × StaticFile) : Nat := if item.2.kind = .regular then item.2.size else 0

def Restorable (file : StaticFile) : Prop :=
  file.IsEntry ∧ (file.kind = .symlink → file.target ≠ [])

theorem entryAt_regular (regular : file.kind = .regular) :
    entryAt headers (path, file) = (⟨pathText path, .regular, [], (restoredContent file).length⟩,
    restoredContent file) := by
  have whole : (restoredContent file).length = file.size := file.whole
  rw [whole]
  simp [entryAt, StaticFile.entry, entryOf, content, StaticFile.observe,
    StaticFile.header, regular, restoredContent]

theorem exists_first_difference (leaves : ¬ way <+: below) : ∃ upper name lower,
    way = upper ++ name :: lower ∧ upper <+: below ∧ ¬ upper ++ [name] <+: below := by
  induction way using List.reverseRecOn with
  | nil => exact absurd List.nil_prefix leaves
  | append_singleton way last ih =>
    by_cases shorter : way <+: below
    · exact ⟨way, last, [], rfl, shorter, leaves⟩
    · obtain ⟨upper, name, lower, rfl, begins, ends⟩ := ih shorter
      exact ⟨upper, name, lower ++ [last], by simp, begins, ends⟩

section

variable {fs : UnixFS} (sandboxed : fs.basePath = basePath root)

include sandboxed

theorem restoreLink_restores (clear : disk.Clear way) (absent : disk (way ++ [name]) = none)
    (outside : ¬ basePath root <+: absolute way) (linked : target ≠ []) :
    restoreLink fs ⟨pathText (way ++ [name]), .symlink, target, 0⟩ disk =
    (none, disk.place way name (.link target)) := by
  have free : disk.withDirectories way (way ++ [name]) = none := by
    rw [Disk.withDirectories, if_neg, absent]
    intro begins
    simpa using begins.length_le
  rw [restoreLink, if_neg linked, createDirectory, dir_pathText_concat, join_slash_pathText,
    mkdirAll_of_clear sandboxed (unsafePath_absolute root outside) clear]
  dsimp only
  rw [symlink_of_isDirectory sandboxed (disk.isDirectory_withDirectories way) free]
  rfl

variable (headers) in
theorem restoreEntry_restores {done : List (Path × StaticFile)}
    {server : Server} {item : Path × StaticFile} {more : Nat}
    (holds : Holds done server.disk) (nonempty : item.1 ≠ [])
    (apart : Apart done item.1) (restorable : Restorable item.2)
    (outside : item.2.kind = .symlink → ¬ basePath root <+: absolute item.1.dropLast)
    (room : HasRoom server.ledger.unixFS ((sizeOf item + more : Nat) : Int)) : ∃ after,
    restoreEntry fs (entryAt headers item) server = (none, after) ∧
    Holds (done ++ [item]) after.disk ∧ HasRoom after.ledger.unixFS more := by
  obtain ⟨path, file⟩ := item
  obtain ⟨way, name, rfl⟩ := (List.eq_nil_or_concat' path).resolve_left nonempty
  dsimp only at apart outside restorable
  rw [List.dropLast_concat] at outside
  have clear := holds.clear apart
  have absent := holds.absent apart
  have added := holds.add apart file
  rcases restorable.1 with regular | link
  · have length : sizeOf (way ++ [name], file) = (restoredContent file).length := by
      rw [sizeOf, if_pos regular]
      exact file.whole.symm
    rw [length] at room
    obtain ⟨ledger, granted, roomAfter⟩ := room.exists_reservation
    have written := write_of_clear sandboxed clear absent granted
    have restored : restoredEntry file = .file (restoredContent file) := by
      rw [restoredEntry, if_neg]
      rw [regular]
      exact Kind.noConfusion
    rw [restored] at added
    refine ⟨⟨server.disk.place way name (.file (restoredContent file)),
      ledger.releaseDisk (restoredContent file).length
        (restoredContent file).length⟩, ?_, added, roomAfter⟩
    rw [entryAt_regular regular, restoreEntry]
    rw [written]
    dsimp only [proceed]
    rw [chtimes, touched, Disk.place, lstat_update sandboxed
      (server.disk.isDirectory_withDirectories way)]
  · have restored : restoredEntry file = .link file.target := by
      rw [restoredEntry, if_pos link]
    have small : sizeOf (way ++ [name], file) = 0 := by
      rw [sizeOf, if_neg]
      rw [link]
      exact Kind.noConfusion
    rw [small, Nat.zero_add] at room
    have header : (entryAt headers (way ++ [name], file)).1 =
          ⟨pathText (way ++ [name]), .symlink, file.target, 0⟩ := by
      simp [entryAt, StaticFile.entry, entryOf, StaticFile.header, link]
    have linked := restoreLink_restores sandboxed clear absent (outside link) (restorable.2 link)
    rw [restored] at added
    refine ⟨⟨server.disk.place way name (.link file.target), server.ledger⟩, ?_, added, room⟩
    rw [restoreEntry, header]
    dsimp only [onDisk]
    rw [linked]

variable (headers) in
theorem runAll_restores (items : List (Path × StaticFile)) (server : Server)
    (holds : Holds done server.disk) (nonempty : ∀ item ∈ items, item.1 ≠ [])
    (incomparable : (done ++ items).Pairwise fun first second =>
    ¬first.1 <+: second.1 ∧ ¬second.1 <+: first.1) (restorable : ∀ item ∈ items, Restorable item.2)
    (outside : ∀ item ∈ items, item.2.kind = .symlink →
    ¬ basePath root <+: absolute item.1.dropLast)
    (room : HasRoom server.ledger.unixFS ((items.map sizeOf).sum : Nat)) :
    ∃ after, runAll (restoreEntry fs) (items.map (entryAt headers)) server = (none, after) ∧
    Holds (done ++ items) after.disk := by
  induction items generalizing done server with
  | nil =>
    refine ⟨server, rfl, ?_⟩
    rwa [List.append_nil]
  | cons item rest ih =>
    rw [List.forall_mem_cons] at nonempty restorable outside
    have apart : Apart done item.1 := fun other known =>
      (List.pairwise_append.mp incomparable).2.2 other known item List.mem_cons_self
    obtain ⟨after, restored, holdsMore, roomLeft⟩ :=
      restoreEntry_restores headers sandboxed holds nonempty.1 apart restorable.1 outside.1 room
    have regroup : done ++ item :: rest = done ++ [item] ++ rest := by simp
    rw [regroup] at incomparable ⊢
    obtain ⟨final, finished, holdsAll⟩ := ih after holdsMore nonempty.2 incomparable
        restorable.2 outside.2 roomLeft
    refine ⟨final, ?_, holdsAll⟩
    rw [List.map_cons, runAll, restored]
    exact finished

theorem restoreLink_fails (name : Name)
    (inside : basePath root <+: absolute way) (linked : target ≠ []) :
    (restoreLink fs ⟨pathText (way ++ [name]), .symlink, target, 0⟩ Disk.empty).1 ≠ none := by
  rw [restoreLink, if_neg linked, createDirectory, dir_pathText_concat, join_slash_pathText]
  cases resolved : unsafePath (basePath root) (absolute way) with
  | error err =>
    rw [mkdirAll, unixMkdirAll, sandboxed, resolved]
    exact Option.some_ne_none err
  | ok text =>
    obtain ⟨below, rfl, _⟩ := exists_path_of_unsafePath root resolved
    have clear : Disk.empty.Clear below := by
      refine ⟨[], below, rfl, ?_, ?_⟩
      · intro part begins
        rw [List.prefix_nil.mp begins, Disk.empty, if_pos rfl]
      · intro part nonempty _
        rw [List.nil_append, Disk.empty, if_neg nonempty]
    obtain ⟨upper, first, lower, rfl, begins, ends⟩ :=
      exists_first_difference (not_begins_of_unsafePath root inside resolved)
    have missing : openDirectory fs (Disk.empty.withDirectories below) []
            (upper ++ first :: lower) = .error (.system .notExist) := by
      apply openDirectory_of_missing
      · exact (Disk.empty.isDirectory_withDirectories below).of_begins begins
      · rw [List.nil_append, Disk.withDirectories, if_neg ends, Disk.empty, if_neg (by simp)]
    rw [mkdirAll_of_clear sandboxed resolved clear]
    dsimp only
    rw [symlink, safePath_pathText sandboxed, List.dropLast_concat, missing]
    exact Option.some_ne_none _

end

structure ServerTree where
  directory : Directory
  restorable : ∀ item ∈ directory.files, Restorable item.2

namespace ServerTree

variable (tree : ServerTree)

def files : List (Path × StaticFile) := tree.directory.files

def totalSize : Nat := (tree.files.map sizeOf).sum

def request (root : RelativePath)
    (compileIgnore : Text → Except String (Text → Bool)) : Request where
  root := pathText root.1
  compileIgnore := compileIgnore
  name := ['.']
  directory := tree.directory
  baseDirectory := []
  wanted := []

theorem sources_request (headers : HeaderFormat) (root : RelativePath)
    (compileIgnore : Text → Except String (Text → Bool)) :
    ((tree.request root compileIgnore).archive.sources headers).map Prod.snd =
    tree.files.map fun item => item.2.entry headers (pathText item.1) := by
  rw [Request.sources_archive, List.map_flatMap, List.map_eq_flatMap]
  apply List.flatMap_congr
  intro item member
  have entry := (tree.restorable item member).1
  have stored : (tree.request root compileIgnore).storedPath item.1 = item.1 := by
    rcases item.1 with _ | ⟨first, _ | ⟨second, rest⟩⟩ <;> rfl
  have accepted : (tree.request root compileIgnore).Accepts item.1 := .inl rfl
  rw [Request.contribution, stored, if_pos ⟨entry.ne_socket, accepted⟩]
  rfl

theorem map_entry (headers : HeaderFormat) :
    ((tree.files.map fun item => item.2.entry headers (pathText item.1)).map
    fun entry => (entry.header, entry.content)) = tree.files.map (entryAt headers) := by
  rw [List.map_map]
  rfl

theorem exists_first (member : item ∈ tree.files) :
    ∃ arrangement : ServerTree, ∃ later, arrangement.files = item :: later ∧
    arrangement.files.Perm tree.files := by
  obtain ⟨other, distinct, _, later, equal, same⟩ :=
    Forest.exists_leaf_first tree.directory.distinct member
  have sameFiles : other.leaves.Perm tree.files := by
    rw [equal]
    exact same
  refine ⟨⟨⟨other, distinct⟩, ?_⟩, later, equal, sameFiles⟩
  intro one known
  exact tree.restorable one (sameFiles.mem_iff.mp known)

end ServerTree

section

variable (fs : UnixFS) (root : RelativePath) (gzip : Codec UInt8 UInt8) (headers : HeaderFormat)
  (compileIgnore : Text → Except String (Text → Bool)) (reader : ArchiveReader)
  (stop : Option StopFailure) (uuid identifier : String) (present : PresentTree)
  (ledger : Ledger)

def archiveOf (tree : ServerTree) : Outcome Failure (Sink UInt8) :=
  stream gzip headers (tree.request root compileIgnore).archive none

def restorationOf (tree : ServerTree) : Restoration := restoreBackup fs reader stop true
    (.before uuid (Function.update (fun _ => none) identifier
      (some (archiveOf root gzip headers compileIgnore tree).2.received))) present ledger

/-- The archive is written, and restoring it leaves given files and links, the directories above
them and nothing else. -/
structure Restores (files : List (Path × StaticFile)) (tree : ServerTree) : Prop where
  archived : (archiveOf root gzip headers compileIgnore tree).1 = none
  succeeds : (restorationOf fs root gzip headers compileIgnore reader stop uuid identifier
      present ledger tree).error = none
  holds : Holds files (restorationOf fs root gzip headers compileIgnore reader stop uuid
        identifier present ledger tree).server.disk

variable {fs root gzip headers compileIgnore reader stop uuid identifier} {present ledger}

theorem restorationOf_eq (decompresses : ∀ raw, reader.decompress (gzip.finished raw) = some raw)
    (reads : ∀ attempts : List (Attempt headers.tar),
      (∀ attempt ∈ attempts, attempt.Complete) → reader.entries (archiveBytes attempts) =
          attempts.map fun attempt => (attempt.header, attempt.content))
    (stopped : ∀ cause, stop ≠ some (.other cause))
    (valid : Backups.normalizedIdentifier uuid = some identifier) (tree : ServerTree) :
    restorationOf fs root gzip headers compileIgnore reader stop uuid identifier
        present ledger tree = .of (runAll (restoreEntry fs) (tree.files.map (entryAt headers))
        ⟨Disk.empty,
          { ledger with
            unixFS := ledger.unixFS.setUsage ledger.reserved }⟩) := by
  have received : (stream gzip headers (tree.request root compileIgnore).archive
          none).2.received = _ := ((tree.request root compileIgnore).stream_archive gzip).2
  rw [tree.sources_request] at received
  have complete : ∀ attempt ∈ tree.files.map fun item => item.2.entry headers (pathText item.1),
        attempt.Complete := by
    intro attempt member
    obtain ⟨item, _, rfl⟩ := List.mem_map.mp member
    exact item.2.entry_complete _
  have entries := reads _ complete
  rw [tree.map_entry] at entries
  unfold restorationOf restoreBackup archiveOf
  rw [received]
  congr 1
  have truncated : truncateRootDirectory present ledger = (none, .nil,
          { ledger with
            unixFS := ledger.unixFS.setUsage ledger.reserved }) := by
    rw [truncateRootDirectory, removeContentsFrom_eq]
  have restored : restore reader (.before uuid (Function.update (fun _ => none) identifier
            (some (gzip.finished (archiveBytes (tree.files.map
              fun item => item.2.entry headers (pathText item.1))))))) (restoreEntry fs) =
        runAll (restoreEntry fs) (tree.files.map (entryAt headers)) := by
    funext server
    simp only [restore, Backups.Node.before, valid, Function.update_self, decompresses, entries]
  rcases stop with _ | (_ | cause)
  · simp only [if_true, truncated, restored, find_nil]
  · simp only [if_true, truncated, restored, find_nil]
  · exact absurd rfl (stopped cause)

end

open Classical in
noncomputable def recordReader (gzip : Codec UInt8 UInt8)
    (headers : HeaderFormat) : ArchiveReader where
  decompress := gzip.decode
  entries raw :=
    if archive : ∃ attempts : List (Attempt headers.tar), (∀ attempt ∈ attempts, attempt.Complete) ∧
            archiveBytes attempts = raw then
      archive.choose.map fun attempt => (attempt.header, attempt.content)
    else []

theorem recordReader_entries (gzip : Codec UInt8 UInt8) (attempts : List (Attempt headers.tar))
    (complete : ∀ attempt ∈ attempts, attempt.Complete) :
    (recordReader gzip headers).entries (archiveBytes attempts) =
    attempts.map fun attempt => (attempt.header, attempt.content) := by
  have archive : ∃ others : List (Attempt headers.tar), (∀ attempt ∈ others, attempt.Complete) ∧
          archiveBytes others = archiveBytes attempts := ⟨attempts, complete, rfl⟩
  have chosen := archive.choose_spec
  rw [recordReader]
  dsimp only
  rw [dif_pos archive, archiveBytes_injective chosen.1 complete chosen.2]

def srv : Name := ⟨"srv".toList, by decide, by decide, by decide, by decide⟩

def latest : Name := ⟨"latest".toList, by decide, by decide, by decide, by decide⟩

/-- The sandbox with the root `/srv`, in which no link in the middle of a path can
be followed. -/
def srvSandbox : UnixFS where
  basePath := basePath ⟨[srv], by decide⟩
  follow _ _ _ := .error (.other 40)

theorem regular_ne_directory : Kind.regular ≠ .directory := by decide

theorem delivered_nothing : (delivered (bufferLength 0) [] 0).length = 0 := rfl

def danglingLink : StaticFile where
  kind := .symlink
  size := 0
  target := "gone".toList
  reads := []
  notDirectory := by decide
  whole := delivered_nothing

def byteFile : StaticFile where
  kind := .regular
  size := 1
  target := []
  reads := [[7]]
  notDirectory := regular_ne_directory
  whole := rfl

theorem danglingLink_restorable : Restorable danglingLink := ⟨.inr rfl, fun _ => by decide⟩

def plainTree : ServerTree where
  directory :=
    { entries := .branch srv () (.leaf srv byteFile .nil) (.leaf latest danglingLink .nil)
      distinct := by
        simp [Forest.Distinct, Forest.labels, (by decide : srv ≠ latest)] }
  restorable := by
    intro item member
    simp only [Directory.files, Forest.leaves, List.map_cons, List.map_nil,
      List.cons_append, List.nil_append, List.mem_cons, List.not_mem_nil, or_false] at member
    rcases member with rfl | rfl
    · exact ⟨.inl rfl, fun link => nomatch link⟩
    · exact danglingLink_restorable

def misplacedTree : ServerTree where
  directory :=
    { entries := .branch srv () (.leaf latest danglingLink .nil) .nil
      distinct := by
        simp [Forest.Distinct, Forest.labels] }
  restorable := by
    intro item member
    simp only [Directory.files, Forest.leaves, List.map_cons, List.map_nil,
      List.cons_append, List.nil_append, List.mem_singleton] at member
    subst member
    exact danglingLink_restorable

def exampleUuid : String := "0a1b2c3d-4e5f-6071-8293-a4b5c6d7e8f9"

theorem exampleUuid_valid : Backups.normalizedIdentifier exampleUuid = some exampleUuid := by
  decide +kernel

def unlimitedLedger : Ledger := ⟨⟨0, 5⟩, 0, false, 0⟩

theorem unlimitedLedger_hasRoom (small : size ≤ 1) :
    HasRoom (unlimitedLedger.unixFS.setUsage unlimitedLedger.reserved) size := by
  refine ⟨le_rfl, ?_, .inl rfl⟩
  simp only [unlimitedLedger, Quota.setUsage, maxInt64]
  omega

end Wings.Restore
