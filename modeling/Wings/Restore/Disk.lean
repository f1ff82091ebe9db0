import Wings.Backups.Report
import Wings.Filesystem.DiskSpace
import Wings.Restore.Paths

/-!
# Restoring to the directory of a server

A path is resolved one name after the other, as the kernel does it below the opened root. Where a
symbolic link in the middle of a path leads is left to the kernel. `RestoreBackup` passes the
entries of the archive to `restoreEntry` one after the other.
-/

namespace Wings.Restore

open Archives FallibleCall
open Function (update)
open LexicalPath hiding Text
open Backups (Bytes)

inductive Entry where
  | directory
  | file (content : Bytes)
  | link (target : Text)
  deriving DecidableEq

abbrev Disk := Path → Option Entry

def Disk.empty : Disk := fun path =>
  if path = [] then some .directory else none

/-- The path of the root on the host, and where the kernel gets to when it follows a link. -/
structure UnixFS where
  basePath : Text
  follow : Disk → Path → Text → Except SysError Path

def errNotDirectory : Failure := .message "not a directory"

variable (fs : UnixFS)

def openDirectory (disk : Disk) : Path → Path → Except Failure Path
  | way, [] => .ok way
  | way, name :: rest =>
    match disk (way ++ [name]) with
    | none => .error (.system .notExist)
    | some .directory => openDirectory disk (way ++ [name]) rest
    | some (.file _) => .error errNotDirectory
    | some (.link target) =>
      if rest = [] then .error errNotDirectory
      else
        match fs.follow disk way target with
        | .error cause => .error (.system cause)
        | .ok real => openDirectory disk real rest

def safePath (disk : Disk) (path : Text) : Except Failure Path :=
  match unsafePath fs.basePath path with
  | .error err => .error err
  | .ok name =>
    match openDirectory fs disk [] (pathOf name).dropLast with
    | .error err => .error err
    | .ok way => .ok (way ++ (pathOf name).getLast?.toList)

def lstat (disk : Disk) (path : Text) : Except Failure (Path × Entry) :=
  match safePath fs disk path with
  | .error err => .error err
  | .ok place =>
    match disk place with
    | none => .error (.system .notExist)
    | some entry => .ok (place, entry)

def mkdir (path : Text) (disk : Disk) : Outcome Failure Disk :=
  match safePath fs disk path with
  | .error err => (some err, disk)
  | .ok place =>
    match disk place with
    | some _ => (some (.system .exist), disk)
    | none => (none, update disk place (some .directory))

def checkLink (disk : Disk) (way : Path) (target : Text) : Option Failure :=
  match fs.follow disk way target with
  | .error cause => some (.system cause)
  | .ok real =>
    if disk real = some .directory then none else some errNotDirectory

/-- `mkdirAll` of the sandbox, with the paths of the directories it created. -/
def makeDirectories (disk : Disk) : Path → Except Failure (List Text) × Disk
  | [] =>
    match lstat fs disk (pathText []) with
    | .ok _ => (.ok [], disk)
    | .error err => (.error err, disk)
  | last :: parents =>
    let name := pathText (parents.reverse ++ [last])
    match lstat fs disk name with
    | .ok (_, .directory) => (.ok [], disk)
    | .ok (_, .file _) => (.error errNotDirectory, disk)
    | .ok (place, .link target) =>
      match checkLink fs disk place.dropLast target with
      | none => (.ok [], disk)
      | some err => (.error err, disk)
    | .error _ =>
      let above := if parents = [] then (.ok [], disk) else makeDirectories disk parents
      match above with
      | (.error err, disk) => (.error err, disk)
      | (.ok created, disk) =>
        match mkdir fs name disk with
        | (none, disk) => (.ok (created ++ [name]), disk)
        | (some err, disk) =>
          match lstat fs disk name with
          | .ok (_, .directory) => (.ok created, disk)
          | _ => (.error err, disk)

def unixMkdirAll (path : Text) (disk : Disk) : Except Failure (List Text) × Disk :=
  match unsafePath fs.basePath path with
  | .error err => (.error err, disk)
  | .ok name => makeDirectories fs disk (pathOf name).reverse

/-- The error of a call that changes only the owner or the times of an entry. -/
def touched (disk : Disk) (path : Text) : Option Failure :=
  match lstat fs disk path with
  | .error err => some err
  | .ok _ => none

def chownFile (disk : Disk) (path : Text) : Option Failure := touched fs disk path

def chtimes (disk : Disk) (path : Text) : Option Failure := touched fs disk path

def mkdirAll (path : Text) (disk : Disk) : Outcome Failure Disk :=
  match unixMkdirAll fs path disk with
  | (.error err, disk) => (some err, disk)
  | (.ok created, disk) => (created.findSome? (chownFile fs disk), disk)

def createDirectory (name path : Text) (disk : Disk) : Outcome Failure Disk :=
  mkdirAll fs (join path name) disk

def symlink (target path : Text) (disk : Disk) : Outcome Failure Disk :=
  match safePath fs disk path with
  | .error err => (some err, disk)
  | .ok place =>
    match disk place with
    | some _ => (some (.system .exist), disk)
    | none => (none, update disk place (some (.link target)))

/-- `TouchPath`: the place of a path, after its directories were made. -/
def touchPath (path : Text) (disk : Disk) : Except Failure Path × Disk :=
  match safePath fs disk path with
  | .ok place => (.ok place, disk)
  | .error (.system .notExist) =>
    match unsafePath fs.basePath path with
    | .error err => (.error err, disk)
    | .ok name =>
      match unixMkdirAll fs (pathText (pathOf name).dropLast) disk with
      | (.error err, disk) => (.error err, disk)
      | (.ok _, disk) => (safePath fs disk path, disk)
  | .error err => (.error err, disk)

/-- `openForWrite` without truncation: the place of the file and its size. -/
def openForWrite (path : Text) (disk : Disk) : Except Failure (Path × Int) × Disk :=
  match touchPath fs path disk with
  | (.error err, disk) => (.error err, disk)
  | (.ok place, disk) =>
    match disk place with
    | none => (.ok (place, 0), update disk place (some (.file [])))
    | some (.file content) => (.ok (place, content.length), disk)
    | some .directory => (.error (.message "is a directory"), disk)
    | some (.link _) => (.error (.system (.other 40)), disk)

structure Server where
  disk : Disk
  ledger : Filesystem.Ledger

def removeFile (path : Text) (server : Server) : Server :=
  match lstat fs server.disk path with
  | .ok (place, .file content) =>
    { disk := update server.disk place none
      ledger := server.ledger.adjustDisk (-content.length) }
  | _ => server

/-- `Write`, for a reader that returns the given bytes. -/
def write (path : Text) (content : Bytes) (newSize : Nat) (server : Server) :
    Outcome Failure Server :=
  match lstat fs server.disk path with
  | .ok (_, .directory) =>
    (some (.message "filesystem: cannot perform action: [%s] is a directory"), server)
  | _ =>
    match mkdirAll fs (dir path) server.disk with
    | (some err, disk) => (some err, { server with disk := disk })
    | (none, disk) =>
      let existed := (lstat fs disk path).isOk
      match openForWrite fs path disk with
      | (.error err, disk) => (some err, { server with disk := disk })
      | (.ok (place, currentSize), disk) =>
        match server.ledger.reserveDisk (newSize - currentSize) with
        | none =>
          let server := { server with disk := disk }
          (some (.message "filesystem: not enough disk space"),
            if existed then server else removeFile fs path server)
        | some ledger =>
          let written := content.take newSize
          let disk := update disk place (some (.file written))
          let reserved := max (newSize - currentSize) 0
          (chownFile fs disk path,
            { disk := disk
              ledger := ledger.releaseDisk reserved (written.length - currentSize) })

namespace Disk

def IsDirectory (disk : Disk) (path : Path) : Prop :=
  ∀ part, part <+: path → disk part = some .directory

def Clear (disk : Disk) (path : Path) : Prop := ∃ upper lower, path = upper ++ lower ∧
      disk.IsDirectory upper ∧ ∀ part, part ≠ [] → part <+: lower → disk (upper ++ part) = none

def withDirectories (disk : Disk) (path : Path) : Disk := fun part =>
  if part <+: path then some .directory else disk part

def place (disk : Disk) (way : Path) (name : Name) (entry : Entry) : Disk :=
  update (disk.withDirectories way) (way ++ [name]) (some entry)

theorem isDirectory_withDirectories (disk : Disk) (path : Path) :
    (disk.withDirectories path).IsDirectory path := by
  intro part begins
  rw [withDirectories, if_pos begins]

variable {disk : Disk}

theorem IsDirectory.of_begins (directory : disk.IsDirectory path)
    (begins : part <+: path) : disk.IsDirectory part :=
  fun shorter start => directory shorter (start.trans begins)

theorem IsDirectory.withDirectories_eq (directory : disk.IsDirectory path) :
    disk.withDirectories path = disk := by
  funext part
  rw [withDirectories]
  split_ifs with begins
  · exact (directory part begins).symm
  · rfl

theorem update_withDirectories (disk : Disk) (path : Path) (last : Name) :
    update (disk.withDirectories path) (path ++ [last]) (some .directory) =
    disk.withDirectories (path ++ [last]) := by
  funext part
  rw [Function.update_apply]
  split_ifs with whole
  · rw [withDirectories, whole, if_pos List.prefix_rfl]
  · rw [withDirectories, withDirectories]
    have same : part <+: path ++ [last] ↔ part <+: path := by
      rw [List.prefix_concat_iff]
      exact or_iff_right whole
    simp only [same]

end Disk

section

variable {fs} {disk : Disk}

theorem openDirectory_of_isDirectory (directory : disk.IsDirectory (way ++ rest)) :
    openDirectory fs disk way rest = .ok (way ++ rest) := by
  induction rest generalizing way with
  | nil => rw [openDirectory, List.append_nil]
  | cons name rest ih =>
    have regroup : way ++ name :: rest = way ++ [name] ++ rest := by simp
    rw [regroup] at directory
    rw [openDirectory, directory _ (List.prefix_append _ _)]
    rw [ih directory, ← regroup]

theorem openDirectory_of_missing (directory : disk.IsDirectory (way ++ upper))
    (missing : disk (way ++ upper ++ [name]) = none) :
    openDirectory fs disk way (upper ++ name :: lower) = .error (.system .notExist) := by
  induction upper generalizing way with
  | nil =>
    rw [List.append_nil] at missing
    rw [List.nil_append, openDirectory, missing]
  | cons first rest ih =>
    have regroup : way ++ first :: rest = way ++ [first] ++ rest := by simp
    rw [regroup] at directory missing
    rw [List.cons_append, openDirectory, directory _ (List.prefix_append _ _)]
    exact ih directory missing

variable (sandboxed : fs.basePath = basePath root)

include sandboxed

theorem safePath_pathText (disk : Disk) (path : Path) : safePath fs disk (pathText path) =
      match openDirectory fs disk [] path.dropLast with
      | .error err => .error err
      | .ok way => .ok (way ++ path.getLast?.toList) := by
  rw [safePath, sandboxed, unsafePath_pathText]
  dsimp only
  rw [pathOf_pathText]

theorem safePath_of_isDirectory (directory : disk.IsDirectory way) (name : Name) :
    safePath fs disk (pathText (way ++ [name])) = .ok (way ++ [name]) := by
  rw [safePath_pathText sandboxed, List.dropLast_concat, openDirectory_of_isDirectory directory]
  simp

theorem lstat_of_isDirectory (directory : disk.IsDirectory way) (name : Name) :
    lstat fs disk (pathText (way ++ [name])) =
      match disk (way ++ [name]) with
      | none => .error (.system .notExist)
      | some entry => .ok (way ++ [name], entry) := by
  rw [lstat, safePath_of_isDirectory sandboxed directory]

theorem lstat_directory (directory : disk.IsDirectory path) :
    lstat fs disk (pathText path) = .ok (path, .directory) := by
  by_cases empty : path = []
  · subst empty
    rw [lstat, safePath_pathText sandboxed]
    simp [openDirectory, directory [] List.prefix_rfl]
  · obtain ⟨way, name, rfl⟩ := (List.eq_nil_or_concat' path).resolve_left empty
    rw [lstat_of_isDirectory sandboxed (directory.of_begins (List.prefix_append _ _)),
      directory _ List.prefix_rfl]

theorem lstat_of_clear (directory : disk.IsDirectory upper)
    (missing : ∀ part, part ≠ [] → part <+: lower → disk (upper ++ part) = none) (name : Name)
    (absent : disk (upper ++ (lower ++ [name])) = none) :
    lstat fs disk (pathText (upper ++ (lower ++ [name]))) = .error (.system .notExist) := by
  cases lower with
  | nil =>
    rw [List.nil_append] at absent ⊢
    rw [lstat_of_isDirectory sandboxed directory, absent]
  | cons first rest =>
    have gone : openDirectory fs disk [] (upper ++ first :: rest) = .error (.system .notExist) :=
      openDirectory_of_missing (by simpa using directory)
        (by simpa using missing [first] (by simp) (by simp))
    rw [lstat, safePath_pathText sandboxed, ← List.append_assoc, List.dropLast_concat, gone]

theorem makeDirectories_of_isDirectory (directory : disk.IsDirectory path) :
    makeDirectories fs disk path.reverse = (.ok [], disk) := by
  by_cases empty : path = []
  · subst empty
    rw [List.reverse_nil, makeDirectories, lstat_directory sandboxed directory]
  · obtain ⟨way, name, rfl⟩ := (List.eq_nil_or_concat' path).resolve_left empty
    rw [List.reverse_append, List.reverse_singleton, List.singleton_append,
      makeDirectories, List.reverse_reverse, lstat_directory sandboxed directory]

theorem mkdir_of_isDirectory (directory : disk.IsDirectory way)
    (absent : disk (way ++ [name]) = none) : mkdir fs (pathText (way ++ [name])) disk =
    (none, update disk (way ++ [name]) (some .directory)) := by
  rw [mkdir, safePath_of_isDirectory sandboxed directory]
  dsimp only
  rw [absent]

theorem makeDirectories_of_clear (clear : disk.Clear path) : ∃ created,
    makeDirectories fs disk path.reverse = (.ok created, disk.withDirectories path) ∧
    ∀ name ∈ created, ∃ part, name = pathText part ∧ part <+: path := by
  obtain ⟨upper, lower, rfl, directory, missing⟩ := clear
  induction lower using List.reverseRecOn with
  | nil =>
    refine ⟨[], ?_, by simp⟩
    rw [List.append_nil, makeDirectories_of_isDirectory sandboxed directory,
      directory.withDirectories_eq]
  | append_singleton lower last ih =>
    have fewer : ∀ part, part ≠ [] → part <+: lower → disk (upper ++ part) = none :=
      fun part nonempty begins =>
        missing part nonempty (begins.trans (List.prefix_append _ _))
    have absent : disk (upper ++ (lower ++ [last])) = none := missing _ (by simp) List.prefix_rfl
    have gone := lstat_of_clear sandboxed directory fewer last absent
    obtain ⟨created, made, parts⟩ := ih fewer
    have above : ∃ created, (if (upper ++ lower).reverse = [] then (.ok [], disk)
            else makeDirectories fs disk (upper ++ lower).reverse) =
              (.ok created, disk.withDirectories (upper ++ lower)) ∧
            ∀ name ∈ created, ∃ part, name = pathText part ∧ part <+: upper ++ lower := by
      split_ifs with top
      · rw [List.reverse_eq_nil_iff] at top
        obtain ⟨rfl, rfl⟩ := List.append_eq_nil_iff.mp top
        exact ⟨[], by rw [List.append_nil, directory.withDirectories_eq], by simp⟩
      · exact ⟨created, made, parts⟩
    obtain ⟨created, made, parts⟩ := above
    have free : disk.withDirectories (upper ++ lower) (upper ++ lower ++ [last]) = none := by
      rw [Disk.withDirectories, if_neg, List.append_assoc, absent]
      intro begins
      simpa using begins.length_le
    have last_made := mkdir_of_isDirectory sandboxed
      (disk.isDirectory_withDirectories (upper ++ lower)) free
    refine ⟨created ++ [pathText (upper ++ (lower ++ [last]))], ?_, ?_⟩
    · rw [← List.append_assoc, List.reverse_append, List.reverse_singleton,
        List.singleton_append, makeDirectories, List.reverse_reverse, List.append_assoc, gone]
      rw [made]
      dsimp only
      rw [← List.append_assoc, last_made, Disk.update_withDirectories]
    · intro name member
      rcases List.mem_append.mp member with earlier | final
      · obtain ⟨part, equal, begins⟩ := parts name earlier
        refine ⟨part, equal, begins.trans ?_⟩
        rw [← List.append_assoc]
        exact List.prefix_append _ _
      · exact ⟨_, List.mem_singleton.mp final, List.prefix_rfl⟩

theorem mkdirAll_of_clear (resolved : unsafePath (basePath root) text = .ok (pathText path))
    (clear : disk.Clear path) : mkdirAll fs text disk = (none, disk.withDirectories path) := by
  obtain ⟨created, made, parts⟩ := makeDirectories_of_clear sandboxed clear
  rw [mkdirAll, unixMkdirAll, sandboxed, resolved]
  dsimp only
  rw [pathOf_pathText, made]
  dsimp only
  have owned : created.findSome? (chownFile fs (disk.withDirectories path)) = none := by
    rw [List.findSome?_eq_none_iff]
    intro name member
    obtain ⟨part, rfl, begins⟩ := parts name member
    rw [chownFile, touched, lstat_directory sandboxed
      ((disk.isDirectory_withDirectories path).of_begins begins)]
  rw [owned]

section

variable (directory : disk.IsDirectory way)
include directory

theorem symlink_of_isDirectory (absent : disk (way ++ [name]) = none) (target : Text) :
    symlink fs target (pathText (way ++ [name])) disk =
    (none, update disk (way ++ [name]) (some (.link target))) := by
  rw [symlink, safePath_of_isDirectory sandboxed directory]
  dsimp only
  rw [absent]

theorem openForWrite_of_isDirectory
    (absent : disk (way ++ [name]) = none) : openForWrite fs (pathText (way ++ [name])) disk =
    (.ok (way ++ [name], 0), update disk (way ++ [name]) (some (.file []))) := by
  rw [openForWrite, touchPath, safePath_of_isDirectory sandboxed directory]
  dsimp only
  rw [absent]

theorem lstat_update (name : Name) (entry : Entry) :
    lstat fs (update disk (way ++ [name]) (some entry)) (pathText (way ++ [name])) =
    .ok (way ++ [name], entry) := by
  have kept : Disk.IsDirectory (update disk (way ++ [name]) (some entry))
        way := by
    intro part begins
    rw [Function.update_of_ne, directory part begins]
    rintro rfl
    simpa using begins.length_le
  rw [lstat_of_isDirectory sandboxed kept, Function.update_self]

end

theorem write_of_clear {server : Server} (clear : server.disk.Clear way)
    (absent : server.disk (way ++ [name]) = none) {content : Bytes} {ledger : Filesystem.Ledger}
    (granted : server.ledger.reserveDisk content.length = some ledger) :
    write fs (pathText (way ++ [name])) content content.length server = (none,
        { disk := server.disk.place way name (.file content)
          ledger := ledger.releaseDisk content.length content.length }) := by
  have gone : lstat fs server.disk (pathText (way ++ [name])) = .error (.system .notExist) := by
    obtain ⟨upper, lower, rfl, directory, missing⟩ := clear
    rw [List.append_assoc] at absent ⊢
    exact lstat_of_clear sandboxed directory missing name absent
  have above := mkdirAll_of_clear sandboxed (unsafePath_pathText root way) clear
  have directory := server.disk.isDirectory_withDirectories way
  have free : server.disk.withDirectories way (way ++ [name]) = none := by
    rw [Disk.withDirectories, if_neg, absent]
    intro begins
    simpa using begins.length_le
  have opened := openForWrite_of_isDirectory sandboxed directory free
  rw [write, gone]
  rw [dir_pathText_concat, above]
  dsimp only
  rw [opened]
  dsimp only
  rw [sub_zero, granted]
  rw [List.take_length, Function.update_idem, chownFile, touched, lstat_update sandboxed directory]
  simp [Disk.place]

end

open Archives FallibleCall LabelledForest

def restoreLink (header : Header) (disk : Disk) : Outcome Failure Disk :=
  if header.linkname = [] then (none, disk)
  else
    match createDirectory fs (dir header.name) ['/'] disk with
    | (some err, disk) => (some err, disk)
    | (none, disk) =>
      match symlink fs header.linkname header.name disk with
      | (some (.system .exist), disk) => (none, disk)
      | (err, disk) => (err, disk)

def onDisk (call : Disk → Outcome Failure Disk) (server : Server) : Outcome Failure Server :=
  ((call server.disk).1, { server with disk := (call server.disk).2 })

def restoreEntry (entry : Header × Bytes) (server : Server) : Outcome Failure Server :=
  match entry.1.kind with
  | .directory => onDisk (createDirectory fs entry.1.name ['/']) server
  | .symlink => onDisk (restoreLink fs entry.1) server
  | .regular =>
    proceed (fun server => (chtimes fs server.disk entry.1.name, server))
      (write fs entry.1.name entry.2 entry.1.size server)
  | _ => (none, server)

inductive Leaf where
  | file (content : Bytes)
  | link (target : Text)

def Leaf.entry : Leaf → Entry
  | .file content => .file content
  | .link target => .link target

abbrev PresentTree := Listing Leaf Unit

def find : PresentTree → Path → Option Entry
  | _, [] => some .directory
  | .nil, _ :: _ => none
  | .leaf name data rest, first :: below =>
    if name = first then
      if below = [] then some data.entry else none
    else find rest (first :: below)
  | .branch name _ children rest, first :: below =>
    if name = first then find children below
    else find rest (first :: below)

/-- Files and links are unlinked; a directory is removed when it is empty. -/
def removeContentsFrom : PresentTree → Outcome Failure PresentTree
  | .nil => (none, .nil)
  | .leaf _ _ rest => removeContentsFrom rest
  | .branch name data children rest =>
    match removeContentsFrom children, removeContentsFrom rest with
    | (_, .nil), (err, rest) => (err, rest)
    | (recurseErr, remaining), (err, rest) =>
      ((recurseErr.or (some (.message "directory not empty"))).or err,
        .branch name data remaining rest)

def truncateRootDirectory (tree : PresentTree) (ledger : Filesystem.Ledger) :
    Option Failure × PresentTree × Filesystem.Ledger :=
  match removeContentsFrom tree with
  | (some err, tree) => (some err, tree, ledger)
  | (none, tree) =>
    (none, tree, { ledger with unixFS := ledger.unixFS.setUsage ledger.reserved })

theorem removeContentsFrom_eq (tree : PresentTree) : removeContentsFrom tree = (none, .nil) := by
  induction tree with
  | nil => rfl
  | leaf name data rest restIh =>
    rw [removeContentsFrom, restIh]
  | branch name data children rest childIh restIh =>
    rw [removeContentsFrom, childIh, restIh]

theorem find_nil : find .nil = Disk.empty := by
  funext path
  cases path <;> rfl

inductive StopFailure where
  | notFound
  | other (cause : Failure)

structure ArchiveReader where
  decompress : Bytes → Option Bytes
  entries : Bytes → List (Header × Bytes)

def restore (reader : ArchiveReader) (node : Backups.Node)
    (callback : Header × Bytes → Server → Outcome Failure Server)
    (server : Server) : Outcome Failure Server :=
  match Backups.normalizedIdentifier node.uuid with
  | none =>
    (some (.message "backup: identifier must be a valid UUID"), server)
  | some identifier =>
    match node.files identifier with
    | none => (some (.system .notExist), server)
    | some archive =>
      match reader.decompress archive with
      | none => (some (.message "gzip: invalid header"), server)
      | some raw => runAll callback (reader.entries raw) server

/-- Its error, what it leaves, and the status that the panel is told. -/
structure Restoration where
  error : Option Failure
  server : Server
  reported : Bool

def Restoration.of (outcome : Outcome Failure Server) : Restoration :=
  ⟨outcome.1, outcome.2, outcome.1.isNone⟩

def restoreBackup (reader : ArchiveReader) (stop : Option StopFailure)
    (truncate : Bool) (node : Backups.Node) (tree : PresentTree)
    (ledger : Filesystem.Ledger) : Restoration := .of <|
    match stop with
    | some (.other cause) =>
      (some (.wrapped "server/backup: restore: failed to wait for container stop" [] cause),
        ⟨find tree, ledger⟩)
    | _ =>
      if truncate then
        match truncateRootDirectory tree ledger with
        | (some cause, tree, ledger) =>
          (some (.wrapped "server/backup: restore: failed to delete server files" []
            cause), ⟨find tree, ledger⟩)
        | (none, tree, ledger) =>
          restore reader node (restoreEntry fs) ⟨find tree, ledger⟩
      else restore reader node (restoreEntry fs) ⟨find tree, ledger⟩

def restoredContent (file : StaticFile) : Bytes :=
  delivered (bufferLength file.size) file.reads file.size

def restoredEntry (file : StaticFile) : Entry :=
  if file.kind = .symlink then .link file.target
  else .file (restoredContent file)

/-- A disk holds given files and links, the directories above them and nothing else. -/
structure Holds (files : List (Path × StaticFile)) (disk : Disk) : Prop where
  at_path : ∀ item ∈ files, disk item.1 = some (restoredEntry item.2)
  elsewhere :
    ∀ path, path ∉ files.map Prod.fst → disk path =
        if path = [] ∨ ∃ item ∈ files, path <+: item.1 then some .directory
        else none

theorem holds_empty : Holds [] Disk.empty := by
  constructor
  · simp
  · intro path _
    simp [Disk.empty]

theorem Holds.of_perm (holds : Holds files disk) (same : files.Perm others) :
    Holds others disk := by
  constructor
  · intro item member
    exact holds.at_path item (same.mem_iff.mpr member)
  · intro path fresh
    rw [holds.elsewhere path]
    · simp only [same.mem_iff]
    · intro member
      exact fresh ((same.map Prod.fst).mem_iff.mp member)

def Apart (files : List (Path × StaticFile)) (path : Path) : Prop :=
  ∀ item ∈ files, ¬item.1 <+: path ∧ ¬path <+: item.1

theorem clear_of_directory_or_none {disk : Disk} (top : disk [] = some .directory) {path : Path}
    (each : ∀ part, part <+: path → disk part = some .directory ∨ disk part = none)
    (closed : ∀ part longer, part <+: longer → longer <+: path →
    disk longer = some .directory → disk part = some .directory) : disk.Clear path := by
  have nothing :
      ∀ upper part : Path, part ≠ [] → part <+: [] → disk (upper ++ part) = none :=
    fun upper part nonempty begins =>
      absurd (List.prefix_nil.mp begins) nonempty
  induction path using List.reverseRecOn with
  | nil =>
    refine ⟨[], [], rfl, ?_, nothing []⟩
    intro part begins
    rw [List.prefix_nil.mp begins, top]
  | append_singleton way last ih =>
    have grows : way <+: way ++ [last] := List.prefix_append _ _
    rcases each _ List.prefix_rfl with directory | absent
    · refine ⟨way ++ [last], [], by simp, ?_, nothing _⟩
      exact fun part begins =>
        closed part _ begins List.prefix_rfl directory
    · obtain ⟨upper, lower, rfl, directory, missing⟩ :=
        ih (fun part begins => each part (begins.trans grows))
          (fun part longer begins within =>
            closed part longer begins (within.trans grows))
      refine ⟨upper, lower ++ [last], List.append_assoc .., directory, ?_⟩
      intro part nonempty begins
      rcases List.prefix_concat_iff.mp begins with rfl | shorter
      · rwa [List.append_assoc] at absent
      · exact missing part nonempty shorter

namespace Holds

theorem not_mem_of_apart (apart : Apart done path)
    (begins : part <+: path) : part ∉ done.map Prod.fst := by
  intro member
  obtain ⟨item, known, rfl⟩ := List.mem_map.mp member
  exact (apart item known).1 begins

theorem clear (holds : Holds done disk) (apart : Apart done (way ++ [name])) : disk.Clear way := by
  have grows : way <+: way ++ [name] := List.prefix_append _ _
  have found :
      ∀ part, part <+: way → disk part =
          if part = [] ∨ ∃ item ∈ done, part <+: item.1 then some .directory
          else none :=
    fun part begins =>
      holds.elsewhere part (not_mem_of_apart apart (begins.trans grows))
  apply clear_of_directory_or_none
  · rw [found [] List.nil_prefix, if_pos (.inl rfl)]
  · intro part begins
    rw [found part begins]
    split_ifs <;> simp
  · intro part longer begins within directory
    rw [found longer within] at directory
    rw [found part (begins.trans within), if_pos]
    by_contra neither
    rw [not_or] at neither
    rw [if_neg] at directory
    · cases directory
    · rintro (rfl | ⟨item, known, above⟩)
      · exact neither.1 (List.prefix_nil.mp begins)
      · exact neither.2 ⟨item, known, begins.trans above⟩

theorem absent (holds : Holds done disk) (apart : Apart done (way ++ [name])) :
    disk (way ++ [name]) = none := by
  rw [holds.elsewhere _ (not_mem_of_apart apart List.prefix_rfl), if_neg]
  rintro (empty | ⟨item, known, above⟩)
  · simp at empty
  · exact (apart item known).2 above

theorem add (holds : Holds done disk) (apart : Apart done (way ++ [name])) (file : StaticFile) :
    Holds (done ++ [(way ++ [name], file)]) (disk.place way name (restoredEntry file)) := by
  unfold Disk.place
  constructor
  · intro item member
    rcases List.mem_append.mp member with known | new
    · obtain ⟨notBefore, notAfter⟩ := apart item known
      rw [Function.update_of_ne, Disk.withDirectories, if_neg, holds.at_path item known]
      · exact fun begins => notBefore (begins.trans (List.prefix_append _ _))
      · intro same
        exact notBefore (same ▸ List.prefix_rfl)
    · rw [List.mem_singleton.mp new]
      exact Function.update_self ..
  · intro path fresh
    rw [List.map_append, List.mem_append, not_or] at fresh
    have other : path ≠ way ++ [name] := by
      simpa using fresh.2
    have above : path <+: way ++ [name] ↔ path <+: way := by
      rw [List.prefix_concat_iff]
      exact or_iff_right other
    rw [Function.update_of_ne other, Disk.withDirectories]
    by_cases within : path <+: way
    · rw [if_pos within, if_pos]
      exact .inr ⟨_, List.mem_append_right _ (List.mem_singleton_self _), above.mpr within⟩
    · have same :
          (∃ item ∈ done ++ [(way ++ [name], file)], path <+: item.1) ↔
            ∃ item ∈ done, path <+: item.1 := by
        constructor
        · rintro ⟨item, member, begins⟩
          rcases List.mem_append.mp member with known | new
          · exact ⟨item, known, begins⟩
          · rw [List.mem_singleton.mp new] at begins
            exact absurd (above.mp begins) within
        · rintro ⟨item, known, begins⟩
          exact ⟨item, List.mem_append_left _ known, begins⟩
      rw [if_neg within, holds.elsewhere path fresh.1]
      simp only [same]

end Holds

end Wings.Restore
