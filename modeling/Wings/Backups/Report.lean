import Mathlib.Logic.Function.Basic

/-!
# The report of a backup

When the panel does not accept the notification of success, `Server.Backup` removes the archive and
returns the error of the generation, which is nil. What is outside of these functions is a
parameter.
-/

namespace Wings.Backups

abbrev Bytes := List UInt8

inductive Error where
  /-- An error of the operating system or of a library. -/
  | cause (text : String)
  /-- The answer of the panel to a request. -/
  | request (text : String)
  | new (text : String)
  | wrapped (text : String) (error : Error)

def Error.text : Error → String
  | .cause text | .request text | .new text => text
  | .wrapped text error => text ++ ": " ++ error.text

def Error.isRequestError : Error → Bool
  | .request _ => true
  | _ => false

structure BackupPart where
  etag : String
  partNumber : Int

structure ArchiveDetails where
  checksum : String
  checksumType : String
  size : Int
  parts : List BackupPart

structure BackupRequest where
  checksum : String
  checksumType : String
  size : Int
  successful : Bool
  parts : List BackupPart

def ArchiveDetails.toRequest (details : ArchiveDetails) (successful : Bool) : BackupRequest :=
  ⟨details.checksum, details.checksumType, details.size, successful, details.parts⟩

def ArchiveDetails.empty : ArchiveDetails := ⟨"", "", 0, []⟩

structure CompletedEvent where
  uuid : String
  isSuccessful : Bool
  checksum : String
  checksumType : String
  fileSize : Int

structure World where
  /-- The list in the file `.pteroignore` of the server. -/
  serverwideIgnoredFiles : Except Error String
  /-- `Archive.Create` with an ignore list: the archive, or an error and what is
  left in its file. -/
  create : String → Except (Error × Option Bytes) Bytes
  /-- Failure to open or read the archive for its checksum. -/
  readFailure : Option Error
  /-- Failure to read the size of the archive. -/
  statFailure : Option Error
  removeFailure : Option Error
  /-- Of two failures, the one of the size comes first. -/
  sizeFirst : Bool
  /-- SHA-1 in hexadecimal digits. -/
  sha1 : Bytes → String
  /-- `SetBackupStatus` for an identifier. -/
  setBackupStatus : String → BackupRequest → Option Error

structure Node where
  uuid : String
  files : String → Option Bytes
  accepted : List (String × BackupRequest)
  events : List CompletedEvent

def Node.before (uuid : String) (files : String → Option Bytes) : Node := ⟨uuid, files, [], []⟩

structure BackupInterface where
  ignored : String
  generate : String → Node → Except Error ArchiveDetails × Node
  remove : Node → Option Error × Node

def isHexDigit (c : Char) : Bool := c.isDigit || ('a' ≤ c && c ≤ 'f') || ('A' ≤ c && c ≤ 'F')

def isUuid (identifier : List Char) : Bool := identifier.length == 36 &&
    identifier.zipIdx.all fun (c, position) =>
      if position ∈ [8, 13, 18, 23] then c == '-' else isHexDigit c

def normalizedIdentifier (identifier : String) : Option String :=
  if isUuid identifier.toList then
    some (String.ofList (identifier.toList.map Char.toLower))
  else none

namespace LocalBackup

variable (world : World)

def invalidIdentifier : Error := .new "backup: identifier must be a valid UUID"

def withIdentifier {Result : Type} (node : Node) (failed : Error → Result)
    (next : Node → Result × Node) : Result × Node :=
  match normalizedIdentifier node.uuid with
  | none => (failed invalidIdentifier, node)
  | some identifier => next { node with uuid := identifier }

def archiveFile (node : Node) (failure : Option Error) : Except Error Bytes :=
  match normalizedIdentifier node.uuid with
  | none => .error invalidIdentifier
  | some identifier =>
    match node.files identifier, failure with
    | none, _ => .error (.cause "no such file or directory")
    | some _, some error => .error error
    | some archive, none => .ok archive

def checksum (node : Node) : Except Error String :=
  (archiveFile node world.readFailure).map world.sha1

def size (node : Node) : Except Error Int :=
  (archiveFile node world.statFailure).map fun archive => archive.length

def details (node : Node) (parts : List BackupPart) : Except Error ArchiveDetails :=
  match checksum world node, size world node with
  | .ok digest, .ok length => .ok ⟨digest, "sha1", length, parts⟩
  | .error first, .error second =>
    .error (if world.sizeFirst then second else first)
  | .error error, .ok _ => .error error
  | .ok _, .error error => .error error

def generate (ignore : String) (node : Node) : Except Error ArchiveDetails × Node :=
  withIdentifier node .error fun node =>
    match world.create ignore with
    | .error (error, leftover) =>
      (.error error, { node with files := Function.update node.files node.uuid leftover })
    | .ok archive =>
      let node :=
        { node with
          files := Function.update node.files node.uuid (some archive) }
      match details world node [] with
      | .error error =>
        (.error (.wrapped "backup: failed to get archive details for local backup" error), node)
      | .ok details => (.ok details, node)

def remove (node : Node) : Option Error × Node :=
  withIdentifier node some fun node =>
    match world.removeFailure with
    | some error => (some error, node)
    | none =>
      (none, { node with files := Function.update node.files node.uuid none })

def backup (ignore : String) : BackupInterface where
  ignored := ignore
  generate := generate world
  remove := remove world

end LocalBackup

variable (world : World)

def notifyPanelOfBackup (details : ArchiveDetails) (successful : Bool)
    (node : Node) : Option Error × Node :=
  match world.setBackupStatus node.uuid (details.toRequest successful) with
  | some error =>
    (some (if error.isRequestError then .new error.text else error), node)
  | none =>
    (none,
      { node with
        accepted := node.accepted ++ [(node.uuid, details.toRequest successful)] })

def Node.publish (node : Node) (event : CompletedEvent) : Node :=
  { node with events := node.events ++ [event] }

def ignoreList (b : BackupInterface) : String :=
  if b.ignored = "" then
    match world.serverwideIgnoredFiles with
    | .ok list => list
    | .error _ => b.ignored
  else b.ignored

def backup (b : BackupInterface) (node : Node) : Option Error × Node :=
  match b.generate (ignoreList world b) node with
  | (.error error, node) =>
    let node := (notifyPanelOfBackup world .empty false node).2
    (some (.wrapped "backup: error while generating server backup" error),
      node.publish ⟨node.uuid, false, "", "sha1", 0⟩)
  | (.ok details, node) =>
    let generationError : Option Error := none
    match notifyPanelOfBackup world details true node with
    | (some _, node) => (generationError, (b.remove node).2)
    | (none, node) =>
      (none, node.publish ⟨node.uuid, true, details.checksum, "sha1", details.size⟩)

/-- Nil is returned, and a success published, exactly when the archive was generated and kept and
the panel accepted the notification. -/
structure Truthful (generation : Except Error ArchiveDetails × Node)
    (report : Option Error × Node) : Prop where
  returned :
    report.1 = none ↔ ∃ details archive, generation.1 = .ok details ∧
          generation.2.files generation.2.uuid = some archive ∧
            (generation.2.uuid, details.toRequest true) ∈ report.2.accepted ∧
              report.2.files generation.2.uuid = some archive
  published : (∃ event ∈ report.2.events, event.isSuccessful = true) ↔ report.1 = none

theorem LocalBackup.generate_frame (ignore : String) (node : Node) :
    (generate world ignore node).2.accepted = node.accepted ∧
    (generate world ignore node).2.events = node.events := by
  unfold generate withIdentifier
  split
  · exact ⟨rfl, rfl⟩
  · split
    · exact ⟨rfl, rfl⟩
    · dsimp only
      split <;> exact ⟨rfl, rfl⟩

theorem LocalBackup.generate_archive {ignore : String} {node after : Node}
    {details : ArchiveDetails} (generated : generate world ignore node = (.ok details, after)) :
    ∃ archive, after.files after.uuid = some archive := by
  unfold generate withIdentifier at generated
  split at generated
  · cases generated
  · split at generated
    · cases generated
    · rename_i archive _
      dsimp only at generated
      split at generated
      · cases generated
      · cases generated
        exact ⟨archive, Function.update_self ..⟩

theorem LocalBackup.remove_accepted (node : Node) :
    (remove world node).2.accepted = node.accepted := by
  unfold remove withIdentifier
  split
  · rfl
  · split <;> rfl

theorem notifyPanelOfBackup_events (details : ArchiveDetails) (successful : Bool) (node : Node) :
    (notifyPanelOfBackup world details successful node).2.events = node.events := by
  unfold notifyPanelOfBackup
  split <;> rfl

section

variable {details : ArchiveDetails}

def LocalBackup.report (ignore : String) (node : Node) : Option Error × Node :=
  Backups.backup world (backup world ignore) node

def LocalBackup.generation (ignore : String) (node : Node) : Except Error ArchiveDetails × Node :=
  generate world (ignoreList world (backup world ignore)) node

open LocalBackup

theorem report_of_failure (failed : generation world ignore node = (.error error, after)) :
    (report world ignore node).1 ≠ none ∧ ∃ uuid, (report world ignore node).2.events =
    after.events ++ [⟨uuid, false, "", "sha1", 0⟩] := by
  unfold report Backups.backup
  rw [show (LocalBackup.backup world ignore).generate _ node = _ from failed]
  refine ⟨Option.some_ne_none _, (notifyPanelOfBackup world .empty false after).2.uuid, ?_⟩
  dsimp only [Node.publish]
  rw [notifyPanelOfBackup_events]

theorem report_of_refused (generated : generation world ignore node = (.ok details, after))
    (refused : world.setBackupStatus after.uuid (details.toRequest true) = some refusal) :
    report world ignore node = (none, (remove world after).2) := by
  unfold report Backups.backup
  rw [show (LocalBackup.backup world ignore).generate _ node = _ from generated]
  simp only [notifyPanelOfBackup, refused, LocalBackup.backup]

theorem report_of_accepted (generated : generation world ignore node = (.ok details, after))
    (acceptance : world.setBackupStatus after.uuid (details.toRequest true) = none) :
    report world ignore node = (none,
        { after with
          accepted := after.accepted ++ [(after.uuid, details.toRequest true)]
          events := after.events ++
              [⟨after.uuid, true, details.checksum, "sha1", details.size⟩] }) := by
  unfold report Backups.backup
  rw [show (LocalBackup.backup world ignore).generate _ node = _ from generated]
  simp only [notifyPanelOfBackup, acceptance, Node.publish]

/-- The report is truthful exactly when the generation fails or the panel accepts the success. -/
theorem report_truthful_iff (ignore uuid : String) (files : String → Option Bytes) :
    Truthful (generation world ignore (.before uuid files))
        (report world ignore (.before uuid files)) ↔ ∀ details after,
        generation world ignore (.before uuid files) = (.ok details, after) →
          world.setBackupStatus after.uuid (details.toRequest true) = none := by
  have frame := generate_frame world (ignoreList world (LocalBackup.backup world ignore))
      (.before uuid files)
  change (generation world ignore _).2.accepted = [] ∧
    (generation world ignore _).2.events = [] at frame
  rcases generates : generation world ignore (.before uuid files) with
    ⟨outcome, after⟩
  rw [generates] at frame
  dsimp only at frame
  obtain ⟨noneAccepted, noneEvents⟩ := frame
  cases outcome with
  | error error =>
    obtain ⟨returned, failedUuid, events⟩ := report_of_failure world generates
    refine iff_of_true ⟨⟨fun h => absurd h returned, ?_⟩, ?_⟩ ?_
    · intro ⟨_, _, generated, _⟩
      cases generated
    · simp [events, noneEvents, returned]
    · intro details after generated
      cases generated
  | ok details =>
    obtain ⟨archive, written⟩ := generate_archive world generates
    cases answer :
        world.setBackupStatus after.uuid (details.toRequest true) with
    | none =>
      rw [report_of_accepted world generates answer]
      refine iff_of_true ⟨?_, ?_⟩ ?_
      · simp [written]
      · simp
      · intro _ _ generated
        cases generated
        exact answer
    | some refusal =>
      rw [report_of_refused world generates answer]
      refine iff_of_false ?_ ?_
      · intro truthful
        obtain ⟨_, _, _, _, sent, _⟩ := truthful.returned.mp rfl
        rw [remove_accepted, noneAccepted] at sent
        cases sent
      · intro accepts
        have accepted := accepts _ _ rfl
        rw [answer] at accepted
        cases accepted

end

def refusingPanel : World where
  serverwideIgnoredFiles := .ok ""
  create := fun _ => .ok [31, 139]
  readFailure := none
  statFailure := none
  removeFailure := none
  sizeFirst := false
  sha1 := fun _ => "da39a3ee5e6b4b0d3255bfef95601890afd80709"
  setBackupStatus := fun _ _ => some (.request "the backup is complete already")

/-- The archive of a backup that the panel refuses is removed. -/
theorem refused_backup_returns_nil :
    let uuid := "0a1b2c3d-4e5f-6071-8293-a4b5c6d7e8f9"
    let node := Node.before uuid fun _ => none
    let report := LocalBackup.report refusingPanel "" node
    report.1 = none ∧ report.2.files uuid = none ∧ report.2.accepted = [] ∧ report.2.events = [] ∧
            ¬ Truthful (LocalBackup.generation refusingPanel "" node) report := by
  intro uuid node report
  have accepted : report.2.accepted = [] := by decide +kernel
  refine ⟨by decide +kernel, by decide +kernel, accepted, by decide +kernel, ?_⟩
  intro truthful
  obtain ⟨_, _, _, _, sent, _⟩ := truthful.returned.mp (by decide +kernel)
  rw [accepted] at sent
  cases sent

end Wings.Backups
