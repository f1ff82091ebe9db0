import Wings.Library.LexicalPath

/-!
# The report and the selected items of an import

The report is left to a deferred function, which reads a variable that a failed synchronisation does
not set. An item that begins with the text of the source directory stays as it is.
-/

namespace Wings.Import

inductive Transfer where
  | importSelectedFTP
  | importFullFTP
  | importSelectedSCP
  | importFullSCP
  | importSelectedSFTP
  | importFullSFTP

structure Credentials where
  password : String := ""
  sshKey : String := ""
  sshKeyPassphrase : String := ""

structure Request extends Credentials where
  transferType : String
  authMethod : String
  selectedItems : List String

structure ImportProgress where
  mode : String
  status : String
  totalFiles : Int
  processedFiles : Int
  totalBytes : Int
  processedBytes : Int
  error : String := ""
  completedAt : Option Nat := none

structure Notice where
  successful : Bool
  error : Option String := none
  message : Option String := none
  deriving DecidableEq

structure Server where
  progress : Option ImportProgress
  told : List Notice

namespace ImportProgress

def setStatus (status : String) (progress : ImportProgress) : ImportProgress :=
  { progress with status }

def setError (message : String) (now : Nat) (progress : ImportProgress) : ImportProgress :=
  { progress with status := "failed", error := message, completedAt := some now }

def complete (now : Nat) (progress : ImportProgress) : ImportProgress :=
  if progress.mode = "live" then
    { progress with
      status := "completed", completedAt := some now,
      totalFiles := progress.processedFiles, totalBytes := progress.processedBytes }
  else { progress with status := "completed", completedAt := some now }

/-- The status changes before a transfer: a scan comes first in the mode `scan` only. -/
def begin (progress : ImportProgress) : ImportProgress :=
  if progress.mode = "scan" then progress.setStatus "scanning"
  else (progress.setStatus "scanning").setStatus "transferring"

end ImportProgress

def notifyImportComplete : Option String → Notice
  | some error => { successful := false, error }
  | none => { successful := true, message := "Import completed successfully." }

def Server.report (server : Server) (err : Option String) (now : Nat) : Server where
  progress := server.progress.map fun progress =>
    match err with
    | some message => progress.setError message now
    | none => progress.complete now
  told := server.told ++ [notifyImportComplete err]

def Request.chosen (request : Request) : Transfer × Credentials :=
  let isSelective := !request.selectedItems.isEmpty
  if request.transferType = "ftp" then
    (if isSelective then .importSelectedFTP else .importFullFTP, { password := request.password })
  else
    let credentials : Credentials := if request.authMethod = "ssh_key" then
        { sshKey := request.sshKey, sshKeyPassphrase := request.sshKeyPassphrase }
      else { password := request.password }
    if request.transferType = "scp" then
      (if isSelective then .importSelectedSCP else .importFullSCP, credentials)
    else (if isSelective then .importSelectedSFTP else .importFullSFTP, credentials)

/-- What a transfer does to the progress record, and its error. -/
abbrev Transfers := Transfer × Credentials → (ImportProgress → ImportProgress) × Option String

/-- The server after the deferred report of the variable `err`, and the error that is returned. -/
def executeImport (request : Request) (sync : Option String) (transfers : Transfers) (now : Nat)
    (server : Server) : Server × Option String :=
  match sync with
  | some error => (server.report none now, some error)
  | none =>
    let (work, err) := transfers request.chosen
    let progress := (server.progress.map ImportProgress.begin).map work
    ({ server with progress }.report err now, err)

/-- The progress record and the Panel have the error that is returned, or success for none. -/
def Truthful (told : List Notice) (outcome : Server × Option String) : Prop :=
  outcome.1.told = told ++ [notifyImportComplete outcome.2] ∧
    ∃ record, outcome.1.progress = some record ∧
      match outcome.2 with
      | some error => record.status = "failed" ∧ record.error = error
      | none => record.status = "completed"

theorem ImportProgress.complete_status (progress : ImportProgress) :
    (progress.complete now).status = "completed" := by
  unfold complete
  split_ifs <;> rfl

open LexicalPath SeparatedText

/-- The white space of `unicode.IsSpace`. -/
def isSpace (r : Char) : Bool :=
  (9 ≤ r.toNat && r.toNat ≤ 13) || (0x2000 ≤ r.toNat && r.toNat ≤ 0x200a) ||
    [0x20, 0x85, 0xa0, 0x1680, 0x2028, 0x2029, 0x202f, 0x205f, 0x3000].contains r.toNat

def trimSpace (text : Text) : Text := (text.dropWhile isSpace).rdropWhile isSpace

def trimPrefix (text front : Text) : Text :=
  if front.isPrefixOf text then text.drop front.length else text

def trimSuffix (text back : Text) : Text :=
  if back.isSuffixOf text then text.take (text.length - back.length) else text

def slashed (text : Text) : Text := if text.head? = some '/' then text else '/' :: text

/-- The selected path, and the part of it below the source directory. -/
def resolveSelectedItemPath (srcLocation item : Text) : Text × Text :=
  let src := trimSpace srcLocation
  let src := trimSuffix (slashed (if src = [] then ['/'] else src)) ['/']
  let src := if src = [] then ['/'] else src
  if trimSpace item = [] then ([], [])
  else
    let selection := clean (slashed (trimSpace item))
    let selection := if src ≠ ['/'] ∧ src.isPrefixOf selection = false then
        if (trimPrefix src ['/']).isPrefixOf (trimPrefix selection ['/']) then
          '/' :: trimPrefix selection ['/']
        else if trimPrefix item ['/'] ≠ [] then clean (join src (trimPrefix item ['/']))
        else selection
      else selection
    let relative :=
      if src = ['/'] then trimPrefix selection ['/']
      else if src.isPrefixOf selection then trimPrefix (trimPrefix selection src) ['/']
      else trimPrefix selection ['/']
    (selection, relative)

def absolute (words : List Text) : Text := '/' :: separated '/' words

theorem trimPrefix_append (front text : Text) : trimPrefix (front ++ text) front = text := by
  rw [trimPrefix, if_pos (List.isPrefixOf_iff_prefix.2 (List.prefix_append _ _)), List.drop_left]

theorem trimPrefix_slash (relative : text.head? ≠ some '/') : trimPrefix text ['/'] = text := by
  rw [trimPrefix, if_neg]
  rw [List.isPrefixOf_iff_prefix]
  rintro ⟨rest, rfl⟩
  exact relative rfl

theorem trimSuffix_absolute (proper : ∀ word ∈ words, Proper word) (nonempty : words ≠ []) :
    trimSuffix (absolute words) ['/'] = absolute words := by
  rw [trimSuffix, if_neg]
  rw [List.isSuffixOf_iff_suffix]
  rintro ⟨rest, ends⟩
  obtain ⟨before, last, rfl⟩ := (List.eq_nil_or_concat' words).resolve_left nonempty
  have lastProper := proper last (by simp)
  have front : ∃ front, absolute (before ++ [last]) = front ++ last := by
    by_cases alone : before = []
    · exact ⟨['/'], by rw [alone]; simp [absolute, separated]⟩
    · exact ⟨'/' :: separated '/' before ++ ['/'], by simp [absolute, separated_concat alone]⟩
  obtain ⟨front, isFront⟩ := front
  have isLast := congrArg List.getLast? (ends.trans isFront)
  rw [List.getLast?_concat, List.getLast?_append_of_ne_nil _ lastProper.nonempty] at isLast
  exact lastProper.noSlash (List.mem_of_getLast? isLast.symm)

end Wings.Import
