import Mathlib.Data.List.Infix
import Wings.Library.LexicalPath

/-!
# Extraction of chosen entries

The entries of a zip or tar archive that were chosen are written below a destination. The name of
an entry is cleaned first, and names that lead out of the archive are passed over. The file system
is any that answers the calls.
-/

namespace Wings.Extraction

open LexicalPath SeparatedText

def slashed (value : Text) : Text := value.map fun symbol => if symbol = '\\' then '/' else symbol

def trimSlash (path : Text) : Text := if path.head? = some '/' then path.tail else path

def betterFilesCleanArchiveEntryPath (value : Text) : Option Text :=
  let entryPath := trimSlash (clean (slashed value))
  if entryPath = ['.'] ∨ entryPath = [] ∨ "../".toList <+: entryPath ∨
    "/../".toList <:+: entryPath then none
  else some entryPath

def betterFilesExtractOutputPath (destination entryPath : Text) : Text :=
  clean (join destination entryPath)

structure Selection where
  path : Text
  isDirectory : Bool

def betterFilesArchiveSelectionMatches (entryPath : Text) (selections : List Selection) : Bool :=
  selections.any fun selection => entryPath = selection.path ||
    selection.isDirectory && (selection.path ++ ['/']).isPrefixOf entryPath

inductive Call
  | createDirectory (name p : Text)
  | write (path : Text) (size : Int)

def Call.path : Call → Text
  | .createDirectory name p => join p name
  | .write path _ => path

inductive Action
  | createDirectory
  | write (size : Int)
  | skip
  | fail (error : String)

structure Progress (State : Type) where
  state : State
  /-- The calls that were made. -/
  calls : List Call
  extracted : Nat

section Loop

variable {State Entry : Type} (fs : State → Call → Except String State) (name : Entry → Text)
  (action : Entry → Action) (destination : Text) (selections : List Selection)

def Progress.call (progress : Progress State) (call : Call) :
    Except (Progress State × String) (Progress State) :=
  let progress := { progress with calls := progress.calls ++ [call] }
  match fs progress.state call with
  | .error error => .error (progress, error)
  | .ok state => .ok { progress with state := state }

def betterFilesArchiveMaxExtract : Nat := 2000

def Progress.count (progress : Progress State) :
    Except (Progress State × String) (Progress State) :=
  let progress := { progress with extracted := progress.extracted + 1 }
  if progress.extracted > betterFilesArchiveMaxExtract then
    .error (progress, "Too many files matched this extraction request.")
  else .ok progress

def extractEntry (progress : Progress State) (entry : Entry) :
    Except (Progress State × String) (Progress State) :=
  match betterFilesCleanArchiveEntryPath (name entry) with
  | none => .ok progress
  | some normalized =>
    if betterFilesArchiveSelectionMatches normalized selections then
      let outputPath := betterFilesExtractOutputPath destination normalized
      match action entry with
      | .createDirectory =>
        progress.call fs (.createDirectory (base outputPath) (dir outputPath))
      | .write size => progress.call fs (.write outputPath size) >>= Progress.count
      | .skip => .ok progress
      | .fail error => .error (progress, error)
    else .ok progress

/-- Extract entries until one fails; the reader of the archive may fail after the last. -/
def extractEntries (state : State) (entries : List Entry) (ended : Option String) :
    Progress State × Option String :=
  match entries.foldlM (extractEntry fs name action destination selections) ⟨state, [], 0⟩ with
  | .error (progress, error) => (progress, some error)
  | .ok progress => (progress, match ended with
    | some error => some error
    | none =>
      if progress.extracted = 0 then some "No matching archive entries were found." else none)

end Loop

structure ZipEntry where
  name : Text
  isDir : Bool
  /-- Why the entry cannot be opened. -/
  openError : Option String
  uncompressedSize64 : Nat

def ZipEntry.action (entry : ZipEntry) : Action :=
  if entry.isDir then .createDirectory
  else match entry.openError with
    | some error => .fail error
    | none =>
      if entry.uncompressedSize64 > 9223372036854775807 then
        .fail "Archive entry is too large to extract."
      else .write entry.uncompressedSize64

inductive TarType
  | dir
  | reg
  | other

structure TarHeader where
  name : Text
  /-- What the mode and the name of the header say. -/
  isDir : Bool
  typeflag : TarType
  size : Int

def TarHeader.action (header : TarHeader) : Action :=
  match header.isDir, header.typeflag with
  | true, _ | _, .dir => .createDirectory
  | false, .reg => .write header.size
  | false, .other => .skip

section Members

variable {State : Type} (fs : State → Call → Except String State) (destination : Text)
  (selections : List Selection) (state : State)

def betterFilesExtractZipEntries (entries : List ZipEntry) : Progress State × Option String :=
  extractEntries fs ZipEntry.name ZipEntry.action destination selections state entries none

/-- The archive ends after the headers, or it cannot be read any further. -/
def betterFilesExtractTarEntries (headers : List TarHeader) (unreadable : Bool) :
    Progress State × Option String :=
  extractEntries fs TarHeader.name TarHeader.action destination selections state headers
    (if unreadable then some "could not read tar archive" else none)

end Members

def NotParent (name : Text) : Prop := clean (slashed name) ≠ ['.', '.']

theorem exists_words_of_accepted (notParent : NotParent name)
    (accepted : betterFilesCleanArchiveEntryPath name = some entryPath) :
    ∃ words, (∀ word ∈ words, Proper word) ∧ words ≠ [] ∧ entryPath = separated '/' words := by
  unfold betterFilesCleanArchiveEntryPath at accepted
  dsimp only at accepted
  split_ifs at accepted with refused
  obtain rfl := Option.some.inj accepted
  simp only [not_or] at refused
  obtain ⟨notDot, nonempty, notUp, -⟩ := refused
  by_cases rooted : (slashed name).head? = some '/'
  · obtain ⟨rest, path⟩ := List.head?_eq_some_iff.1 rooted
    rw [path, clean_slash] at nonempty ⊢
    refine ⟨_, proper_of_mem_normalize (splitOn_free rest), ?_, rfl⟩
    intro none
    exact nonempty (by rw [none]; rfl)
  · obtain ⟨count, kept, left, proper⟩ := exists_normalize_false (splitOn_free (slashed name))
    have cleaned : clean (slashed name) =
        if separated '/' (List.replicate count ['.', '.'] ++ kept) = [] then ['.']
        else separated '/' (List.replicate count ['.', '.'] ++ kept) := by
      rw [clean, beq_false_of_ne rooted, left]
      rfl
    cases count with
    | zero =>
      rw [List.replicate_zero, List.nil_append] at cleaned
      by_cases none : kept = []
      · rw [cleaned, none] at notDot
        exact absurd rfl notDot
      · rw [if_neg (separated_ne_nil proper none)] at cleaned
        refine ⟨kept, proper, none, ?_⟩
        rw [cleaned, trimSlash, if_neg (head?_separated_ne proper)]
    | succ count =>
      rw [List.replicate_succ, List.cons_append] at cleaned
      cases others : List.replicate count ['.', '.'] ++ kept with
      | nil =>
        rw [others] at cleaned
        exact absurd cleaned notParent
      | cons second rest =>
        rw [others, separated_cons_cons] at cleaned
        rw [cleaned] at notUp
        exact absurd (List.prefix_append _ _) notUp

theorem below_outputPath (rooted : destination.head? = some '/')
    (cleaned : clean destination = destination) (notParent : NotParent name)
    (accepted : betterFilesCleanArchiveEntryPath name = some entryPath) :
    Below destination (betterFilesExtractOutputPath destination entryPath) := by
  obtain ⟨before, beforeProper, rfl⟩ := exists_words rooted cleaned
  obtain ⟨words, proper, nonempty, rfl⟩ := exists_words_of_accepted notParent accepted
  have whole := List.forall_mem_append.mpr ⟨beforeProper, proper⟩
  refine ⟨before, words, whole, nonempty, rfl, ?_⟩
  rw [betterFilesExtractOutputPath, join_separated _ _ whole, clean_slash_separated whole]

theorem below_createDirectory (below : Below destination outputPath) :
    Below destination (Call.createDirectory (base outputPath) (dir outputPath)).path := by
  obtain ⟨before, after, proper, nonempty, rfl, rfl⟩ := below
  refine ⟨before, after, proper, nonempty, rfl, ?_⟩
  obtain ⟨front, last, words⟩ := (before ++ after).eq_nil_or_concat'.resolve_left
    (by simp [nonempty])
  rw [words] at proper ⊢
  obtain ⟨dirs, bases⟩ := dir_base_concat proper
  rw [Call.path, dirs, bases]
  simpa [separated] using join_separated front [last] proper

def Confined {State : Type} (destination : Text) :
    Except (Progress State × String) (Progress State) → Prop
  | .ok progress => ∀ call ∈ progress.calls, Below destination call.path
  | .error (progress, _) => ∀ call ∈ progress.calls, Below destination call.path

section Loop

variable {State Entry : Type}

theorem confined_bind (confined : Confined destination first)
    (following : ∀ progress, Confined destination (.ok progress) →
    Confined destination (next progress)) : Confined destination (first >>= next) := by
  cases first with
  | error failure => exact confined
  | ok progress => exact following progress confined

theorem confined_call (call : Call) (confined : Confined destination (.ok progress))
    (below : Below destination call.path) : Confined destination (progress.call fs call) := by
  have all : ∀ made ∈ progress.calls ++ [call], Below destination made.path := by
    rw [List.forall_mem_append, List.forall_mem_singleton]
    exact ⟨confined, below⟩
  unfold Progress.call
  dsimp only
  split
  · exact all
  · exact all

theorem confined_count (progress : Progress State)
    (confined : Confined destination (.ok progress)) : Confined destination progress.count := by
  unfold Progress.count
  dsimp only
  split_ifs
  · exact confined
  · exact confined

variable (rooted : destination.head? = some '/') (cleaned : clean destination = destination)

include rooted cleaned

theorem confined_extractEntry (notParent : NotParent (name entry))
    (confined : Confined destination (.ok progress)) :
    Confined destination (extractEntry fs name action destination selections progress entry) := by
  unfold extractEntry
  cases accepted : betterFilesCleanArchiveEntryPath (name entry) with
  | none => exact confined
  | some normalized =>
    have below := below_outputPath rooted cleaned notParent accepted
    dsimp only
    split_ifs
    · cases action entry with
      | createDirectory => exact confined_call _ confined (below_createDirectory below)
      | write size =>
        exact confined_bind (confined_call (.write _ size) confined below) confined_count
      | skip | fail error => exact confined
    · exact confined

/-- No call of a loop leaves the destination. -/
theorem below_extractEntries (state : State) (entries : List Entry) (ended : Option String)
    (notParent : ∀ entry ∈ entries, NotParent (name entry)) :
    ∀ call ∈ (extractEntries fs name action destination selections state entries ended).1.calls,
    Below destination call.path := by
  have run (progress : Progress State) (confined : Confined destination (.ok progress)) :
      Confined destination
        (entries.foldlM (extractEntry fs name action destination selections) progress) := by
    induction entries generalizing progress with
    | nil => exact confined
    | cons entry rest ih =>
      rw [List.forall_mem_cons] at notParent
      exact confined_bind (confined_extractEntry rooted cleaned notParent.1 confined)
        (ih notParent.2)
  have confined := run ⟨state, [], 0⟩ (List.forall_mem_nil _)
  unfold extractEntries
  split
  · next failed => exact (failed ▸ confined :)
  · next made => exact (made ▸ confined :)

end Loop

end Wings.Extraction
