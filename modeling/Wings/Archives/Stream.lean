import Mathlib.Data.List.DropRight
import Wings.Library.BufferedEncoder
import Wings.Library.Fallible
import Wings.Library.LabelledForest
import Wings.Library.RecordArchive

/-!
# Streaming an archive

`Archive.Stream` walks over the entries below the base directory and adds every selected file to a
tar archive that is compressed. A byte that an entry lacks is reported by the next `WriteHeader` or
by `Close`. The tree may change at any time, so a file comes with what each system call returns.
-/

namespace Wings.Archives

open FallibleCall LabelledForest

abbrev Text := List Char

/-- The errors of system calls; `other` holds an error number. -/
inductive SysError where
  | notExist
  | exist
  | other (errno : Nat)
  deriving DecidableEq

/-- The errors that the archive code compares or passes on. `wrapped` has a message with a name. -/
inductive Failure where
  | system (error : SysError)
  | skipDir
  | skipAll
  | cancelled
  | rejected
  | missedWriting (bytes : Nat)
  | writeTooLong
  | writeAfterClose
  | message (text : String)
  | wrapped (text : String) (name : Text) (cause : Failure)
  deriving DecidableEq

/-- The name of a directory entry, as `readDir` returns it. -/
structure Name where
  text : Text
  nonempty : text ≠ []
  noSlash : '/' ∉ text
  notDot : text ≠ ['.']
  notDotDot : text ≠ ['.', '.']
  deriving DecidableEq

/-- The entries of a directory: files, and directories with their own entries. -/
abbrev Listing (File Folder : Type) := Forest Name File Folder

/-- Whether the context is done when a directory is visited, and the failure of reading it. -/
structure Folder where
  cancelled : Bool
  unreadable : Option SysError

variable {File : Type}

inductive DirEntry (File : Type) where
  | file (data : File)
  | directory (data : Folder)

inductive Finding (File : Type) where
  | entry (entry : DirEntry File)
  | failure (entry : Option (DirEntry File)) (cause : SysError)

structure Visit (File : Type) where
  name : Text
  relative : Text
  finding : Finding File

abbrev WalkDiratFunc (File State : Type) := Visit File → State → Outcome Failure State

variable {State : Type}

def skipped : Option Failure → Option Failure
  | some .skipDir => none
  | result => result

/-- The path of an entry. Both parts are clean, so `path.Join` only puts a slash between them. -/
def joinName (relative name : Text) : Text :=
  if relative = ['.'] then name else relative ++ '/' :: name

/-- `walkDir` for a directory, given the loop over its entries. -/
def walkDirectory (fn : WalkDiratFunc File State) (name relative : Text)
    (folder : Folder) (entries : State → Outcome Failure State)
    (state : State) : Outcome Failure State :=
  match fn ⟨name, relative, .entry (.directory folder)⟩ state with
  | (some err, after) => (skipped (some err), after)
  | (none, after) =>
    match folder.unreadable with
    | some cause =>
      let result := fn ⟨name, relative, .failure (some (.directory folder)) cause⟩ after
      (skipped result.1, result.2)
    | none => entries after

/-- One round of the loop over the entries: `SkipDir` ends the loop. -/
def walkRound (rest : State → Outcome Failure State) : Outcome Failure State → Outcome Failure State
  | (none, state) => rest state
  | (some .skipDir, state) => (none, state)
  | (some err, state) => (some err, state)

/-- The loop of `walkDir` over the entries of the directory with path
`relative`. -/
def walkEntries (fn : WalkDiratFunc File State) :
    Text → Listing File Folder → State → Outcome Failure State
  | _, .nil, state => (none, state)
  | relative, .leaf name data rest, state =>
    walkRound (walkEntries fn relative rest)
      (fn ⟨name.text, joinName relative name.text, .entry (.file data)⟩ state)
  | relative, .branch name folder children rest, state =>
    walkRound (walkEntries fn relative rest)
      (walkDirectory fn name.text (joinName relative name.text) folder
        (walkEntries fn (joinName relative name.text) children) state)

inductive Base (File : Type) where
  | missing (cause : SysError)
  | file (data : File)
  | directory (folder : Folder) (children : Listing File Folder)

/-- The body of `WalkDirat`, in which `name` is the last part of the path to
walk. -/
def walkBase (fn : WalkDiratFunc File State)
    (name : Text) : Base File → State → Outcome Failure State
  | .missing cause, state => fn ⟨name, ['.'], .failure none cause⟩ state
  | .file data, state => fn ⟨name, ['.'], .entry (.file data)⟩ state
  | .directory folder children, state =>
    walkDirectory fn name ['.'] folder (walkEntries fn ['.'] children) state

/-- `WalkDirat`: asking to skip at the top ends the walk without an error. -/
def walkDirat (fn : WalkDiratFunc File State) (name : Text) (base : Base File)
    (state : State) : Outcome Failure State :=
  match walkBase fn name base state with
  | (some .skipDir, after) => (none, after)
  | (some .skipAll, after) => (none, after)
  | result => result

def directoryVisits (name relative : Text) (folder : Folder)
    (entries : List (Visit File)) : List (Visit File) :=
  ⟨name, relative, .entry (.directory folder)⟩ ::
    match folder.unreadable with
    | some cause => [⟨name, relative, .failure (some (.directory folder)) cause⟩]
    | none => entries

def entryVisits : Text → Listing File Folder → List (Visit File)
  | _, .nil => []
  | relative, .leaf name data rest =>
    ⟨name.text, joinName relative name.text, .entry (.file data)⟩ :: entryVisits relative rest
  | relative, .branch name folder children rest =>
    directoryVisits name.text (joinName relative name.text) folder
      (entryVisits (joinName relative name.text) children) ++ entryVisits relative rest

def baseVisits (name : Text) : Base File → List (Visit File)
  | .missing cause => [⟨name, ['.'], .failure none cause⟩]
  | .file data => [⟨name, ['.'], .entry (.file data)⟩]
  | .directory folder children =>
    directoryVisits name ['.'] folder (entryVisits ['.'] children)

def NeverSkips (fn : WalkDiratFunc File State) : Prop :=
  ∀ visit state, (fn visit state).1 ≠ some .skipDir ∧ (fn visit state).1 ≠ some .skipAll

theorem skipped_eq_self (kept : result ≠ some .skipDir) : skipped result = result := by
  rcases result with _ | (_ | _) <;> simp_all [skipped]

theorem walkDirectory_eq_runAll (neverSkips : NeverSkips fn)
    (name relative : Text) (folder : Folder) (visits : List (Visit File)) (state : State) :
    walkDirectory fn name relative folder (runAll fn visits) state =
    runAll fn (directoryVisits name relative folder visits) state := by
  rw [walkDirectory, directoryVisits, runAll]
  have first := neverSkips ⟨name, relative, .entry (.directory folder)⟩ state
  rcases called : fn ⟨name, relative, .entry (.directory folder)⟩ state with
    ⟨_ | err, after⟩
  · cases folder.unreadable with
    | none => rfl
    | some cause =>
      have second := neverSkips ⟨name, relative, .failure (some (.directory folder)) cause⟩ after
      simp only [proceed, runAll_singleton, skipped_eq_self second.1]
  · rw [called] at first
    simp only [proceed, skipped_eq_self first.1]

theorem walkRound_eq_proceed (kept : result.1 ≠ some .skipDir)
    (rest : State → Outcome Failure State) : walkRound rest result = proceed rest result := by
  rcases result with ⟨_ | (_ | _), after⟩ <;> first | rfl | exact absurd rfl kept

theorem walkEntries_eq_runAll (neverSkips : NeverSkips fn) (relative : Text)
    (listing : Listing File Folder) : walkEntries fn relative listing =
    runAll fn (entryVisits relative listing) := by
  induction listing generalizing relative with
  | nil => rfl
  | leaf name data rest restIh =>
    funext state
    rw [walkEntries, entryVisits, runAll, restIh, walkRound_eq_proceed (neverSkips _ _).1]
  | branch name folder children rest childIh restIh =>
    funext state
    rw [walkEntries, entryVisits, childIh, restIh,
      runAll_append, walkDirectory_eq_runAll neverSkips,
      walkRound_eq_proceed (runAll_ne (fun visit state => (neverSkips visit state).1) _ _)]

theorem walkBase_eq_runAll (neverSkips : NeverSkips fn) (name : Text)
    (base : Base File) (state : State) : walkBase fn name base state =
    runAll fn (baseVisits name base) state := by
  cases base with
  | missing cause | file data => rw [walkBase, baseVisits, runAll_singleton]
  | directory folder children =>
    rw [walkBase, baseVisits, walkEntries_eq_runAll neverSkips, walkDirectory_eq_runAll neverSkips]

theorem walkDirat_eq_runAll (neverSkips : NeverSkips fn) (name : Text)
    (base : Base File) (state : State) : walkDirat fn name base state =
    runAll fn (baseVisits name base) state := by
  have keptDir := runAll_ne (fun visit state => (neverSkips visit state).1)
    (baseVisits name base) state
  have keptAll := runAll_ne (fun visit state => (neverSkips visit state).2)
    (baseVisits name base) state
  unfold walkDirat
  rw [walkBase_eq_runAll neverSkips]
  split
  · next skips => exact absurd (congrArg Prod.fst skips) keptDir
  · next skips => exact absurd (congrArg Prod.fst skips) keptAll
  · rfl

end Wings.Archives

namespace Wings.Archives

open FallibleCall BufferedEncoder RecordArchive

inductive Kind where
  | regular
  | directory
  | symlink
  | namedPipe
  | socket
  | device
  | charDevice
  deriving DecidableEq

structure Header where
  name : Text
  kind : Kind
  linkname : Text
  size : Nat

def blockSize : Nat := 512

def blockPadding (size : Nat) : Nat := (blockSize - size % blockSize) % blockSize

def zeroBytes (count : Nat) : List UInt8 := List.replicate count 0

structure HeaderFormat where
  encode : Header → List UInt8
  encode_cancel : ∀ first second rest other,
    encode first ++ rest = encode second ++ other → first = second ∧ rest = other
  encode_ne_trailer : ∀ header rest, encode header ++ rest ≠ zeroBytes (2 * blockSize)

/-- Contents are padded to whole blocks, and two zero blocks end an archive. -/
def HeaderFormat.tar (headers : HeaderFormat) : Format Header UInt8 where
  size := Header.size
  encode := headers.encode
  padding size := zeroBytes (blockPadding size)
  trailer := zeroBytes (2 * blockSize)
  encode_cancel := headers.encode_cancel
  encode_ne_trailer := headers.encode_ne_trailer

/-- What the current entry lacks, its padding, the kept error, and the gzip writer below. -/
structure TarWriter (gzip : Codec UInt8 UInt8) where
  remaining : Nat
  pad : Nat
  failed : Option Failure
  gw : Encoder gzip

namespace TarWriter

def new (gzip : Codec UInt8 UInt8) (capacity : Option Nat) : TarWriter gzip :=
  ⟨0, 0, none, .new gzip capacity⟩

def emit (tw : TarWriter gzip) (bytes : List UInt8) : Outcome Failure (TarWriter gzip) :=
  let gw := tw.gw.write bytes
  let err := if gw.sink.rejected then some .rejected else none
  (err, { tw with gw, failed := err })

def flush (tw : TarWriter gzip) : Outcome Failure (TarWriter gzip) :=
  match tw.failed with
  | some err => (some err, tw)
  | none =>
    if 0 < tw.remaining then (some (.missedWriting tw.remaining), tw)
    else
      proceed (fun after => (none, { after with pad := 0 })) (tw.emit (zeroBytes tw.pad))

/-- `WriteHeader`: finish the current entry and begin another. -/
def writeHeader (headers : HeaderFormat) (tw : TarWriter gzip)
    (header : Header) : Outcome Failure (TarWriter gzip) := proceed
    (fun flushed =>
      proceed
        (fun after =>
          (none,
            { after with
              remaining := header.size
              pad := blockPadding header.size }))
        (flushed.emit (headers.encode header)))
    tw.flush

/-- `Write`: write content of the current entry, at most what it lacks. -/
def write (tw : TarWriter gzip) (data : List UInt8) : Outcome Failure (TarWriter gzip) :=
  match tw.failed with
  | some err => (some err, tw)
  | none =>
    let written := data.take tw.remaining
    proceed
      (fun after =>
        let counted := { after with remaining := tw.remaining - written.length }
        if tw.remaining < data.length then (some .writeTooLong, counted)
        else (none, counted))
      (if written = [] then (none, tw) else tw.emit written)

/-- The writes of `Close`: the rest of the current entry and two zero blocks. -/
def finish (tw : TarWriter gzip) : Outcome Failure (TarWriter gzip) :=
  proceed (fun after => after.emit (zeroBytes blockSize))
    (proceed (fun after => after.emit (zeroBytes blockSize)) tw.flush)

def close (tw : TarWriter gzip) : Outcome Failure (TarWriter gzip) :=
  match tw.failed with
  | some .writeAfterClose => (none, tw)
  | _ =>
    (tw.finish.1, { tw.finish.2 with failed := some .writeAfterClose })

/-- A writer without an error whose gzip writer has taken the given bytes. -/
structure Healthy (capacity : Option Nat) (input : List UInt8) (tw : TarWriter gzip) : Prop where
  failed_eq : tw.failed = none
  accepted : tw.gw.sink.rejected = false
  capacity_eq : tw.gw.sink.capacity = capacity
  input_eq : tw.gw.input = input

variable {tw : TarWriter gzip}

theorem Healthy.accepts (healthy : Healthy capacity input tw) :
    Accepts capacity (gzip.emitted input).length := by
  obtain ⟨received, accepts⟩ := tw.gw.faithful healthy.accepted
  rwa [received, healthy.capacity_eq, healthy.input_eq] at accepts

theorem emit_settles (healthy : Healthy capacity input tw) (bytes : List UInt8) :
    Settles (tw.emit bytes) (Accepts capacity (gzip.emitted (input ++ bytes)).length)
    (fun after => Healthy capacity (input ++ bytes) after ∧
    after.remaining = tw.remaining ∧ after.pad = tw.pad) := by
  have written := Encoder.write_healthy_iff healthy.accepted bytes
  rw [healthy.capacity_eq, healthy.input_eq] at written
  have succeeds : (tw.emit bytes).1 = none ↔ (tw.gw.write bytes).sink.rejected = false := by
    simp [emit]
  refine ⟨succeeds.trans written, ?_⟩
  intro succeeded
  refine ⟨⟨succeeded, succeeds.mp succeeded, ?_, ?_⟩, rfl, rfl⟩
  · exact (tw.gw.write_capacity bytes).trans healthy.capacity_eq
  · rw [← healthy.input_eq]
    simp [emit, Encoder.write, healthy.accepted]

variable {headers : HeaderFormat}

/-- A writer has written the given entries, of which only the last may be short. -/
structure Tracks (capacity : Option Nat) (attempts : List (Attempt headers.tar))
    (tw : TarWriter gzip) : Prop where
  healthy : Healthy capacity (openBytes attempts) tw
  remaining_eq : tw.remaining = lastMissing attempts
  pad_eq : zeroBytes tw.pad = lastPadding attempts
  inner : InnerComplete attempts

variable {attempts : List (Attempt headers.tar)}

theorem tracks_new (capacity : Option Nat) :
    Tracks capacity ([] : List (Attempt headers.tar)) (new gzip capacity) where
  healthy := ⟨rfl, rfl, rfl, rfl⟩
  remaining_eq := rfl
  pad_eq := rfl
  inner := by simp [InnerComplete]

theorem flush_settles (tracks : Tracks capacity attempts tw) : Settles tw.flush
    (LastComplete attempts ∧ Accepts capacity (gzip.emitted (closedBytes attempts)).length)
    (fun after => Healthy capacity (closedBytes attempts) after ∧
    ∀ attempt ∈ attempts, attempt.Complete) := by
  unfold flush
  rw [tracks.healthy.failed_eq]
  rw [tracks.remaining_eq]
  split_ifs with lacking
  · apply Settles.failure
    rintro ⟨complete, _⟩
    have none := (lastMissing_eq_zero_iff attempts).mpr complete
    omega
  · have complete : LastComplete attempts := by
      apply (lastMissing_eq_zero_iff attempts).mp
      omega
    have written := emit_settles tracks.healthy (zeroBytes tw.pad)
    rw [tracks.pad_eq, openBytes_append_lastPadding, ← tracks.pad_eq] at written
    apply (written.congr (and_iff_right complete).symm).update
    rintro after ⟨healthy, _⟩
    refine ⟨{ healthy with }, ?_⟩
    exact (complete_iff attempts).mpr ⟨tracks.inner, complete⟩

def begun (headers : HeaderFormat) (header : Header) : Attempt headers.tar :=
  ⟨header, [], Nat.zero_le _⟩

theorem openBytes_begun (header : Header) : openBytes (attempts ++ [begun headers header]) =
    closedBytes attempts ++ headers.encode header := by
  rw [openBytes_concat, Attempt.opened, begun, List.append_nil]
  rfl

theorem tracks_begun (healthy : Healthy capacity (closedBytes attempts ++ headers.encode header) tw)
    (complete : ∀ attempt ∈ attempts, attempt.Complete) :
    Tracks capacity (attempts ++ [begun headers header])
      { tw with remaining := header.size, pad := blockPadding header.size } where
  healthy := { healthy with input_eq := healthy.input_eq.trans (openBytes_begun header).symm }
  remaining_eq := by
    rw [lastMissing_concat]
    rfl
  pad_eq := by
    rw [lastPadding_concat]
    rfl
  inner := by
    rwa [innerComplete_concat]

theorem writeHeader_settles (tracks : Tracks capacity attempts tw) (header : Header) :
    Settles (tw.writeHeader headers header) (InnerComplete (attempts ++ [begun headers header]) ∧
    Accepts capacity (gzip.emitted (openBytes (attempts ++ [begun headers header]))).length)
    (Tracks capacity (attempts ++ [begun headers header])) := by
  rw [openBytes_begun, innerComplete_concat]
  have both := (flush_settles tracks).proceed fun flushed established =>
    (emit_settles established.1 (headers.encode header)).update
      fun after written => tracks_begun written.1 established.2
  apply both.congr
  rw [complete_iff]
  constructor
  · rintro ⟨⟨last, _⟩, accepts⟩
    exact ⟨⟨tracks.inner, last⟩, accepts⟩
  · rintro ⟨⟨_, last⟩, accepts⟩
    exact ⟨⟨last, gzip.accepts_emitted_of_begins ⟨_, rfl⟩ accepts⟩, accepts⟩

structure Extends (last : Attempt headers.tar) (data : List UInt8)
    (next : Attempt headers.tar) : Prop where
  header_eq : next.header = last.header
  content_eq : next.content = last.content ++ data

variable {last next : Attempt headers.tar}

theorem Extends.openBytes_eq (more : Extends last data next) :
    openBytes (attempts ++ [next]) = openBytes (attempts ++ [last]) ++ data := by
  simp [Attempt.opened, more.header_eq, more.content_eq]

theorem Extends.missing_eq (more : Extends last data next) :
    next.missing = last.missing - data.length := by
  rw [Attempt.missing, Attempt.missing, more.header_eq, more.content_eq,
    List.length_append, Nat.sub_add_eq]

theorem Extends.length_le (more : Extends last data next) : data.length ≤ last.missing := by
  have fits := next.fits
  rw [more.header_eq, more.content_eq, List.length_append] at fits
  unfold Attempt.missing
  omega

theorem Extends.eq_of_nil (more : Extends last [] next) : next = last := by
  cases last
  cases next
  simpa using And.intro more.header_eq more.content_eq

theorem Extends.split (more : Extends last (data ++ rest) next) :
    ∃ middle, Extends last data middle ∧ Extends middle rest next := by
  have fits : (last.content ++ data).length ≤ headers.tar.size last.header := by
    have whole := next.fits
    rw [more.header_eq, more.content_eq, ← List.append_assoc, List.length_append] at whole
    omega
  refine ⟨⟨last.header, last.content ++ data, fits⟩, ⟨rfl, rfl⟩, more.header_eq, ?_⟩
  rw [more.content_eq, List.append_assoc]

theorem write_settles (tracks : Tracks capacity (attempts ++ [last]) tw)
    (nonempty : data ≠ []) (more : Extends last data next) : Settles (tw.write data)
    (Accepts capacity (gzip.emitted (openBytes (attempts ++ [next]))).length)
    (Tracks capacity (attempts ++ [next])) := by
  have remaining : tw.remaining = last.missing := by
    rw [tracks.remaining_eq, lastMissing_concat]
  have fits := more.length_le
  have whole : data.take tw.remaining = data := by
    apply List.take_of_length_le
    omega
  have within : ¬tw.remaining < data.length := by omega
  unfold write
  rw [tracks.healthy.failed_eq]
  simp only [whole, nonempty, within, if_false]
  rw [more.openBytes_eq]
  apply (emit_settles tracks.healthy data).update
  rintro after ⟨healthy, _, pad⟩
  constructor
  · exact { healthy with input_eq := healthy.input_eq.trans more.openBytes_eq.symm }
  · rw [lastMissing_concat, remaining, more.missing_eq]
  · dsimp only
    rw [pad, tracks.pad_eq, lastPadding_concat, lastPadding_concat, more.header_eq]
  · rw [innerComplete_concat]
    exact (innerComplete_concat attempts last).mp tracks.inner

/-- The destination after both deferred `Close` calls, whose results are
dropped. -/
def closeAll (tw : TarWriter gzip) : Sink UInt8 := tw.close.2.gw.close

/-- A destination has received a whole coded archive of complete entries. -/
def Delivered (gzip : Codec UInt8 UInt8) (headers : HeaderFormat) (sink : Sink UInt8) : Prop :=
  sink.rejected = false ∧ ∃ raw, gzip.decode sink.received = some raw ∧ IsArchive headers.tar raw

theorem closeAll_eq_finish (healthy : tw.failed = none) : tw.closeAll = tw.finish.2.gw.close := by
  simp only [closeAll, close, healthy]

theorem finish_settles (tracks : Tracks capacity attempts tw) : Settles tw.finish
    (LastComplete attempts ∧ Accepts capacity (gzip.emitted (archiveBytes attempts)).length)
    (Healthy capacity (archiveBytes attempts)) := by
  have blocks : closedBytes attempts ++ zeroBytes blockSize ++ zeroBytes blockSize =
        archiveBytes attempts := by
    rw [List.append_assoc, archiveBytes]
    simp [zeroBytes, HeaderFormat.tar, Nat.two_mul]
  have first := (flush_settles tracks).proceed fun after established =>
    (emit_settles established.1 (zeroBytes blockSize)).imp fun _ => And.left
  have settles := first.proceed fun after healthy =>
    (emit_settles healthy (zeroBytes blockSize)).imp fun _ => And.left
  rw [blocks] at settles
  apply settles.congr
  constructor
  · rintro ⟨⟨⟨last, _⟩, _⟩, accepts⟩
    exact ⟨last, accepts⟩
  · rintro ⟨last, accepts⟩
    have one := gzip.accepts_emitted_of_begins ⟨_, blocks⟩ accepts
    exact ⟨⟨⟨last, gzip.accepts_emitted_of_begins ⟨_, rfl⟩ one⟩, one⟩, accepts⟩

def Blames (outcome : Outcome Failure (TarWriter gzip)) : Prop :=
  outcome.1 ≠ none → outcome.2.gw.sink.rejected = true

theorem blames_emit (tw : TarWriter gzip) (bytes : List UInt8) : Blames (tw.emit bytes) := by
  intro failed
  simpa [emit] using failed

theorem Blames.proceed (first : Blames outcome) (next : ∀ after, Blames (rest after)) :
    Blames (proceed rest outcome) := by
  rcases outcome with ⟨_ | error, after⟩
  · exact next after
  · exact first

section

variable (tracks : Tracks capacity attempts tw)
include tracks

theorem blames_finish (complete : LastComplete attempts) : Blames tw.finish := by
  have nothing : ¬0 < tw.remaining := by
    rw [tracks.remaining_eq, (lastMissing_eq_zero_iff attempts).mpr complete]
    exact Nat.lt_irrefl 0
  have flushed : Blames tw.flush := by
    unfold flush
    rw [tracks.healthy.failed_eq]
    rw [if_neg nothing]
    exact (blames_emit _ _).proceed fun _ failed => absurd rfl failed
  exact (flushed.proceed fun _ => blames_emit _ _).proceed fun _ => blames_emit _ _

theorem finish_of_short (short : ¬LastComplete attempts) : tw.finish.2 = tw := by
  have lacking : 0 < tw.remaining := by
    rw [tracks.remaining_eq, Nat.pos_iff_ne_zero]
    intro zero
    exact short ((lastMissing_eq_zero_iff attempts).mp zero)
  simp [finish, flush, tracks.healthy.failed_eq, lacking, proceed]

theorem closeAll_of_short
    (short : ¬LastComplete attempts) : ¬Delivered gzip headers tw.closeAll := by
  rintro ⟨accepted, raw, decoded, archive⟩
  rw [closeAll_eq_finish tracks.healthy.failed_eq, finish_of_short tracks short] at accepted decoded
  rw [Encoder.close_received accepted, gzip.decode_finished,
    tracks.healthy.input_eq, Option.some.injEq] at decoded
  subst decoded
  exact not_isArchive_openBytes tracks.inner short archive

theorem closeAll_of_complete (complete : LastComplete attempts) : (tw.closeAll.rejected = false ↔
    Accepts capacity (gzip.finished (archiveBytes attempts)).length) ∧
    (tw.closeAll.rejected = false →
    tw.closeAll.received = gzip.finished (archiveBytes attempts)) := by
  have settles := finish_settles tracks
  rw [closeAll_eq_finish tracks.healthy.failed_eq]
  by_cases succeeded : tw.finish.1 = none
  · have healthy := settles.established succeeded
    have closed := tw.finish.2.gw.close_healthy_iff
    rw [healthy.capacity_eq, healthy.input_eq, and_iff_right healthy.accepted] at closed
    refine ⟨closed, ?_⟩
    intro accepted
    rw [Encoder.close_received accepted, healthy.input_eq]
  · have rejected := blames_finish tracks complete succeeded
    have closed : tw.finish.2.gw.close.rejected = true := by
      rw [Encoder.close, if_pos rejected, rejected]
    rw [closed]
    constructor
    · constructor
      · intro accepted
        exact absurd accepted (by simp)
      · intro accepts
        exact absurd (settles.succeeds_iff.mpr
          ⟨complete, accepts.mono (gzip.emitted_begins _).length_le⟩) succeeded
    · intro accepted
      exact absurd accepted (by simp)

end

/-- What has been written of the given entries when both writers are closed. -/
structure Closes (gzip : Codec UInt8 UInt8) (capacity : Option Nat)
    (attempts : List (Attempt headers.tar)) (sink : Sink UInt8) : Prop where
  delivered_iff : Delivered gzip headers sink ↔ LastComplete attempts ∧
      Accepts capacity (gzip.finished (archiveBytes attempts)).length
  received_eq : Delivered gzip headers sink → sink.received = gzip.finished (archiveBytes attempts)

theorem closeAll_closes (tracks : Tracks capacity attempts tw) :
    Closes gzip capacity attempts tw.closeAll := by
  by_cases complete : LastComplete attempts
  · obtain ⟨accepted, received⟩ := closeAll_of_complete tracks complete
    refine ⟨?_, fun delivered => received delivered.1⟩
    rw [and_iff_right complete, ← accepted]
    constructor
    · exact And.left
    · intro healthy
      refine ⟨healthy, archiveBytes attempts, ?_, attempts, ?_, rfl⟩
      · rw [received healthy, gzip.decode_finished]
      · exact (complete_iff attempts).mpr ⟨tracks.inner, complete⟩
  · have undelivered := closeAll_of_short tracks complete
    refine ⟨?_, fun delivered => absurd delivered undelivered⟩
    simp [complete, undelivered]

end TarWriter

def hasPrefix (text start : Text) : Bool := start.isPrefixOf text

def trimPrefix (text start : Text) : Text :=
  if hasPrefix text start then text.drop start.length else text

def trimSlash (text : Text) : Text := if text.getLast? = some '/' then text.dropLast else text

def filepathBase (path : Text) : Text :=
  if path = [] then ['.']
  else
    let last := (path.rdropWhile (· == '/')).rtakeWhile (· != '/')
    if last = [] then ['/'] else last

structure FileInfo where
  kind : Kind
  size : Nat
  deriving DecidableEq

/-- What the reads of an open file return, and whether they end with an error. -/
structure OpenFile where
  reads : List (List UInt8)
  failure : Option SysError

/-- What happens when a file is visited: whether the context is done, whether the ignore patterns
take too long, and the results of `Info`, `Readlinkat` and `OpenFileat`. -/
structure Observation where
  cancelled : Bool
  overBudget : Bool
  info : Except SysError FileInfo
  readlink : Except SysError Text
  opened : Except SysError OpenFile

def DirEntry.cancelled : DirEntry Observation → Bool
  | .file seen => seen.cancelled
  | .directory folder => folder.cancelled

def memory : Nat := 4 * 1024

def bufferLength (size : Nat) : Nat := if size < memory then size else memory

def fileInfoHeader (name : Text) (info : FileInfo) (link : Text) : Except Failure Header :=
  match info.kind with
  | .regular => .ok ⟨name, .regular, [], info.size⟩
  | .directory => .ok ⟨name ++ ['/'], .directory, [], 0⟩
  | .symlink => .ok ⟨name, .symlink, link, 0⟩
  | .namedPipe => .ok ⟨name, .namedPipe, [], 0⟩
  | .device => .ok ⟨name, .device, [], 0⟩
  | .charDevice => .ok ⟨name, .charDevice, [], 0⟩
  | .socket => .error (.message "archive/tar: sockets not supported")

/-- The first part of `addToArchive`: the header, unless the entry is left out. -/
def archiveHeader (name relative : Text) (seen : Observation) : Except Failure (Option Header) :=
  match seen.info with
  | .error .notExist => .ok none
  | .error cause =>
    .error (.wrapped "failed executing os.Lstat on '%s'" name (.system cause))
  | .ok info =>
    if info.kind = .socket then .ok none
    else
      match (if info.kind = .symlink then seen.readlink else .ok []) with
      | .error _ => .ok none
      | .ok target =>
        match fileInfoHeader name info target with
        | .error cause =>
          .error (.wrapped "failed to get tar#FileInfoHeader for '%s'" name cause)
        | .ok header => .ok (some { header with name := relative })

/-- `io.CopyBuffer` from a file limited to `limit` bytes. -/
def copyBuffer (buffer : Nat) (failure : Option SysError) :
    List (List UInt8) → Nat → TarWriter gzip → Outcome Failure (TarWriter gzip)
  | [], limit, tw =>
    if limit = 0 then (none, tw) else (failure.map .system, tw)
  | read :: reads, limit, tw =>
    if limit = 0 then (none, tw)
    else
      let data := read.take (min buffer limit)
      if data = [] then copyBuffer buffer failure reads limit tw
      else
        proceed (copyBuffer buffer failure reads (limit - data.length)) (tw.write data)

def copyContent (seen : Observation) (header : Header)
    (tw : TarWriter gzip) : Outcome Failure (TarWriter gzip) :=
  if header.size < 1 then (none, tw)
  else
    match seen.opened with
    | .error .notExist => (none, tw)
    | .error cause =>
      (some (.wrapped "failed to open '%s' for copying" header.name (.system cause)), tw)
    | .ok file =>
      wrapError (.wrapped "failed to copy '%s' to archive" header.name)
        (copyBuffer (bufferLength header.size) file.failure file.reads header.size tw)

def addToArchive (headers : HeaderFormat) (name relative : Text) (seen : Observation)
    (tw : TarWriter gzip) : Outcome Failure (TarWriter gzip) :=
  match archiveHeader name relative seen with
  | .error err => (some err, tw)
  | .ok none => (none, tw)
  | .ok (some header) =>
    proceed (copyContent seen header) (wrapError
        (.wrapped "failed to write tar#FileInfoHeader for '%s'" name)
        (tw.writeHeader headers header))

inductive OptionError where
  | skipThis
  | message (text : String)

abbrev WalkOption := Text → Observation → Option OptionError

/-- The test of `withFilesCallback` for one element of `Files`. -/
def matchesFile (relative file : Text) : Bool := file == relative ||
    hasPrefix (trimSlash relative ++ ['/']) (trimSlash file ++ ['/'])

def withFiles (files : List Text) : WalkOption :=
  fun relative _ =>
    if files.any (matchesFile relative) then none else some .skipThis

def ignoring (matchesPath : Text → Bool) : WalkOption :=
  fun relative seen =>
    if seen.overBudget then
      some (.message ("filesystem: ignore pattern matching exceeded its " ++
        "time budget: %s spent over %d files (%s per file)"))
    else if matchesPath relative then some .skipThis
    else none

def strippedBase (baseDirectory : Text) : Text :=
  if baseDirectory = [] then [] else filepathBase baseDirectory ++ ['/']

def archiveName (base relative : Text) : Text :=
  if base = [] then relative else trimPrefix relative base

def optionError (opts : List WalkOption) (relative : Text)
    (seen : Observation) : Option OptionError := opts.findSome? fun opt => opt relative seen

def callback (headers : HeaderFormat) (base : Text) (opts : List WalkOption)
    (name relative : Text) :
    DirEntry Observation → TarWriter gzip → Outcome Failure (TarWriter gzip)
  | .directory _, tw => (none, tw)
  | .file seen, tw =>
    match optionError opts (archiveName base relative) seen with
    | some .skipThis => (none, tw)
    | some (.message text) => (some (.message text), tw)
    | none => addToArchive headers name (archiveName base relative) seen tw

/-- What `Stream` uses of the file system. `safePath` opens the base directory. -/
structure Filesystem where
  path : Text
  compileIgnore : Text → Except String (Text → Bool)
  safePath : Text → Except Failure (Text × Base Observation)

structure Archive where
  filesystem : Option Filesystem
  ignore : Text
  baseDirectory : Text
  files : List Text

/-- The elements of `Files`, relative to the root of the server. -/
def relativeFiles (root : Text) (files : List Text) : List Text :=
  files.map fun file =>
    if hasPrefix file root then trimPrefix (trimPrefix file root) ['/']
    else file

def walkOptions (fs : Filesystem) (ignore : Text)
    (files : List Text) : Except String (List WalkOption) :=
  if files.length = 0 ∧ 0 < ignore.length then
    (fs.compileIgnore ignore).map fun matchesPath => [ignoring matchesPath]
  else if 0 < files.length then .ok [withFiles files]
  else .ok []

def streamVisit (headers : HeaderFormat) (base : Text)
    (opts : List WalkOption) : WalkDiratFunc Observation (TarWriter gzip) :=
  fun visit tw =>
    match visit.finding with
    | .failure _ cause => (some (.system cause), tw)
    | .entry entry =>
      if entry.cancelled then (some .cancelled, tw)
      else callback headers base opts visit.name visit.relative entry tw

structure Preparation where
  fs : Filesystem
  baseDirectory : Text
  opts : List WalkOption

def Archive.prepare (archive : Archive) : Except Failure Preparation :=
  match archive.filesystem with
  | none => .error (.message "filesystem: archive.Filesystem is unset")
  | some fs =>
    match walkOptions fs archive.ignore
        (relativeFiles fs.path archive.files) with
    | .error text =>
      .error (.wrapped "filesystem: unable to compile archive ignore patterns" [] (.message text))
    | .ok opts => .ok ⟨fs, trimPrefix archive.baseDirectory ['/'], opts⟩

def streamWalk (headers : HeaderFormat) (prepared : Preparation)
    (tw : TarWriter gzip) : Outcome Failure (TarWriter gzip) :=
  match prepared.fs.safePath prepared.baseDirectory with
  | .error cause => (some cause, tw)
  | .ok (name, base) =>
    walkDirat (streamVisit headers (strippedBase prepared.baseDirectory) prepared.opts) name base tw

/-- `Stream` to a destination of the given capacity. The writers are closed in any case. -/
def stream (gzip : Codec UInt8 UInt8) (headers : HeaderFormat) (archive : Archive)
    (capacity : Option Nat) : Outcome Failure (Sink UInt8) :=
  match archive.prepare with
  | .error err => (some err, .empty capacity)
  | .ok prepared =>
    let walked := streamWalk headers prepared (.new gzip capacity)
    (walked.1, walked.2.closeAll)

structure CompressCalls where
  openFile : Text → Option SysError
  stat : Except SysError FileInfo
  close : Option SysError

def archiveFileName (stamp : Text) (attempt : Nat) : Text := "archive-".toList ++ stamp ++
    (if 0 < attempt then '-' :: (toString attempt).toList else []) ++ ".tar.gz".toList

def createArchive (calls : CompressCalls) (stamp : Text) : Nat → Nat → Except SysError Text
  | left, attempt =>
    match calls.openFile (archiveFileName stamp attempt) with
    | none => .ok (archiveFileName stamp attempt)
    | some .exist =>
      match left with
      | 0 => .error .exist
      | left + 1 => createArchive calls stamp left (attempt + 1)
    | some cause => .error cause

/-- `CompressFiles`, with the file it leaves behind, if any. -/
def compressFiles (gzip : Codec UInt8 UInt8) (headers : HeaderFormat)
    (calls : CompressCalls) (stamp : Text) (fs : Filesystem) (dir : Text) (paths : List Text)
    (capacity : Option Nat) : Except Failure FileInfo × Option (Sink UInt8) :=
  match createArchive calls stamp 100 0 with
  | .error cause => (.error (.system cause), none)
  | .ok _ =>
    match stream gzip headers ⟨some fs, [], dir, paths⟩ capacity with
    | (some err, _) => (.error err, none)
    | (none, file) =>
      match calls.stat, calls.close with
      | .error cause, _ => (.error (.system cause), some file)
      | .ok _, some cause => (.error (.system cause), some file)
      | .ok info, none => (.ok info, some file)

end Wings.Archives
