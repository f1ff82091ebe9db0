import Mathlib.Data.List.Infix
import Wings.Archives.Completeness
import Wings.Library.LexicalPath

/-!
# The names of archive entries

While a tree does not change and can be read, the walk visits every file once and adds an entry for
every file that is selected and is not a socket. `callback` strips the last name of the base
directory from paths that are relative to it already.
-/

namespace Wings.Archives

open SeparatedText

abbrev Path := List Name

theorem Name.text_injective : Function.Injective Name.text := by
  rintro ⟨_, _⟩ ⟨_, _⟩ equal
  simpa using equal

theorem Name.exists_text_eq_cons (name : Name) :
    ∃ symbol symbols, name.text = symbol :: symbols ∧ '/' ≠ symbol := by
  obtain ⟨symbol, symbols, spelled⟩ := List.exists_cons_of_ne_nil name.nonempty
  refine ⟨symbol, symbols, spelled, ?_⟩
  intro same
  exact name.noSlash (by simp [spelled, ← same])

def pathText : Path → Text
  | [] => ['.']
  | first :: rest => separated '/' ((first :: rest).map Name.text)

theorem words_free (path : Path) : ∀ word ∈ path.map Name.text, '/' ∉ word := by
  intro word member
  obtain ⟨name, _, rfl⟩ := List.mem_map.mp member
  exact name.noSlash

theorem pathText_eq_separated (nonempty : path ≠ []) :
    pathText path = separated '/' (path.map Name.text) := by
  cases path with
  | nil => exact absurd rfl nonempty
  | cons first rest => rfl

theorem pathText_injective (firstNonempty : first ≠ [])
    (secondNonempty : second ≠ []) (equal : pathText first = pathText second) : first = second := by
  rw [pathText_eq_separated firstNonempty, pathText_eq_separated secondNonempty] at equal
  apply Name.text_injective.list_map
  apply separated_injective _ _ (words_free first) (words_free second) equal
  · simpa using firstNonempty
  · simpa using secondNonempty

theorem pathText_ne_dot (nonempty : path ≠ []) : pathText path ≠ ['.'] := by
  intro equal
  rw [pathText_eq_separated nonempty] at equal
  have words : path.map Name.text = [['.']] := by
    have same : separated '/' (path.map Name.text) = separated '/' [['.']] := equal
    apply separated_injective _ _ (words_free path) _ same
    · simpa using nonempty
    · simp
    · simp
  obtain ⟨name, rest, rfl, dot, _⟩ := List.map_eq_cons_iff.mp words
  exact name.notDot dot

theorem joinName_pathText (path : Path) (name : Name) :
    joinName (pathText path) name.text = pathText (path ++ [name]) := by
  by_cases empty : path = []
  · subst empty
    simp [joinName, pathText, separated]
  · rw [joinName, if_neg (pathText_ne_dot empty),
      pathText_eq_separated empty, pathText_eq_separated (by simp),
      List.map_append, List.map_singleton, separated_concat (by simpa)]

theorem hasPrefix_iff (text start : Text) : hasPrefix text start = true ↔ start <+: text :=
  List.isPrefixOf_iff_prefix

theorem getLast?_pathText_ne (nonempty : path ≠ []) : (pathText path).getLast? ≠ some '/' := by
  obtain ⟨front, last, rfl⟩ := (List.eq_nil_or_concat' path).resolve_left nonempty
  intro ends
  have suffix : last.text <:+ pathText (front ++ [last]) := by
    rw [← joinName_pathText, joinName]
    split_ifs
    · exact List.suffix_rfl
    · exact (List.suffix_cons _ _).trans (List.suffix_append _ _)
  obtain ⟨start, equal⟩ := suffix
  rw [← equal, List.getLast?_append_of_ne_nil start last.nonempty] at ends
  exact last.noSlash (List.mem_of_getLast? ends)

theorem trimSlash_pathText (nonempty : path ≠ []) : trimSlash (pathText path) = pathText path := by
  rw [trimSlash, if_neg (getLast?_pathText_ne nonempty)]

theorem words_begins_iff (first second : Path) :
    first.map Name.text <+: second.map Name.text ↔ first <+: second := by
  rw [List.prefix_iff_eq_take, List.prefix_iff_eq_take, List.length_map,
    ← List.map_take, Name.text_injective.list_map.eq_iff]

def Selected (wanted : List Path) (path : Path) : Prop := ∃ file ∈ wanted, file <+: path

theorem matchesFile_iff (pathNonempty : path ≠ []) (fileNonempty : file ≠ []) :
    matchesFile (pathText path) (pathText file) = true ↔ file <+: path := by
  have below : hasPrefix (trimSlash (pathText path) ++ ['/'])
          (trimSlash (pathText file) ++ ['/']) = true ↔ file <+: path := by
    rw [hasPrefix_iff, trimSlash_pathText pathNonempty,
      trimSlash_pathText fileNonempty, pathText_eq_separated pathNonempty,
      pathText_eq_separated fileNonempty, separated_append_separator (by simpa),
      separated_append_separator (by simpa),
      terminated_begins_iff (words_free file) (words_free path), words_begins_iff]
  rw [matchesFile, Bool.or_eq_true, below, beq_iff_eq]
  constructor
  · rintro (equal | begins)
    · rw [pathText_injective fileNonempty pathNonempty equal]
    · exact begins
  · exact .inr

/-- The name that `callback` strips, that of the base directory itself. -/
def ownName (baseDirectory : Text) : Option Text :=
  if baseDirectory = [] then none else some (filepathBase baseDirectory)

def innerPath (own : Option Text) : Path → Option Path
  | first :: second :: rest =>
    if own = some first.text then some (second :: rest) else none
  | _ => none

theorem filepathBase_free (path : Text) : '/' ∉ filepathBase path ∨ filepathBase path = ['/'] := by
  unfold filepathBase
  split_ifs with empty
  · left
    decide
  · dsimp only
    split_ifs with slashes
    · exact .inr rfl
    · left
      intro member
      simpa using List.mem_rtakeWhile_imp member

theorem strippedBase_begins_iff (free : '/' ∉ own ∨ own = ['/']) (first : Name) (rest : Text) :
    own ++ ['/'] <+: first.text ++ '/' :: rest ↔ own = first.text := by
  rcases free with free | rfl
  · rw [word_begins_iff free first.noSlash]
    simp
  · obtain ⟨symbol, symbols, spelled, different⟩ := first.exists_text_eq_cons
    rw [spelled]
    simp [List.cons_prefix_cons, different]

theorem archiveName_pathText (baseDirectory : Text) (nonempty : path ≠ []) :
    archiveName (strippedBase baseDirectory) (pathText path) =
    pathText ((innerPath (ownName baseDirectory) path).getD path) := by
  by_cases empty : baseDirectory = []
  · have kept : innerPath (ownName baseDirectory) path = none := by
      rw [ownName, if_pos empty]
      unfold innerPath
      split <;> simp
    rw [kept, archiveName, strippedBase, if_pos empty, if_pos rfl]
    rfl
  · have free := filepathBase_free baseDirectory
    rw [archiveName, strippedBase, if_neg empty, if_neg (by simp), ownName,
      if_neg empty, trimPrefix]
    rcases path with _ | ⟨first, _ | ⟨second, rest⟩⟩
    · exact absurd rfl nonempty
    · have whole : ¬hasPrefix (pathText [first]) (filepathBase baseDirectory ++ ['/']) = true := by
        rw [hasPrefix_iff]
        intro begins
        have slash : '/' ∈ pathText [first] := begins.subset (by simp)
        exact first.noSlash (by simpa [pathText, separated] using slash)
      rw [if_neg whole]
      rfl
    · have spelled : pathText (first :: second :: rest) =
            first.text ++ '/' :: pathText (second :: rest) :=
        separated_cons_cons _ _ _
      have begins := strippedBase_begins_iff free first (pathText (second :: rest))
      rw [← spelled, ← hasPrefix_iff] at begins
      rw [innerPath]
      by_cases own : filepathBase baseDirectory = first.text
      · rw [if_pos (begins.mpr own), if_pos (congrArg some own), spelled, own]
        simp
      · rw [if_neg (mt begins.mp own), if_neg (mt Option.some.inj own)]
        rfl

theorem innerPath_ne_nil {inner : Path} (found : innerPath own path = some inner) : inner ≠ [] := by
  unfold innerPath at found
  split at found
  · split_ifs at found
    cases found
    simp
  · cases found

theorem innerPath_ne_self {inner : Path} (found : innerPath own path = some inner) :
    inner ≠ path := by
  unfold innerPath at found
  split at found
  · split_ifs at found
    cases found
    intro same
    exact absurd (congrArg List.length same) (by simp)
  · cases found

theorem hasPrefix_pathText_root (nonempty : path ≠ []) (root : Text) :
    hasPrefix (pathText path) ('/' :: root) = false := by
  obtain ⟨first, rest, rfl⟩ := List.exists_cons_of_ne_nil nonempty
  obtain ⟨symbol, symbols, spelled, different⟩ := first.exists_text_eq_cons
  rw [← Bool.not_eq_true, hasPrefix_iff]
  simp [pathText, separated, spelled, List.cons_prefix_cons, different]

open FallibleCall BufferedEncoder RecordArchive LabelledForest

/-- A file that does not change, with the reads that return its content. -/
structure StaticFile where
  kind : Kind
  size : Nat
  target : Text
  reads : List (List UInt8)
  notDirectory : kind ≠ .directory
  whole : (delivered (bufferLength size) reads size).length = size

namespace StaticFile

def observe (file : StaticFile) : Observation where
  cancelled := false
  overBudget := false
  info := .ok ⟨file.kind, file.size⟩
  readlink := .ok file.target
  opened := .ok ⟨file.reads, none⟩

def header (file : StaticFile) (name : Text) : Header where
  name := name
  kind := file.kind
  linkname := if file.kind = .symlink then file.target else []
  size := if file.kind = .regular then file.size else 0

def entry (headers : HeaderFormat) (file : StaticFile) (name : Text) : Attempt headers.tar :=
  entryOf headers file.observe (file.header name)

theorem archiveHeader_observe (file : StaticFile) (name relative : Text) :
    archiveHeader name relative file.observe =
      .ok (if file.kind = .socket then none else some (file.header relative)) := by
  cases kind : file.kind <;>
    simp_all [archiveHeader, observe, fileInfoHeader, header]

theorem contentFails_observe (file : StaticFile) (header : Header) :
    contentFails file.observe header = false := by
  simp [contentFails, observe]

theorem surveyFile_observe (file : StaticFile) (name relative : Text) :
    surveyFile headers name relative file.observe =
      ⟨if file.kind = .socket then [] else [file.entry headers relative], false⟩ := by
  rw [surveyFile, archiveHeader_observe]
  by_cases socket : file.kind = .socket
  · simp [socket]
  · simp [socket, contentFails_observe, entry]

theorem entry_complete (file : StaticFile) (name : Text) : (file.entry headers name).Complete := by
  have fits := (file.entry headers name).fits
  by_cases regular : file.kind = .regular
  · have sized : (file.header name).size = file.size := by simp [header, regular]
    have whole := file.whole
    rw [← sized] at whole
    exact whole
  · have empty : (file.header name).size = 0 := by simp [header, regular]
    have none : headers.tar.size (file.entry headers name).header = 0 := empty
    rw [Attempt.Complete, none]
    omega

end StaticFile

abbrev Tree := Listing StaticFile Unit

def quiet : Folder := ⟨false, none⟩

def observed : Tree → Listing Observation Folder
  | .nil => .nil
  | .leaf name file rest => .leaf name file.observe (observed rest)
  | .branch name _ children rest =>
    .branch name quiet (observed children) (observed rest)

def visitAt (path : Path) (file : StaticFile) : Visit Observation where
  name := path.getLast?.elim [] Name.text
  relative := pathText path
  finding := .entry (.file file.observe)

theorem visitAt_concat (way : Path) (name : Name) (file : StaticFile) :
    visitAt (way ++ [name]) file = ⟨name.text, joinName (pathText way) name.text,
    .entry (.file file.observe)⟩ := by
  simp [visitAt, joinName_pathText]

theorem directoryVisits_quiet (name relative : Text) (visits : List (Visit Observation)) :
    directoryVisits name relative quiet visits =
      ⟨name, relative, .entry (.directory quiet)⟩ :: visits := rfl

theorem flatMap_entryVisits (entries : Visit Observation → List Entry)
    (onlyFiles : ∀ name relative, entries ⟨name, relative, .entry (.directory quiet)⟩ = [])
    (tree : Tree) (way : Path) : (entryVisits (pathText way) (observed tree)).flatMap entries =
    tree.leaves.flatMap fun item => entries (visitAt (way ++ item.1) item.2) := by
  induction tree generalizing way with
  | nil => rfl
  | leaf name file rest restIh =>
    rw [observed, entryVisits, Forest.leaves, List.flatMap_cons,
      List.flatMap_cons, restIh, visitAt_concat]
  | branch name _ children rest childIh restIh =>
    rw [observed, entryVisits, Forest.leaves, directoryVisits_quiet,
      joinName_pathText, List.flatMap_append, List.flatMap_cons, onlyFiles,
      List.nil_append, childIh, restIh, List.flatMap_append, List.flatMap_map]
    simp

theorem mem_entryVisits (member : visit ∈ entryVisits (pathText way) (observed tree)) :
    visit.finding = .entry (.directory quiet) ∨
    ∃ item ∈ tree.leaves, visit = visitAt (way ++ item.1) item.2 := by
  induction tree generalizing way with
  | nil => simp [observed, entryVisits] at member
  | leaf name file rest restIh =>
    rw [observed, entryVisits, ← visitAt_concat] at member
    rcases List.mem_cons.mp member with rfl | later
    · exact .inr ⟨([name], file), by simp [Forest.leaves], rfl⟩
    · rcases restIh later with folder | ⟨item, leaf, equal⟩
      · exact .inl folder
      · exact .inr ⟨item, by simp [Forest.leaves, leaf], equal⟩
  | branch name _ children rest childIh restIh =>
    rw [observed, entryVisits, directoryVisits_quiet, joinName_pathText, List.cons_append] at member
    rcases List.mem_cons.mp member with rfl | inner
    · exact .inl rfl
    rcases List.mem_append.mp inner with inside | later
    · rcases childIh inside with folder | ⟨item, leaf, equal⟩
      · exact .inl folder
      · refine .inr ⟨(name :: item.1, item.2), ?_, by simpa using equal⟩
        rw [Forest.leaves, List.mem_append]
        exact .inl (List.mem_map_of_mem leaf)
    · rcases restIh later with folder | ⟨item, leaf, equal⟩
      · exact .inl folder
      · refine .inr ⟨item, ?_, equal⟩
        rw [Forest.leaves, List.mem_append]
        exact .inr leaf

def sourcesOf (headers : HeaderFormat) (base : Text) (opts : List WalkOption)
    (visits : List (Visit Observation)) : List (Text × Attempt headers.tar) :=
  visits.flatMap fun visit =>
    (surveyVisit headers base opts visit).attempts.map fun entry =>
      (visit.relative, entry)

theorem map_snd_sourcesOf (base : Text) (opts : List WalkOption)
    (visits : List (Visit Observation)) : (sourcesOf headers base opts visits).map Prod.snd =
    surveyed headers base opts visits := by
  simp [sourcesOf, surveyed, List.map_flatMap, Function.comp_def]

/-- The entries that `Stream` tries to write, each with the path of its file. -/
def Archive.sources (headers : HeaderFormat)
    (archive : Archive) : List (Text × Attempt headers.tar) :=
  match archive.prepare with
  | .error _ => []
  | .ok prepared =>
    match prepared.fs.safePath prepared.baseDirectory with
    | .error _ => []
    | .ok (name, base) =>
      sourcesOf headers (strippedBase prepared.baseDirectory) prepared.opts (baseVisits name base)

def Archive.written (headers : HeaderFormat) (archive : Archive) : List (Text × Text) :=
  (archive.sources headers).map fun source => (source.1, source.2.header.name)

structure Directory where
  entries : Tree
  distinct : entries.Distinct

def Directory.files (directory : Directory) : List (Path × StaticFile) := directory.entries.leaves

abbrev RelativePath := { path : Path // path ≠ [] }

namespace StaticFile

def IsEntry (file : StaticFile) : Prop := file.kind = .regular ∨ file.kind = .symlink

def IsSpecial (file : StaticFile) : Prop :=
  file.kind = .namedPipe ∨ file.kind = .device ∨ file.kind = .charDevice

instance (file : StaticFile) : Decidable file.IsEntry := inferInstanceAs (Decidable (_ ∨ _))

theorem isSpecial_iff (file : StaticFile) :
    file.IsSpecial ↔ ¬file.IsEntry ∧ file.kind ≠ .socket := by
  have notDirectory := file.notDirectory
  unfold IsSpecial IsEntry
  cases kind : file.kind <;> simp_all

theorem IsEntry.ne_socket {file : StaticFile} (entry : file.IsEntry) : file.kind ≠ .socket := by
  rcases entry with kind | kind <;> simp [kind]

end StaticFile

/-- A request to archive files of a directory: the root of the server below which it lies, the
directory with its path and last name, and the list of files. -/
structure Request where
  root : Text
  compileIgnore : Text → Except String (Text → Bool)
  name : Text
  directory : Directory
  baseDirectory : Text
  wanted : List RelativePath

namespace Request

section

variable (request : Request)

def filesystem : Filesystem where
  path := '/' :: request.root
  compileIgnore := request.compileIgnore
  safePath _ := .ok (request.name, .directory quiet (observed request.directory.entries))

def files : List Text := request.wanted.map fun file => pathText file.1

def archive : Archive where
  filesystem := some request.filesystem
  ignore := []
  baseDirectory := request.baseDirectory
  files := request.files

def trimmedBase : Text := trimPrefix request.baseDirectory ['/']

def innerPath : Path → Option Path := Archives.innerPath (ownName request.trimmedBase)

def storedPath (path : Path) : Path := (request.innerPath path).getD path

/-- A path equals an element of the list of files or lies below one. -/
def Selects (path : Path) : Prop := Selected (request.wanted.map Subtype.val) path

def Accepts (path : Path) : Prop := request.wanted = [] ∨ request.Selects path

end

instance (request : Request) (path : Path) : Decidable (request.Selects path) :=
  inferInstanceAs (Decidable (∃ file ∈ _, file <+: path))

instance (request : Request) (path : Path) : Decidable (request.Accepts path) :=
  inferInstanceAs (Decidable (_ ∨ _))

variable (request : Request)

theorem storedPath_ne_nil (nonempty : path ≠ []) : request.storedPath path ≠ [] := by
  unfold storedPath
  cases found : request.innerPath path with
  | none => exact nonempty
  | some inner => exact innerPath_ne_nil found

def opts : List WalkOption := if request.wanted = [] then [] else [withFiles request.files]

theorem any_matchesFile_iff (nonempty : path ≠ []) :
    request.files.any (matchesFile (pathText path)) = true ↔ request.Selects path := by
  rw [files, List.any_map, List.any_eq_true]
  constructor
  · rintro ⟨file, listed, found⟩
    exact ⟨file.1, List.mem_map_of_mem listed, (matchesFile_iff nonempty file.2).mp found⟩
  · rintro ⟨_, listed, begins⟩
    obtain ⟨file, member, rfl⟩ := List.mem_map.mp listed
    exact ⟨file, member, (matchesFile_iff nonempty file.2).mpr begins⟩

theorem optionError_opts (nonempty : path ≠ []) (seen : Observation) :
    optionError request.opts (pathText path) seen =
      if request.Accepts path then none else some .skipThis := by
  unfold opts
  by_cases empty : request.wanted = []
  · rw [if_pos empty, if_pos (.inl empty)]
    rfl
  · have selects : request.Accepts path ↔ request.Selects path := or_iff_right empty
    rw [if_neg empty]
    simp only [optionError, List.findSome?_singleton, withFiles,
      any_matchesFile_iff request nonempty, selects]

theorem relativeFiles_files :
    relativeFiles request.filesystem.path request.files = request.files := by
  simp only [relativeFiles, files, List.map_map, filesystem]
  apply List.map_congr_left
  intro file _
  simp [hasPrefix_pathText_root file.2]

theorem prepare_archive : request.archive.prepare =
    .ok ⟨request.filesystem, request.trimmedBase, request.opts⟩ := by
  simp only [Archive.prepare, archive, relativeFiles_files, walkOptions]
  cases wanted : request.wanted with
  | nil | cons first rest => simp [opts, files, wanted, trimmedBase]

theorem surveyVisit_visitAt (nonempty : path ≠ []) (file : StaticFile) :
    surveyVisit headers (strippedBase request.trimmedBase) request.opts (visitAt path file) =
      ⟨if file.kind ≠ .socket ∧ request.Accepts (request.storedPath path)
        then [file.entry headers (pathText (request.storedPath path))]
        else [], false⟩ := by
  have stored : archiveName (strippedBase request.trimmedBase) (pathText path) =
        pathText (request.storedPath path) := archiveName_pathText _ nonempty
  have running : (DirEntry.file file.observe).cancelled = false := by
    rw [DirEntry.cancelled, StaticFile.observe]
  have consulted := optionError_opts request (request.storedPath_ne_nil nonempty) file.observe
  simp only [surveyVisit, visitAt, running, Bool.false_eq_true, if_false, stored, consulted]
  by_cases accepted : request.Accepts (request.storedPath path)
  · by_cases socket : file.kind = .socket <;>
      simp [accepted, socket, StaticFile.surveyFile_observe]
  · simp [accepted]

def contribution (headers : HeaderFormat)
    (item : Path × StaticFile) : List (Text × Attempt headers.tar) :=
  if item.2.kind ≠ .socket ∧ request.Accepts (request.storedPath item.1) then
    [(pathText item.1, item.2.entry headers (pathText (request.storedPath item.1)))]
  else []

theorem sources_archive : request.archive.sources headers =
    request.directory.files.flatMap (request.contribution headers) := by
  have below := flatMap_entryVisits
    (fun visit : Visit Observation =>
      (surveyVisit headers (strippedBase request.trimmedBase) request.opts
        visit).attempts.map fun entry => (visit.relative, entry))
    (fun _ _ => rfl) request.directory.entries []
  rw [Archive.sources, prepare_archive]
  apply below.trans
  apply List.flatMap_congr
  intro item leaf
  rw [List.nil_append, surveyVisit_visitAt request (Forest.way_ne_nil leaf), contribution]
  split_ifs <;> rfl

theorem readable_archive : Readable headers (strippedBase request.trimmedBase) request.opts
    (baseVisits request.name (.directory quiet (observed request.directory.entries))) := by
  intro visit member
  rcases List.mem_cons.mp member with rfl | inner
  · rfl
  have entry : visit ∈ entryVisits (pathText []) (observed request.directory.entries) := inner
  rcases mem_entryVisits entry with folder | ⟨item, leaf, rfl⟩
  · simp [surveyVisit, folder, DirEntry.cancelled, quiet]
  · rw [List.nil_append, surveyVisit_visitAt request (Forest.way_ne_nil leaf)]

theorem plan_archive : request.archive.plan headers =
    some ((request.archive.sources headers).map Prod.snd) := by
  have readable : Readable headers _ _ _ := request.readable_archive
  rw [Archive.plan, Archive.sources, prepare_archive]
  simp only [Preparation.plan, filesystem, if_pos readable, map_snd_sourcesOf]

theorem complete_of_mem_sources (member : source ∈ request.archive.sources headers) :
    source.2.Complete := by
  rw [sources_archive] at member
  obtain ⟨item, _, found⟩ := List.mem_flatMap.mp member
  unfold contribution at found
  split_ifs at found
  · rw [List.mem_singleton.mp found]
    exact item.2.entry_complete _
  · simp at found

theorem stream_archive (gzip : Codec UInt8 UInt8) :
    (stream gzip headers request.archive none).1 = none ∧
    (stream gzip headers request.archive none).2.received = gzip.finished (archiveBytes
    ((request.archive.sources headers).map Prod.snd)) := by
  have settles : Settles (stream gzip headers request.archive none) _ _ :=
    stream_settles request.plan_archive
  have complete : ∀ attempt ∈ (request.archive.sources headers).map Prod.snd,
        attempt.Complete := by
    intro attempt member
    obtain ⟨source, written, rfl⟩ := List.mem_map.mp member
    exact request.complete_of_mem_sources written
  obtain ⟨inner, last⟩ := (complete_iff _).mp complete
  have unlimited : ∀ length, BufferedEncoder.Accepts none length := by
    intro length limit bounded
    simp at bounded
  have succeeded := settles.succeeds_iff.mpr ⟨inner, unlimited _⟩
  have closes := settles.established succeeded
  exact ⟨succeeded, closes.received_eq (closes.delivered_iff.mpr ⟨last, unlimited _⟩)⟩

def naming (item : Path × StaticFile) : List (Text × Text) :=
  if item.2.kind ≠ .socket ∧ request.Accepts (request.storedPath item.1) then
    [(pathText item.1, pathText (request.storedPath item.1))]
  else []

theorem written_archive : request.archive.written headers =
    request.directory.files.flatMap request.naming := by
  rw [Archive.written, sources_archive, List.map_flatMap]
  apply List.flatMap_congr
  intro item _
  unfold contribution naming
  split_ifs <;> rfl

def properNaming (item : Path × StaticFile) : List (Text × Text) :=
  if item.2.IsEntry ∧ request.Selects item.1 then
    [(pathText item.1, pathText item.1)]
  else []

/-- The entries are exactly the selected files, each once and under its path. -/
def NamedByPath (written : List (Text × Text)) : Prop := written =
      (request.directory.files.filter fun item =>
        item.2.IsEntry ∧ request.Selects item.1).map
          (fun item => (pathText item.1, pathText item.1)) ∧
    (written.map Prod.snd).Nodup

/-- No file below a subdirectory with the name of the base directory is selected, by its path or its
stored path, and no pipe or device by its stored path. -/
def PathsKept : Prop := ∀ item ∈ request.directory.files,
    (item.2.IsEntry → ∀ inner ∈ request.innerPath item.1,
      ¬request.Selects item.1 ∧ ¬request.Selects inner) ∧
    (item.2.IsSpecial → ¬request.Selects (request.storedPath item.1))

theorem pathTexts_nodup : (request.directory.files.map fun item => pathText item.1).Nodup := by
  have ways := Forest.leaves_nodup request.directory.distinct
  have nonempty : ∀ path ∈ request.directory.files.map Prod.fst, path ≠ [] := by
    intro path member
    obtain ⟨item, leaf, rfl⟩ := List.mem_map.mp member
    exact Forest.way_ne_nil leaf
  have texts := List.Nodup.map_on
    (fun first one second other same =>
      pathText_injective (nonempty first one) (nonempty second other) same) ways
  rwa [List.map_map] at texts

theorem flatMap_properNaming : request.directory.files.flatMap request.properNaming =
    (request.directory.files.filter fun item => item.2.IsEntry ∧ request.Selects item.1).map
    (fun item => (pathText item.1, pathText item.1)) := by
  induction request.directory.files with
  | nil => rfl
  | cons item items ih =>
    rw [List.flatMap_cons, ih, properNaming, List.filter_cons]
    split_ifs <;> simp_all

variable {request}

theorem storedPath_of_none (outside : request.innerPath path = none) :
    request.storedPath path = path := by
  simp [storedPath, outside]

theorem storedPath_of_some {inner : Path} (inside : request.innerPath path = some inner) :
    request.storedPath path = inner := by
  simp [storedPath, inside]

theorem pathText_storedPath_ne {inner : Path} (nonempty : path ≠ [])
    (inside : request.innerPath path = some inner) :
    pathText (request.storedPath path) ≠ pathText path := by
  rw [storedPath_of_some inside]
  intro same
  exact innerPath_ne_self inside (pathText_injective (innerPath_ne_nil inside) nonempty same)

theorem naming_of_outside (listed : request.wanted ≠ [])
    (outside : request.innerPath item.1 = none) : request.naming item = request.properNaming item ↔
    (item.2.IsSpecial → ¬request.Selects (request.storedPath item.1)) := by
  have accepts : request.Accepts item.1 ↔ request.Selects item.1 := or_iff_right listed
  rw [StaticFile.isSpecial_iff]
  simp only [naming, properNaming, storedPath_of_none outside, accepts]
  by_cases entry : item.2.IsEntry
  · simp [entry, entry.ne_socket]
  · by_cases socket : item.2.kind = .socket
    · simp [entry, socket]
    · by_cases selected : request.Selects item.1 <;>
        simp [entry, socket, selected]

theorem naming_of_inside {inner : Path} (listed : request.wanted ≠ []) (nonempty : item.1 ≠ [])
    (inside : request.innerPath item.1 = some inner) :
    request.naming item = request.properNaming item ↔
    (item.2.IsEntry → ¬request.Selects item.1 ∧ ¬request.Selects inner) ∧
    (item.2.IsSpecial → ¬request.Selects (request.storedPath item.1)) := by
  have different := pathText_storedPath_ne nonempty inside
  rw [storedPath_of_some inside] at different
  have accepts : request.Accepts inner ↔ request.Selects inner := or_iff_right listed
  rw [StaticFile.isSpecial_iff]
  simp only [naming, properNaming, storedPath_of_some inside, accepts]
  by_cases entry : item.2.IsEntry
  · by_cases here : request.Selects item.1 <;>
      by_cases there : request.Selects inner <;>
        simp [entry, entry.ne_socket, here, there, different]
  · by_cases socket : item.2.kind = .socket
    · simp [entry, socket]
    · by_cases there : request.Selects inner <;> simp [entry, socket, there]

theorem naming_eq_iff (listed : request.wanted ≠ []) (nonempty : item.1 ≠ []) :
    request.naming item = request.properNaming item ↔
    (item.2.IsEntry → ∀ inner ∈ request.innerPath item.1,
    ¬request.Selects item.1 ∧ ¬request.Selects inner) ∧
    (item.2.IsSpecial → ¬request.Selects (request.storedPath item.1)) := by
  cases inside : request.innerPath item.1 with
  | none =>
    rw [naming_of_outside listed inside]
    simp
  | some inner =>
    rw [naming_of_inside listed nonempty inside]
    simp

theorem namedByPath_iff (listed : request.wanted ≠ []) :
    request.NamedByPath (request.archive.written headers) ↔ request.PathsKept := by
  have keyed : Keyed (fun item => pathText item.1) request.naming := keyed_ite _ _ _
  have properKeyed : Keyed (fun item => pathText item.1) request.properNaming := keyed_ite _ _ _
  have pointwise := flatMap_eq_iff_of_nodup keyed properKeyed request.pathTexts_nodup
  have each : (∀ item ∈ request.directory.files,
      request.naming item = request.properNaming item) ↔ request.PathsKept :=
    forall₂_congr fun item leaf => naming_eq_iff listed (Forest.way_ne_nil leaf)
  rw [each, flatMap_properNaming] at pointwise
  rw [NamedByPath, written_archive, ← pointwise]
  constructor
  · exact And.left
  · intro equal
    refine ⟨equal, ?_⟩
    rw [equal, List.map_map]
    exact request.pathTexts_nodup.sublist (List.filter_sublist.map _)

theorem contains_paths_iff (unlisted : request.wanted = []) :
    (∀ item ∈ request.directory.files, item.2.IsEntry →
    (pathText item.1, pathText item.1) ∈ request.archive.written headers) ↔
    ∀ item ∈ request.directory.files, item.2.IsEntry → request.innerPath item.1 = none := by
  rw [written_archive]
  constructor
  · intro contains item leaf entry
    obtain ⟨other, otherLeaf, found⟩ := List.mem_flatMap.mp (contains item leaf entry)
    unfold naming at found
    split_ifs at found
    · obtain ⟨sources, names⟩ := Prod.mk.inj (List.mem_singleton.mp found)
      have nonempty := Forest.way_ne_nil leaf
      have same := pathText_injective nonempty (Forest.way_ne_nil otherLeaf) sources
      rw [← same] at names
      cases inside : request.innerPath item.1 with
      | none => rfl
      | some inner =>
        exact absurd names.symm (pathText_storedPath_ne nonempty inside)
    · simp at found
  · intro outside item leaf entry
    apply List.mem_flatMap.mpr
    refine ⟨item, leaf, ?_⟩
    rw [naming, storedPath_of_none (outside item leaf entry),
      if_pos ⟨entry.ne_socket, .inl unlisted⟩]
    exact List.mem_singleton_self _

/-- `Stream` of a tree that does not change delivers the selected files under their paths exactly
when no selected file loses its path and no pipe or device is selected. -/
theorem entries_named_by_path_iff (gzip : Codec UInt8 UInt8)
    (headers : HeaderFormat) (request : Request) :
    ((stream gzip headers request.archive none).1 = none ∧
      (stream gzip headers request.archive none).2.received = gzip.finished (archiveBytes
          ((request.archive.sources headers).map Prod.snd))) ∧
    (request.wanted ≠ [] →
      (request.NamedByPath (request.archive.written headers) ↔ request.PathsKept)) ∧
    (request.wanted = [] →
      ((∀ item ∈ request.directory.files, item.2.IsEntry →
        (pathText item.1, pathText item.1) ∈ request.archive.written headers) ↔
      ∀ item ∈ request.directory.files, item.2.IsEntry → request.innerPath item.1 = none)) :=
  ⟨request.stream_archive gzip, namedByPath_iff, contains_paths_iff⟩

def emptyFile (kind : Kind) (notDirectory : kind ≠ .directory) : StaticFile where
  kind := kind
  size := 0
  target := []
  reads := []
  notDirectory := notDirectory
  whole := rfl

def dataName : Name := ⟨"data".toList, by decide, by decide, by decide, by decide⟩

def fileName : Name := ⟨['x'], by decide, by decide, by decide, by decide⟩

/-- A directory that holds a file or pipe `x`, and one in its subdirectory
`data`. -/
def nestedDirectory (kind : Kind) (notDirectory : kind ≠ .directory) : Directory where
  entries := .branch dataName () (.leaf fileName (emptyFile .regular (by decide)) .nil)
      (.leaf fileName (emptyFile kind notDirectory) .nil)
  distinct := by
    simp [Forest.Distinct, Forest.labels, dataName, fileName]

def dataRequest (directory : Directory) (wanted : List RelativePath) : Request where
  root := "srv".toList
  compileIgnore _ := .ok fun _ => false
  name := "data".toList
  directory := directory
  baseDirectory := "/data".toList
  wanted := wanted

/-- Both `data/x` and `x` are stored as `x`; asked for `data/x`, nothing is stored. -/
theorem nested_directory_misnamed :
    ((dataRequest (nestedDirectory .regular (by decide)) []).archive.written unaryHeaders =
      [("data/x".toList, ['x']), (['x'], ['x'])]) ∧
    ((dataRequest (nestedDirectory .regular (by decide))
        [⟨[dataName, fileName], by decide⟩]).archive.written unaryHeaders = [] ∧
      ¬(dataRequest (nestedDirectory .regular (by decide))
        [⟨[dataName, fileName], by decide⟩]).NamedByPath []) ∧
    (dataRequest (nestedDirectory .namedPipe (by decide))
        [⟨[fileName], by decide⟩]).archive.written unaryHeaders =
      [("data/x".toList, ['x']), (['x'], ['x'])] := by
  refine ⟨by decide +kernel, ⟨by decide +kernel, ?_⟩, by decide +kernel⟩
  intro named
  exact absurd named.1 (by decide +kernel)

end Request

end Wings.Archives
