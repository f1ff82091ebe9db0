import Wings.Archives.Stream

/-!
# When a reported archive is complete

`visit_settles` says exactly when a visit succeeds: the source does not fail, the entries before are
complete, and the destination accepts what is emitted up to there. `Stream` drops the errors of its
deferred `Close` calls: bytes that the last entry lacks, and bytes rejected during the last flush.
-/

namespace Wings.Archives

open FallibleCall BufferedEncoder RecordArchive

variable {headers : HeaderFormat}

def delivered (buffer : Nat) : List (List UInt8) → Nat → List UInt8
  | [], _ => []
  | read :: reads, limit =>
    let data := read.take (min buffer limit)
    data ++ delivered buffer reads (limit - data.length)

theorem delivered_length_le (buffer : Nat) (reads : List (List UInt8))
    (limit : Nat) : (delivered buffer reads limit).length ≤ limit := by
  induction reads generalizing limit with
  | nil => exact Nat.zero_le _
  | cons read reads ih =>
    have rest := ih (limit - (read.take (min buffer limit)).length)
    simp only [delivered, List.length_append]
    have first : (read.take (min buffer limit)).length ≤ limit := by
      rw [List.length_take]
      omega
    omega

def content (seen : Observation) (header : Header) : List UInt8 :=
  match seen.opened with
  | .error _ => []
  | .ok file =>
    delivered (bufferLength header.size) file.reads header.size

/-- Opening or reading the file fails in a way that `addToArchive` reports. -/
def contentFails (seen : Observation) (header : Header) : Bool := 0 < header.size &&
    match seen.opened with
    | .error .notExist => false
    | .error _ => true
    | .ok file =>
      file.failure.isSome && (content seen header).length < header.size

theorem content_length_le (seen : Observation) (header : Header) :
    (content seen header).length ≤ header.size := by
  unfold content
  cases seen.opened with
  | error cause => exact Nat.zero_le _
  | ok file => exact delivered_length_le _ _ _

def entryOf (headers : HeaderFormat) (seen : Observation) (header : Header) : Attempt headers.tar :=
  ⟨header, content seen header, content_length_le seen header⟩

open TarWriter

variable {tw : TarWriter gzip}
theorem delivered_zero (buffer : Nat) (reads : List (List UInt8)) : delivered buffer reads 0 = [] :=
  List.length_eq_zero_iff.mp (Nat.le_zero.mp (delivered_length_le buffer reads 0))

theorem copyBuffer_settles (buffer : Nat) (failure : Option SysError)
    (reads : List (List UInt8)) (tracks : Tracks capacity (attempts ++ [last]) tw)
    (more : Extends last (delivered buffer reads last.missing) next) :
    Settles (copyBuffer buffer failure reads last.missing tw)
    (¬(failure.isSome ∧ 0 < next.missing) ∧
    Accepts capacity (gzip.emitted (openBytes (attempts ++ [next]))).length)
    (Tracks capacity (attempts ++ [next])) := by
  induction reads generalizing last tw with
  | nil =>
    have same := more.eq_of_nil
    subst same
    unfold copyBuffer
    split_ifs with full
    · exact .success ⟨by simp [full], tracks.healthy.accepts⟩ tracks
    · cases failure with
      | none => exact .success ⟨by simp, tracks.healthy.accepts⟩ tracks
      | some cause =>
        apply Settles.failure
        rintro ⟨holds, _⟩
        exact holds ⟨rfl, Nat.pos_of_ne_zero full⟩
  | cons read reads ih =>
    rw [copyBuffer]
    by_cases full : last.missing = 0
    · rw [full, delivered_zero] at more
      have same := more.eq_of_nil
      subst same
      rw [if_pos full]
      exact .success ⟨by simp [full], tracks.healthy.accepts⟩ tracks
    rw [if_neg full]
    rw [delivered] at more
    by_cases empty : read.take (min buffer last.missing) = []
    · rw [if_pos empty]
      apply ih tracks
      simpa only [empty, List.length_nil, Nat.sub_zero, List.nil_append] using more
    · rw [if_neg empty]
      obtain ⟨middle, first, second⟩ := more.split
      rw [← first.missing_eq] at second ⊢
      have both := (write_settles tracks empty first).proceed fun after holds => ih holds second
      apply both.congr
      constructor
      · exact And.right
      · intro holds
        refine ⟨gzip.accepts_emitted_of_begins ?_ holds.2, holds⟩
        exact ⟨_, second.openBytes_eq.symm⟩

theorem content_eq_nil (empty : header.size < 1) : content seen header = [] := by
  apply List.length_eq_zero_iff.mp
  have fits := content_length_le seen header
  omega

theorem entryOf_eq_begun (nothing : content seen header = []) :
    entryOf headers seen header = begun headers header := by
  simp [entryOf, begun, nothing]

theorem copyContent_settles (seen : Observation) (header : Header)
    (tracks : Tracks capacity (attempts ++ [begun headers header]) tw) :
    Settles (copyContent seen header tw) (contentFails seen header = false ∧
    Accepts capacity (gzip.emitted (openBytes (attempts ++ [entryOf headers seen header]))).length)
    (Tracks capacity (attempts ++ [entryOf headers seen header])) := by
  unfold copyContent
  by_cases empty : header.size < 1
  · rw [if_pos empty, entryOf_eq_begun (content_eq_nil empty)]
    refine .success ⟨?_, tracks.healthy.accepts⟩ tracks
    have zero : header.size = 0 := by omega
    simp [contentFails, zero]
  · rw [if_neg empty]
    have positive : 0 < header.size := by omega
    cases opened : seen.opened with
    | error cause =>
      have nothing : content seen header = [] := by simp [content, opened]
      rw [entryOf_eq_begun nothing]
      cases cause with
      | notExist =>
        refine .success ⟨?_, tracks.healthy.accepts⟩ tracks
        simp [contentFails, opened]
      | exist | other errno =>
        apply Settles.failure
        simp [contentFails, opened, positive]
    | ok file =>
      have more : Extends (begun headers header) (delivered (bufferLength header.size) file.reads
              (begun headers header).missing) (entryOf headers seen header) := by
        refine ⟨rfl, ?_⟩
        simp only [entryOf, content, opened]
        rfl
      have copied := copyBuffer_settles (bufferLength header.size)
        file.failure file.reads tracks more
      apply (copied.wrapped _).congr
      apply and_congr_left'
      have missing : (entryOf headers seen header).missing =
            header.size - (content seen header).length := rfl
      simp only [contentFails, opened, missing]
      simp [positive, Nat.sub_eq_zero_iff_le]

/-- The entries that a visit adds, at most one, and whether the source makes it
fail. -/
structure Addition (headers : HeaderFormat) where
  attempts : List (Attempt headers.tar)
  fails : Bool

def surveyFile (headers : HeaderFormat) (name relative : Text)
    (seen : Observation) : Addition headers :=
  match archiveHeader name relative seen with
  | .error _ => ⟨[], true⟩
  | .ok none => ⟨[], false⟩
  | .ok (some header) => ⟨[entryOf headers seen header], contentFails seen header⟩

def surveyVisit (headers : HeaderFormat) (base : Text) (opts : List WalkOption)
    (visit : Visit Observation) : Addition headers :=
  match visit.finding with
  | .failure _ _ => ⟨[], true⟩
  | .entry entry =>
    if entry.cancelled then ⟨[], true⟩
    else
      match entry with
      | .directory _ => ⟨[], false⟩
      | .file seen =>
        match optionError opts (archiveName base visit.relative) seen with
        | some .skipThis => ⟨[], false⟩
        | some (.message _) => ⟨[], true⟩
        | none =>
          surveyFile headers visit.name (archiveName base visit.relative) seen

/-- All entries but the last are complete, and the destination accepts what is emitted. -/
def Writable (gzip : Codec UInt8 UInt8) (capacity : Option Nat)
    (attempts : List (Attempt headers.tar)) : Prop := InnerComplete attempts ∧
    Accepts capacity (gzip.emitted (openBytes attempts)).length

theorem Writable.of_append (writable : Writable gzip capacity (attempts ++ more)) :
    Writable gzip capacity attempts :=
  ⟨writable.1.of_append, gzip.accepts_emitted_of_begins (openBytes_begins attempts more) writable.2⟩

theorem writable_of_tracks (tracks : Tracks capacity attempts tw) :
    Writable gzip capacity attempts := ⟨tracks.inner, tracks.healthy.accepts⟩

/-- A call succeeds exactly when its entries can be written, and has then written them. -/
abbrev Adds (capacity : Option Nat) (attempts : List (Attempt headers.tar))
    (addition : Addition headers) (outcome : Outcome Failure (TarWriter gzip)) : Prop :=
  Settles outcome (addition.fails = false ∧ Writable gzip capacity (attempts ++ addition.attempts))
    (Tracks capacity (attempts ++ addition.attempts))

theorem adds_nothing (tracks : Tracks capacity attempts tw) :
    Adds capacity attempts ⟨[], false⟩ (none, tw) := by
  unfold Adds
  rw [List.append_nil]
  exact .success ⟨rfl, writable_of_tracks tracks⟩ tracks

theorem adds_failure (err : Failure) (tw : TarWriter gzip) :
    Adds capacity attempts ⟨[], true⟩ (some err, tw) := .failure (by simp)

theorem addToArchive_settles (tracks : Tracks capacity attempts tw)
    (name relative : Text) (seen : Observation) :
    Adds capacity attempts (surveyFile headers name relative seen)
    (addToArchive headers name relative seen tw) := by
  unfold addToArchive surveyFile
  cases archiveHeader name relative seen with
  | error err => exact adds_failure err tw
  | ok chosen =>
    cases chosen with
    | none => exact adds_nothing tracks
    | some header =>
      have both := ((writeHeader_settles tracks header).wrapped
        (.wrapped "failed to write tar#FileInfoHeader for '%s'" name)).proceed
          fun after begins => copyContent_settles seen header begins
      apply both.congr
      simp only [Writable, innerComplete_concat]
      constructor
      · rintro ⟨⟨inner, _⟩, fails, accepts⟩
        exact ⟨fails, inner, accepts⟩
      · rintro ⟨fails, inner, accepts⟩
        refine ⟨⟨inner, ?_⟩, fails, accepts⟩
        apply gzip.accepts_emitted_of_begins ?_ accepts
        simp [begun, entryOf, Attempt.opened]

theorem streamVisit_settles (base : Text) (opts : List WalkOption)
    (tracks : Tracks capacity attempts tw) (visit : Visit Observation) :
    Adds capacity attempts (surveyVisit headers base opts visit)
    (streamVisit headers base opts visit tw) := by
  unfold streamVisit surveyVisit
  cases visit.finding with
  | failure entry cause => exact adds_failure _ tw
  | entry entry =>
    dsimp only
    split_ifs with cancelled
    · exact adds_failure _ tw
    · cases entry with
      | directory folder => exact adds_nothing tracks
      | file seen =>
        simp only [callback]
        cases optionError opts (archiveName base visit.relative) seen with
        | none => exact addToArchive_settles tracks _ _ seen
        | some reason =>
          cases reason with
          | skipThis => exact adds_nothing tracks
          | message text => exact adds_failure _ tw

def surveyed (headers : HeaderFormat) (base : Text) (opts : List WalkOption)
    (visits : List (Visit Observation)) : List (Attempt headers.tar) :=
  visits.flatMap fun visit => (surveyVisit headers base opts visit).attempts

def Readable (headers : HeaderFormat) (base : Text) (opts : List WalkOption)
    (visits : List (Visit Observation)) : Prop :=
  ∀ visit ∈ visits, (surveyVisit headers base opts visit).fails = false

theorem surveyed_append (done more : List (Visit Observation)) :
    surveyed headers base opts (done ++ more) =
    surveyed headers base opts done ++ surveyed headers base opts more := by
  simp [surveyed]

theorem readable_writable_of_append (done more : List (Visit Observation))
    (holds : Readable headers base opts (done ++ more) ∧
    Writable gzip capacity (surveyed headers base opts (done ++ more))) :
    Readable headers base opts done ∧ Writable gzip capacity (surveyed headers base opts done) := by
  obtain ⟨readable, writable⟩ := holds
  rw [surveyed_append] at writable
  refine ⟨?_, writable.of_append⟩
  intro visit member
  exact readable visit (List.mem_append_left more member)

theorem streamVisit_settles_concat (readable : Readable headers base opts done)
    (tracks : Tracks capacity (surveyed headers base opts done) tw) (visit : Visit Observation) :
    Settles (streamVisit headers base opts visit tw) (Readable headers base opts (done ++ [visit]) ∧
    Writable gzip capacity (surveyed headers base opts (done ++ [visit])))
    (fun after => Readable headers base opts (done ++ [visit]) ∧
    Tracks capacity (surveyed headers base opts (done ++ [visit])) after) := by
  have added := streamVisit_settles base opts tracks visit
  have entries : surveyed headers base opts (done ++ [visit]) = surveyed headers base opts done ++
          (surveyVisit headers base opts visit).attempts := by
    simp [surveyed]
  have reads :
      Readable headers base opts (done ++ [visit]) ↔
        (surveyVisit headers base opts visit).fails = false := by
    constructor
    · intro all
      exact all visit (by simp)
    · intro last earlier member
      rcases List.mem_append.mp member with before | here
      · exact readable earlier before
      · rwa [List.mem_singleton.mp here]
  rw [entries, reads]
  refine ⟨added.succeeds_iff, ?_⟩
  intro succeeded
  exact ⟨(added.succeeds_iff.mp succeeded).1, added.established succeeded⟩

theorem runAll_streamVisit_settles (base : Text) (opts : List WalkOption)
    (tracks : Tracks capacity ([] : List (Attempt headers.tar)) tw)
    (visits : List (Visit Observation)) : Settles (runAll (streamVisit headers base opts) visits tw)
    (Readable headers base opts visits ∧ Writable gzip capacity (surveyed headers base opts visits))
    (Tracks capacity (surveyed headers base opts visits)) := by
  have initially : Readable headers base opts [] ∧
        Tracks capacity (surveyed headers base opts []) tw := ⟨by simp [Readable], tracks⟩
  have iterated := runAll_settles (fun done => Readable headers base opts done ∧
        Writable gzip capacity (surveyed headers base opts done))
      (fun done after => Readable headers base opts done ∧
        Tracks capacity (surveyed headers base opts done) after)
      (fun done after holds => ⟨holds.1, writable_of_tracks holds.2⟩) readable_writable_of_append
      (fun done visit after holds =>
        streamVisit_settles_concat holds.1 holds.2 visit)
      initially visits
  exact iterated.imp fun _ => And.right

end Wings.Archives

namespace Wings.Archives

open FallibleCall BufferedEncoder RecordArchive TarWriter

variable {headers : HeaderFormat}
def Failure.IsPlain (err : Failure) : Prop := err ≠ .skipDir ∧ err ≠ .skipAll

theorem Failure.isPlain_wrapped (text : String) (name : Text) (cause : Failure) :
    (Failure.wrapped text name cause).IsPlain := by
  simp [IsPlain]

def PlainError {State : Type} (outcome : Outcome Failure State) : Prop :=
  ∀ err ∈ outcome.1, err.IsPlain

variable {State : Type}

theorem plainError_wrapError (text : String) (name : Text) (outcome : Outcome Failure State) :
    PlainError (wrapError (.wrapped text name) outcome) := by
  intro err member
  obtain ⟨cause, _, rfl⟩ := Option.map_eq_some_iff.mp member
  exact Failure.isPlain_wrapped text name cause

theorem plainError_proceed (first : PlainError outcome)
    (next : ∀ state, PlainError (rest state)) : PlainError (proceed rest outcome) := by
  rcases outcome with ⟨_ | err, state⟩
  · exact next state
  · exact first

theorem plainError_copyContent (seen : Observation) (header : Header)
    (tw : TarWriter gzip) : PlainError (copyContent seen header tw) := by
  unfold copyContent
  split_ifs
  · simp [PlainError]
  · split
    · simp [PlainError]
    · simp [PlainError, Failure.IsPlain]
    · exact plainError_wrapError _ _ _

theorem archiveHeader_isPlain (failed : archiveHeader name relative seen = .error err) :
    err.IsPlain := by
  unfold archiveHeader at failed
  split at failed
  · cases failed
  · cases failed
    exact Failure.isPlain_wrapped _ _ _
  · split_ifs at failed
    all_goals
      split at failed
      · cases failed
      · split at failed
        · cases failed
          exact Failure.isPlain_wrapped _ _ _
        · cases failed

theorem plainError_addToArchive (name relative : Text) (seen : Observation) (tw : TarWriter gzip) :
    PlainError (addToArchive headers name relative seen tw) := by
  unfold addToArchive
  cases chosen : archiveHeader name relative seen with
  | error err =>
    rintro other ⟨⟩
    exact archiveHeader_isPlain chosen
  | ok header =>
    cases header with
    | none => simp [PlainError]
    | some header =>
      exact plainError_proceed (plainError_wrapError _ _ _) (plainError_copyContent seen header)

theorem plainError_streamVisit (base : Text) (opts : List WalkOption)
    (visit : Visit Observation) (tw : TarWriter gzip) :
    PlainError (streamVisit headers base opts visit tw) := by
  unfold streamVisit
  cases visit.finding with
  | failure entry cause => simp [PlainError, Failure.IsPlain]
  | entry entry =>
    dsimp only
    split_ifs
    · simp [PlainError, Failure.IsPlain]
    · cases entry with
      | directory folder => simp [PlainError, callback]
      | file seen =>
        unfold callback
        dsimp only
        split
        · simp [PlainError]
        · simp [PlainError, Failure.IsPlain]
        · exact plainError_addToArchive _ _ seen tw

theorem streamVisit_neverSkips (base : Text) (opts : List WalkOption) :
    NeverSkips (streamVisit headers base opts : WalkDiratFunc Observation (TarWriter gzip)) := by
  intro visit tw
  have plain : PlainError (streamVisit headers base opts visit tw) :=
    plainError_streamVisit base opts visit tw
  exact ⟨fun skips => (plain _ skips).1 rfl, fun skips => (plain _ skips).2 rfl⟩

instance (headers : HeaderFormat) (base : Text) (opts : List WalkOption)
    (visits : List (Visit Observation)) : Decidable (Readable headers base opts visits) :=
  inferInstanceAs (Decidable (∀ visit ∈ visits, _ = false))

/-- The entries that the walk tries to write, or nothing when opening the tree fails. -/
def Preparation.plan (headers : HeaderFormat)
    (prepared : Preparation) : Option (List (Attempt headers.tar)) :=
  match prepared.fs.safePath prepared.baseDirectory with
  | .error _ => none
  | .ok (name, base) =>
    if Readable headers (strippedBase prepared.baseDirectory) prepared.opts
        (baseVisits name base) then
      some (surveyed headers (strippedBase prepared.baseDirectory)
        prepared.opts (baseVisits name base))
    else none

/-- The entries that `Stream` tries to write, or nothing when it fails before. -/
def Archive.plan (headers : HeaderFormat)
    (archive : Archive) : Option (List (Attempt headers.tar)) :=
  match archive.prepare with
  | .error _ => none
  | .ok prepared => prepared.plan headers

theorem streamWalk_settles (planned : prepared.plan headers = some attempts) :
    Settles (streamWalk headers prepared (.new gzip capacity))
    (Writable gzip capacity attempts) (Tracks capacity attempts) := by
  unfold Preparation.plan at planned
  unfold streamWalk
  rcases opened : prepared.fs.safePath prepared.baseDirectory with
    cause | ⟨name, base⟩
  · simp [opened] at planned
  · simp only [opened] at planned ⊢
    split_ifs at planned with readable
    cases planned
    rw [walkDirat_eq_runAll (streamVisit_neverSkips _ _)]
    exact (runAll_streamVisit_settles _ _ (tracks_new capacity) _).congr (and_iff_right readable)

theorem streamWalk_of_no_plan (unplanned : prepared.plan headers = none) :
    (streamWalk headers prepared (.new gzip capacity)).1 ≠ none := by
  unfold Preparation.plan at unplanned
  unfold streamWalk
  rcases opened : prepared.fs.safePath prepared.baseDirectory with
    cause | ⟨name, base⟩
  · simp
  · simp only [opened] at unplanned ⊢
    split_ifs at unplanned with readable
    rw [walkDirat_eq_runAll (streamVisit_neverSkips _ _)]
    intro succeeded
    exact readable ((runAll_streamVisit_settles _ _ (tracks_new capacity)
      _).succeeds_iff.mp succeeded).1

theorem stream_of_no_plan (unplanned : archive.plan headers = none) :
    (stream gzip headers archive capacity).1 ≠ none := by
  unfold Archive.plan at unplanned
  unfold stream
  cases prepares : archive.prepare with
  | error err => simp
  | ok prepared =>
    rw [prepares] at unplanned
    exact streamWalk_of_no_plan unplanned

theorem stream_settles (planned : archive.plan headers = some attempts) :
    Settles (stream gzip headers archive capacity)
    (Writable gzip capacity attempts) (Closes gzip capacity attempts) := by
  unfold Archive.plan at planned
  unfold stream
  cases prepares : archive.prepare with
  | error err => simp [prepares] at planned
  | ok prepared =>
    rw [prepares] at planned
    have walked : Settles _ (Writable gzip capacity attempts) _ := streamWalk_settles planned
    exact ⟨walked.succeeds_iff, fun succeeded => closeAll_closes (walked.established succeeded)⟩

/-- Either something goes wrong before the writers are closed, or nothing goes wrong at all. -/
def LossNoticed (gzip : Codec UInt8 UInt8) (headers : HeaderFormat)
    (archive : Archive) (capacity : Option Nat) : Prop := ∀ attempts ∈ archive.plan headers,
    ¬InnerComplete attempts ∨ ¬Accepts capacity (gzip.emitted (openBytes attempts)).length ∨
    (LastComplete attempts ∧ Accepts capacity (gzip.finished (archiveBytes attempts)).length)

theorem stream_delivers_iff (gzip : Codec UInt8 UInt8) (headers : HeaderFormat)
    (archive : Archive) (capacity : Option Nat) : ((stream gzip headers archive capacity).1 = none →
    Delivered gzip headers (stream gzip headers archive capacity).2) ↔
    LossNoticed gzip headers archive capacity := by
  unfold LossNoticed
  cases planned : archive.plan headers with
  | none =>
    have fails : (stream gzip headers archive capacity).1 ≠ none := stream_of_no_plan planned
    simp [fails]
  | some attempts =>
    have settles : Settles (stream gzip headers archive capacity) _ _ := stream_settles planned
    have closes : Writable gzip capacity attempts → Closes gzip capacity attempts
          (stream gzip headers archive capacity).2 :=
      fun writable => settles.established (settles.succeeds_iff.mpr writable)
    rw [settles.succeeds_iff]
    simp only [Option.mem_def, Option.some.injEq, forall_eq']
    constructor
    · intro delivers
      by_cases writable : Writable gzip capacity attempts
      · exact .inr (.inr ((closes writable).delivered_iff.mp (delivers writable)))
      · rcases not_and_or.mp writable with inner | accepts
        · exact .inl inner
        · exact .inr (.inl accepts)
    · rintro noticed writable
      rcases noticed with inner | accepts | complete
      · exact absurd writable.1 inner
      · exact absurd writable.2 accepts
      · exact (closes writable).delivered_iff.mpr complete

theorem stream_of_compressFiles (succeeded :
    compressFiles gzip headers calls stamp fs dir paths capacity = (.ok info, some file)) :
    stream gzip headers ⟨some fs, [], dir, paths⟩ capacity = (none, file) := by
  unfold compressFiles at succeeded
  split at succeeded
  · simp at succeeded
  · split at succeeded
    · simp at succeeded
    · next streamed =>
        split at succeeded <;> simp_all

def unary (number : Nat) : List UInt8 := List.replicate number 1 ++ [0]

def unaryText (text : Text) : List UInt8 :=
  unary text.length ++ text.flatMap fun char => unary char.toNat

def typeflag : Kind → Nat
  | .regular => 0
  | .symlink => 2
  | .charDevice => 3
  | .device => 4
  | .directory => 5
  | .namedPipe => 6
  | .socket => 7

theorem typeflag_injective (equal : typeflag first = typeflag second) : first = second := by
  cases first <;> cases second <;> first | rfl | cases equal

theorem unary_cancel (equal : unary first ++ rest = unary second ++ other) :
    first = second ∧ rest = other := by
  induction first generalizing second with
  | zero =>
    cases second with
    | zero => simpa [unary] using equal
    | succ second => simp [unary, List.replicate_succ] at equal
  | succ first ih =>
    cases second with
    | zero => simp [unary, List.replicate_succ] at equal
    | succ second =>
      simp only [unary, List.replicate_succ, List.cons_append, List.cons.injEq, true_and] at equal
      obtain ⟨numbers, rests⟩ := ih equal
      exact ⟨congrArg Nat.succ numbers, rests⟩

theorem unaryText_cancel (equal : unaryText first ++ rest = unaryText second ++ other) :
    first = second ∧ rest = other := by
  simp only [unaryText, List.append_assoc] at equal
  obtain ⟨lengths, characters⟩ := unary_cancel equal
  clear equal
  induction first generalizing second with
  | nil =>
    have empty := List.length_eq_zero_iff.mp lengths.symm
    subst empty
    exact ⟨rfl, by simpa using characters⟩
  | cons char chars ih =>
    cases second with
    | nil => simp at lengths
    | cons head tail =>
      simp only [List.flatMap_cons, List.append_assoc] at characters
      obtain ⟨codes, following⟩ := unary_cancel characters
      obtain ⟨texts, rests⟩ := ih (by simpa using lengths) following
      exact ⟨by rw [Char.toNat_inj.mp codes, texts], rests⟩

def unaryHeaders : HeaderFormat where
  encode header := 1 :: (unary (typeflag header.kind) ++ (unary header.size ++
      (unaryText header.name ++ unaryText header.linkname)))
  encode_cancel := by
    rintro ⟨name, kind, linkname, size⟩ ⟨name', kind', linkname', size'⟩ rest other equal
    simp only [List.cons_append, List.append_assoc, List.cons.injEq, true_and] at equal
    obtain ⟨kinds, sized⟩ := unary_cancel equal
    obtain ⟨sizes, named⟩ := unary_cancel sized
    obtain ⟨names, linked⟩ := unaryText_cancel named
    obtain ⟨links, rests⟩ := unaryText_cancel linked
    rw [typeflag_injective kinds, sizes, names, links]
    exact ⟨rfl, rests⟩
  encode_ne_trailer := by
    intro header rest
    rw [show 2 * blockSize = 1023 + 1 from rfl, zeroBytes, List.replicate_succ]
    intro equal
    injection equal with first
    exact absurd first (by decide)

/-- A coding that keeps everything back until it is closed. -/
def heldGzip : Codec UInt8 UInt8 where
  emitted _ := []
  finished input := 31 :: 139 :: input
  decode
    | 31 :: 139 :: input => some input
    | _ => none
  emitted_nil := rfl
  emitted_grows _ _ := List.prefix_rfl
  emitted_begins _ := List.nil_prefix
  decode_finished _ := rfl

def serverWith (children : Listing Observation Folder) : Filesystem where
  path := "/srv".toList
  compileIgnore _ := .ok fun _ => false
  safePath _ := .ok (['.'], .directory ⟨false, none⟩ children)

/-- A file of two bytes that has shrunk to one when it is read. -/
def shrunken : Observation where
  cancelled := false
  overBudget := false
  info := .ok ⟨.regular, 2⟩
  readlink := .error (.other 22)
  opened := .ok ⟨[[7]], none⟩

def shrunkenListing : Listing Observation Folder :=
  .leaf ⟨['a'], by decide, by decide, by decide, by decide⟩ shrunken .nil

theorem plan_shrunken : Archive.plan unaryHeaders ⟨some (serverWith shrunkenListing), [], [], []⟩ =
    some [entryOf unaryHeaders shrunken ⟨['a'], .regular, [], 2⟩] := by
  rfl

end Wings.Archives
