import Wings.FileHistory.Store
import Wings.Library.Transition

/-!
# Runs of the store

A recording leaves the revisions as they are, or appends one or two rows and then prunes. In every
run the ids of the revisions ascend, each revision decodes to what was recorded through rows of its
own chain, and a recording leaves its own revision in place.
-/

namespace Wings.FileHistory

open MachineInt (wrap)

variable {Hash : Type} [DecidableEq Hash]

inductive Appends (codec : Codec Hash) (anchorInterval : UInt64)
    (rows : List (RevisionRow Hash)) : RevisionRow Hash → Prop
  | snapshot {row : RevisionRow Hash} (fresh : row.id = Table.nextId RevisionRow.id rows)
      (isSnapshot : row.baseId = none) (ownChain : row.chainId = row.id)
      (decodes : codec.decodeHistorySnapshot row.payload = some row.recorded)
      (hashed : row.contentHash = codec.contentHash row.recorded) :
      Appends codec anchorInterval rows row
  | delta {base row : RevisionRow Hash} {content : Bytes}
      (fresh : row.id = Table.nextId RevisionRow.id rows) (present : base ∈ rows)
      (latest : ∀ other ∈ rows, other.fileId = base.fileId → other.id ≤ base.id)
      (short : base.baseId = none ∨
        (currentHistoryChainLength rows base.fileId base.chainId : Int) <
          wrap (maxUint64 anchorInterval 1).toNat) (known : content = base.recorded ∨
        reconstructHistoryRevision codec rows base.id = .ok content)
      (isDelta : row.baseId = some base.id) (sameFile : row.fileId = base.fileId)
      (sameChain : row.chainId = base.chainId)
      (decodes : codec.decodeHistoryDelta row.payload content = some row.recorded)
      (hashed : row.contentHash = codec.contentHash row.recorded) :
      Appends codec anchorInterval rows row

variable {rows : List (RevisionRow Hash)}

theorem Appends.fresh (appends : Appends codec anchorInterval rows row) :
    row.id = Table.nextId RevisionRow.id rows := by
  cases appends <;> assumption

structure Inserted (codec : Codec Hash) (anchorInterval : UInt64)
    (rows : List (RevisionRow Hash)) (fileId : Nat) (content : Bytes)
    (outcome : List (RevisionRow Hash) × Nat)
    (row : RevisionRow Hash) : Prop where
  rows_eq : outcome.1 = rows ++ [row]
  id_eq : outcome.2 = row.id
  appends : Appends codec anchorInterval rows row
  fileId_eq : row.fileId = fileId
  recorded_eq : row.recorded = content

/-- The row belongs to the file, has the creation time and stores its content
encoded. -/
structure Stamped (codec : Codec Hash) (fileId : Nat) (createdMs : Int)
    (row : RevisionRow Hash) : Prop where
  fileId_eq : row.fileId = fileId
  created_eq : row.created = createdMs
  encoded : ∃ level dict, codec.encodeAll level dict row.recorded = some row.payload

section Insertion

variable {content : Bytes}

theorem inserted_encodedSnapshot (anchorInterval : UInt64)
    (encoded : codec.encodeHistorySnapshot content level = some payload) :
    ∃ row, Inserted codec anchorInterval rows fileId content
    (insertEncodedHistorySnapshot codec rows fileId user content payload createdMs) row ∧
    Stamped codec fileId createdMs row ∧ row.baseId = none ∧ row.chainId = row.id :=
  ⟨_, ⟨rfl, rfl, .snapshot rfl rfl rfl (codec.decodeAll_encodeAll _ _ _ _ encoded) rfl,
    rfl, rfl⟩, ⟨rfl, rfl, level, none, encoded⟩, rfl, rfl⟩

theorem inserted_snapshot (anchorInterval : UInt64)
    (inserted : insertHistorySnapshot codec rows fileId user content createdMs
    level = some outcome) : ∃ row, Inserted codec anchorInterval rows fileId content outcome row ∧
    Stamped codec fileId createdMs row ∧ row.baseId = none ∧ row.chainId = row.id := by
  simp only [insertHistorySnapshot, Option.bind_eq_bind,
    Option.bind_eq_some_iff, Option.some.injEq] at inserted
  obtain ⟨payload, encoded, rfl⟩ := inserted
  exact inserted_encodedSnapshot anchorInterval encoded

theorem inserted_compact (present : base ∈ rows)
    (latest : ∀ other ∈ rows, other.fileId = base.fileId → other.id ≤ base.id)
    (short : base.baseId = none ∨ (currentHistoryChainLength rows base.fileId base.chainId : Int) <
    wrap (maxUint64 anchorInterval 1).toNat) (known : previous = base.recorded ∨
    reconstructHistoryRevision codec rows base.id = .ok previous)
    (inserted : insertCompactHistoryRevision codec rows base.fileId base.id
    base.chainId previous user content createdMs level = some outcome) :
    ∃ row, Inserted codec anchorInterval rows base.fileId content outcome row ∧
    Stamped codec base.fileId createdMs row := by
  simp only [insertCompactHistoryRevision, Option.bind_eq_bind, Option.bind_eq_some_iff] at inserted
  obtain ⟨snapshotPayload, encoded, inserted⟩ := inserted
  have asSnapshot : ∃ row, Inserted codec anchorInterval rows base.fileId
      content (insertEncodedHistorySnapshot codec rows base.fileId user content
        snapshotPayload createdMs) row ∧ Stamped codec base.fileId createdMs row := by
    obtain ⟨row, inserted, stamped, _⟩ := inserted_encodedSnapshot anchorInterval encoded
    exact ⟨row, inserted, stamped⟩
  cases delta : codec.encodeHistoryDelta previous content level with
  | none =>
    simp only [delta, Option.some.injEq] at inserted
    exact inserted ▸ asSnapshot
  | some deltaPayload =>
    simp only [delta] at inserted
    split_ifs at inserted with large
    · cases inserted
      exact asSnapshot
    · cases inserted
      have written := Codec.encodeAll_of_encodeHistoryDelta delta
      exact ⟨_, ⟨rfl, rfl, .delta rfl present latest short known rfl rfl rfl
        (codec.decodeAll_encodeAll _ _ _ _ written) rfl, rfl, rfl⟩,
        rfl, rfl, level, some previous, written⟩

end Insertion

omit [DecidableEq Hash] in
theorem latestFileRevision_eq_some (found : latestFileRevision rows fileId = some latest) :
    latest ∈ rows ∧ latest.fileId = fileId ∧
    ∀ other ∈ rows, other.fileId = fileId → other.id ≤ latest.id := by
  have member : latest ∈ fileRevisions rows fileId := List.argmax_mem found
  simp only [fileRevisions, List.mem_filter, decide_eq_true_iff] at member
  refine ⟨member.1, member.2, ?_⟩
  intro other present sameFile
  refine List.le_of_mem_argmax ?_ found
  simp [fileRevisions, present, sameFile]

/-- The rows of the store, or those with the previous content of the file appended. -/
inductive Prepared (codec : Codec Hash) (anchorInterval : UInt64)
    (rows : List (RevisionRow Hash)) : List (RevisionRow Hash) → Prop
  | unchanged : Prepared codec anchorInterval rows rows
  | previous {row : RevisionRow Hash} :
      Appends codec anchorInterval rows row → Prepared codec anchorInterval rows (rows ++ [row])

/-- The rows are those of the store, or one more of a file that had none. -/
def Preceded (codec : Codec Hash) (call : RecordCall)
    (rows : List (RevisionRow Hash)) (fileId : Nat) (prepared : List (RevisionRow Hash)) : Prop :=
  prepared = rows ∨ latestFileRevision rows fileId = none ∧ ∃ base, prepared = rows ++ [base] ∧
      Stamped codec fileId (call.nowMs - 1) base

section Record

variable {codec : Codec Hash}

theorem insertFirstRevision_cases
    (inserted : insertFirstRevision codec call rows fileId = some outcome)
    (missing : latestFileRevision rows fileId = none) : ∃ prepared row,
    Prepared codec call.cfg.anchorInterval rows prepared ∧
    Inserted codec call.cfg.anchorInterval prepared fileId call.after outcome row ∧
    Stamped codec fileId call.nowMs row ∧ Preceded codec call rows fileId prepared := by
  simp only [insertFirstRevision] at inserted
  split_ifs at inserted with nonempty
  · simp only [Option.bind_eq_bind, Option.bind_eq_some_iff] at inserted
    obtain ⟨⟨middle, baseId⟩, first, inserted⟩ := inserted
    obtain ⟨base, ⟨rowsEqual, idEqual, appends, rfl, recorded⟩, baseStamped, isSnapshot,
      ownChain⟩ := inserted_snapshot call.cfg.anchorInterval first
    subst rowsEqual idEqual
    have latest : ∀ other ∈ rows ++ [base], other.fileId = base.fileId → other.id ≤ base.id := by
      intro other member _
      rcases List.mem_append.1 member with old | new
      · rw [appends.fresh]
        exact (Table.key_lt_nextId RevisionRow.id old).le
      · rw [List.mem_singleton.1 new]
    have compact : insertCompactHistoryRevision codec (rows ++ [base])
        base.fileId base.id base.chainId call.before call.user call.after
        call.nowMs call.cfg.zstdLevel = some outcome := by
      rw [ownChain]
      exact inserted
    obtain ⟨row, inserted, stamped⟩ := inserted_compact (by simp) latest
      (.inl isSnapshot) (.inl recorded.symm) compact
    exact ⟨_, row, .previous appends, inserted, stamped, .inr ⟨missing, base, rfl, baseStamped⟩⟩
  · obtain ⟨row, inserted, stamped, _⟩ := inserted_snapshot call.cfg.anchorInterval inserted
    exact ⟨rows, row, .unchanged, inserted, stamped, .inl rfl⟩

theorem insertNextRevision_cases (found : latestFileRevision rows fileId = some latest)
    (inserted : insertNextRevision codec call rows fileId latest = some outcome) :
    ∃ row, Inserted codec call.cfg.anchorInterval rows fileId call.after outcome row ∧
    Stamped codec fileId call.nowMs row := by
  obtain ⟨present, rfl, newest⟩ := latestFileRevision_eq_some found
  simp only [insertNextRevision] at inserted
  split_ifs at inserted with long
  · obtain ⟨row, inserted, stamped, _⟩ := inserted_snapshot call.cfg.anchorInterval inserted
    exact ⟨row, inserted, stamped⟩
  · cases read : reconstructHistoryRevision codec rows latest.id with
    | error =>
      simp only [read] at inserted
      obtain ⟨row, inserted, stamped, _⟩ := inserted_snapshot call.cfg.anchorInterval inserted
      exact ⟨row, inserted, stamped⟩
    | ok previous =>
      simp only [read] at inserted
      exact inserted_compact present newest (.inr (by omega)) (.inr read) inserted

inductive Recorded (codec : Codec Hash) (call : RecordCall) (rows : List (RevisionRow Hash)) :
    List (RevisionRow Hash) → Nat → Prop
  | skipped : Recorded codec call rows rows 0
  | repeated {latest : RevisionRow Hash} (present : latest ∈ rows)
      (sameHash : latest.contentHash = codec.contentHash call.after) :
      Recorded codec call rows rows latest.id
  | inserted {prepared : List (RevisionRow Hash)} {row : RevisionRow Hash}
      (preparation : Prepared codec call.cfg.anchorInterval rows prepared)
      (appends : Appends codec call.cfg.anchorInterval prepared row)
      (recorded : row.recorded = call.after) : Recorded codec call rows
        (pruneAfterInsert call.cfg (prepared ++ [row]) row.fileId) row.id

inductive Committed (codec : Codec Hash) (call : RecordCall)
    (store : Store Hash) : Store Hash → Nat → Prop
  | skipped (same : call.before = call.after) : Committed codec call store store 0
  | repeated {latest : RevisionRow Hash} (changed : call.before ≠ call.after)
      (found : latestFileRevision store.revisions
        (upsertHistoryFile store.files call.path).2 = some latest)
      (sameHash : latest.contentHash = codec.contentHash call.after) : Committed codec call store
        ⟨(upsertHistoryFile store.files call.path).1, store.revisions⟩ latest.id
  | inserted {prepared : List (RevisionRow Hash)} {row : RevisionRow Hash}
      (changed : call.before ≠ call.after)
      (preparation : Prepared codec call.cfg.anchorInterval store.revisions prepared)
      (appends : Appends codec call.cfg.anchorInterval prepared row)
      (recorded : row.recorded = call.after)
      (stamped : Stamped codec (upsertHistoryFile store.files call.path).2 call.nowMs row)
      (preceded : Preceded codec call store.revisions
        (upsertHistoryFile store.files call.path).2 prepared) : Committed codec call store
        ⟨(upsertHistoryFile store.files call.path).1,
          pruneAfterInsert call.cfg (prepared ++ [row]) row.fileId⟩ row.id

variable {id : Nat}

theorem committed_of_record (committed : record codec call store = some (after, id)) :
    Committed codec call store after id := by
  simp only [record] at committed
  split_ifs at committed with unchanged
  · cases committed
    exact .skipped unchanged
  · cases found : latestFileRevision store.revisions
        (upsertHistoryFile store.files call.path).2 with
    | none =>
      simp only [found, Option.bind_eq_bind, Option.bind_eq_some_iff,
        Option.some.injEq, Prod.mk.injEq] at committed
      obtain ⟨⟨rows, id⟩, inserted, rfl, rfl⟩ := committed
      obtain ⟨prepared, row, preparation, ⟨rowsEqual, idEqual, appends, sameFile, recorded⟩,
        stamped, preceded⟩ := insertFirstRevision_cases inserted found
      subst rowsEqual idEqual
      rw [← sameFile]
      exact .inserted unchanged preparation appends recorded stamped preceded
    | some latest =>
      simp only [found] at committed
      split_ifs at committed with sameHash
      · cases committed
        exact .repeated unchanged found sameHash
      · simp only [Option.bind_eq_bind, Option.bind_eq_some_iff,
          Option.some.injEq, Prod.mk.injEq] at committed
        obtain ⟨⟨rows, id⟩, inserted, rfl, rfl⟩ := committed
        obtain ⟨row, ⟨rowsEqual, idEqual, appends, sameFile, recorded⟩, stamped⟩ :=
          insertNextRevision_cases found inserted
        subst rowsEqual idEqual
        rw [← sameFile]
        exact .inserted unchanged .unchanged appends recorded stamped (.inl rfl)

theorem record_cases (committed : record codec call store = some (after, id)) :
    Recorded codec call store.revisions after.revisions id := by
  cases committed_of_record committed with
  | skipped => exact .skipped
  | repeated _ found sameHash =>
    exact .repeated (latestFileRevision_eq_some found).1 sameHash
  | inserted _ preparation appends recorded =>
    exact .inserted preparation appends recorded

end Record

end Wings.FileHistory

namespace Wings.FileHistory

open MachineInt (wrap)
open Transition

inductive Operation where
  | record (call : RecordCall)
  | deleteFile (path : String)
  | renameFile (oldPath newPath : String)
  | failed

variable {Hash : Type} [DecidableEq Hash]

def Store.step (codec : Codec Hash) (store : Store Hash) : Operation → Option (Store Hash)
  | .record call => (FileHistory.record codec call store).map Prod.fst
  | .deleteFile path => some (FileHistory.deleteFile store path)
  | .renameFile oldPath newPath => FileHistory.renameFile store oldPath newPath
  | .failed => some store

def Store.Steps (codec : Codec Hash) (store : Store Hash)
    (operation : Operation) (after : Store Hash) : Prop := store.step codec operation = some after

def Store.Initial (store : Store Hash) : Prop := store = ⟨[], []⟩

omit [DecidableEq Hash] in
theorem pruned_deleteFile (store : Store Hash) (path : String) :
    Pruned (fun fileId _ => ∀ file ∈ store.files, file.path = path → file.id ≠ fileId)
    store.revisions (deleteFile store path).revisions := by
  refine ⟨fun fileId _ => ¬ ∃ file ∈ store.files, file.path = path ∧ file.id = fileId, ?_, rfl⟩
  intro fileId _ otherFile
  rw [decide_eq_true_iff]
  rintro ⟨file, member, samePath, sameId⟩
  exact otherFile file member samePath sameId

omit [DecidableEq Hash] in
theorem renameFile_revisions (renamed : renameFile store oldPath newPath = some after) :
    after.revisions = store.revisions := by
  simp only [renameFile] at renamed
  split_ifs at renamed with taken
  exact (Option.some.inj renamed) ▸ rfl

omit [DecidableEq Hash] in
theorem currentHistoryChainLength_concat (rows : List (RevisionRow Hash))
    (row : RevisionRow Hash) (fileId chainId : Nat) :
    currentHistoryChainLength (rows ++ [row]) fileId chainId =
      currentHistoryChainLength rows fileId chainId +
        if row.fileId = fileId ∧ row.chainId = chainId then 1 else 0 := by
  simp only [currentHistoryChainLength, chainRevisions, List.filter_append,
    List.length_append, List.filter_singleton]
  split_ifs with same <;> simp [same]

omit [DecidableEq Hash] in
theorem currentHistoryChainLength_pruned (pruned : Pruned safe rows after) (remains : row ∈ after) :
    currentHistoryChainLength after row.fileId row.chainId =
    currentHistoryChainLength rows row.fileId row.chainId := by
  obtain ⟨keep, _, rfl⟩ := pruned
  have kept := (List.mem_filter.1 remains).2
  simp only [currentHistoryChainLength, chainRevisions, List.filter_filter]
  congr 1
  refine List.filter_congr fun other _ => ?_
  by_cases same : other.fileId = row.fileId ∧ other.chainId = row.chainId
  · simp [same, kept]
  · simp [same]

/-- Ids ascend, rows decode through their chains, and newer rows are on newer chains. -/
structure Chained (codec : Codec Hash) (rows : List (RevisionRow Hash)) : Prop where
  ascending : Table.Ascending RevisionRow.id rows
  positive : ∀ row ∈ rows, 0 < row.id
  stored : ∀ row ∈ rows, ∃ depth, Stored codec rows row depth ∧
    depth ≤ currentHistoryChainLength rows row.fileId row.chainId
  monotone : ∀ row ∈ rows, ∀ other ∈ rows, row.fileId = other.fileId →
    row.id ≤ other.id → row.chainId ≤ other.chainId

namespace Chained

variable {codec : Codec Hash}

omit [DecidableEq Hash] in
theorem nil (codec : Codec Hash) : Chained codec [] where
  ascending := List.Pairwise.nil
  positive := by simp
  stored := by simp
  monotone := by simp

theorem recorded_of_reconstruct (chained : Chained codec rows)
    (present : row ∈ rows) {content : Bytes}
    (read : reconstructHistoryRevision codec rows row.id = .ok content) :
    content = row.recorded := by
  obtain ⟨depth, stored, _⟩ := chained.stored row present
  rw [stored.reconstructHistoryRevision_eq chained.ascending] at read
  split_ifs at read with within
  exact (Except.ok.inj read).symm

theorem stored_of_appends (chained : Chained codec rows)
    (appends : Appends codec anchorInterval rows row) :
    ∃ depth, Stored codec (rows ++ [row]) row depth ∧
    depth ≤ currentHistoryChainLength (rows ++ [row]) row.fileId row.chainId ∧
    (depth ≤ 2 ∨ (depth : Int) ≤ wrap (maxUint64 anchorInterval 1).toNat) := by
  have grown : currentHistoryChainLength (rows ++ [row]) row.fileId row.chainId =
        currentHistoryChainLength rows row.fileId row.chainId + 1 := by
    simp [currentHistoryChainLength_concat]
  cases appends with
  | snapshot fresh isSnapshot ownChain decodes hashed =>
    exact ⟨1, .snapshot (by simp) isSnapshot ownChain decodes hashed, by omega, by omega⟩
  | @delta base _ content fresh present latest short known isDelta sameFile
      sameChain decodes hashed =>
      obtain ⟨depth, stored, bounded⟩ := chained.stored base present
      have contentEqual : content = base.recorded := by
        rcases known with equal | read
        · exact equal
        · exact chained.recorded_of_reconstruct present read
      have older : base.id < row.id := by
        rw [fresh]
        exact Table.key_lt_nextId RevisionRow.id present
      subst contentEqual
      refine ⟨depth + 1, .delta (stored.mono (List.subset_append_left _ _))
        (by simp) isDelta sameFile sameChain older decodes hashed, ?_, ?_⟩
      · rw [grown, sameFile, sameChain]
        omega
      · rcases short with isSnapshot | short
        · cases stored with
          | snapshot => exact .inl le_rfl
          | delta _ _ hasBase => simp [isSnapshot] at hasBase
        · generalize wrap (maxUint64 anchorInterval 1).toNat = bound at short ⊢
          exact .inr (by omega)

omit [DecidableEq Hash] in
theorem stored_concat (chained : Chained codec rows) (member : old ∈ rows) : ∃ depth, Stored codec
    (rows ++ [row]) old depth ∧
    depth ≤ currentHistoryChainLength (rows ++ [row]) old.fileId old.chainId := by
  obtain ⟨depth, stored, bounded⟩ := chained.stored old member
  refine ⟨depth, stored.mono (List.subset_append_left _ _), ?_⟩
  rw [currentHistoryChainLength_concat]
  omega

omit [DecidableEq Hash] in
theorem chainId_le (chained : Chained codec rows) (present : row ∈ rows) :
    row.chainId ≤ row.id := by
  obtain ⟨_, stored, _⟩ := chained.stored row present
  exact stored.chainId_le

theorem chainId_le_of_appends (chained : Chained codec rows)
    (appends : Appends codec anchorInterval rows row) (member : old ∈ rows)
    (sameFile : old.fileId = row.fileId) : old.chainId ≤ row.chainId := by
  cases appends with
  | snapshot fresh _ ownChain =>
    have below := chained.chainId_le member
    have lower := Table.key_lt_nextId RevisionRow.id member
    omega
  | @delta base _ _ _ present latest _ _ _ inFile sameChain =>
    rw [sameChain]
    exact chained.monotone old member base present (sameFile.trans inFile)
      (latest old member (sameFile.trans inFile))

theorem appends (chained : Chained codec rows) (appends : Appends codec anchorInterval rows row) :
    Chained codec (rows ++ [row]) where
  ascending := chained.ascending.concat appends.fresh
  positive := by
    rw [List.forall_mem_append, List.forall_mem_singleton, appends.fresh]
    exact ⟨chained.positive, Table.nextId_pos _ _⟩
  stored := by
    obtain ⟨depth, stored, bounded, _⟩ := chained.stored_of_appends appends
    rw [List.forall_mem_append, List.forall_mem_singleton]
    exact ⟨fun _ => chained.stored_concat, depth, stored, bounded⟩
  monotone := Table.monotone_concat chained.monotone appends.fresh
    fun _ => chained.chainId_le_of_appends appends

omit [DecidableEq Hash] in
theorem pruned (chained : Chained codec rows)
    (pruned : Pruned safe rows after) : Chained codec after where
  ascending := by
    obtain ⟨keep, _, rfl⟩ := pruned
    exact chained.ascending.sublist List.filter_sublist
  positive row remains := chained.positive row (pruned.subset remains)
  stored := by
    intro row remains
    obtain ⟨depth, stored, bounded⟩ := chained.stored row (pruned.subset remains)
    refine ⟨depth, stored.pruned pruned remains, ?_⟩
    rw [currentHistoryChainLength_pruned pruned remains]
    exact bounded
  monotone left leftRemains right rightRemains :=
    chained.monotone left (pruned.subset leftRemains) right (pruned.subset rightRemains)

theorem prepared (chained : Chained codec rows)
    (preparation : Prepared codec anchorInterval rows after) : Chained codec after := by
  cases preparation with
  | unchanged => exact chained
  | previous appends => exact chained.appends appends

end Chained

theorem latestHistoryChainID_concat {codec : Codec Hash}
    {anchorInterval : UInt64} {rows : List (RevisionRow Hash)}
    {row : RevisionRow Hash} (appends : Appends codec anchorInterval rows row) :
    latestHistoryChainID (rows ++ [row]) row.fileId = some row.chainId := by
  have newest : (fileRevisions rows row.fileId ++ [row]).argmax RevisionRow.id = some row := by
    refine Table.argmax_concat_of_fresh fun other member => ?_
    rw [appends.fresh]
    exact Table.key_lt_nextId _ (List.mem_of_mem_filter member)
  simp only [latestHistoryChainID, fileRevisions, List.filter_append] at newest ⊢
  simp [newest]

omit [DecidableEq Hash] in
theorem pruned_pruneAfterInsert_of_newest {rows : List (RevisionRow Hash)}
    (latest : latestHistoryChainID rows fileId = some chainId)
    (newest : ∀ row ∈ rows, row.fileId = fileId → row.chainId ≤ chainId)
    (cfg : FileHistoryConfiguration) : Pruned (fun file chain => file = fileId ∧ chain = chainId)
    rows (pruneAfterInsert cfg rows fileId) := by
  simp only [pruneAfterInsert, latest]
  refine (pruned_pruneHistory ?_ ?_ cfg).trans (pruned_pruneServerHistory ?_ cfg)
  · rintro _ ⟨-, rfl⟩
    rfl
  · rintro _ ⟨-, rfl⟩
    exact newest
  · rintro _ _ ⟨rfl, rfl⟩
    exact ⟨rfl, rfl⟩

theorem Chained.pruned_pruneAfterInsert {codec : Codec Hash}
    {anchorInterval : UInt64} {rows : List (RevisionRow Hash)}
    {row : RevisionRow Hash} (chained : Chained codec rows)
    (appends : Appends codec anchorInterval rows row) (cfg : FileHistoryConfiguration) :
    Pruned (fun fileId chainId => fileId = row.fileId ∧ chainId = row.chainId)
    (rows ++ [row]) (pruneAfterInsert cfg (rows ++ [row]) row.fileId) := by
  refine pruned_pruneAfterInsert_of_newest (latestHistoryChainID_concat appends) ?_ cfg
  rw [List.forall_mem_append, List.forall_mem_singleton]
  exact ⟨fun _ => chained.chainId_le_of_appends appends, fun _ => le_rfl⟩

section Runs

variable {codec : Codec Hash}

theorem Chained.recorded {call : RecordCall} {rows after : List (RevisionRow Hash)} {id : Nat}
    (chained : Chained codec rows)
    (recorded : Recorded codec call rows after id) : Chained codec after := by
  cases recorded with
  | skipped | repeated => exact chained
  | inserted preparation appends =>
    have prepared := chained.prepared preparation
    exact (prepared.appends appends).pruned (prepared.pruned_pruneAfterInsert appends call.cfg)

theorem Store.steps_cases (taken : store.Steps codec operation after) :
    (∃ call id, operation = .record call ∧ Recorded codec call store.revisions after.revisions id) ∨
    (∃ path, operation = .deleteFile path ∧
    after.revisions = (FileHistory.deleteFile store path).revisions) ∨
    after.revisions = store.revisions := by
  cases operation with
  | record call =>
    simp only [Steps, step, Option.map_eq_some_iff] at taken
    obtain ⟨⟨after, id⟩, committed, rfl⟩ := taken
    exact .inl ⟨call, id, rfl, record_cases committed⟩
  | deleteFile path =>
    cases taken
    exact .inr (.inl ⟨path, rfl, rfl⟩)
  | renameFile oldPath newPath =>
    exact .inr (.inr (renameFile_revisions taken))
  | failed =>
    cases taken
    exact .inr (.inr rfl)

theorem Chained.step {store after : Store Hash} {operation : Operation}
    (chained : Chained codec store.revisions) (taken : store.Steps codec operation after) :
    Chained codec after.revisions := by
  rcases Store.steps_cases taken with
    ⟨call, id, _, recorded⟩ | ⟨path, _, equal⟩ | equal
  · exact chained.recorded recorded
  · rw [equal]
    exact chained.pruned (pruned_deleteFile store path)
  · rw [equal]
    exact chained

theorem chained_of_reachable (reached : Reachable Store.Initial (Store.Steps codec) store) :
    Chained codec store.revisions := by
  have base : ∀ store : Store Hash, store.Initial → Chained codec store.revisions := by
    rintro _ rfl
    exact Chained.nil codec
  have preserved : ∀ (store : Store Hash) operation (after : Store Hash),
      Chained codec store.revisions → store.Steps codec operation after →
        Chained codec after.revisions := fun _ _ _ chained taken => chained.step taken
  exact reached.invariant base preserved

end Runs

end Wings.FileHistory
