import Mathlib.Data.List.Dedup
import Mathlib.Data.List.Sort
import Wings.Library.Loop
import Wings.Library.MachineInt
import Wings.Library.Table

/-!
# The file-history store

A revision is a snapshot, which starts a chain, or a delta against an earlier revision of its file.
A call commits its table or nothing. Compression and hashing are parameters with laws. Every pruning
function keeps the rows whose file and chain pass some test.
-/

namespace Wings.FileHistory

open MachineInt (wrap)

abbrev Bytes := List UInt8

/-- The compression and the hash of the store, with their assumed laws. -/
structure Codec (Hash : Type) where
  /-- The encoder at a level, with the content of a raw dictionary. -/
  encodeAll : Int → Option Bytes → Bytes → Option Bytes
  /-- The decoder, with the content of a raw dictionary. -/
  decodeAll : Option Bytes → Bytes → Option Bytes
  /-- The hash of a content. -/
  contentHash : Bytes → Hash
  /-- Decoding with the same dictionary inverts encoding. -/
  decodeAll_encodeAll : ∀ level dict content payload,
    encodeAll level dict content = some payload → decodeAll dict payload = some content
  /-- Different contents have different hashes. -/
  contentHash_injective : Function.Injective contentHash

namespace Codec

variable {Hash : Type} (codec : Codec Hash)

def encodeHistorySnapshot (content : Bytes) (level : Int) : Option Bytes :=
  codec.encodeAll level none content

def decodeHistorySnapshot (payload : Bytes) : Option Bytes := codec.decodeAll none payload

def decodeHistoryDelta (payload base : Bytes) : Option Bytes := codec.decodeAll (some base) payload

def encodeHistoryDelta (base content : Bytes) (level : Int) : Option Bytes := do
  let payload ← codec.encodeAll level (some base) content
  let decoded ← codec.decodeHistoryDelta payload base
  if decoded = content then some payload else none

variable {codec}

theorem encodeAll_of_encodeHistoryDelta
    (encoded : codec.encodeHistoryDelta base content level = some payload) :
    codec.encodeAll level (some base) content = some payload := by
  simp only [encodeHistoryDelta, Option.bind_eq_bind, Option.bind_eq_some_iff] at encoded
  obtain ⟨candidate, written, decoded, _, accepted⟩ := encoded
  split_ifs at accepted
  cases accepted
  exact written

end Codec

structure FileRow where
  id : Nat
  path : String
  deriving DecidableEq

/-- A row of the revisions table. `recorded`, the content when the row was inserted, is not stored.
-/
structure RevisionRow (Hash : Type) where
  id : Nat
  fileId : Nat
  chainId : Nat
  size : Nat
  userId : Option String
  baseId : Option Nat
  payload : Bytes
  contentHash : Hash
  created : Int
  recorded : Bytes
  deriving DecidableEq

structure Store (Hash : Type) where
  files : List FileRow
  revisions : List (RevisionRow Hash)
  deriving DecidableEq

structure FileHistoryConfiguration where
  zstdLevel : Int
  anchorInterval : UInt64
  keepChains : UInt64
  perFileDiskBudget : UInt64
  perServerDiskBudget : UInt64

def maxUint64 (value fallback : UInt64) : UInt64 := if value = 0 then fallback else value

section Queries

variable {Hash : Type}

def upsertHistoryFile (files : List FileRow) (path : String) : List FileRow × Nat :=
  match files.find? (fun file => file.path = path) with
  | some file => (files, file.id)
  | none =>
    let id := Table.nextId FileRow.id files
    (files ++ [⟨id, path⟩], id)

variable (rows : List (RevisionRow Hash))

def fileRevisions (fileId : Nat) : List (RevisionRow Hash) :=
  rows.filter fun row => row.fileId = fileId

def chainRevisions (fileId chainId : Nat) : List (RevisionRow Hash) :=
  rows.filter fun row => row.fileId = fileId ∧ row.chainId = chainId

def latestFileRevision (fileId : Nat) : Option (RevisionRow Hash) :=
  (fileRevisions rows fileId).argmax RevisionRow.id

def latestHistoryChainID (fileId : Nat) : Option Nat :=
  ((fileRevisions rows fileId).argmax RevisionRow.id).map RevisionRow.chainId

def currentHistoryChainLength (fileId chainId : Nat) : Nat :=
  (chainRevisions rows fileId chainId).length

def distinctChains (fileId : Nat) : List Nat :=
  ((fileRevisions rows fileId).map RevisionRow.chainId).dedup.insertionSort (· ≥ ·)

def payloadBytes : Nat := (rows.map fun row => row.payload.length).sum

def historyFilePayloadBytes (fileId : Nat) : Nat := payloadBytes (fileRevisions rows fileId)

def historyTotalPayloadBytes : Nat := payloadBytes rows

end Queries

section Insertion

variable {Hash : Type} (codec : Codec Hash)

def nullIfEmpty (user : String) : Option String := if user = "" then none else some user

variable (rows : List (RevisionRow Hash))

def insertEncodedHistorySnapshot (fileId : Nat) (user : String) (content payload : Bytes)
    (createdMs : Int) : List (RevisionRow Hash) × Nat :=
  let id := Table.nextId RevisionRow.id rows
  (rows ++ [{
    id := id
    fileId := fileId
    chainId := id
    size := content.length
    userId := nullIfEmpty user
    baseId := none
    payload := payload
    contentHash := codec.contentHash content
    created := createdMs
    recorded := content }], id)

def insertHistorySnapshot (fileId : Nat) (user : String) (content : Bytes)
    (createdMs level : Int) : Option (List (RevisionRow Hash) × Nat) := do
  let payload ← codec.encodeHistorySnapshot content level
  some (insertEncodedHistorySnapshot codec rows fileId user content payload createdMs)

def insertEncodedHistoryDelta (fileId baseId chainId : Nat) (user : String)
    (content payload : Bytes) (createdMs : Int) : List (RevisionRow Hash) × Nat :=
  let id := Table.nextId RevisionRow.id rows
  (rows ++ [{
    id := id
    fileId := fileId
    chainId := chainId
    size := content.length
    userId := nullIfEmpty user
    baseId := some baseId
    payload := payload
    contentHash := codec.contentHash content
    created := createdMs
    recorded := content }], id)

def insertCompactHistoryRevision (fileId baseId chainId : Nat) (base : Bytes)
    (user : String) (content : Bytes)
    (createdMs level : Int) : Option (List (RevisionRow Hash) × Nat) := do
  let snapshotPayload ← codec.encodeHistorySnapshot content level
  match codec.encodeHistoryDelta base content level with
  | none =>
    some (insertEncodedHistorySnapshot codec rows fileId user content snapshotPayload createdMs)
  | some deltaPayload =>
    if deltaPayload.length * 10 ≥ snapshotPayload.length * 9 then
      some (insertEncodedHistorySnapshot codec rows fileId user content snapshotPayload createdMs)
    else
      some (insertEncodedHistoryDelta codec rows fileId baseId chainId user
        content deltaPayload createdMs)

end Insertion

section Pruning

variable {Hash : Type} (rows : List (RevisionRow Hash))

/-- Delete the chains of a file below its `keepChains` newest ones. -/
def pruneOldHistoryChains (fileId : Nat) (keepChains : UInt64) : List (RevisionRow Hash) :=
  let chains := (distinctChains rows fileId).take keepChains.toNat
  match chains.getLast? with
  | none => rows
  | some oldest =>
    if chains.length < keepChains.toNat then rows
    else rows.filter fun row =>
      ¬ (row.fileId = fileId ∧ row.chainId < oldest)

def deleteChain (fileId chainId : Nat) : List (RevisionRow Hash) :=
  rows.filter fun row => ¬ (row.fileId = fileId ∧ row.chainId = chainId)

def dropOldestHistoryChain (fileId : Nat) (protectedChain : Option Nat)
    (minChains : UInt64) : List (RevisionRow Hash) × Nat :=
  if (distinctChains rows fileId).length ≤ (maxUint64 minChains 1).toNat then
    (rows, 0)
  else
    let candidates := (fileRevisions rows fileId).filter fun row =>
      protectedChain ≠ some row.chainId
    match (candidates.map RevisionRow.chainId).min? with
    | none => (rows, 0)
    | some chainId =>
      (deleteChain rows fileId chainId, payloadBytes (chainRevisions rows fileId chainId))

def chainCreated (fileId chainId : Nat) : Int :=
  ((chainRevisions rows fileId chainId).map RevisionRow.created).min?.getD 0

/-- The chain created first comes first, and among those the one with the smallest number. -/
def chainPrecedes (left right : RevisionRow Hash) : Prop :=
  chainCreated rows left.fileId left.chainId < chainCreated rows right.fileId right.chainId ∨
    chainCreated rows left.fileId left.chainId = chainCreated rows right.fileId right.chainId ∧
      left.chainId ≤ right.chainId

instance : DecidableRel (chainPrecedes rows) := fun _ _ => inferInstanceAs (Decidable (_ ∨ _))

/-- Delete the chain created first among the files with several chains, and return the bytes freed.
-/
def dropGloballyOldestHistoryChain (protectedFileId : Nat)
    (protectedChain : Option Nat) : List (RevisionRow Hash) × Nat :=
  let candidates := rows.filter fun row =>
    1 < (distinctChains rows row.fileId).length ∧
      ¬ (row.fileId = protectedFileId ∧ protectedChain = some row.chainId)
  match (candidates.insertionSort (chainPrecedes candidates)).head? with
  | none => (rows, 0)
  | some row =>
    (deleteChain rows row.fileId row.chainId,
      payloadBytes (chainRevisions rows row.fileId row.chainId))

def pruneHistoryRound (fileId : Nat) (protectedChain : Option Nat) (cfg : FileHistoryConfiguration)
    (rows : List (RevisionRow Hash)) : List (RevisionRow Hash) × Bool :=
  if historyFilePayloadBytes rows fileId ≤ cfg.perFileDiskBudget.toNat then
    (rows, false)
  else
    let (after, freed) := dropOldestHistoryChain rows fileId protectedChain
      (maxUint64 cfg.keepChains 1)
    (after, freed ≠ 0)

def pruneHistory (fileId : Nat) (protectedChain : Option Nat)
    (cfg : FileHistoryConfiguration) : List (RevisionRow Hash) :=
  let pruned := pruneOldHistoryChains rows fileId (maxUint64 cfg.keepChains 1)
  Loop.loop (pruneHistoryRound fileId protectedChain cfg) (pruned.length + 1) pruned

def pruneServerHistoryRound (protectedFileId : Nat)
    (protectedChain : Option Nat) (cfg : FileHistoryConfiguration)
    (rows : List (RevisionRow Hash)) : List (RevisionRow Hash) × Bool :=
  if historyTotalPayloadBytes rows ≤ cfg.perServerDiskBudget.toNat then
    (rows, false)
  else
    let (after, freed) := dropGloballyOldestHistoryChain rows protectedFileId protectedChain
    (after, freed ≠ 0)

def pruneServerHistory (protectedFileId : Nat) (protectedChain : Option Nat)
    (cfg : FileHistoryConfiguration) : List (RevisionRow Hash) :=
  if cfg.perServerDiskBudget = 0 then rows
  else
    Loop.loop (pruneServerHistoryRound protectedFileId protectedChain cfg) (rows.length + 1) rows

end Pruning

inductive ReadError where
  | noRows
  | noSnapshotAnchor (id : Nat)
  | decodeFailed
  | contentHashMismatch (id : Nat)

section Reconstruction

variable {Hash : Type} [DecidableEq Hash] (codec : Codec Hash)

/-- Follow the base ids from a revision, newest row first. -/
def readHistoryChain (rows : List (RevisionRow Hash)) :
    Nat → Option Nat → Except ReadError (List (RevisionRow Hash))
  | 0, _ => .ok []
  | _ + 1, none => .ok []
  | limit + 1, some id =>
    match rows.find? (fun row => row.id = id) with
    | none => .error .noRows
    | some row => do
      let chain ← readHistoryChain rows limit row.baseId
      .ok (row :: chain)

def checkContentHash (row : RevisionRow Hash) (content : Bytes) : Except ReadError Bytes :=
  if codec.contentHash content = row.contentHash then .ok content
  else .error (.contentHashMismatch row.id)

def decodeAnchor (row : RevisionRow Hash) : Except ReadError Bytes :=
  match codec.decodeHistorySnapshot row.payload with
  | none => .error .decodeFailed
  | some content => checkContentHash codec row content

def decodeNext (content : Bytes) (row : RevisionRow Hash) : Except ReadError Bytes :=
  match codec.decodeHistoryDelta row.payload content with
  | none => .error .decodeFailed
  | some content => checkContentHash codec row content

def decodeHistoryChain (id : Nat) : List (RevisionRow Hash) → Except ReadError Bytes
  | [] => .error (.noSnapshotAnchor id)
  | anchor :: deltas => do
    let content ← decodeAnchor codec anchor
    deltas.foldlM (decodeNext codec) content

def maxChainRows : Nat := 1000

def reconstructHistoryRevision (rows : List (RevisionRow Hash))
    (id : Nat) : Except ReadError Bytes := do
  let chain ← readHistoryChain rows maxChainRows (some id)
  match chain.getLast? with
  | none => .error (.noSnapshotAnchor id)
  | some last =>
    if last.baseId.isSome then .error (.noSnapshotAnchor id)
    else decodeHistoryChain codec id chain.reverse

end Reconstruction

section Operations

variable {Hash : Type} [DecidableEq Hash] (codec : Codec Hash)

structure RecordCall where
  path : String
  before : Bytes
  after : Bytes
  user : String
  cfg : FileHistoryConfiguration
  nowMs : Int

/-- The first recording of a file also stores what the file held before. -/
def insertFirstRevision (call : RecordCall) (rows : List (RevisionRow Hash))
    (fileId : Nat) : Option (List (RevisionRow Hash) × Nat) :=
  if call.before.length > 0 then do
    let (rows, baseId) ← insertHistorySnapshot codec rows fileId ""
      call.before (call.nowMs - 1) call.cfg.zstdLevel
    insertCompactHistoryRevision codec rows fileId baseId baseId call.before
      call.user call.after call.nowMs call.cfg.zstdLevel
  else
    insertHistorySnapshot codec rows fileId call.user call.after call.nowMs call.cfg.zstdLevel

/-- Extend the latest chain, unless it is long enough or the latest revision cannot be read. -/
def insertNextRevision (call : RecordCall) (rows : List (RevisionRow Hash)) (fileId : Nat)
    (latest : RevisionRow Hash) : Option (List (RevisionRow Hash) × Nat) :=
  let chainLength : Int := currentHistoryChainLength rows fileId latest.chainId
  if chainLength ≥ wrap (maxUint64 call.cfg.anchorInterval 1).toNat then
    insertHistorySnapshot codec rows fileId call.user call.after call.nowMs call.cfg.zstdLevel
  else
    match reconstructHistoryRevision codec rows latest.id with
    | .error _ =>
      insertHistorySnapshot codec rows fileId call.user call.after call.nowMs call.cfg.zstdLevel
    | .ok previous =>
      insertCompactHistoryRevision codec rows fileId latest.id
        latest.chainId previous call.user call.after call.nowMs call.cfg.zstdLevel

def pruneAfterInsert (cfg : FileHistoryConfiguration)
    (rows : List (RevisionRow Hash)) (fileId : Nat) : List (RevisionRow Hash) :=
  let protectedChain := latestHistoryChainID rows fileId
  pruneServerHistory (pruneHistory rows fileId protectedChain cfg) fileId protectedChain cfg

def record (call : RecordCall) (store : Store Hash) : Option (Store Hash × Nat) :=
  if call.before = call.after then some (store, 0)
  else
    let (files, fileId) := upsertHistoryFile store.files call.path
    match latestFileRevision store.revisions fileId with
    | none => do
      let (rows, id) ← insertFirstRevision codec call store.revisions fileId
      some (⟨files, pruneAfterInsert call.cfg rows fileId⟩, id)
    | some latest =>
      if latest.contentHash = codec.contentHash call.after then
        some (⟨files, store.revisions⟩, latest.id)
      else do
        let (rows, id) ← insertNextRevision codec call store.revisions fileId latest
        some (⟨files, pruneAfterInsert call.cfg rows fileId⟩, id)

def content (store : Store Hash) (id : Nat) : Except ReadError (Bytes × String) := do
  let content ← reconstructHistoryRevision codec store.revisions id
  match store.revisions.find? (fun row => row.id = id) with
  | none => .error .noRows
  | some row =>
    match store.files.find? (fun file => file.id = row.fileId) with
    | none => .error .noRows
    | some file => .ok (content, file.path)

def deleteFile (store : Store Hash) (path : String) : Store Hash where
  files := store.files.filter fun file => file.path ≠ path
  revisions := store.revisions.filter fun row =>
    ¬ ∃ file ∈ store.files, file.path = path ∧ file.id = row.fileId

def renameFile (store : Store Hash) (oldPath newPath : String) : Option (Store Hash) :=
  if (∃ file ∈ store.files, file.path = oldPath) ∧ oldPath ≠ newPath ∧
      ∃ file ∈ store.files, file.path = newPath then none
  else
    some { store with
      files := store.files.map fun file =>
        if file.path = oldPath then { file with path := newPath } else file }

end Operations

variable {Hash : Type}

/-- The rows that remain pass a test that every safe chain passes. -/
def Pruned (safe : Nat → Nat → Prop) (rows after : List (RevisionRow Hash)) : Prop :=
  ∃ keep : Nat → Nat → Bool, (∀ fileId chainId, safe fileId chainId → keep fileId chainId = true) ∧
      after = rows.filter fun row => keep row.fileId row.chainId

namespace Pruned

theorem refl (rows : List (RevisionRow Hash)) : Pruned safe rows rows :=
  ⟨fun _ _ => true, fun _ _ _ => rfl, by simp⟩

theorem trans (first : Pruned safe rows middle)
    (second : Pruned safe middle after) : Pruned safe rows after := by
  obtain ⟨keepFirst, safeFirst, rfl⟩ := first
  obtain ⟨keepSecond, safeSecond, rfl⟩ := second
  refine ⟨fun fileId chainId =>
    keepSecond fileId chainId && keepFirst fileId chainId, ?_, ?_⟩
  · intro fileId chainId isSafe
    simp [safeFirst _ _ isSafe, safeSecond _ _ isSafe]
  · rw [List.filter_filter]

theorem subset (pruned : Pruned safe rows after) : after ⊆ rows := by
  obtain ⟨keep, _, rfl⟩ := pruned
  exact List.filter_subset_self _

theorem mem_of_safe (pruned : Pruned safe rows after) (member : row ∈ rows)
    (isSafe : safe row.fileId row.chainId) : row ∈ after := by
  obtain ⟨keep, keepsSafe, rfl⟩ := pruned
  exact List.mem_filter.2 ⟨member, keepsSafe _ _ isSafe⟩

theorem mem_iff_of_same_chain (pruned : Pruned safe rows after) (member : row ∈ rows)
    (otherMember : other ∈ rows) (sameFile : row.fileId = other.fileId)
    (sameChain : row.chainId = other.chainId) : row ∈ after ↔ other ∈ after := by
  obtain ⟨keep, _, rfl⟩ := pruned
  simp [List.mem_filter, member, otherMember, sameFile, sameChain]

end Pruned

theorem pruned_deleteChain (rows : List (RevisionRow Hash)) (notSafe : ¬ safe fileId chainId) :
    Pruned safe rows (deleteChain rows fileId chainId) := by
  refine ⟨fun file chain => ¬ (file = fileId ∧ chain = chainId), ?_, rfl⟩
  intro file chain isSafe
  rw [decide_eq_true_iff]
  rintro ⟨rfl, rfl⟩
  exact notSafe isSafe

theorem mem_distinctChains : chain ∈ distinctChains rows fileId ↔
    ∃ row ∈ rows, row.fileId = fileId ∧ row.chainId = chain := by
  simp [distinctChains, fileRevisions, and_assoc]

section Rounds

variable {rows : List (RevisionRow Hash)}

theorem pruned_pruneOldHistoryChains
    (newest : ∀ chain, safe fileId chain → ∀ row ∈ rows, row.fileId = fileId → row.chainId ≤ chain)
    (keepChains : UInt64) : Pruned safe rows (pruneOldHistoryChains rows fileId keepChains) := by
  simp only [pruneOldHistoryChains]
  split
  · exact .refl rows
  · rename_i oldest last
    split_ifs with few
    · exact .refl rows
    · have listed : oldest ∈ distinctChains rows fileId :=
        List.mem_of_mem_take (List.mem_of_getLast? last)
      obtain ⟨row, member, sameFile, rfl⟩ := mem_distinctChains.1 listed
      refine ⟨fun file chain => ¬ (file = fileId ∧ chain < row.chainId), ?_, rfl⟩
      intro file chain isSafe
      rw [decide_eq_true_iff]
      rintro ⟨rfl, newer⟩
      exact Nat.not_lt.2 (newest chain isSafe row member sameFile) newer

theorem pruned_dropOldestHistoryChain
    (covered : ∀ chain, safe fileId chain → protectedChain = some chain)
    (minChains : UInt64) : Pruned safe rows
    (dropOldestHistoryChain rows fileId protectedChain minChains).1 := by
  simp only [dropOldestHistoryChain]
  split_ifs with few
  · exact .refl rows
  · split
    · exact .refl rows
    · rename_i chainId smallest
      have listed := List.min?_mem smallest
      simp only [List.mem_map, List.mem_filter, decide_eq_true_iff] at listed
      obtain ⟨row, ⟨_, unprotected⟩, rfl⟩ := listed
      refine pruned_deleteChain rows ?_
      intro isSafe
      exact unprotected (covered _ isSafe)

theorem pruned_dropGloballyOldestHistoryChain
    (covered : ∀ file chain, safe file chain → file = fileId ∧ protectedChain = some chain) :
    Pruned safe rows (dropGloballyOldestHistoryChain rows fileId protectedChain).1 := by
  simp only [dropGloballyOldestHistoryChain]
  split
  · exact .refl rows
  · rename_i row first
    have listed := (List.mem_insertionSort _).mp (List.mem_of_head? first)
    simp only [List.mem_filter, decide_eq_true_iff] at listed
    refine pruned_deleteChain rows ?_
    intro isSafe
    exact listed.2.2 (covered _ _ isSafe)

theorem pruned_pruneHistory (covered : ∀ chain, safe fileId chain → protectedChain = some chain)
    (newest : ∀ chain, safe fileId chain → ∀ row ∈ rows, row.fileId = fileId → row.chainId ≤ chain)
    (cfg : FileHistoryConfiguration) :
    Pruned safe rows (pruneHistory rows fileId protectedChain cfg) := by
  refine Loop.loop_preserves ?_ _ (pruned_pruneOldHistoryChains newest _)
  intro current pruned
  simp only [pruneHistoryRound]
  split_ifs with small
  · exact pruned
  · exact pruned.trans (pruned_dropOldestHistoryChain covered _)

theorem pruned_pruneServerHistory
    (covered : ∀ file chain, safe file chain → file = fileId ∧ protectedChain = some chain)
    (cfg : FileHistoryConfiguration) :
    Pruned safe rows (pruneServerHistory rows fileId protectedChain cfg) := by
  simp only [pruneServerHistory]
  split_ifs with unlimited
  · exact .refl rows
  · refine Loop.loop_preserves ?_ _ (.refl rows)
    intro current pruned
    simp only [pruneServerHistoryRound]
    split_ifs with small
    · exact pruned
    · exact pruned.trans (pruned_dropGloballyOldestHistoryChain covered)

theorem pruned_pruneHistory_others (rows : List (RevisionRow Hash))
    (fileId : Nat) (protectedChain : Option Nat) (cfg : FileHistoryConfiguration) :
    Pruned (fun other _ => other ≠ fileId) rows (pruneHistory rows fileId protectedChain cfg) :=
  pruned_pruneHistory (fun _ different => absurd rfl different)
    (fun _ different => absurd rfl different) cfg

theorem pruneServerHistory_subset : pruneServerHistory rows fileId protectedChain cfg ⊆ rows :=
  (pruned_pruneServerHistory (fun _ _ => False.elim) cfg).subset

end Rounds

theorem length_deleteChain_lt (freed : payloadBytes (chainRevisions rows fileId chainId) ≠ 0) :
    (deleteChain rows fileId chainId).length < rows.length := by
  have nonempty : chainRevisions rows fileId chainId ≠ [] := by
    intro empty
    exact freed (by simp [payloadBytes, empty])
  obtain ⟨row, member⟩ := List.exists_mem_of_ne_nil _ nonempty
  simp only [chainRevisions, List.mem_filter, decide_eq_true_iff] at member
  refine List.length_filter_lt_length_iff_exists.2 ⟨row, member.1, ?_⟩
  simp [member.2]

theorem length_dropOldestHistoryChain_lt
    (freed : (dropOldestHistoryChain rows fileId protectedChain minChains).2 ≠ 0) :
    (dropOldestHistoryChain rows fileId protectedChain minChains).1.length < rows.length := by
  simp only [dropOldestHistoryChain] at freed ⊢
  split_ifs at freed ⊢ with few
  · exact absurd rfl freed
  · split at freed
    · exact absurd rfl freed
    · exact length_deleteChain_lt freed

theorem length_dropGloballyOldestHistoryChain_lt
    (freed : (dropGloballyOldestHistoryChain rows fileId protectedChain).2 ≠ 0) :
    (dropGloballyOldestHistoryChain rows fileId protectedChain).1.length < rows.length := by
  simp only [dropGloballyOldestHistoryChain] at freed ⊢
  split at freed
  · exact absurd rfl freed
  · exact length_deleteChain_lt freed

theorem pruneHistory_exits (rows : List (RevisionRow Hash)) (fileId : Nat)
    (protectedChain : Option Nat) (cfg : FileHistoryConfiguration) :
    ∃ last, (pruneHistoryRound fileId protectedChain cfg last).2 = false ∧
    pruneHistory rows fileId protectedChain cfg =
    (pruneHistoryRound fileId protectedChain cfg last).1 := by
  refine Loop.loop_exits List.length ?_ (Nat.lt_succ_self _)
  intro current goOn
  simp only [pruneHistoryRound] at goOn ⊢
  split_ifs at goOn ⊢ with small
  exact length_dropOldestHistoryChain_lt (by simpa using goOn)

theorem length_pruneServerHistoryRound_lt
    (goOn : (pruneServerHistoryRound fileId protectedChain cfg rows).2 = true) :
    (pruneServerHistoryRound fileId protectedChain cfg rows).1.length < rows.length := by
  simp only [pruneServerHistoryRound] at goOn ⊢
  split_ifs at goOn ⊢ with small
  exact length_dropGloballyOldestHistoryChain_lt (by simpa using goOn)

theorem pruneServerHistory_exits (rows : List (RevisionRow Hash)) (fileId : Nat)
    (protectedChain : Option Nat) (limited : cfg.perServerDiskBudget ≠ 0) : ∃ last,
    (pruneServerHistoryRound fileId protectedChain cfg last).2 = false ∧
    pruneServerHistory rows fileId protectedChain cfg =
    (pruneServerHistoryRound fileId protectedChain cfg last).1 := by
  rw [pruneServerHistory, if_neg limited]
  refine Loop.loop_exits List.length ?_ (Nat.lt_succ_self _)
  exact fun current goOn => length_pruneServerHistoryRound_lt goOn

/-- The row decodes, through `depth` rows of its chain, to the content recorded with it. -/
inductive Stored (codec : Codec Hash)
    (rows : List (RevisionRow Hash)) : RevisionRow Hash → Nat → Prop
  | snapshot {row : RevisionRow Hash} (present : row ∈ rows) (isSnapshot : row.baseId = none)
      (ownChain : row.chainId = row.id)
      (decodes : codec.decodeHistorySnapshot row.payload = some row.recorded)
      (hashed : row.contentHash = codec.contentHash row.recorded) : Stored codec rows row 1
  | delta {base row : RevisionRow Hash} {depth : Nat} (baseStored : Stored codec rows base depth)
      (present : row ∈ rows) (isDelta : row.baseId = some base.id)
      (sameFile : row.fileId = base.fileId) (sameChain : row.chainId = base.chainId)
      (older : base.id < row.id) (decodes : codec.decodeHistoryDelta row.payload base.recorded =
        some row.recorded) (hashed : row.contentHash = codec.contentHash row.recorded) :
      Stored codec rows row (depth + 1)

namespace Stored

theorem present (stored : Stored codec rows row depth) : row ∈ rows := by
  cases stored <;> assumption

theorem hash_eq (stored : Stored codec rows row depth) :
    row.contentHash = codec.contentHash row.recorded := by
  cases stored <;> assumption

theorem chainId_le (stored : Stored codec rows row depth) : row.chainId ≤ row.id := by
  induction stored with
  | snapshot _ _ ownChain => exact ownChain.le
  | delta _ _ _ _ sameChain older _ _ ih => omega

theorem base_present (stored : Stored codec rows row depth) (isDelta : row.baseId = some baseId) :
    ∃ base ∈ rows, base.id = baseId ∧ base.fileId = row.fileId ∧
    base.chainId = row.chainId ∧ base.id < row.id := by
  cases stored with
  | snapshot _ isSnapshot => simp [isSnapshot] at isDelta
  | @delta base _ _ baseStored _ hasBase sameFile sameChain older =>
    rw [hasBase, Option.some.injEq] at isDelta
    exact ⟨base, baseStored.present, isDelta, sameFile.symm, sameChain.symm, older⟩

theorem mono (stored : Stored codec rows row depth) (subset : rows ⊆ after) :
    Stored codec after row depth := by
  induction stored with
  | snapshot present isSnapshot ownChain decodes hashed =>
    exact .snapshot (subset present) isSnapshot ownChain decodes hashed
  | delta _ present isDelta sameFile sameChain older decodes hashed
      ih =>
      exact .delta ih (subset present) isDelta sameFile sameChain older decodes hashed

theorem pruned (stored : Stored codec rows row depth)
    (pruned : Pruned safe rows after) (remains : row ∈ after) : Stored codec after row depth := by
  induction stored with
  | snapshot _ isSnapshot ownChain decodes hashed =>
    exact .snapshot remains isSnapshot ownChain decodes hashed
  | delta baseStored present isDelta sameFile sameChain older decodes hashed
      ih =>
      have baseRemains := (pruned.mem_iff_of_same_chain present
        baseStored.present sameFile sameChain).1 remains
      exact .delta (ih baseRemains) remains isDelta sameFile sameChain older decodes hashed

end Stored

theorem readHistoryChain_of_present (ascending : Table.Ascending RevisionRow.id rows)
    (present : row ∈ rows) (limit : Nat) : readHistoryChain rows (limit + 1) (some row.id) =
    (readHistoryChain rows limit row.baseId).map (row :: ·) := by
  simp only [readHistoryChain, ascending.find?_eq_some present]
  cases readHistoryChain rows limit row.baseId <;> rfl

section Exact

variable [DecidableEq Hash] {codec : Codec Hash}

theorem decodeHistoryChain_concat (codec : Codec Hash) (id : Nat)
    (anchor : RevisionRow Hash) (deltas : List (RevisionRow Hash)) (row : RevisionRow Hash) :
    decodeHistoryChain codec id (anchor :: (deltas ++ [row])) =
    decodeHistoryChain codec id (anchor :: deltas) >>= fun content =>
    decodeNext codec content row := by
  simp only [decodeHistoryChain, List.foldlM_append, List.foldlM_cons,
    List.foldlM_nil, bind_pure, bind_assoc]

theorem Stored.readHistoryChain_of_le (stored : Stored codec rows row depth)
    (ascending : Table.Ascending RevisionRow.id rows) (within : depth ≤ limit) (id : Nat) :
    ∃ anchor deltas, readHistoryChain rows limit (some row.id) = .ok (anchor :: deltas).reverse ∧
    anchor.baseId = none ∧ decodeHistoryChain codec id (anchor :: deltas) = .ok row.recorded := by
  induction stored generalizing limit with
  | @snapshot row present isSnapshot ownChain decodes hashed =>
    obtain ⟨limit, rfl⟩ := Nat.exists_eq_add_of_le' within
    refine ⟨row, [], ?_, isSnapshot, ?_⟩
    · rw [readHistoryChain_of_present ascending present, isSnapshot]
      cases limit <;> rfl
    · simp only [decodeHistoryChain, decodeAnchor, decodes, checkContentHash, hashed, if_true]
      rfl
  | @delta base row depth _ present isDelta _ _ _ decodes hashed
      ih =>
      obtain ⟨limit, rfl⟩ := Nat.exists_eq_add_of_le' (show 1 ≤ limit by omega)
      obtain ⟨anchor, deltas, read, isAnchor, decoded⟩ := ih (show depth ≤ limit by omega)
      refine ⟨anchor, deltas ++ [row], ?_, isAnchor, ?_⟩
      · rw [readHistoryChain_of_present ascending present, isDelta, read]
        simp [Except.map]
      · rw [decodeHistoryChain_concat, decoded]
        change decodeNext codec base.recorded row = .ok row.recorded
        simp [decodeNext, decodes, checkContentHash, hashed]

omit [DecidableEq Hash] in
theorem Stored.readHistoryChain_of_lt (stored : Stored codec rows row depth)
    (ascending : Table.Ascending RevisionRow.id rows) (positive : 0 < limit)
    (beyond : limit < depth) : ∃ chain last,
    readHistoryChain rows limit (some row.id) = .ok (chain ++ [last]) ∧ last.baseId.isSome := by
  induction stored generalizing limit with
  | snapshot => omega
  | @delta base row depth _ present isDelta _ _ _ _ _ ih =>
    obtain ⟨limit, rfl⟩ := Nat.exists_eq_add_of_le' positive
    rw [readHistoryChain_of_present ascending present, isDelta]
    rcases Nat.eq_zero_or_pos limit with rfl | positive
    · exact ⟨[], row, rfl, by simp [isDelta]⟩
    · obtain ⟨chain, last, read, hasBase⟩ := ih positive (by omega)
      exact ⟨row :: chain, last, by rw [read]; rfl, hasBase⟩

theorem Stored.reconstructHistoryRevision_eq (stored : Stored codec rows row depth)
    (ascending : Table.Ascending RevisionRow.id rows) :
    reconstructHistoryRevision codec rows row.id =
      if depth ≤ maxChainRows then .ok row.recorded
      else .error (.noSnapshotAnchor row.id) := by
  split_ifs with within
  · obtain ⟨anchor, deltas, read, isAnchor, decoded⟩ :=
      stored.readHistoryChain_of_le ascending within row.id
    simp only [reconstructHistoryRevision, read, bind, Except.bind,
      List.reverse_cons, List.getLast?_concat, isAnchor]
    simpa using decoded
  · obtain ⟨chain, last, read, hasBase⟩ :=
      stored.readHistoryChain_of_lt ascending (by decide : 0 < maxChainRows) (by omega)
    simp only [reconstructHistoryRevision, read, bind, Except.bind,
      List.getLast?_concat, if_pos hasBase]

end Exact

end Wings.FileHistory
