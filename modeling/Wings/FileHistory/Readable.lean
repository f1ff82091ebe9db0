import Wings.FileHistory.Runs

/-!
# Every revision can be read back

The reconstruction reads at most `maxChainRows` rows. The id of a new row is one above the largest
id present, so that an id is used again once the newest row has been deleted.
-/

namespace Wings.FileHistory

open MachineInt (wrap)
open Transition

variable {Hash : Type} [DecidableEq Hash]

section Short

variable {codec : Codec Hash}

def Shallow (codec : Codec Hash) (rows : List (RevisionRow Hash)) : Prop :=
  ∀ row ∈ rows, ∃ depth ≤ maxChainRows, Stored codec rows row depth

/-- Chains are extended no further than the reconstruction reads. An interval of at least `2 ^ 63`
is negative as a signed integer. -/
def ShortInterval (anchorInterval : UInt64) : Prop :=
  anchorInterval.toNat ≤ maxChainRows ∨ 2 ^ 63 ≤ anchorInterval.toNat

theorem ShortInterval.wrap_le (short : ShortInterval anchorInterval) :
    wrap (maxUint64 anchorInterval 1).toNat ≤ maxChainRows := by
  have bounded := anchorInterval.toNat_lt
  simp only [ShortInterval, maxChainRows] at short ⊢
  simp only [maxUint64]
  split_ifs with zero
  · decide
  · simp only [wrap]
    omega

theorem Shallow.appends (shallow : Shallow codec rows)
    (chained : Chained codec rows) (short : ShortInterval anchorInterval)
    (appends : Appends codec anchorInterval rows row) : Shallow codec (rows ++ [row]) := by
  intro other member
  rcases List.mem_append.1 member with old | new
  · obtain ⟨depth, within, stored⟩ := shallow other old
    exact ⟨depth, within, stored.mono (List.subset_append_left _ _)⟩
  · obtain ⟨depth, stored, _, few | bounded⟩ := chained.stored_of_appends appends
    · rw [List.mem_singleton.1 new]
      exact ⟨depth, few.trans (by decide), stored⟩
    · rw [List.mem_singleton.1 new]
      exact ⟨depth, by exact_mod_cast bounded.trans short.wrap_le, stored⟩

omit [DecidableEq Hash] in
theorem Shallow.pruned (shallow : Shallow codec rows)
    (pruned : Pruned safe rows after) : Shallow codec after := by
  intro row remains
  obtain ⟨depth, within, stored⟩ := shallow row (pruned.subset remains)
  exact ⟨depth, within, stored.pruned pruned remains⟩

theorem Shallow.recorded {call : RecordCall} {id : Nat}
    (shallow : Shallow codec rows) (chained : Chained codec rows)
    (short : ShortInterval call.cfg.anchorInterval)
    (recorded : Recorded codec call rows after id) : Shallow codec after := by
  cases recorded with
  | skipped | repeated => exact shallow
  | @inserted prepared row preparation appends =>
    have chainedPrepared := chained.prepared preparation
    have shallowPrepared : Shallow codec prepared := by
      cases preparation with
      | unchanged => exact shallow
      | previous first => exact shallow.appends chained short first
    exact (shallowPrepared.appends chainedPrepared short appends).pruned
      (chainedPrepared.pruned_pruneAfterInsert appends call.cfg)

end Short

def ShortIntervals (_ : Store Hash) : Operation → Prop
  | .record call => ShortInterval call.cfg.anchorInterval
  | _ => True

variable {codec : Codec Hash}

theorem Shallow.step (shallow : Shallow codec store.revisions)
    (chained : Chained codec store.revisions)
    (short : ShortIntervals store operation) (taken : store.Steps codec operation after) :
    Shallow codec after.revisions := by
  rcases Store.steps_cases taken with
    ⟨call, id, rfl, recorded⟩ | ⟨path, _, equal⟩ | equal
  · exact shallow.recorded chained short recorded
  · rw [equal]
    exact shallow.pruned (pruned_deleteFile store path)
  · rw [equal]
    exact shallow

theorem shallow_of_shortIntervals (reached : Reachable Store.Initial
    (Guarded ShortIntervals (Store.Steps codec)) store) : Shallow codec store.revisions := by
  induction reached with
  | start initial =>
    obtain rfl := initial
    simp [Shallow]
  | next reached operation taken ih =>
    have chained := chained_of_reachable reached.of_guarded
    exact ih.step chained taken.1 taken.2

/-- The rows of a chain stay or go together. -/
def RemovesWholeChains (rows after : List (RevisionRow Hash)) : Prop := after.Sublist rows ∧
    ∀ row ∈ rows, ∀ other ∈ rows, row.fileId = other.fileId →
      row.chainId = other.chainId → (row ∈ after ↔ other ∈ after)

omit [DecidableEq Hash] in
theorem Pruned.removesWholeChains (pruned : Pruned safe rows after) :
    RemovesWholeChains rows after := by
  refine ⟨?_, fun row member other otherMember sameFile sameChain =>
    pruned.mem_iff_of_same_chain member otherMember sameFile sameChain⟩
  obtain ⟨keep, _, rfl⟩ := pruned
  exact List.filter_sublist

/-- With intervals that the reconstruction can read, every revision reads back, every delta has an
older base in its chain, and pruning removes whole chains. -/
theorem revisions_readable_of_shortIntervals {codec : Codec Hash} {store : Store Hash}
    (reached : Reachable Store.Initial (Guarded ShortIntervals (Store.Steps codec)) store) :
    (∀ row ∈ store.revisions, reconstructHistoryRevision codec store.revisions row.id =
        .ok row.recorded) ∧
    (∀ row ∈ store.revisions, ∀ baseId, row.baseId = some baseId →
      ∃ base ∈ store.revisions, base.id = baseId ∧
        base.fileId = row.fileId ∧ base.chainId = row.chainId ∧ base.id < row.id) ∧
    ∀ (rows : List (RevisionRow Hash)) fileId protectedChain cfg,
      RemovesWholeChains rows (pruneHistory rows fileId protectedChain cfg) ∧
        RemovesWholeChains rows (pruneServerHistory rows fileId protectedChain cfg) := by
  have chained := chained_of_reachable reached.of_guarded
  have shallow := shallow_of_shortIntervals reached
  refine ⟨?_, ?_, ?_⟩
  · intro row present
    obtain ⟨depth, within, stored⟩ := shallow row present
    rw [stored.reconstructHistoryRevision_eq chained.ascending, if_pos within]
  · intro row present baseId isDelta
    obtain ⟨depth, stored, _⟩ := chained.stored row present
    exact stored.base_present isDelta
  · intro rows fileId protectedChain cfg
    exact ⟨(pruned_pruneHistory_others _ _ _ _).removesWholeChains,
      (pruned_pruneServerHistory (fun _ _ => False.elim) cfg).removesWholeChains⟩

def paddingCodec : Codec Bytes where
  encodeAll _ dict content :=
    match dict with
    | none => some (content ++ List.replicate 10 0)
    | some _ => some content
  decodeAll dict payload :=
    match dict with
    | none => some (payload.take (payload.length - 10))
    | some _ => some payload
  contentHash := id
  decodeAll_encodeAll := by
    intro level dict content payload encoded
    cases dict with
    | none =>
      cases encoded
      simp
    | some dict =>
      cases encoded
      rfl
  contentHash_injective := Function.injective_id

theorem revisions_readable_after_first_record : ∃ store : Store Bytes, Reachable Store.Initial
          (Guarded ShortIntervals (Store.Steps paddingCodec)) store ∧
        store.revisions.map RevisionRow.baseId = [none, some 1] ∧ ∀ row ∈ store.revisions,
            reconstructHistoryRevision paddingCodec store.revisions row.id = .ok row.recorded := by
  have start : Reachable Store.Initial (Guarded ShortIntervals (Store.Steps paddingCodec))
        (⟨[], []⟩ : Store Bytes) := .start rfl
  have recorded := start.next (.record ⟨"a", [0], [1], "", ⟨3, 4, 2, 1000000, 1000000⟩, 0⟩)
    ⟨.inl (by decide), rfl⟩
  exact ⟨_, recorded, rfl, (revisions_readable_of_shortIntervals recorded).1⟩

/-- Under every configuration a revision reads back as it was recorded, or its chain has more rows
than are read and the anchor is reported missing. -/
theorem unreadable_only_in_long_chain {store : Store Hash}
    (reached : Reachable Store.Initial (Store.Steps codec) store) (present : row ∈ store.revisions) :
    reconstructHistoryRevision codec store.revisions row.id = .ok row.recorded ∨
      reconstructHistoryRevision codec store.revisions row.id = .error (.noSnapshotAnchor row.id) ∧
        maxChainRows < currentHistoryChainLength store.revisions row.fileId row.chainId := by
  have chained := chained_of_reachable reached
  obtain ⟨depth, stored, bounded⟩ := chained.stored row present
  rw [stored.reconstructHistoryRevision_eq chained.ascending]
  split_ifs with within
  · exact .inl rfl
  · exact .inr ⟨rfl, Nat.lt_of_lt_of_le (Nat.lt_of_not_le within) bounded⟩

theorem first_records_read : ∃ store : Store Bytes,
    store.revisions.map RevisionRow.baseId = [none, some 1] ∧ ∀ row ∈ store.revisions,
      reconstructHistoryRevision paddingCodec store.revisions row.id = .ok row.recorded ∨
        reconstructHistoryRevision paddingCodec store.revisions row.id =
          .error (.noSnapshotAnchor row.id) ∧
        maxChainRows < currentHistoryChainLength store.revisions row.fileId row.chainId :=
  ⟨_, rfl, fun _ => unreadable_only_in_long_chain (.next (.start rfl)
    (.record ⟨"a", [0], [1], "", ⟨3, 4, 2, 1000000, 1000000⟩, 0⟩) rfl)⟩

namespace LongChain

section

variable (n : Nat)

def contentAt : Bytes := if n % 2 = 0 then [0] else [1]

/-- The row of the recording with index `n`: a snapshot, then deltas. -/
def rowAt : RevisionRow Bytes where
  id := n + 1
  fileId := 1
  chainId := 1
  size := 1
  userId := none
  baseId := if n = 0 then none else some n
  payload := if n = 0 then contentAt 0 ++ List.replicate 10 0 else contentAt n
  contentHash := contentAt n
  created := 0
  recorded := contentAt n

def store : Store Bytes := ⟨[⟨1, "a"⟩], (List.range n).map rowAt⟩

/-- The recording of content `n` under an anchor interval of 5000. -/
def call : RecordCall where
  path := "a"
  before := if n = 0 then [] else contentAt (n - 1)
  after := contentAt n
  user := ""
  cfg := ⟨3, 5000, 2, 1000000, 1000000⟩
  nowMs := 0

theorem length_contentAt : (contentAt n).length = 1 := by
  unfold contentAt
  split_ifs <;> rfl

theorem contentAt_succ_ne : contentAt n ≠ contentAt (n + 1) := by
  unfold contentAt
  split_ifs with even odd odd
  · omega
  · decide
  · decide
  · omega

theorem revisions_succ : (store (n + 1)).revisions = (store n).revisions ++ [rowAt n] := by
  simp [store, List.range_succ]

theorem fileRevisions_eq : fileRevisions (store n).revisions 1 = (store n).revisions := by
  simp [fileRevisions, store, rowAt]

theorem chainRevisions_eq : chainRevisions (store n).revisions 1 1 = (store n).revisions := by
  simp [chainRevisions, store, rowAt]

theorem ascending : Table.Ascending RevisionRow.id (store n).revisions := by
  refine List.pairwise_map.2 (List.pairwise_lt_range.imp ?_)
  intro earlier later less
  simpa [rowAt] using less

end

theorem id_lt (member : row ∈ (store n).revisions) : row.id < (rowAt n).id := by
  simp only [store, List.mem_map, List.mem_range] at member
  obtain ⟨index, less, rfl⟩ := member
  simpa [rowAt] using less

theorem latest_eq (n : Nat) : latestFileRevision (store (n + 1)).revisions 1 = some (rowAt n) := by
  rw [latestFileRevision, fileRevisions_eq, revisions_succ]
  exact Table.argmax_concat_of_fresh fun _ member => id_lt member

theorem nextId_eq (n : Nat) : Table.nextId RevisionRow.id (store n).revisions = n + 1 := by
  induction n with
  | zero => rfl
  | succ n ih =>
    rw [revisions_succ, Table.nextId_concat _ ih.symm]
    rfl

theorem stored (less : n < m) : Stored paddingCodec (store m).revisions (rowAt n) (n + 1) := by
  have present : ∀ k < m, rowAt k ∈ (store m).revisions := by
    intro k less
    exact List.mem_map.2 ⟨k, List.mem_range.2 less, rfl⟩
  induction n with
  | zero =>
    exact .snapshot (present 0 less) rfl rfl (by decide) rfl
  | succ n ih =>
    refine .delta (ih (by omega)) (present _ less) ?_ rfl
      rfl ?_ ?_ rfl
    · simp [rowAt]
    · simp [rowAt]
    · simp [rowAt, Codec.decodeHistoryDelta, paddingCodec]

theorem pruneAfterInsert_eq (n m : Nat) :
    pruneAfterInsert (call m).cfg (store (n + 1)).revisions 1 = (store (n + 1)).revisions := by
  have latest : latestHistoryChainID (store (n + 1)).revisions 1 = some 1 :=
    congrArg (Option.map RevisionRow.chainId) (latest_eq n)
  obtain ⟨keep, keeps, pruned⟩ := pruned_pruneAfterInsert_of_newest latest
    (by simp [store, rowAt]) (call m).cfg
  rw [pruned, List.filter_eq_self]
  simp [store, rowAt, keeps]

theorem insertEncodedHistoryDelta_eq (n : Nat) :
    insertEncodedHistoryDelta paddingCodec (store (n + 1)).revisions 1 (n + 1)
    1 "" (contentAt (n + 1)) (contentAt (n + 1)) 0 = ((store (n + 2)).revisions, n + 2) := by
  simp only [insertEncodedHistoryDelta, nextId_eq, revisions_succ (n + 1)]
  simp [rowAt, nullIfEmpty, length_contentAt, paddingCodec]

theorem insertCompactHistoryRevision_eq (n : Nat) :
    insertCompactHistoryRevision paddingCodec (store (n + 1)).revisions 1
    (n + 1) 1 (contentAt n) "" (contentAt (n + 1)) 0 3 =
    some ((store (n + 2)).revisions, n + 2) := by
  have snapshot : paddingCodec.encodeHistorySnapshot (contentAt (n + 1)) 3 =
      some (contentAt (n + 1) ++ List.replicate 10 0) := rfl
  have delta : paddingCodec.encodeHistoryDelta (contentAt n)
      (contentAt (n + 1)) 3 = some (contentAt (n + 1)) := by
    simp [Codec.encodeHistoryDelta, Codec.decodeHistoryDelta, paddingCodec]
  have small : ¬ ((contentAt (n + 1)).length * 10 ≥
      (contentAt (n + 1) ++ List.replicate 10 0).length * 9) := by
    simp [length_contentAt]
  simp only [insertCompactHistoryRevision, snapshot, Option.bind_eq_bind,
    Option.bind_some, delta, if_neg small, insertEncodedHistoryDelta_eq]

theorem insertNextRevision_eq (few : n < 1000) :
    insertNextRevision paddingCodec (call (n + 1)) (store (n + 1)).revisions 1 (rowAt n) =
    some ((store (n + 2)).revisions, n + 2) := by
  have interval : wrap (maxUint64 (call (n + 1)).cfg.anchorInterval 1).toNat =
      5000 := by
    change wrap ((maxUint64 5000 1).toNat) = 5000
    decide
  have length : currentHistoryChainLength (store (n + 1)).revisions 1 1 = n + 1 := by
    rw [currentHistoryChainLength, chainRevisions_eq]
    simp [store]
  have short : ¬ ((currentHistoryChainLength (store (n + 1)).revisions 1 (rowAt n).chainId : Int) ≥
        wrap (maxUint64 (call (n + 1)).cfg.anchorInterval 1).toNat) := by
    rw [interval, show (rowAt n).chainId = 1 from rfl, length]
    omega
  have read : reconstructHistoryRevision paddingCodec (store (n + 1)).revisions
      (rowAt n).id = .ok (contentAt n) := by
    rw [(stored (Nat.lt_succ_self n)).reconstructHistoryRevision_eq
      (ascending (n + 1)), if_pos (show n + 1 ≤ maxChainRows from few)]
    rfl
  simp only [insertNextRevision, if_neg short, read]
  exact insertCompactHistoryRevision_eq n

theorem record_eq (few : n < 1000) : record paddingCodec (call (n + 1)) (store (n + 1)) =
    some (store (n + 2), n + 2) := by
  have different : (call (n + 1)).before ≠ (call (n + 1)).after := contentAt_succ_ne n
  have changed : (rowAt n).contentHash ≠ paddingCodec.contentHash (call (n + 1)).after :=
    contentAt_succ_ne n
  have upserted : upsertHistoryFile (store (n + 1)).files
      (call (n + 1)).path = ([⟨1, "a"⟩], 1) := rfl
  have pruned := pruneAfterInsert_eq (n + 1) (n + 1)
  simp only [record, if_neg different, upserted, latest_eq, if_neg changed,
    insertNextRevision_eq few, Option.bind_eq_bind, Option.bind_some, pruned]
  rfl

theorem reachable (few : n ≤ 1000) :
    Reachable Store.Initial (Store.Steps paddingCodec) (store (n + 1)) := by
  induction n with
  | zero =>
    have start : Reachable Store.Initial (Store.Steps paddingCodec)
        (⟨[], []⟩ : Store Bytes) := .start rfl
    exact start.next (.record (call 0)) rfl
  | succ n ih =>
    refine (ih (by omega)).next (.record (call (n + 1))) ?_
    simp only [Store.Steps, Store.step, record_eq (show n < 1000 by omega), Option.map_some]

end LongChain

/-- With an interval of 5000, the last of 1001 recordings is beyond what the reconstruction reads.
-/
theorem revision_unreadable_on_long_chain : ∃ store : Store Bytes,
      Reachable Store.Initial (Store.Steps paddingCodec) store ∧ ∃ row ∈ store.revisions,
          reconstructHistoryRevision paddingCodec store.revisions row.id =
            .error (.noSnapshotAnchor row.id) := by
  have stored := LongChain.stored (show 1000 < 1001 by decide)
  refine ⟨LongChain.store 1001, LongChain.reachable le_rfl,
    LongChain.rowAt 1000, stored.present, ?_⟩
  rw [stored.reconstructHistoryRevision_eq (LongChain.ascending 1001), if_neg (by decide)]

end Wings.FileHistory

namespace Wings.FileHistory

open Transition

variable {Hash : Type} [DecidableEq Hash]

/-- A store together with the ids it has returned and the contents they were
returned for. -/
structure Served (Hash : Type) where
  store : Store Hash
  returned : List (Nat × Bytes)

namespace Served

def step (codec : Codec Hash) (served : Served Hash) : Operation → Option (Served Hash)
  | .record call =>
    (record codec call served.store).map fun (after, id) =>
      ⟨after, (id, call.after) :: served.returned⟩
  | operation =>
    (served.store.step codec operation).map fun after =>
      ⟨after, served.returned⟩

def Steps (codec : Codec Hash) (served : Served Hash) (operation : Operation)
    (after : Served Hash) : Prop := served.step codec operation = some after

def Initial (served : Served Hash) : Prop := served = ⟨⟨[], []⟩, []⟩

/-- The newest revision of the table does not belong to a file being
deleted. -/
def KeepsNewest (served : Served Hash) : Operation → Prop
  | .deleteFile path =>
    ∀ newest, served.store.revisions.argmax RevisionRow.id = some newest →
      ∀ file ∈ served.store.files, file.path = path → file.id ≠ newest.fileId
  | _ => True

end Served

def Names (rows : List (RevisionRow Hash)) (entry : Nat × Bytes) : Prop :=
  entry.1 < Table.nextId RevisionRow.id rows ∧
    ∀ row ∈ rows, row.id = entry.1 → row.recorded = entry.2

section Preservation

variable {codec : Codec Hash}

theorem Names.appends (names : Names rows entry) (appends : Appends codec anchorInterval rows row) :
    Names (rows ++ [row]) entry := by
  have fresh := appends.fresh
  refine ⟨?_, ?_⟩
  · rw [Table.nextId_concat _ fresh, fresh]
    exact names.1.trans (Nat.lt_succ_self _)
  · intro other member sameId
    rcases List.mem_append.1 member with old | new
    · exact names.2 other old sameId
    · have used := names.1
      rw [List.mem_singleton.1 new] at sameId
      omega

omit [DecidableEq Hash] in
theorem Names.subset (names : Names rows entry) (subset : after ⊆ rows)
    (newest : ∀ other ∈ rows, ∃ row ∈ after, other.id ≤ row.id) : Names after entry := by
  refine ⟨(Table.lt_nextId_iff _ _ _).2 ?_, fun row member =>
    names.2 row (subset member)⟩
  rcases (Table.lt_nextId_iff _ _ _).1 names.1 with zero | ⟨other, member, le⟩
  · exact .inl zero
  · obtain ⟨row, remains, above⟩ := newest other member
    exact .inr ⟨row, remains, le.trans above⟩

theorem Chained.newest_remains (chained : Chained codec rows)
    (appends : Appends codec anchorInterval rows row) (cfg : FileHistoryConfiguration) :
    ∀ other ∈ rows ++ [row], ∃ newest ∈ pruneAfterInsert cfg (rows ++ [row]) row.fileId,
    other.id ≤ newest.id := by
  intro other member
  refine ⟨row, (chained.pruned_pruneAfterInsert appends cfg).mem_of_safe (by simp) ⟨rfl, rfl⟩, ?_⟩
  rcases List.mem_append.1 member with old | new
  · rw [appends.fresh]
    exact (Table.key_lt_nextId RevisionRow.id old).le
  · rw [List.mem_singleton.1 new]

omit [DecidableEq Hash] in
theorem Chained.names (chained : Chained codec rows) (present : row ∈ rows) :
    Names rows (row.id, row.recorded) := by
  refine ⟨Table.key_lt_nextId RevisionRow.id present, ?_⟩
  intro other member sameId
  rw [chained.ascending.eq_of_key_eq member present sameId]

theorem Chained.names_recorded {call : RecordCall} {id : Nat} (chained : Chained codec rows)
    (recorded : Recorded codec call rows after id) : Names after (id, call.after) ∧
    ∀ entry, Names rows entry → Names after entry := by
  cases recorded with
  | skipped =>
    refine ⟨⟨Table.nextId_pos _ _, ?_⟩, fun _ names => names⟩
    intro row present isZero
    have positive := chained.positive row present
    omega
  | @repeated latest present sameHash =>
    obtain ⟨_, stored, _⟩ := chained.stored latest present
    rw [stored.hash_eq] at sameHash
    rw [← codec.contentHash_injective sameHash]
    exact ⟨chained.names present, fun _ names => names⟩
  | @inserted prepared row preparation appends isRecorded =>
    have chainedPrepared := chained.prepared preparation
    have pruned := chainedPrepared.pruned_pruneAfterInsert appends call.cfg
    have newest := chainedPrepared.newest_remains appends call.cfg
    refine ⟨?_, fun entry names => ?_⟩
    · have named := (chainedPrepared.appends appends).names (show row ∈ prepared ++ [row] by simp)
      rw [isRecorded] at named
      exact named.subset pruned.subset newest
    · have namesPrepared : Names prepared entry := by
        cases preparation with
        | unchanged => exact names
        | previous first => exact names.appends first
      exact (namesPrepared.appends appends).subset pruned.subset newest

omit [DecidableEq Hash] in
theorem Served.KeepsNewest.newest_remains {served : Served Hash} {path : String}
    (keeps : served.KeepsNewest (.deleteFile path)) : ∀ other ∈ served.store.revisions,
    ∃ newest ∈ (deleteFile served.store path).revisions, other.id ≤ newest.id := by
  intro other member
  cases found : served.store.revisions.argmax RevisionRow.id with
  | none =>
    rw [List.argmax_eq_none.1 found] at member
    simp at member
  | some newest =>
    refine ⟨newest, ?_, List.le_of_mem_argmax member found⟩
    refine (pruned_deleteFile served.store path).mem_of_safe (List.argmax_mem found) ?_
    intro file isFile samePath
    exact keeps newest found file isFile samePath

end Preservation

namespace Served

structure Faithful (codec : Codec Hash) (served : Served Hash) : Prop where
  chained : Chained codec served.store.revisions
  names : ∀ entry ∈ served.returned, Names served.store.revisions entry

theorem Faithful.step {served after : Served Hash} {operation : Operation}
    (faithful : served.Faithful codec) (keeps : served.KeepsNewest operation)
    (taken : served.Steps codec operation after) : after.Faithful codec := by
  cases operation with
  | record call =>
    simp only [Steps, Served.step, Option.map_eq_some_iff] at taken
    obtain ⟨⟨store, id⟩, committed, rfl⟩ := taken
    have recorded := record_cases committed
    obtain ⟨named, kept⟩ := faithful.chained.names_recorded recorded
    refine ⟨faithful.chained.recorded recorded, ?_⟩
    intro entry member
    rcases List.mem_cons.1 member with rfl | old
    · exact named
    · exact kept entry (faithful.names entry old)
  | deleteFile path =>
    cases taken
    have pruned := pruned_deleteFile served.store path
    refine ⟨faithful.chained.pruned pruned, ?_⟩
    intro entry member
    exact (faithful.names entry member).subset pruned.subset keeps.newest_remains
  | renameFile oldPath newPath =>
    simp only [Steps, Served.step, Store.step, Option.map_eq_some_iff] at taken
    obtain ⟨store, renamed, rfl⟩ := taken
    have same := renameFile_revisions renamed
    exact ⟨same ▸ faithful.chained, fun entry member =>
      same ▸ faithful.names entry member⟩
  | failed =>
    cases taken
    exact faithful

theorem faithful_of_keepsNewest {served : Served Hash}
    (reached : Reachable Initial (Guarded KeepsNewest (Steps codec)) served) :
    served.Faithful codec := by
  refine reached.invariant ?_ fun _ _ _ faithful taken =>
    faithful.step taken.1 taken.2
  rintro _ rfl
  exact ⟨Chained.nil codec, by simp⟩

end Served

theorem exists_row_of_reconstruct {codec : Codec Hash}
    {rows : List (RevisionRow Hash)} {id : Nat} {content : Bytes}
    (read : reconstructHistoryRevision codec rows id = .ok content) :
    ∃ row ∈ rows, row.id = id := by
  cases found : rows.find? (fun row => row.id = id) with
  | none =>
    simp [reconstructHistoryRevision, maxChainRows, readHistoryChain, found,
      bind, Except.bind] at read
  | some row =>
    exact ⟨row, List.mem_of_find?_eq_some found, by simpa using List.find?_some found⟩

/-- If the file with the newest revision is never deleted, an id reads as its content or not at all.
-/
theorem content_eq_of_keepsNewest {codec : Codec Hash} {served : Served Hash}
    (reached : Reachable Served.Initial (Guarded Served.KeepsNewest (Served.Steps codec)) served) :
    ∀ id recorded, (id, recorded) ∈ served.returned →
      ∀ read path, content codec served.store id = .ok (read, path) → read = recorded := by
  intro id recorded returned read path served_content
  have faithful := Served.faithful_of_keepsNewest reached
  cases reconstructed :
      reconstructHistoryRevision codec served.store.revisions id with
  | error => simp [content, reconstructed, bind, Except.bind] at served_content
  | ok bytes =>
    have sameBytes : bytes = read := by
      simp only [content, reconstructed, bind, Except.bind] at served_content
      split at served_content
      · simp at served_content
      · split at served_content
        · simp at served_content
        · exact congrArg Prod.fst (Except.ok.inj served_content)
    obtain ⟨row, present, rfl⟩ := exists_row_of_reconstruct reconstructed
    rw [← sameBytes, faithful.chained.recorded_of_reconstruct present reconstructed]
    exact (faithful.names _ returned).2 row present rfl

def verbatimCodec : Codec Bytes where
  encodeAll _ _ content := some content
  decodeAll _ payload := some payload
  contentHash := id
  decodeAll_encodeAll := fun _ _ _ _ encoded => encoded.symm
  contentHash_injective := Function.injective_id

def recordByte (path : String) (byte : UInt8) : Operation :=
  .record ⟨path, [], [byte], "", ⟨3, 4, 2, 1000000, 1000000⟩, 0⟩

theorem content_eq_after_forgetting_older : ∃ served : Served Bytes, Reachable Served.Initial
          (Guarded Served.KeepsNewest (Served.Steps verbatimCodec)) served ∧
        served.returned = [(2, [1]), (1, [0])] ∧
          content verbatimCodec served.store 2 = .ok ([1], "b") ∧
            ∀ read path, content verbatimCodec served.store 2 = .ok (read, path) → read = [1] := by
  have start : Reachable Served.Initial (Guarded Served.KeepsNewest (Served.Steps verbatimCodec))
        (⟨⟨[], []⟩, []⟩ : Served Bytes) := .start rfl
  have first := start.next (recordByte "a" 0) ⟨trivial, rfl⟩
  have second := first.next (recordByte "b" 1) ⟨trivial, rfl⟩
  have forgotten := second.next (.deleteFile "a") ⟨by
    rintro newest ⟨⟩ file member samePath
    rcases List.mem_cons.1 member with rfl | member
    · decide
    · rw [List.mem_singleton.1 member] at samePath
      exact absurd samePath (by decide), rfl⟩
  exact ⟨_, forgotten, rfl, rfl, content_eq_of_keepsNewest forgotten 2 [1] (by decide)⟩

/-- After its only file has been forgotten, the store returns the same id for another file. -/
theorem content_differs_after_forgetting_newest : ∃ served : Served Bytes,
      Reachable Served.Initial (Served.Steps verbatimCodec) served ∧ (1, [0]) ∈ served.returned ∧
          content verbatimCodec served.store 1 = .ok ([1], "b") := by
  have start : Reachable Served.Initial (Served.Steps verbatimCodec)
      (⟨⟨[], []⟩, []⟩ : Served Bytes) := .start rfl
  have first := start.next (recordByte "a" 0) rfl
  have forgotten := first.next (.deleteFile "a") rfl
  have second := forgotten.next (recordByte "b" 1) rfl
  exact ⟨_, second, by decide, rfl⟩

end Wings.FileHistory
