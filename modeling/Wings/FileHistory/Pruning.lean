import Wings.FileHistory.Runs

/-!
# Pruning

The chain created first is deleted, among the files with several chains; only the latest chain of
the recorded file is protected. When the clock goes backwards, a later chain counts as the older
one. A payload is not empty. The loop over the budget of a file is told to leave `KeepChains`
chains: it never deletes anything.
-/

namespace Wings.FileHistory

open Transition
open Store (Initial)

variable {Hash : Type}

def Timely (rows : List (RevisionRow Hash)) : Prop :=
  ∀ row ∈ rows, ∀ other ∈ rows, row.fileId = other.fileId →
    row.id ≤ other.id → row.created ≤ other.created

def IsLatest (rows : List (RevisionRow Hash)) (row : RevisionRow Hash) : Prop :=
  row ∈ rows ∧ ∀ other ∈ rows, other.fileId = row.fileId → other.id ≤ row.id

variable {rows : List (RevisionRow Hash)}

theorem Timely.subset (timely : Timely rows) (fewer : after ⊆ rows) : Timely after :=
  fun row member other otherMember =>
    timely row (fewer member) other (fewer otherMember)

theorem IsLatest.subset (latest : IsLatest rows row) (fewer : after ⊆ rows)
    (remains : row ∈ after) : IsLatest after row :=
  ⟨remains, fun other member => latest.2 other (fewer member)⟩

theorem IsLatest.eq (ascending : Table.Ascending RevisionRow.id rows)
    (latest : IsLatest rows row) (otherLatest : IsLatest rows other)
    (sameFile : row.fileId = other.fileId) : row = other := by
  refine ascending.eq_of_key_eq latest.1 otherLatest.1 ?_
  exact Nat.le_antisymm (otherLatest.2 row latest.1 sameFile)
    (latest.2 other otherLatest.1 sameFile.symm)

theorem latestFileRevision_eq_some_iff (ascending : Table.Ascending RevisionRow.id rows) :
    latestFileRevision rows fileId = some row ↔ IsLatest rows row ∧ row.fileId = fileId := by
  constructor
  · intro found
    obtain ⟨member, sameFile, newest⟩ := latestFileRevision_eq_some found
    subst sameFile
    exact ⟨⟨member, newest⟩, rfl⟩
  · rintro ⟨latest, rfl⟩
    cases found : latestFileRevision rows row.fileId with
    | none =>
      have empty := List.argmax_eq_none.1 found
      have member : row ∈ fileRevisions rows row.fileId :=
        List.mem_filter.2 ⟨latest.1, decide_eq_true rfl⟩
      rw [empty] at member
      cases member
    | some other =>
      obtain ⟨member, sameFile, newest⟩ := latestFileRevision_eq_some found
      have otherLatest : IsLatest rows other := by
        refine ⟨member, ?_⟩
        rw [sameFile]
        exact newest
      rw [latest.eq ascending otherLatest sameFile.symm]

theorem chainCreated_spec (nonempty : chainRevisions rows fileId chainId ≠ []) :
    (∃ row ∈ chainRevisions rows fileId chainId, row.created = chainCreated rows fileId chainId) ∧
    ∀ row ∈ chainRevisions rows fileId chainId, chainCreated rows fileId chainId ≤ row.created := by
  cases smallest : ((chainRevisions rows fileId chainId).map
      RevisionRow.created).min? with
  | none =>
    rw [List.min?_eq_none_iff, List.map_eq_nil_iff] at smallest
    exact absurd smallest nonempty
  | some created =>
    obtain ⟨member, least⟩ := List.min?_eq_some_iff.1 smallest
    rw [chainCreated, smallest, Option.getD_some]
    refine ⟨List.mem_map.1 member, fun row present => ?_⟩
    exact least _ (List.mem_map_of_mem present)

theorem mem_chainRevisions_iff : row ∈ chainRevisions rows fileId chainId ↔
    row ∈ rows ∧ row.fileId = fileId ∧ row.chainId = chainId := by
  rw [chainRevisions, List.mem_filter, decide_eq_true_iff]

variable {codec : Codec Hash}

theorem chainCreated_le {some : List (RevisionRow Hash)}
    {earlier later : RevisionRow Hash} (chained : Chained codec rows)
    (timely : Timely rows) (fewer : some ⊆ rows) (isEarlier : earlier ∈ some)
    (isLater : later ∈ some) (sameFile : earlier.fileId = later.fileId)
    (less : earlier.chainId < later.chainId) : chainCreated some earlier.fileId earlier.chainId ≤
    chainCreated some later.fileId later.chainId := by
  have first := chainCreated_spec (List.ne_nil_of_mem
    (mem_chainRevisions_iff.2 ⟨isEarlier, rfl, rfl⟩))
  have second := chainCreated_spec (List.ne_nil_of_mem
    (mem_chainRevisions_iff.2 ⟨isLater, rfl, rfl⟩))
  obtain ⟨row, inLater, created⟩ := second.1
  obtain ⟨present, rowFile, rowChain⟩ := mem_chainRevisions_iff.1 inLater
  have order : earlier.id ≤ row.id := by
    refine Nat.le_of_not_lt fun newer => ?_
    have backwards := chained.monotone row (fewer present) earlier
      (fewer isEarlier) (rowFile.trans sameFile.symm) newer.le
    omega
  calc chainCreated some earlier.fileId earlier.chainId ≤ earlier.created :=
        first.2 earlier (mem_chainRevisions_iff.2 ⟨isEarlier, rfl, rfl⟩)
    _ ≤ row.created := timely earlier (fewer isEarlier) row (fewer present)
        (sameFile.trans rowFile.symm) order
    _ = chainCreated some later.fileId later.chainId := created

instance (rows : List (RevisionRow Hash)) : Std.Total (chainPrecedes rows) where
  total left right := by
    unfold chainPrecedes
    omega

instance (rows : List (RevisionRow Hash)) : IsTrans (RevisionRow Hash) (chainPrecedes rows) where
  trans left middle right := by
    unfold chainPrecedes
    omega

def candidates (rows : List (RevisionRow Hash)) (protectedFileId : Nat)
    (protectedChain : Option Nat) : List (RevisionRow Hash) :=
  rows.filter fun row =>
    1 < (distinctChains rows row.fileId).length ∧
      ¬ (row.fileId = protectedFileId ∧ protectedChain = some row.chainId)

theorem mem_candidates_iff : row ∈ candidates rows protectedFileId protectedChain ↔
    row ∈ rows ∧ 1 < (distinctChains rows row.fileId).length ∧ ¬ (row.fileId = protectedFileId ∧
    protectedChain = some row.chainId) := by
  rw [candidates, List.mem_filter, decide_eq_true_iff]

theorem dropGloballyOldestHistoryChain_cases (rows : List (RevisionRow Hash))
    (protectedFileId : Nat) (protectedChain : Option Nat) :
    (candidates rows protectedFileId protectedChain = [] ∧
    dropGloballyOldestHistoryChain rows protectedFileId protectedChain = (rows, 0)) ∨
    ∃ row ∈ candidates rows protectedFileId protectedChain,
    (∀ other ∈ candidates rows protectedFileId protectedChain,
    chainPrecedes (candidates rows protectedFileId protectedChain) row other) ∧
    dropGloballyOldestHistoryChain rows protectedFileId protectedChain =
    (deleteChain rows row.fileId row.chainId,
    payloadBytes (chainRevisions rows row.fileId row.chainId)) := by
  simp only [dropGloballyOldestHistoryChain]
  rw [← candidates]
  generalize candidates rows protectedFileId protectedChain = listed
  cases sorted : listed.insertionSort (chainPrecedes listed) with
  | nil =>
    have empty : listed = [] := List.perm_nil.1 (sorted ▸ (List.perm_insertionSort _ listed).symm)
    exact .inl ⟨empty, rfl⟩
  | cons first rest =>
    have ordered := List.pairwise_insertionSort (chainPrecedes listed) listed
    rw [sorted, List.pairwise_cons] at ordered
    have present : ∀ other, other ∈ listed ↔ other = first ∨ other ∈ rest := by
      intro other
      rw [← List.mem_insertionSort (chainPrecedes listed), sorted, List.mem_cons]
    refine .inr ⟨first, (present first).2 (.inl rfl), ?_, rfl⟩
    intro other member
    rcases (present other).1 member with rfl | later
    · exact .inr ⟨rfl, Nat.le_refl _⟩
    · exact ordered.1 other later

theorem exists_other_chain (several : 1 < (distinctChains rows fileId).length) (chainId : Nat) :
    ∃ row ∈ rows, row.fileId = fileId ∧ row.chainId ≠ chainId := by
  by_contra none
  have only : ∀ chain ∈ distinctChains rows fileId, chain = chainId := by
    intro chain listed
    obtain ⟨row, member, sameFile, rfl⟩ := mem_distinctChains.1 listed
    by_contra different
    exact none ⟨row, member, sameFile, different⟩
  have distinct : (distinctChains rows fileId).Nodup :=
    (List.perm_insertionSort _ _).nodup_iff.2 (List.nodup_dedup _)
  have single := List.eq_replicate_iff.2 ⟨rfl, only⟩
  rw [single, List.nodup_replicate] at distinct
  omega

def OnLatest (rows : List (RevisionRow Hash)) (fileId chainId : Nat) : Prop :=
  ∃ row, IsLatest rows row ∧ row.fileId = fileId ∧ row.chainId = chainId

theorem not_onLatest_of_precedes (chained : Chained codec rows)
    (timely : Timely rows) (keptLatest : IsLatest rows kept)
    (candidate : row ∈ candidates rows kept.fileId (some kept.chainId))
    (first : ∀ other ∈ candidates rows kept.fileId (some kept.chainId),
    chainPrecedes (candidates rows kept.fileId (some kept.chainId)) row
    other) : ¬ OnLatest rows row.fileId row.chainId := by
  rintro ⟨latest, isLatest, sameFile, sameChain⟩
  obtain ⟨_, several, unprotected⟩ := mem_candidates_iff.1 candidate
  obtain ⟨other, member, otherFile, otherChain⟩ := exists_other_chain several row.chainId
  have older : other.chainId < row.chainId := by
    have order := chained.monotone other member latest isLatest.1 (otherFile.trans sameFile.symm)
      (isLatest.2 other member (otherFile.trans sameFile.symm))
    omega
  have listed : other ∈ candidates rows kept.fileId (some kept.chainId) := by
    refine mem_candidates_iff.2 ⟨member, by rwa [otherFile], ?_⟩
    rintro ⟨inKept, equal⟩
    have same := keptLatest.eq chained.ascending isLatest
      (inKept.symm.trans (otherFile.trans sameFile.symm))
    have chain := Option.some.inj equal
    rw [same] at chain
    omega
  have created : chainCreated (candidates rows kept.fileId (some kept.chainId))
        other.fileId other.chainId ≤ chainCreated (candidates rows kept.fileId (some kept.chainId))
        row.fileId row.chainId := chainCreated_le chained timely (List.filter_subset_self _)
      listed candidate otherFile older
  rcases first other listed with earlier | ⟨_, lower⟩
  · omega
  · omega

theorem pruned_pruneServerHistory_latest (chained : Chained codec rows)
    (timely : Timely rows) (keptLatest : IsLatest rows kept) (cfg : FileHistoryConfiguration) :
    Pruned (OnLatest rows) rows (pruneServerHistory rows kept.fileId (some kept.chainId) cfg) := by
  rw [pruneServerHistory]
  split
  · exact .refl rows
  · refine Loop.loop_preserves ?_ _ (.refl rows)
    intro current pruned
    have onCurrent : ∀ fileId chainId, OnLatest rows fileId chainId →
        OnLatest current fileId chainId := by
      rintro _ _ ⟨latest, isLatest, rfl, rfl⟩
      exact ⟨latest, isLatest.subset pruned.subset
        (pruned.mem_of_safe isLatest.1 ⟨latest, isLatest, rfl, rfl⟩),
        rfl, rfl⟩
    have remains := pruned.mem_of_safe keptLatest.1 ⟨kept, keptLatest, rfl, rfl⟩
    rw [pruneServerHistoryRound]
    split
    · exact pruned
    · rcases dropGloballyOldestHistoryChain_cases current kept.fileId
          (some kept.chainId) with ⟨_, same⟩ | ⟨row, candidate, first, dropped⟩
      · rw [same]
        exact pruned
      · rw [dropped]
        refine pruned.trans (pruned_deleteChain current ?_)
        intro isLatest
        exact not_onLatest_of_precedes (chained.pruned pruned) (timely.subset pruned.subset)
          (keptLatest.subset pruned.subset remains) candidate first (onCurrent _ _ isLatest)

def OnTime (store : Store Hash) (call : RecordCall) : Prop := ∀ row ∈ store.revisions,
    row.fileId = (upsertHistoryFile store.files call.path).2 → row.created ≤ call.nowMs

def Records [DecidableEq Hash] (codec : Codec Hash) (store : Store Hash)
    (call : RecordCall) (after : Store Hash) : Prop :=
  ∃ id, record codec call store = some (after, id)

theorem latestFileRevision_eq_none_iff :
    latestFileRevision rows fileId = none ↔ ∀ row ∈ rows, row.fileId ≠ fileId := by
  rw [latestFileRevision, List.argmax_eq_none, fileRevisions, List.filter_eq_nil_iff]
  simp only [decide_eq_true_eq]

section Recorded

variable [DecidableEq Hash]

theorem Timely.inserted (timely : Timely store.revisions) (onTime : OnTime store call)
    (preparation : Prepared codec call.cfg.anchorInterval store.revisions prepared)
    (appends : Appends codec call.cfg.anchorInterval prepared row)
    (stamped : Stamped codec (upsertHistoryFile store.files call.path).2 call.nowMs row)
    (preceded : Preceded codec call store.revisions
    (upsertHistoryFile store.files call.path).2 prepared) : Timely (prepared ++ [row]) := by
  rcases preceded with rfl | ⟨missing, base, rfl, baseStamped⟩
  · refine Table.monotone_concat timely appends.fresh fun old member sameFile => ?_
    rw [stamped.created_eq]
    exact onTime old member (sameFile.trans stamped.fileId_eq)
  · rw [latestFileRevision_eq_none_iff] at missing
    have baseFresh : base.id = Table.nextId RevisionRow.id store.revisions := by
      generalize extended : store.revisions ++ [base] = rows at preparation
      cases preparation with
      | unchanged => simp at extended
      | previous baseAppends =>
        rw [(List.append_singleton_inj.1 extended).2]
        exact baseAppends.fresh
    have first : Timely (store.revisions ++ [base]) := by
      refine Table.monotone_concat timely baseFresh fun old member sameFile => ?_
      exact absurd (sameFile.trans baseStamped.fileId_eq) (missing old member)
    refine Table.monotone_concat first appends.fresh fun old member sameFile => ?_
    rw [List.mem_append, List.mem_singleton] at member
    rcases member with stored | rfl
    · exact absurd (sameFile.trans stamped.fileId_eq) (missing old stored)
    · rw [stamped.created_eq, baseStamped.created_eq]
      omega

omit [DecidableEq Hash] in
theorem Preceded.mem_iff (preceded : Preceded codec call rows fileId prepared)
    (otherFile : row.fileId ≠ fileId) : row ∈ prepared ↔ row ∈ rows := by
  rcases preceded with rfl | ⟨_, base, rfl, stamped⟩
  · rfl
  · rw [List.mem_append, List.mem_singleton, or_iff_left]
    intro same
    rw [same] at otherFile
    exact otherFile stamped.fileId_eq

theorem isLatest_concat (appends : Appends codec anchorInterval rows row) :
    IsLatest (rows ++ [row]) row := by
  refine ⟨List.mem_append_right _ (List.mem_singleton_self row), ?_⟩
  intro other member _
  rw [List.mem_append, List.mem_singleton] at member
  rcases member with old | rfl
  · have lower := Table.key_lt_nextId RevisionRow.id old
    have fresh := appends.fresh
    omega
  · exact Nat.le_refl _

theorem pruneAfterInsert_eq_pruneServerHistory (chained : Chained codec rows)
    (appends : Appends codec anchorInterval rows row) (cfg : FileHistoryConfiguration) :
    ∃ pruned, Pruned (fun other _ => other ≠ row.fileId) (rows ++ [row]) pruned ∧ row ∈ pruned ∧
    pruneAfterInsert cfg (rows ++ [row]) row.fileId =
    pruneServerHistory pruned row.fileId (some row.chainId) cfg := by
  have stays := (chained.pruned_pruneAfterInsert appends cfg).mem_of_safe
    (isLatest_concat appends).1 ⟨rfl, rfl⟩
  simp only [pruneAfterInsert, latestHistoryChainID_concat appends] at stays ⊢
  exact ⟨_, pruned_pruneHistory_others _ _ _ _, pruneServerHistory_subset stays, rfl⟩

theorem isLatest_pruneAfterInsert (chained : Chained codec rows)
    (appends : Appends codec anchorInterval rows row)
    (timely : Timely (rows ++ [row])) (cfg : FileHistoryConfiguration)
    (isLatest : IsLatest (rows ++ [row]) latest) :
    IsLatest (pruneAfterInsert cfg (rows ++ [row]) row.fileId) latest := by
  have whole := chained.pruned_pruneAfterInsert appends cfg
  have inserted := isLatest_concat appends
  refine isLatest.subset whole.subset ?_
  by_cases sameFile : latest.fileId = row.fileId
  · rw [isLatest.eq (chained.appends appends).ascending inserted sameFile]
    exact whole.mem_of_safe inserted.1 ⟨rfl, rfl⟩
  · obtain ⟨pruned, ownFile, rowRemains, same⟩ :=
      pruneAfterInsert_eq_pruneServerHistory chained appends cfg
    have latestRemains := ownFile.mem_of_safe isLatest.1 sameFile
    rw [same]
    exact (pruned_pruneServerHistory_latest
      ((chained.appends appends).pruned ownFile) (timely.subset ownFile.subset)
      (inserted.subset ownFile.subset rowRemains) cfg).mem_of_safe latestRemains
        ⟨latest, isLatest.subset ownFile.subset latestRemains, rfl, rfl⟩

variable {after : Store Hash} {id : Nat}

theorem Timely.recorded (chained : Chained codec store.revisions)
    (timely : Timely store.revisions) (onTime : OnTime store call)
    (committed : record codec call store = some (after, id)) : Timely after.revisions := by
  cases committed_of_record committed with
  | skipped | repeated => exact timely
  | inserted _ preparation appends _ stamped preceded =>
    exact (timely.inserted onTime preparation appends stamped
      preceded).subset ((chained.prepared preparation).pruned_pruneAfterInsert
        appends call.cfg).subset

theorem latestFileRevision_other (chained : Chained codec store.revisions)
    (timely : Timely store.revisions)
    (onTime : OnTime store call) (committed : record codec call store = some (after, id))
    (otherFile : other ≠ (upsertHistoryFile store.files call.path).2) :
    latestFileRevision after.revisions other = latestFileRevision store.revisions other := by
  cases committed_of_record committed with
  | skipped | repeated => rfl
  | @inserted prepared row _ preparation appends _ stamped preceded =>
    have ready := chained.prepared preparation
    have inserted := timely.inserted onTime preparation appends stamped preceded
    have whole := ready.pruned_pruneAfterInsert appends call.cfg
    have same : ∀ candidate : RevisionRow Hash, candidate.fileId = other →
        (candidate ∈ prepared ++ [row] ↔ candidate ∈ store.revisions) := by
      rintro candidate rfl
      rw [List.mem_append, List.mem_singleton, or_iff_left, preceded.mem_iff otherFile]
      intro equal
      rw [equal] at otherFile
      exact otherFile stamped.fileId_eq
    cases found : latestFileRevision store.revisions other with
    | none =>
      rw [latestFileRevision_eq_none_iff] at found ⊢
      intro candidate remains sameFile
      exact found candidate ((same candidate sameFile).1 (whole.subset remains)) sameFile
    | some latest =>
      obtain ⟨isLatest, rfl⟩ := (latestFileRevision_eq_some_iff chained.ascending).1 found
      refine (latestFileRevision_eq_some_iff
        ((ready.appends appends).pruned whole).ascending).2 ⟨?_, rfl⟩
      refine isLatest_pruneAfterInsert ready appends inserted call.cfg
        ⟨(same latest rfl).2 isLatest.1, fun candidate member sameFile => ?_⟩
      exact isLatest.2 candidate ((same candidate sameFile).1 member) sameFile

theorem latestFileRevision_own (chained : Chained codec store.revisions)
    (changed : call.before ≠ call.after) (committed : record codec call store = some (after, id)) :
    ∃ newest, latestFileRevision after.revisions
    (upsertHistoryFile store.files call.path).2 = some newest ∧
    newest.id = id ∧ newest.recorded = call.after := by
  cases committed_of_record committed with
  | skipped same => exact absurd same changed
  | @repeated latest _ found sameHash =>
    refine ⟨latest, found, rfl, codec.contentHash_injective ?_⟩
    obtain ⟨_, stored, _⟩ := chained.stored latest (latestFileRevision_eq_some found).1
    rw [← stored.hash_eq, sameHash]
  | @inserted prepared row _ preparation appends recorded stamped preceded =>
    have ready := chained.prepared preparation
    have whole := ready.pruned_pruneAfterInsert appends call.cfg
    have inserted := isLatest_concat appends
    refine ⟨row, ?_, rfl, recorded⟩
    refine (latestFileRevision_eq_some_iff ((ready.appends appends).pruned whole).ascending).2
        ⟨?_, stamped.fileId_eq⟩
    exact inserted.subset whole.subset (whole.mem_of_safe inserted.1 ⟨rfl, rfl⟩)

end Recorded

structure Filled (files : List FileRow) (rows : List (RevisionRow Hash)) : Prop where
  written : ∀ row ∈ rows, row.payload ≠ []
  owned : ∀ row ∈ rows, ∃ file ∈ files, file.id = row.fileId
  populated : ∀ file ∈ files, ∃ row ∈ rows, row.fileId = file.id

def Bounded (budget : UInt64) (files : List FileRow) (rows : List (RevisionRow Hash)) : Prop :=
  historyTotalPayloadBytes rows ≤ budget.toNat ∨
    ∀ file ∈ files, (distinctChains rows file.id).length = 1

theorem distinctChains_ne_nil (member : row ∈ rows) : distinctChains rows row.fileId ≠ [] :=
  List.ne_nil_of_mem (mem_distinctChains.2 ⟨row, member, rfl, rfl⟩)

theorem Filled.single_of_no_candidates (filled : Filled files rows)
    (noneLeft : candidates rows protectedFileId protectedChain = [])
    (member : file ∈ files) : (distinctChains rows file.id).length = 1 := by
  obtain ⟨row, present, sameFile⟩ := filled.populated file member
  have nonempty := List.length_pos_of_ne_nil (distinctChains_ne_nil present)
  rw [sameFile] at nonempty
  by_contra different
  have several : 1 < (distinctChains rows file.id).length := by omega
  obtain ⟨other, listed, otherFile, unprotected⟩ :=
    exists_other_chain several (protectedChain.getD 0)
  have candidate : other ∈ candidates rows protectedFileId protectedChain := by
    refine mem_candidates_iff.2 ⟨listed, by rwa [otherFile], ?_⟩
    rintro ⟨_, isProtected⟩
    rw [isProtected, Option.getD_some] at unprotected
    exact unprotected rfl
  rw [noneLeft] at candidate
  cases candidate

theorem payloadBytes_pos (written : ∀ row ∈ rows, row.payload ≠ [])
    (member : row ∈ rows) : 0 < payloadBytes rows := by
  refine List.sum_pos_iff_exists_pos_nat.2 ⟨row.payload.length, ?_, ?_⟩
  · exact List.mem_map.2 ⟨row, member, rfl⟩
  · exact List.length_pos_of_ne_nil (written row member)

section

variable (filled : Filled files rows)
include filled

theorem Filled.dropGloballyOldestHistoryChain
    (protectedFileId : Nat) (protectedChain : Option Nat) :
    Filled files (FileHistory.dropGloballyOldestHistoryChain rows
    protectedFileId protectedChain).1 := by
  rcases dropGloballyOldestHistoryChain_cases rows protectedFileId
      protectedChain with ⟨_, same⟩ | ⟨row, candidate, _, dropped⟩
  · rw [same]
    exact filled
  · rw [dropped]
    refine ⟨fun other remains => filled.written other
      (List.mem_of_mem_filter remains), fun other remains =>
      filled.owned other (List.mem_of_mem_filter remains), ?_⟩
    intro file member
    obtain ⟨_, several, _⟩ := mem_candidates_iff.1 candidate
    by_cases sameFile : row.fileId = file.id
    · obtain ⟨other, present, otherFile, otherChain⟩ := exists_other_chain several row.chainId
      refine ⟨other, List.mem_filter.2 ⟨present, ?_⟩, otherFile.trans sameFile⟩
      exact decide_eq_true fun both => otherChain both.2
    · obtain ⟨other, present, otherFile⟩ := filled.populated file member
      refine ⟨other, List.mem_filter.2 ⟨present, ?_⟩, otherFile⟩
      exact decide_eq_true fun both =>
        sameFile (both.1.symm.trans otherFile)

theorem Filled.pruneServerHistoryRound
    (protectedFileId : Nat) (protectedChain : Option Nat) (cfg : FileHistoryConfiguration) :
    Filled files (FileHistory.pruneServerHistoryRound protectedFileId
    protectedChain cfg rows).1 := by
  rw [FileHistory.pruneServerHistoryRound]
  split
  · exact filled
  · exact filled.dropGloballyOldestHistoryChain protectedFileId protectedChain

theorem Filled.bounded_of_stop (stops : (FileHistory.pruneServerHistoryRound protectedFileId
    protectedChain cfg rows).2 = false) : Bounded cfg.perServerDiskBudget files
    (FileHistory.pruneServerHistoryRound protectedFileId protectedChain cfg rows).1 := by
  rw [FileHistory.pruneServerHistoryRound] at stops ⊢
  split at stops
  · rename_i small
    rw [if_pos small]
    exact .inl small
  · rename_i large
    rw [if_neg large]
    rcases dropGloballyOldestHistoryChain_cases rows protectedFileId
        protectedChain with ⟨noneLeft, same⟩ | ⟨row, candidate, _, dropped⟩
    · rw [same]
      exact .inr fun file member =>
        filled.single_of_no_candidates noneLeft member
    · rw [dropped] at stops
      have present := (mem_candidates_iff.1 candidate).1
      have positive : 0 < payloadBytes (chainRevisions rows row.fileId row.chainId) :=
        payloadBytes_pos (fun other listed => filled.written other
          (mem_chainRevisions_iff.1 listed).1) (mem_chainRevisions_iff.2 ⟨present, rfl, rfl⟩)
      have freed : payloadBytes (chainRevisions rows row.fileId row.chainId) = 0 := by
        simpa using stops
      omega

theorem Filled.pruneServerHistory
    (protectedFileId : Nat) (protectedChain : Option Nat) (cfg : FileHistoryConfiguration) :
    Filled files (FileHistory.pruneServerHistory rows protectedFileId protectedChain cfg) ∧
    (cfg.perServerDiskBudget ≠ 0 → Bounded cfg.perServerDiskBudget files
    (FileHistory.pruneServerHistory rows protectedFileId protectedChain cfg)) := by
  rw [FileHistory.pruneServerHistory]
  split
  · rename_i unlimited
    exact ⟨filled, fun limited => absurd unlimited limited⟩
  · refine ⟨Loop.loop_preserves (fun current filled =>
      filled.pruneServerHistoryRound protectedFileId protectedChain cfg) _
      filled, fun _ => ?_⟩
    refine Loop.loop_establishes List.length ?_ (fun current filled =>
      filled.pruneServerHistoryRound protectedFileId protectedChain cfg)
      (fun current filled => filled.bounded_of_stop) (Nat.lt_succ_self _)
      filled
    exact fun current goOn => length_pruneServerHistoryRound_lt goOn

end

theorem mem_upsertHistoryFile (member : file ∈ (upsertHistoryFile files path).1) :
    file ∈ files ∨ file.id = (upsertHistoryFile files path).2 := by
  cases found : files.find? (fun file => file.path = path) with
  | some known =>
    simp only [upsertHistoryFile, found] at member
    exact .inl member
  | none =>
    simp only [upsertHistoryFile, found, List.mem_append, List.mem_singleton] at member ⊢
    rcases member with old | rfl
    · exact .inl old
    · exact .inr rfl

theorem upsertHistoryFile_spec (files : List FileRow) (path : String) :
    files ⊆ (upsertHistoryFile files path).1 ∧ ∃ file ∈ (upsertHistoryFile files path).1,
    file.id = (upsertHistoryFile files path).2 := by
  cases found : files.find? (fun file => file.path = path) with
  | some known =>
    simp only [upsertHistoryFile, found]
    exact ⟨List.Subset.refl _, known, List.mem_of_find?_eq_some found, rfl⟩
  | none =>
    simp only [upsertHistoryFile, found]
    refine ⟨List.subset_append_left _ _, _,
      List.mem_append_right _ (List.mem_singleton_self _), rfl⟩

def Codec.Writes (codec : Codec Hash) : Prop := ∀ level dict content payload,
    codec.encodeAll level dict content = some payload → payload ≠ []

theorem Stamped.payload_ne_nil (stamped : Stamped codec fileId createdMs row)
    (writes : codec.Writes) : row.payload ≠ [] := by
  obtain ⟨level, dict, encoded⟩ := stamped.encoded
  exact writes level dict row.recorded row.payload encoded

theorem Filled.concat (written : ∀ other ∈ rows, other.payload ≠ [])
    (owned : ∀ other ∈ rows, ∃ file ∈ files, file.id = other.fileId)
    (populated : ∀ file ∈ files, file.id = row.fileId ∨ ∃ other ∈ rows, other.fileId = file.id)
    (rowWritten : row.payload ≠ []) (rowOwned : ∃ file ∈ files, file.id = row.fileId) :
    Filled files (rows ++ [row]) where
  written := by
    rw [List.forall_mem_append, List.forall_mem_singleton]
    exact ⟨written, rowWritten⟩
  owned := by
    rw [List.forall_mem_append, List.forall_mem_singleton]
    exact ⟨owned, rowOwned⟩
  populated := by
    intro file member
    rcases populated file member with own | ⟨other, present, sameFile⟩
    · exact ⟨row, List.mem_append_right _ (List.mem_singleton_self row), own.symm⟩
    · exact ⟨other, List.mem_append_left _ present, sameFile⟩

section Budget

variable [DecidableEq Hash] {call : RecordCall} {store : Store Hash}

omit [DecidableEq Hash] in
theorem Filled.inserted (filled : Filled store.files store.revisions) (writes : codec.Writes)
    (stamped : Stamped codec (upsertHistoryFile store.files call.path).2 call.nowMs row)
    (preceded : Preceded codec call store.revisions
    (upsertHistoryFile store.files call.path).2 prepared) :
    Filled (upsertHistoryFile store.files call.path).1 (prepared ++ [row]) := by
  obtain ⟨kept, own, ownListed, ownId⟩ := upsertHistoryFile_spec store.files call.path
  have owned : ∀ other ∈ store.revisions, ∃ file ∈ (upsertHistoryFile store.files call.path).1,
        file.id = other.fileId := by
    intro other present
    obtain ⟨file, listed, same⟩ := filled.owned other present
    exact ⟨file, kept listed, same⟩
  have populated : ∀ file ∈ (upsertHistoryFile store.files call.path).1,
      file.id = (upsertHistoryFile store.files call.path).2 ∨
        ∃ other ∈ store.revisions, other.fileId = file.id := by
    intro file member
    rcases mem_upsertHistoryFile member with known | isOwn
    · exact .inr (filled.populated file known)
    · exact .inl isOwn
  rcases preceded with rfl | ⟨_, base, rfl, baseStamped⟩
  · refine Filled.concat filled.written owned ?_
      (stamped.payload_ne_nil writes) ⟨own, ownListed, ?_⟩
    · rwa [stamped.fileId_eq]
    · rwa [stamped.fileId_eq]
  · have first : Filled (upsertHistoryFile store.files call.path).1
        (store.revisions ++ [base]) := by
      refine Filled.concat filled.written owned ?_
        (baseStamped.payload_ne_nil writes) ⟨own, ownListed, ?_⟩
      · rwa [baseStamped.fileId_eq]
      · rwa [baseStamped.fileId_eq]
    refine Filled.concat first.written first.owned
      (fun file member => .inr (first.populated file member))
      (stamped.payload_ne_nil writes) ⟨own, ownListed, ?_⟩
    rwa [stamped.fileId_eq]

theorem Filled.pruneAfterInsert (chained : Chained codec rows)
    (appends : Appends codec anchorInterval rows row)
    (filled : Filled files (rows ++ [row])) (cfg : FileHistoryConfiguration) : Filled files
    (FileHistory.pruneAfterInsert cfg (rows ++ [row]) row.fileId) ∧
    (cfg.perServerDiskBudget ≠ 0 → Bounded cfg.perServerDiskBudget files
    (FileHistory.pruneAfterInsert cfg (rows ++ [row]) row.fileId)) := by
  obtain ⟨pruned, others, rowRemains, same⟩ :=
    pruneAfterInsert_eq_pruneServerHistory chained appends cfg
  rw [same]
  refine Filled.pruneServerHistory ⟨fun other remains =>
    filled.written other (others.subset remains), fun other remains =>
    filled.owned other (others.subset remains), fun file member => ?_⟩
    row.fileId (some row.chainId) cfg
  by_cases own : file.id = row.fileId
  · exact ⟨row, rowRemains, own.symm⟩
  · obtain ⟨other, present, sameFile⟩ := filled.populated file member
    refine ⟨other, others.mem_of_safe present ?_, sameFile⟩
    rwa [sameFile]

omit [DecidableEq Hash] in
theorem Filled.repeated (filled : Filled store.files store.revisions)
    (bounded : Bounded budget store.files store.revisions)
    (found : latestFileRevision store.revisions
    (upsertHistoryFile store.files call.path).2 = some latest) :
    Filled (upsertHistoryFile store.files call.path).1 store.revisions ∧
    Bounded budget (upsertHistoryFile store.files call.path).1 store.revisions := by
  obtain ⟨present, sameFile, _⟩ := latestFileRevision_eq_some found
  obtain ⟨kept, _⟩ := upsertHistoryFile_spec store.files call.path
  have known : ∀ file ∈ (upsertHistoryFile store.files call.path).1,
      ∃ old ∈ store.files, old.id = file.id := by
    intro file member
    rcases mem_upsertHistoryFile member with old | own
    · exact ⟨file, old, rfl⟩
    · rw [own, ← sameFile]
      exact filled.owned latest present
  refine ⟨⟨filled.written, fun row member => ?_, fun file member => ?_⟩, ?_⟩
  · obtain ⟨file, listed, same⟩ := filled.owned row member
    exact ⟨file, kept listed, same⟩
  · obtain ⟨old, listed, same⟩ := known file member
    rw [← same]
    exact filled.populated old listed
  · refine bounded.imp_right fun single file member => ?_
    obtain ⟨old, listed, same⟩ := known file member
    rw [← same]
    exact single old listed

theorem Filled.recorded {after : Store Hash} {id : Nat} (chained : Chained codec store.revisions)
    (filled : Filled store.files store.revisions) (writes : codec.Writes)
    (committed : record codec call store = some (after, id))
    (limited : call.cfg.perServerDiskBudget ≠ 0)
    (bounded : Bounded call.cfg.perServerDiskBudget store.files store.revisions) :
    Filled after.files after.revisions ∧
    Bounded call.cfg.perServerDiskBudget after.files after.revisions := by
  cases committed_of_record committed with
  | skipped => exact ⟨filled, bounded⟩
  | repeated _ found => exact filled.repeated bounded found
  | inserted _ preparation appends _ stamped preceded =>
    obtain ⟨filledAfter, boundedAfter⟩ := Filled.pruneAfterInsert
      (chained.prepared preparation) appends (filled.inserted writes stamped preceded) call.cfg
    exact ⟨filledAfter, boundedAfter limited⟩

end Budget

section Runs

variable [DecidableEq Hash]

theorem Chained.records {after : Store Hash} {call : RecordCall}
    (chained : Chained codec store.revisions) (taken : Records codec store call after) :
    Chained codec after.revisions := by
  obtain ⟨id, committed⟩ := taken
  exact chained.recorded (record_cases committed)

theorem timely_of_reachable (reached : Reachable Initial (Guarded OnTime (Records codec))
    store) : Chained codec store.revisions ∧ Timely store.revisions := by
  induction reached with
  | start initial =>
    rw [initial]
    exact ⟨Chained.nil codec, List.forall_mem_nil _⟩
  | next call _ taken ih =>
    obtain ⟨chained, timely⟩ := ih
    refine ⟨chained.records taken.2, ?_⟩
    obtain ⟨onTime, id, committed⟩ := taken
    exact Timely.recorded chained timely onTime committed

theorem bounded_of_reachable (writes : codec.Writes) (limited : cfg.perServerDiskBudget ≠ 0)
    (reached : Reachable Initial (Guarded (fun _ call => call.cfg = cfg) (Records codec)) store) :
    Chained codec store.revisions ∧ Filled store.files store.revisions ∧
    Bounded cfg.perServerDiskBudget store.files store.revisions := by
  induction reached with
  | start initial =>
    rw [initial]
    exact ⟨Chained.nil codec, ⟨List.forall_mem_nil _, List.forall_mem_nil _,
      List.forall_mem_nil _⟩, .inr (List.forall_mem_nil _)⟩
  | next call _ taken ih =>
    obtain ⟨chained, filled, bounded⟩ := ih
    refine ⟨chained.records taken.2, ?_⟩
    obtain ⟨rfl, id, committed⟩ := taken
    exact Filled.recorded chained filled writes committed limited bounded

end Runs

def headedCodec : Codec Bytes where
  encodeAll _ _ content := some (0 :: content)
  decodeAll _ payload := some payload.tail
  contentHash := id
  decodeAll_encodeAll := by
    intro level dict content payload encoded
    rw [← Option.some.inj encoded, List.tail_cons]
  contentHash_injective := Function.injective_id

theorem headedCodec_writes : headedCodec.Writes := by
  intro level dict content payload encoded
  rw [← Option.some.inj encoded]
  exact List.cons_ne_nil 0 content

def recordAt (path : String) (byte : UInt8) (nowMs : Int) : RecordCall :=
  ⟨path, [], [byte], "", ⟨3, 1, 10, 1000, 5⟩, nowMs⟩

def byteRow (id : Nat) (byte : UInt8) (nowMs : Int) : RevisionRow Bytes where
  id := id
  fileId := 1
  chainId := id
  size := 1
  userId := none
  baseId := none
  payload := [0, byte]
  contentHash := [byte]
  created := nowMs
  recorded := [byte]

def recordedTwice (first second : Int) : Store Bytes :=
  ⟨[⟨1, "a"⟩], [byteRow 1 1 first, byteRow 2 2 second]⟩

end Wings.FileHistory

namespace Wings.FileHistory

section Pruning

variable {Hash : Type}

theorem nodup_distinctChains (rows : List (RevisionRow Hash)) (fileId : Nat) :
    (distinctChains rows fileId).Nodup :=
  (List.perm_insertionSort _ _).nodup_iff.2 (List.nodup_dedup _)

theorem mem_take_of_le (last : oldest ∈ (distinctChains rows fileId).take count)
    (listed : chain ∈ distinctChains rows fileId) (newer : oldest ≤ chain) :
    chain ∈ (distinctChains rows fileId).take count := by
  have sorted : (distinctChains rows fileId).Pairwise (· ≥ ·) := List.pairwise_insertionSort _ _
  have nodup := nodup_distinctChains rows fileId
  rw [← List.take_append_drop count (distinctChains _ _)] at listed sorted nodup
  rcases List.mem_append.1 listed with early | late
  · exact early
  · have below := (List.pairwise_append.1 sorted).2.2 oldest last chain late
    have same : oldest = chain := Nat.le_antisymm newer below
    subst same
    exact absurd late ((List.disjoint_of_nodup_append nodup) last)

theorem mem_take_of_mem_pruned (positive : 0 < keepChains.toNat) (listed : chain ∈ distinctChains
    (pruneOldHistoryChains rows fileId keepChains) fileId) :
    chain ∈ (distinctChains rows fileId).take keepChains.toNat := by
  simp only [pruneOldHistoryChains] at listed
  split at listed
  · rename_i none
    rw [List.getLast?_eq_none_iff, List.take_eq_nil_iff] at none
    rw [none.resolve_left positive.ne'] at listed
    cases listed
  · rename_i oldest last
    split_ifs at listed with few
    · rw [List.take_of_length_le]
      · exact listed
      · rw [List.length_take] at few
        omega
    · obtain ⟨row, member, sameFile, rfl⟩ := mem_distinctChains.1 listed
      obtain ⟨present, kept⟩ := List.mem_filter.1 member
      refine mem_take_of_le (List.mem_of_getLast? last)
        (mem_distinctChains.2 ⟨row, present, sameFile, rfl⟩) ?_
      exact Nat.not_lt.1 fun older =>
        of_decide_eq_true kept ⟨sameFile, older⟩

theorem toNat_maxUint64_pos (value : UInt64) : 0 < (maxUint64 value 1).toNat := by
  rw [maxUint64]
  split_ifs with zero
  · decide
  · exact Nat.pos_of_ne_zero fun none => zero (UInt64.toNat_inj.1 none)

theorem pruneHistory_eq (rows : List (RevisionRow Hash)) (fileId : Nat)
    (protectedChain : Option Nat) (cfg : FileHistoryConfiguration) :
    pruneHistory rows fileId protectedChain cfg =
    pruneOldHistoryChains rows fileId (maxUint64 cfg.keepChains 1) := by
  have positive := toNat_maxUint64_pos cfg.keepChains
  have same : maxUint64 (maxUint64 cfg.keepChains 1) 1 = maxUint64 cfg.keepChains 1 := by
    rw [maxUint64, if_neg]
    intro zero
    rw [zero] at positive
    cases positive
  have few : (distinctChains (pruneOldHistoryChains rows fileId
      (maxUint64 cfg.keepChains 1)) fileId).length ≤ (maxUint64 cfg.keepChains 1).toNat :=
    (List.subperm_of_subset (nodup_distinctChains _ _) fun _ =>
      mem_take_of_mem_pruned positive).length_le.trans (List.length_take_le _ _)
  rw [pruneHistory]
  apply Loop.loop_of_stop
  rw [pruneHistoryRound]
  split_ifs
  · rfl
  · rw [dropOldestHistoryChain, same, if_pos few]
    rfl

end Pruning

section Record

variable {Hash : Type}

/-- The file takes no more than its budget, or only its newest chain is left. -/
def FileBounded (cfg : FileHistoryConfiguration) (fileId : Nat)
    (before after : List (RevisionRow Hash)) : Prop :=
  historyFilePayloadBytes after fileId ≤ cfg.perFileDiskBudget.toNat ∨
    ∀ row ∈ after, row.fileId = fileId → ∀ other ∈ before ++ after,
      other.fileId = fileId → other.chainId ≤ row.chainId

instance (cfg : FileHistoryConfiguration) (fileId : Nat) (before after : List (RevisionRow Hash)) :
    Decidable (FileBounded cfg fileId before after) := inferInstanceAs (Decidable (_ ∨ _))

theorem pruneAfterInsert_subset (cfg : FileHistoryConfiguration)
    (rows : List (RevisionRow Hash)) (fileId : Nat) : pruneAfterInsert cfg rows fileId ⊆ rows :=
  fun _ kept => (pruned_pruneHistory_others _ _ _ _).subset (pruneServerHistory_subset kept)

theorem chainId_le_of_single (single : cfg.keepChains ≤ 1)
    (kept : row ∈ pruneAfterInsert cfg rows fileId)
    (sameFile : row.fileId = fileId) (known : other ∈ rows)
    (otherFile : other.fileId = fileId) : other.chainId ≤ row.chainId := by
  have one : maxUint64 cfg.keepChains 1 = 1 := by
    rw [maxUint64]
    split_ifs with zero
    · rfl
    · exact UInt64.le_antisymm single (UInt64.le_iff_toNat_le.2
        (Nat.pos_of_ne_zero fun none => zero (UInt64.toNat_inj.1 none)))
  have left : row ∈ pruneOldHistoryChains rows fileId 1 := by
    rw [← one, ← pruneHistory_eq rows fileId (latestHistoryChainID rows fileId)]
    exact pruneServerHistory_subset kept
  have positive : 0 < UInt64.toNat 1 := Nat.one_pos
  have newest : row.chainId ∈ (distinctChains rows fileId).take 1 := mem_take_of_mem_pruned positive
      (mem_distinctChains.2 ⟨row, left, sameFile, rfl⟩)
  have listed := mem_distinctChains.2 ⟨other, known, otherFile, rfl⟩
  by_contra newer
  have also := mem_take_of_le newest listed (Nat.le_of_not_le newer)
  rcases chains : distinctChains rows fileId with _ | ⟨head, rest⟩
  · rw [chains] at listed
    cases listed
  · simp only [chains, List.take_succ_cons, List.take_zero, List.mem_singleton] at newest also
    omega

variable [DecidableEq Hash] {codec : Codec Hash} {id : Nat}

theorem fileBounded_of_single (committed : record codec call store = some (after, id))
    (stored : after.revisions ≠ store.revisions) (single : call.cfg.keepChains ≤ 1) :
    FileBounded call.cfg (upsertHistoryFile store.files call.path).2
    store.revisions after.revisions := by
  cases committed_of_record committed with
  | skipped | repeated => exact absurd rfl stored
  | @inserted prepared row _ preparation _ _ stamped _ =>
    refine .inr fun left kept sameFile other known otherFile => ?_
    rw [← stamped.fileId_eq] at sameFile otherFile
    refine chainId_le_of_single single kept sameFile ?_ otherFile
    rcases List.mem_append.1 known with old | remains
    · apply List.mem_append_left
      cases preparation with
      | unchanged => exact old
      | previous => exact List.mem_append_left _ old
    · exact pruneAfterInsert_subset call.cfg _ _ remains

end Record

/-- Record a byte of the first file, with chains to keep and a budget of three
bytes. -/
def recordChain (keepChains : UInt64) : RecordCall :=
  ⟨"a", [], [2], "", ⟨3, 1, keepChains, 3, 0⟩, 100⟩

def recordedOnce : Store Bytes := ⟨[⟨1, "a"⟩], [byteRow 1 1 50]⟩

end Wings.FileHistory
