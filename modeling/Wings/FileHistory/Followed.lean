import Wings.FileHistory.Store
import Wings.Library.Transition

/-!
# History of renamed and deleted files

Once an entry has been renamed or deleted, so is the row of its path. Rows of paths below it are
left as they are, and so is the row of a path that is renamed to one with a row.
-/

namespace Wings.FileHistory

open Transition

variable {Hash : Type}

def Store.list (store : Store Hash) (path : String) : List (RevisionRow Hash) :=
  match store.files.find? (fun file => file.path = path) with
  | none => []
  | some file => (fileRevisions store.revisions file.id).reverse

def FileRow.renamed (oldPath newPath : String) (file : FileRow) : FileRow :=
  if file.path = oldPath then { file with path := newPath } else file

def renameFileHistory (store : Store Hash) (oldPath newPath : String) : Store Hash :=
  (renameFile store oldPath newPath).getD store

inductive Entry where
  | rename (fromPath toPath : String) (renamed : Bool)
  | delete (path : String) (deleted : Bool)

def Entry.apply (store : Store Hash) : Entry → Store Hash
  | .rename fromPath toPath renamed =>
    if fromPath ≠ toPath ∧ renamed = true then
      renameFileHistory store fromPath toPath
    else store
  | .delete path deleted => if deleted then deleteFile store path else store

def Steps (store : Store Hash) (entry : Entry) (after : Store Hash) : Prop :=
  after = entry.apply store

def below (path rest : String) : String := path ++ "/" ++ rest

/-- What was listed for a renamed path or below it is listed for the new one instead, and nothing is
listed for a deleted path or below it. -/
def Followed (before after : Store Hash) : Entry → Prop
  | .rename fromPath toPath renamed =>
    fromPath ≠ toPath → renamed = true → ∀ path target, (path = fromPath ∧ target = toPath ∨
        ∃ rest, path = below fromPath rest ∧ target = below toPath rest) →
      ∀ row ∈ before.list path, row ∈ after.list target ∧
        ∀ other, row ∈ after.list other → other = target
  | .delete path deleted =>
    deleted = true → after.list path = [] ∧ ∀ rest, after.list (below path rest) = []

/-- Nothing is listed below the path, and a listed path is renamed to one without a row. -/
def Alone (store : Store Hash) : Entry → Prop
  | .rename fromPath toPath renamed =>
    fromPath ≠ toPath → renamed = true → (∀ rest, store.list (below fromPath rest) = []) ∧
      (store.list fromPath ≠ [] → ∀ file ∈ store.files, file.path ≠ toPath)
  | .delete path deleted =>
    deleted = true → ∀ rest, store.list (below path rest) = []

structure Keyed (store : Store Hash) : Prop where
  paths : (store.files.map FileRow.path).Nodup
  ids : (store.files.map FileRow.id).Nodup

theorem below_ne (path rest : String) : below path rest ≠ path := by
  intro same
  have lengths := congrArg String.length same
  simp only [below, String.length_append] at lengths
  have slash : "/".length = 1 := rfl
  omega

theorem below_inj (same : below oldPath rest = below newPath rest) : oldPath = newPath := by
  simpa [below] using same

namespace Keyed

theorem eq_of_path (keyed : Keyed store) (known : file ∈ store.files)
    (otherKnown : other ∈ store.files) (same : file.path = other.path) : file = other :=
  List.inj_on_of_nodup_map keyed.paths known otherKnown same

theorem eq_of_id (keyed : Keyed store) (known : file ∈ store.files)
    (otherKnown : other ∈ store.files) (same : file.id = other.id) : file = other :=
  List.inj_on_of_nodup_map keyed.ids known otherKnown same

theorem mem_list_iff (keyed : Keyed store) : row ∈ store.list path ↔ row ∈ store.revisions ∧
    ∃ file ∈ store.files, file.path = path ∧ file.id = row.fileId := by
  rw [Store.list]
  cases found : store.files.find? (fun file => file.path = path) with
  | none =>
    refine iff_of_false List.not_mem_nil ?_
    rintro ⟨_, file, known, rfl, _⟩
    simpa using List.find?_eq_none.1 found file known
  | some file =>
    have named : file.path = path := by simpa using List.find?_some found
    have known := List.mem_of_find?_eq_some found
    simp only [List.mem_reverse, fileRevisions, List.mem_filter, decide_eq_true_eq]
    refine and_congr_right fun _ => ⟨fun same => ?_, ?_⟩
    · exact ⟨file, known, named, same.symm⟩
    · rintro ⟨other, otherKnown, otherNamed, same⟩
      rw [keyed.eq_of_path known otherKnown (named.trans otherNamed.symm), same]

theorem delete (keyed : Keyed store) (path : String) : Keyed (deleteFile store path) :=
  ⟨keyed.paths.sublist (List.filter_sublist.map _), keyed.ids.sublist (List.filter_sublist.map _)⟩

theorem renameFileHistory_eq (store : Store Hash) (different : oldPath ≠ newPath) :
    ((∃ file ∈ store.files, file.path = newPath) ∧
        renameFileHistory store oldPath newPath = store) ∨
      ((∃ file ∈ store.files, file.path = oldPath) → ∀ file ∈ store.files, file.path ≠ newPath) ∧
        renameFileHistory store oldPath newPath = { store with
          files := store.files.map (FileRow.renamed oldPath newPath) } := by
  rw [renameFileHistory, renameFile]
  split_ifs with taken
  · exact .inl ⟨taken.2.2, rfl⟩
  · exact .inr ⟨fun old file known named =>
      taken ⟨old, different, file, known, named⟩, rfl⟩

theorem rename (keyed : Keyed store) (different : oldPath ≠ newPath) :
    Keyed (renameFileHistory store oldPath newPath) := by
  rcases renameFileHistory_eq store different with
    ⟨_, same⟩ | ⟨free, renamed⟩
  · rwa [same]
  rw [renamed]
  constructor
  · rw [List.map_map]
    refine List.Nodup.map_on ?_ (List.Nodup.of_map _ keyed.paths)
    intro file known other otherKnown same
    simp only [Function.comp_apply, FileRow.renamed] at same
    split_ifs at same with isOld otherOld otherOld
    · exact keyed.eq_of_path known otherKnown (isOld.trans otherOld.symm)
    · exact absurd same.symm (free ⟨file, known, isOld⟩ other otherKnown)
    · exact absurd same (free ⟨other, otherKnown, otherOld⟩ file known)
    · exact keyed.eq_of_path known otherKnown same
  · rw [List.map_map, List.map_congr_left (g := FileRow.id)]
    · exact keyed.ids
    · intro file _
      simp only [Function.comp_apply, FileRow.renamed]
      split_ifs <;> rfl

theorem step (keyed : Keyed store) (taken : Steps store entry after) : Keyed after := by
  subst taken
  cases entry with
  | rename fromPath toPath renamed =>
    rw [Entry.apply]
    split_ifs with done
    · exact keyed.rename done.1
    · exact keyed
  | delete path deleted =>
    rw [Entry.apply]
    split_ifs
    · exact keyed.delete path
    · exact keyed

theorem mem_list_deleteFile (keyed : Keyed store) :
    row ∈ (deleteFile store path).list other ↔ other ≠ path ∧ row ∈ store.list other := by
  rw [(keyed.delete path).mem_list_iff, keyed.mem_list_iff]
  simp only [deleteFile, List.mem_filter, decide_eq_true_eq]
  constructor
  · rintro ⟨⟨stored, _⟩, file, ⟨known, remains⟩, rfl, same⟩
    exact ⟨remains, stored, file, known, rfl, same⟩
  · rintro ⟨remains, stored, file, known, rfl, same⟩
    refine ⟨⟨stored, ?_⟩, file, ⟨known, remains⟩, rfl, same⟩
    rintro ⟨other, otherKnown, rfl, otherSame⟩
    exact remains (congrArg FileRow.path
      (keyed.eq_of_id known otherKnown (same.trans otherSame.symm)))

theorem mem_list_renamed (keyed : Keyed store) (different : oldPath ≠ newPath)
    (renamed : renameFileHistory store oldPath newPath = { store with
      files := store.files.map (FileRow.renamed oldPath newPath) }) :
    row ∈ (renameFileHistory store oldPath newPath).list path ↔
      row ∈ store.list oldPath ∧ path = newPath ∨ row ∈ store.list path ∧ path ≠ oldPath := by
  rw [(keyed.rename different).mem_list_iff, keyed.mem_list_iff, keyed.mem_list_iff, renamed]
  simp only [List.mem_map]
  constructor
  · rintro ⟨stored, _, ⟨file, known, rfl⟩, named, same⟩
    rw [FileRow.renamed] at named same
    split_ifs at named same with isOld
    · exact .inl ⟨⟨stored, file, known, isOld, same⟩, named.symm⟩
    · exact .inr ⟨⟨stored, file, known, named, same⟩, named ▸ isOld⟩
  · rintro (⟨⟨stored, file, known, isOld, same⟩, rfl⟩ | ⟨⟨stored, file, known, rfl, same⟩, other⟩)
    · refine ⟨stored, _, ⟨file, known, rfl⟩, ?_⟩
      rw [FileRow.renamed, if_pos isOld]
      exact ⟨rfl, same⟩
    · refine ⟨stored, _, ⟨file, known, rfl⟩, ?_⟩
      rw [FileRow.renamed, if_neg other]
      exact ⟨rfl, same⟩

theorem mem_list_of_ne (keyed : Keyed store) (different : oldPath ≠ newPath)
    (other : path ≠ oldPath) (listed : row ∈ store.list path) :
    row ∈ (renameFileHistory store oldPath newPath).list path := by
  rcases renameFileHistory_eq store different with ⟨_, same⟩ | ⟨_, moved⟩
  · rwa [same]
  · exact (keyed.mem_list_renamed different moved).2 (.inr ⟨listed, other⟩)

theorem exists_of_list (keyed : Keyed store) (nonempty : store.list path ≠ []) :
    ∃ file ∈ store.files, file.path = path := by
  obtain ⟨row, listed⟩ := List.exists_mem_of_ne_nil _ nonempty
  obtain ⟨_, file, known, named, _⟩ := keyed.mem_list_iff.1 listed
  exact ⟨file, known, named⟩

theorem rename_followed_iff (keyed : Keyed store) (different : oldPath ≠ newPath) :
    Followed store (renameFileHistory store oldPath newPath)
    (.rename oldPath newPath true) ↔ Alone store (.rename oldPath newPath true) := by
  simp only [Followed, Alone, different, ne_eq, not_false_eq_true, true_imp_iff]
  constructor
  · intro followed
    refine ⟨fun rest => List.eq_nil_iff_forall_not_mem.2 fun row listed => ?_,
      fun nonempty file known named => ?_⟩
    · have stays := keyed.mem_list_of_ne different (below_ne _ _) listed
      exact different (below_inj ((followed _ _ (.inr ⟨rest, rfl, rfl⟩) row listed).2 _ stays))
    · obtain ⟨row, listed⟩ := List.exists_mem_of_ne_nil _ nonempty
      rcases renameFileHistory_eq store different with
        ⟨_, same⟩ | ⟨free, _⟩
      · rw [same] at followed
        exact different ((followed _ _ (.inl ⟨rfl, rfl⟩) row listed).2 _ listed)
      · exact free (keyed.exists_of_list nonempty) file known named
  · rintro ⟨nothing, free⟩ path target corresponds row listed
    rcases corresponds with ⟨rfl, rfl⟩ | ⟨rest, rfl, rfl⟩
    · rcases renameFileHistory_eq store different with
        ⟨⟨file, known, named⟩, _⟩ | ⟨_, moved⟩
      · exact absurd named (free (List.ne_nil_of_mem listed) file known)
      · simp only [keyed.mem_list_renamed different moved]
        refine ⟨.inl ⟨listed, trivial⟩, fun other found => ?_⟩
        rcases found with ⟨_, same⟩ | ⟨again, elsewhere⟩
        · exact same
        · obtain ⟨_, file, known, named, same⟩ := keyed.mem_list_iff.1 listed
          obtain ⟨_, twin, twinKnown, twinNamed, twinSame⟩ := keyed.mem_list_iff.1 again
          rw [keyed.eq_of_id known twinKnown (same.trans twinSame.symm)] at named
          exact absurd (twinNamed.symm.trans named) elsewhere
    · rw [nothing rest] at listed
      cases listed

theorem delete_followed_iff (keyed : Keyed store) :
    Followed store (deleteFile store path) (.delete path true) ↔
    Alone store (.delete path true) := by
  simp only [Followed, Alone, true_imp_iff, List.eq_nil_iff_forall_not_mem,
    keyed.mem_list_deleteFile]
  constructor
  · intro followed rest row listed
    exact followed.2 rest row ⟨below_ne _ _, listed⟩
  · intro nothing
    exact ⟨fun _ found => found.1 rfl, fun rest row found =>
      nothing rest row found.2⟩

end Keyed

private def listedRow : RevisionRow Unit := ⟨1, 1, 1, 0, none, none, [], (), 0, []⟩

private def oneFile (path : String) : Store Unit := ⟨[⟨1, path⟩], [listedRow]⟩

end Wings.FileHistory
