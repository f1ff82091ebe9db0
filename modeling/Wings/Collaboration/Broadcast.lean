import Wings.Collaboration.Session
import Wings.Library.Splice

/-!
# The edits that are broadcast

Operations walk over runes; edits replace ranges of UTF-16 code units. The edits are the splices of
the operation, read on the encoded text.
-/

namespace Wings.Collaboration

open TextOperation (Act Component Operations Splice applyComponents)
open Conversion (flush step)

variable {Seq : Type}

def TextEdit.unitSplice (edit : TextEdit) : Option (Splice Nat) :=
  match edit.text with
  | none => none
  | some text =>
    if 0 ≤ edit.rangeOffset ∧ 0 ≤ edit.rangeLength then
      some ⟨edit.rangeOffset.toNat, edit.rangeLength.toNat, utf16Encode text⟩
    else none

def applyEdits (changes : List TextEdit) (units : List Nat) : Option (List Nat) :=
  (changes.mapM TextEdit.unitSplice).bind fun splices =>
    Splice.applyFrom 0 splices units

def unitOffset (content : Text) (rune : Nat) : Nat := Splice.encodedLength utf16Units content rune

theorem length_utf16Units (rune : Char) :
    (utf16Units rune).length = if rune.toNat > 0xffff then 2 else 1 := by
  unfold utf16Units
  split_ifs <;> first | rfl | omega

theorem unitOffset_cons_succ (first : Char) (rest : Text) (rune : Nat) :
    unitOffset (first :: rest) (rune + 1) = (utf16Units first).length + unitOffset rest rune := by
  simp [unitOffset, Splice.encodedLength]

theorem getElem?_utf16Prefix (content : Text) (inside : rune ≤ content.length) :
    (utf16Prefix content)[rune]? = some (unitOffset content rune) := by
  have folded : ∀ (runes : Text) (total : Nat), runes.foldl (fun total rune =>
        if rune.toNat > 0xffff then total + 1 + 1 else total + 1) total =
      total + (runes.flatMap utf16Units).length := by
    intro runes
    induction runes with
    | nil => simp
    | cons first rest ih =>
      intro total
      rw [List.foldl_cons, ih, List.flatMap_cons, List.length_append, length_utf16Units]
      split_ifs <;> omega
  rw [utf16Prefix, List.getElem?_scanl, if_pos inside, folded, Nat.zero_add]
  rfl

theorem unitOffset_lt (before : rune < later) (inside : later ≤ content.length) :
    unitOffset content rune < unitOffset content later := by
  induction content generalizing rune later with
  | nil =>
    simp at inside
    omega
  | cons first rest ih =>
    obtain ⟨later, rfl⟩ := Nat.exists_eq_succ_of_ne_zero (Nat.ne_zero_of_lt before)
    have positive : 0 < (utf16Units first).length := by
      rw [length_utf16Units]
      split_ifs <;> decide
    rw [Nat.succ_eq_add_one, unitOffset_cons_succ]
    cases rune with
    | zero => exact Nat.add_pos_left positive _
    | succ rune =>
      rw [unitOffset_cons_succ]
      have := ih (Nat.lt_of_succ_lt_succ before) (Nat.le_of_succ_le_succ inside)
      omega

theorem runeOffset_unitOffset (inside : rune ≤ content.length) :
    runeOffset (utf16Prefix content) (unitOffset content rune) = some rune := by
  have size : (utf16Prefix content).length = content.length + 1 := by
    rw [utf16Prefix, List.length_scanl]
  have entry : ∀ index (inRange : index < (utf16Prefix content).length),
      (utf16Prefix content)[index] = unitOffset content index := by
    intro index inRange
    apply Option.some.inj
    rw [← List.getElem?_eq_getElem inRange]
    exact getElem?_utf16Prefix content (by omega)
  have found : (utf16Prefix content).findIdx (fun (offset : Nat) =>
      (unitOffset content rune : Int) ≤ offset) = rune := by
    rw [List.findIdx_eq (by omega)]
    refine ⟨?_, ?_⟩
    · rw [entry, decide_eq_true_iff]
    · intro earlier before
      rw [entry, decide_eq_false_iff_not]
      have := unitOffset_lt before inside
      omega
  simp only [runeOffset, found, getElem?_utf16Prefix content inside, if_true]

theorem unitOffset_le (before : rune ≤ later) (inside : later ≤ content.length) :
    unitOffset content rune ≤ unitOffset content later := by
  rcases Nat.eq_or_lt_of_le before with rfl | less
  · exact Nat.le_refl _
  · exact (unitOffset_lt less inside).le

def toEdit (content : Text) (splice : Splice Char) : TextEdit where
  rangeOffset := unitOffset content splice.offset
  rangeLength := unitOffset content splice.stop - unitOffset content splice.offset
  text := some splice.inserted
  baseHash := contentHash content
  baseLength := utf16Len content

theorem unitSplice_toEdit (inside : splice.stop ≤ content.length) :
    (toEdit content splice).unitSplice = some (splice.encoded utf16Units content) := by
  have ordered := unitOffset_le (Nat.le_add_right _ _) inside
  have natural : 0 ≤ (toEdit content splice).rangeOffset ∧
      0 ≤ (toEdit content splice).rangeLength := by
    simp only [toEdit]
    unfold Splice.stop at ordered ⊢
    omega
  have size : (toEdit content splice).rangeLength.toNat =
      unitOffset content splice.stop - unitOffset content splice.offset := by
    simp only [toEdit]
    omega
  refine (if_pos natural).trans ?_
  rw [size]
  rfl

variable {splices : List (Splice Char)}

theorem mapM_unitSplice_toEdit (inside : ∀ splice ∈ splices, splice.stop ≤ content.length) :
    (splices.map (toEdit content)).mapM TextEdit.unitSplice =
    some (splices.map (Splice.encoded utf16Units content)) := by
  induction splices with
  | nil => rfl
  | cons splice rest ih =>
    rw [List.forall_mem_cons] at inside
    rw [List.map_cons, List.mapM_cons, unitSplice_toEdit inside.1, ih inside.2]
    rfl

theorem applyEdits_map_toEdit (applied : Splice.applyFrom 0 splices content = some after) :
    applyEdits (splices.map (toEdit content)) (utf16Encode content) = some (utf16Encode after) := by
  have inside : ∀ splice ∈ splices, splice.stop ≤ content.length := by
    intro splice member
    have bounded := ((Splice.pairwise_of_applyFrom applied).2 splice member).2
    rwa [Nat.zero_add] at bounded
  have encoded : Splice.applyFrom 0 (splices.map (Splice.encoded utf16Units content))
        (content.flatMap utf16Units) = some (after.flatMap utf16Units) :=
    Splice.applyFrom_encoded utf16Units
      (show Splice.applyFrom ([] : Text).length splices content = some after from applied)
  rw [applyEdits, mapM_unitSplice_toEdit inside]
  exact encoded

structure Conversion.Represents (content : Text) (conversion : Conversion)
    (pending : Splice Char) (made : List (Splice Char)) : Prop where
  source : conversion.sourceRune = pending.stop
  inside : pending.stop ≤ content.length
  changes : conversion.changes = made.map (toEdit content)
  edit : conversion.pending = some (toEdit content pending) ∨
    conversion.pending = none ∧ pending = .emptyAt conversion.sourceRune

namespace Conversion.Represents

variable {conversion : Conversion} {pending : Splice Char}

section

variable (represents : conversion.Represents content pending made)
include represents

theorem flush_eq :
    conversion.flush = ⟨pending.stop, none, (made ++ pending.flushed).map (toEdit content)⟩ := by
  obtain ⟨sourceRune, current, changes⟩ := conversion
  obtain ⟨rfl, inside, rfl, rfl | ⟨rfl, empty⟩⟩ := represents
  · have moved : (toEdit content pending).rangeLength ≠ 0 ↔ pending.length ≠ 0 := by
      simp only [toEdit, Splice.stop] at inside ⊢
      rcases Nat.eq_zero_or_pos pending.length with none | positive
      · simp [none]
      · have less := unitOffset_lt (Nat.lt_add_of_pos_right positive) inside
        omega
    have inserted : (toEdit content pending).text ≠ some [] ↔ pending.inserted ≠ [] := by
      simp [toEdit]
    simp only [flush, Splice.flushed, moved, inserted]
    split_ifs <;> simp
  · rw [empty]
    simp [flush, Splice.flushed, Splice.emptyAt, Splice.stop]

theorem pendingEdit_eq : conversion.pendingEdit content = .ok (toEdit content pending) := by
  obtain ⟨sourceRune, current, changes⟩ := conversion
  obtain ⟨rfl, inside, rfl, rfl | ⟨rfl, empty⟩⟩ := represents
  · rfl
  · have position : pending.offset = pending.stop := by
      rw [empty]
      rfl
    simp only [Conversion.pendingEdit, getElem?_utf16Prefix content inside]
    rw [toEdit, position, sub_self, empty]
    rfl

theorem retain (inside : pending.stop + n ≤ content.length) :
    ∃ next, step content conversion (.retain n) = .ok next ∧
    next.Represents content (.emptyAt (pending.stop + n)) (made ++ pending.flushed) := by
  refine ⟨_, rfl, ?_⟩
  rw [represents.flush_eq, represents.source]
  exact ⟨rfl, inside, rfl, .inr ⟨rfl, rfl⟩⟩

theorem insert (text : Text) : ∃ next, step content conversion (.insert text) = .ok next ∧
      next.Represents content { pending with inserted := pending.inserted ++ text } made := by
  simp only [step, represents.pendingEdit_eq]
  exact ⟨_, rfl, represents.source, represents.inside, represents.changes, .inl rfl⟩

theorem delete (inside : pending.stop + n ≤ content.length) :
    ∃ next, step content conversion (.delete n) = .ok next ∧
      next.Represents content { pending with length := pending.length + n }
        made := by
  have source := represents.source
  simp only [step, represents.pendingEdit_eq, source,
    if_neg (Nat.not_lt.mpr inside), getElem?_utf16Prefix content inside,
    getElem?_utf16Prefix content represents.inside]
  refine ⟨_, rfl, Nat.add_assoc _ _ _, ?_, represents.changes, .inl ?_⟩
  · rw [Splice.stop, ← Nat.add_assoc]
    exact inside
  · simp only [toEdit, Splice.stop, Nat.add_assoc, Option.some.injEq,
      TextEdit.mk.injEq, true_and, and_true]
    omega

theorem components {components : List (Component Char)} {after : Text}
    (applied : applyComponents components (content.drop pending.stop) = some after) : ∃ last,
    components.foldlM (step content) conversion = .ok last ∧
    last.sourceRune = content.length ∧ last.flush.changes =
    (made ++ Splice.ofComponents pending components).map (toEdit content) := by
  induction components generalizing conversion pending made after with
  | nil =>
    have ended : content.length ≤ pending.stop := by
      cases rest : content.drop pending.stop with
      | nil => exact List.drop_eq_nil_iff.mp rest
      | cons symbol text => simp [rest, applyComponents] at applied
    refine ⟨conversion, rfl, ?_, ?_⟩
    · rw [represents.source]
      exact Nat.le_antisymm represents.inside ended
    · rw [represents.flush_eq]
      rfl
  | cons component rest ih =>
    rw [List.foldlM_cons]
    cases component with
    | retain n =>
      rw [applyComponents, List.length_drop, List.drop_drop] at applied
      split_ifs at applied with short
      obtain ⟨tail, walked, rfl⟩ := Option.map_eq_some_iff.mp applied
      have inside := represents.inside
      obtain ⟨next, stepped, follows⟩ := represents.retain
        (show pending.stop + n ≤ content.length by omega)
      obtain ⟨last, folded, ends, changes⟩ := ih follows walked
      rw [stepped]
      exact ⟨last, folded, ends, by
        rw [changes, List.append_assoc, Splice.ofComponents]⟩
    | insert text =>
      obtain ⟨tail, walked, rfl⟩ := Option.map_eq_some_iff.mp applied
      obtain ⟨next, stepped, follows⟩ := represents.insert text
      obtain ⟨last, folded, ends, changes⟩ := ih follows walked
      rw [stepped]
      exact ⟨last, folded, ends, changes⟩
    | delete n =>
      rw [applyComponents, List.length_drop, List.drop_drop] at applied
      split_ifs at applied with short
      have inside := represents.inside
      obtain ⟨next, stepped, follows⟩ := represents.delete
        (show pending.stop + n ≤ content.length by omega)
      rw [Splice.stop, Nat.add_assoc] at applied
      obtain ⟨last, folded, ends, changes⟩ := ih follows applied
      rw [stepped]
      exact ⟨last, folded, ends, changes⟩

end

end Conversion.Represents

def splicesOf (library : Operations Char Seq) (operation : Seq) : List (Splice Char) :=
  Splice.ofComponents (.emptyAt 0) (library.ops operation)

theorem operationToChanges_eq (applied : library.apply operation content = some after) :
    operationToChanges library content operation =
    .ok ((splicesOf library operation).map (toEdit content)) := by
  have length := library.length_of_apply _ _ _ applied
  rw [library.apply_ops] at applied
  have starts : Conversion.Represents content ⟨0, none, []⟩ (.emptyAt 0) [] :=
    ⟨rfl, Nat.zero_le _, rfl, .inr ⟨rfl, rfl⟩⟩
  obtain ⟨last, folded, ends, changes⟩ := starts.components applied
  rw [operationToChanges, if_neg (not_not.mpr length.symm), folded]
  refine (if_neg (not_not.mpr ends)).trans ?_
  rw [changes, List.nil_append]
  rfl

theorem applyFrom_splicesOf (applied : library.apply operation text = some after) :
    Splice.applyFrom 0 (splicesOf library operation) text = some after := by
  rw [library.apply_ops] at applied
  have nothing : ([] : Text).length = (Splice.emptyAt 0 : Splice Char).length := rfl
  exact Splice.applyFrom_ofComponents nothing applied

theorem changeComponents_map_toEdit (applied : Splice.applyFrom position splices text = some after)
    (covers : position + text.length = content.length) :
    changeComponents (utf16Prefix content) content.length (splices.map (toEdit content)) position =
    .ok (Splice.components content.length position splices) := by
  induction splices generalizing position text after with
  | nil => rfl
  | cons splice rest ih =>
    obtain ⟨before, removed, following, tail, rfl, starts, removes, walked,
      rfl⟩ := Splice.applyFrom_cons_eq_some.mp applied
    simp only [List.length_append] at covers
    have inside : splice.stop ≤ content.length := by
      rw [Splice.stop]
      omega
    have ordered : splice.offset ≤ splice.stop := Nat.le_add_right _ _
    have start : runeOffset (utf16Prefix content)
        (toEdit content splice).rangeOffset = some splice.offset :=
      runeOffset_unitOffset (ordered.trans inside)
    have sum : (toEdit content splice).rangeOffset + (toEdit content splice).rangeLength =
          unitOffset content splice.stop := by
      simp only [toEdit]
      omega
    have stop : runeOffset (utf16Prefix content) ((toEdit content splice).rangeOffset +
          (toEdit content splice).rangeLength) = some splice.stop := by
      rw [sum, runeOffset_unitOffset inside]
    have valid : ¬((toEdit content splice).rangeOffset < 0 ∨
        (toEdit content splice).rangeLength < 0 ∨
          splice.offset < position ∨ splice.stop < splice.offset) := by
      have := unitOffset_le ordered inside
      simp only [toEdit]
      omega
    have rests := ih walked (by
      rw [Splice.stop]
      omega)
    have length : splice.stop - splice.offset = splice.length := Nat.add_sub_cancel_left _ _
    rw [List.map_cons, changeComponents, start, stop]
    simp only [toEdit] at valid ⊢
    simp only [if_neg valid, rests, length]
    rfl

theorem changesToOperation_map_toEdit (applied : Splice.applyFrom 0 splices content = some after)
    (nonempty : splices ≠ []) : changesToOperation library content (splices.map (toEdit content)) =
    .ok (library.build (Splice.components content.length 0 splices)) := by
  obtain ⟨ordered, inside⟩ := Splice.pairwise_of_applyFrom applied
  have sorted : (splices.map (toEdit content)).Pairwise fun left right =>
      left.rangeOffset ≤ right.rangeOffset := by
    rw [List.pairwise_map]
    refine ordered.imp_of_mem ?_
    intro first second _ member before
    have bounded := (inside second member).2
    rw [Nat.zero_add] at bounded
    have increasing := unitOffset_le ((Nat.le_add_right _ _).trans before)
      ((Nat.le_add_right _ _).trans bounded)
    exact Int.ofNat_le.mpr increasing
  rw [changesToOperation, if_neg (mt List.map_eq_nil_iff.mp nonempty), sorted.insertionSort_eq]
  dsimp only
  rw [changeComponents_map_toEdit applied (Nat.zero_add _)]
  rfl

/-- A document and the text of a client that applies all edits. -/
structure Shared (Seq : Type) where
  document : Document Seq
  peer : Option (List Nat)

/-- A call of `applyMonacoChanges`, and the client that receives its edits. -/
def Shared.step (library : Operations Char Seq) (shared : Shared Seq)
    (call : List TextEdit × Int) : Shared Seq :=
  match shared.document.applyMonacoChanges library call.1 call.2 with
  | .error _ => shared
  | .ok (after, result) => ⟨after, shared.peer.bind (applyEdits result.changes)⟩

def Shared.InStep (shared : Shared Seq) : Prop :=
  shared.peer = some (utf16Encode shared.document.content)

theorem applyEdits_of_accepted {document after : Document Seq} {maxBytes : Int}
    {result : ApplyResult} (accepted : document.applyMonacoChanges library changes maxBytes =
    .ok (after, result)) : applyEdits result.changes (utf16Encode document.content) =
    some (utf16Encode after.content) := by
  obtain ⟨_, _, _, added, applied, converted, _⟩ := Document.applyMonacoChanges_eq_ok accepted
  have changes := operationToChanges_eq applied.applied
  rw [converted, Except.ok.injEq] at changes
  rw [changes]
  exact applyEdits_map_toEdit (applyFrom_splicesOf applied.applied)

theorem Shared.InStep.step {shared : Shared Seq} (inStep : shared.InStep)
    (call : List TextEdit × Int) : (shared.step library call).InStep := by
  unfold Shared.step
  split
  · exact inStep
  · rename_i after result accepted
    rw [InStep, inStep]
    exact applyEdits_of_accepted accepted

theorem changesToOperation_operationToChanges
    (applied : library.apply operation content = some after) : ∃ changes,
    operationToChanges library content operation = .ok changes ∧
    (changes = [] → after = content) ∧ (changes ≠ [] → ∃ again,
    changesToOperation library content changes = .ok again ∧
    ∀ text : Text, text.length = content.length →
    library.apply again text = library.apply operation text) := by
  refine ⟨_, operationToChanges_eq applied, ?_, ?_⟩
  · intro empty
    have spliced := applyFrom_splicesOf applied
    rw [List.map_eq_nil_iff.mp empty] at spliced
    exact (Option.some.inj spliced).symm
  · intro nonempty
    refine ⟨_, changesToOperation_map_toEdit (applyFrom_splicesOf applied)
      (mt List.map_eq_nil_iff.mpr nonempty), ?_⟩
    intro text sameLength
    obtain ⟨other, walked⟩ : ∃ other, library.apply operation text = some other := by
      rw [library.apply_ops] at applied ⊢
      rw [← Option.isSome_iff_exists, Splice.isSome_applyComponents sameLength, applied]
      rfl
    rw [walked, library.apply_build]
    refine Splice.applyComponents_components (applyFrom_splicesOf walked) ?_
    rw [Nat.zero_add, sameLength]

theorem changeComponents_eq_error (failed : changeComponents offsets runeCount changes cursor =
    .error error) : error = .invalidEdit := by
  induction changes generalizing cursor with
  | nil => simp [changeComponents] at failed
  | cons change rest ih =>
    rw [changeComponents] at failed
    split at failed
    · split_ifs at failed with invalid
      · exact (Except.error.inj failed).symm
      · cases following : changeComponents offsets runeCount rest _ with
        | error other =>
          rw [following] at failed
          obtain rfl := Except.error.inj failed
          exact ih following
        | ok components => simp [following, bind, Except.bind] at failed
    · exact (Except.error.inj failed).symm

theorem changesToOperation_ne_indexOutOfRange (content : Text) (changes : List TextEdit) :
    changesToOperation library content changes ≠ .error .indexOutOfRange := by
  intro failed
  unfold changesToOperation at failed
  by_cases empty : changes = []
  · rw [if_pos empty] at failed
    cases failed
  · rw [if_neg empty] at failed
    dsimp only at failed
    cases converted : changeComponents (utf16Prefix content) content.length
        (changes.insertionSort fun left right =>
          left.rangeOffset ≤ right.rangeOffset) 0 with
    | error error =>
      rw [converted, changeComponents_eq_error converted] at failed
      cases failed
    | ok components =>
      rw [converted] at failed
      cases failed

/-- The edits that are returned lead from the text before to the text after, and operations are
converted to edits and back without changing what they do. -/
theorem broadcast_edits_reproduce (library : Operations Char Seq) :
    (∀ (document after : Document Seq) changes maxBytes result,
      document.applyMonacoChanges library changes maxBytes =
        .ok (after, result) →
      applyEdits result.changes (utf16Encode document.content) = some (utf16Encode after.content)) ∧
    (∀ (document : Document Seq) (calls : List (List TextEdit × Int)),
      (calls.foldl (Shared.step library) ⟨document, some (utf16Encode document.content)⟩).InStep) ∧
    (∀ content operation after,
      library.apply operation content = some after → ∃ changes,
        operationToChanges library content operation = .ok changes ∧
        (changes = [] → after = content) ∧ (changes ≠ [] → ∃ again,
          changesToOperation library content changes = .ok again ∧
          ∀ text : Text, text.length = content.length →
            library.apply again text = library.apply operation text)) ∧
    ∀ content changes,
      changesToOperation library content changes ≠ .error .indexOutOfRange := by
  refine ⟨fun _ _ _ _ _ accepted => applyEdits_of_accepted accepted, ?_,
    fun _ _ _ applied => changesToOperation_operationToChanges applied,
    changesToOperation_ne_indexOutOfRange⟩
  intro document calls
  have starts : Shared.InStep (⟨document, some (utf16Encode document.content)⟩ : Shared Seq) := rfl
  generalize (⟨document, some (utf16Encode document.content)⟩ : Shared Seq) = shared at starts
  induction calls generalizing shared with
  | nil => exact starts
  | cons call rest ih =>
    exact ih _ (starts.step call)

/-- Replacing a rune outside the basic plane replaces two code units. -/
example : (operationToChanges (Act.operations Char) ['a', Char.ofNat 0x1f600, 'b']
        [.keep, .drop, .put 'x', .keep]).map
      (fun changes => changes.map fun edit =>
        (edit.rangeOffset, edit.rangeLength, edit.text)) =
      .ok [(1, 2, some ['x'])] := by
  rfl

end Wings.Collaboration
