import Wings.Collaboration.Session
import Wings.Library.Fallible

/-!
# The history of a shared document

An edit is read on the current content if that has the fingerprint it names, and otherwise on the
oldest retained revision that has it. Undoing the operations of the history, from the newest on,
gives the contents they were applied to. A call that returns an error changes nothing.
-/

namespace Wings.Collaboration

open TextOperation (Act Operations)
open Transition

variable {Seq : Type}

namespace Session

def Unambiguous (session : Session Seq) (revision : Nat) (content : Text) : Prop :=
  revision = session.document.revision ∨
    fingerprint session.document.content ≠ fingerprint content ∧
      ∀ older, session.Retained older → older < revision →
        ¬ Matches session.contents (fingerprint content) older

end Session

def Stamped (content : Text) (changes : List TextEdit) : Prop := ∀ change ∈ changes,
    (change.baseHash, change.baseLength) = fingerprint content

theorem fingerprint_eq_iff (content other : Text) :
    fingerprint content = fingerprint other ↔ contentHash content = contentHash other ∧
    (utf16Len content : Int) = utf16Len other := by
  rw [fingerprint, fingerprint, Prod.mk.injEq]

theorem Document.resolveBase_of_stamped {document : Document Seq}
    {content : Text} {changes : List TextEdit}
    (stamped : Stamped content changes) (nonempty : changes ≠ []) :
    document.resolveBase library changes = if contentHash document.content = contentHash content ∧
          (utf16Len document.content : Int) = utf16Len content then
        .ok (document.revision, document.content)
      else
        match findBaseRevision (contentHash content) (utf16Len content)
            document.history with
        | none => .error .baseNotFound
        | some baseRevision =>
          match rewind library baseRevision document.history.reverse
              document.content with
          | none => .error .reconstruct
          | some baseContent =>
            if contentHash baseContent ≠ contentHash content ∨
                (utf16Len baseContent : Int) ≠ utf16Len content then
              .error .baseNotFound
            else .ok (baseRevision, baseContent) := by
  cases changes with
  | nil => exact absurd rfl nonempty
  | cons first rest =>
    obtain ⟨rangeOffset, rangeLength, text, hash, length⟩ := first
    obtain ⟨rfl, rfl⟩ : hash = contentHash content ∧ length = utf16Len content :=
      Prod.mk.inj (stamped _ List.mem_cons_self)
    have agree : rest.any (fun change =>
        change.baseHash ≠ contentHash content ∨
          change.baseLength ≠ utf16Len content) = false := by
      rw [List.any_eq_false]
      intro change member
      obtain ⟨sameHash, sameLength⟩ := Prod.mk.inj (stamped change (List.mem_cons_of_mem _ member))
      simp [sameHash, sameLength]
    have natural : ¬ ((utf16Len content : Int) < 0) := by omega
    refine (if_neg ?_).trans ((if_neg (contentHash_ne_nil content)).trans (if_neg natural))
    rw [agree]
    exact Bool.false_ne_true

namespace Session.Consistent

variable {session : Session Seq}

theorem resolveBase_eq_oldest (consistent : session.Consistent library)
    (retained : session.Retained revision) (found : session.contents[revision]? = some content)
    (stamped : Stamped content changes) (nonempty : changes ≠ [])
    (differs : fingerprint session.document.content ≠ fingerprint content) : ∃ base baseContent,
    session.document.resolveBase library changes = .ok (base, baseContent) ∧
    session.contents[base]? = some baseContent ∧ session.Retained base ∧
    Matches session.contents (fingerprint content) base ∧
    ∀ older, session.Retained older → older < base →
    ¬ Matches session.contents (fingerprint content) older := by
  have historyLe := consistent.history_le
  have ends : session.document.revision - session.document.history.length +
      session.document.history.length = session.document.revision := by
    omega
  have isPast : session.document.history ≠ [] := by
    intro empty
    obtain ⟨lower, upper⟩ := retained
    rw [empty, List.length_nil, Nat.sub_zero] at lower
    obtain rfl : revision = session.document.revision := by omega
    rw [consistent.current, Option.some.injEq] at found
    exact differs (found ▸ rfl)
  obtain ⟨base, searched⟩ := consistent.follows.exists_findBaseRevision isPast
    retained.1 (ends.symm ▸ retained.2) ⟨content, found, rfl⟩
  obtain ⟨lower, upper, isMatch, oldest⟩ := consistent.follows.findBaseRevision_eq_some searched
  obtain ⟨baseContent, baseFound, samePrint⟩ := isMatch
  have rewound := consistent.follows.rewind_eq (by rw [ends]; exact consistent.current) lower upper
  refine ⟨base, baseContent, ?_, baseFound, ⟨lower, ends ▸ upper⟩,
    ⟨baseContent, baseFound, samePrint⟩, fun older olderRetained before =>
      oldest older olderRetained.1 before⟩
  obtain ⟨sameHash, sameLength⟩ := (fingerprint_eq_iff _ _).1 samePrint
  rw [Document.resolveBase_of_stamped stamped nonempty,
    if_neg (mt (fingerprint_eq_iff _ _).2 differs)]
  simp only [searched, rewound, baseFound]
  exact if_neg (by simp [sameHash, sameLength])

theorem resolveBase_iff (consistent : session.Consistent library)
    (retained : session.Retained revision) (found : session.contents[revision]? = some content)
    (stamped : Stamped content changes) (nonempty : changes ≠ []) :
    session.document.resolveBase library changes = .ok (revision, content) ↔
    session.Unambiguous revision content := by
  by_cases same : fingerprint session.document.content = fingerprint content
  · rw [Document.resolveBase_of_stamped stamped nonempty,
      if_pos ((fingerprint_eq_iff _ _).1 same), Except.ok.injEq, Prod.mk.injEq]
    constructor
    · rintro ⟨rfl, _⟩
      exact .inl rfl
    · rintro (rfl | ⟨differs, _⟩)
      · rw [consistent.current, Option.some.injEq] at found
        exact ⟨rfl, found⟩
      · exact absurd same differs
  · obtain ⟨base, baseContent, resolved, baseFound, baseRetained, isMatch,
      oldest⟩ := consistent.resolveBase_eq_oldest retained found stamped nonempty same
    rw [resolved, Except.ok.injEq, Prod.mk.injEq]
    constructor
    · rintro ⟨rfl, _⟩
      exact .inr ⟨same, oldest⟩
    · intro unambiguous
      have equal : base = revision := by
        rcases unambiguous with rfl | ⟨_, noOlder⟩
        · rw [consistent.current, Option.some.injEq] at found
          exact absurd (found ▸ rfl) same
        · rcases Nat.lt_trichotomy base revision with
            before | equal | after
          · exact absurd isMatch (noOlder base baseRetained before)
          · exact equal
          · exact absurd ⟨content, found, rfl⟩ (oldest revision retained after)
      subst equal
      exact ⟨rfl, Option.some.inj (baseFound.symm.trans found)⟩

theorem operations_after (consistent : session.Consistent library)
    (retained : session.Retained revision) : session.operations.drop revision =
    ((session.document.history.filter fun historical =>
    ¬ historical.revision ≤ revision).map CollabOperation.forward).map some := by
  have historyLe := consistent.history_le
  have whole := consistent.follows.map_forward (by
    rw [consistent.operations_length]
    omega)
  rw [consistent.follows.filter_eq_drop retained.1, List.map_map, List.map_drop]
  change _ = List.drop _ (session.document.history.map fun historical =>
    some historical.forward)
  rw [whole, List.drop_drop]
  congr 1
  have lower := retained.1
  omega

end Session.Consistent

/-- Edits made on a retained revision are read on it exactly when its fingerprint is unambiguous,
and are then transformed through all later operations. -/
theorem applied_operation_of_unambiguous {session : Session Seq}
    (reached : Reachable Session.Initial (Session.Steps library) session)
    {revision : Nat} (retained : session.Retained revision) {content : Text}
    (found : session.contents[revision]? = some content)
    {changes : List TextEdit} (stamped : Stamped content changes) :
    (changes ≠ [] → (session.document.resolveBase library changes =
          .ok (revision, content) ↔ session.Unambiguous revision content)) ∧
    (session.Unambiguous revision content → ∀ maxBytes after result,
        session.document.applyMonacoChanges library changes maxBytes =
          .ok (after, result) → ∃ clientOperation forwards applied,
          changesToOperation library content changes = .ok clientOperation ∧
          session.operations.drop revision = forwards.map some ∧
          Document.transformThrough library clientOperation forwards = some applied ∧
          library.apply applied session.document.content = some after.content ∧
          Session.lastOperation after = some applied) := by
  have consistent := Session.consistent_of_reachable reached
  refine ⟨fun nonempty =>
    consistent.resolveBase_iff retained found stamped nonempty, ?_⟩
  intro unambiguous maxBytes after result accepted
  obtain ⟨base, baseContent, clientOperation, added, accepted, _⟩ :=
    Document.applyMonacoChanges_eq_ok accepted
  have nonempty : changes ≠ [] := by
    rintro rfl
    have resolved := accepted.resolved
    simp [Document.resolveBase] at resolved
  have resolved := (consistent.resolveBase_iff retained found stamped nonempty).2 unambiguous
  rw [accepted.resolved, Except.ok.injEq, Prod.mk.injEq] at resolved
  obtain ⟨rfl, rfl⟩ := resolved
  exact ⟨clientOperation, _, added.forward, accepted.converted,
    consistent.operations_after retained, accepted.transformed,
    accepted.applied, accepted.lastOperation_eq⟩

def stampedEdit (base : Text) (rangeOffset rangeLength : Int) (text : Text) : TextEdit :=
  ⟨rangeOffset, rangeLength, some text, contentHash base, utf16Len base⟩

def rewritten (before after : Text) : Session (List (Act Char)) :=
  Session.step (Act.operations Char) ⟨.new before, [before], []⟩
    (.applyMonacoChanges [stampedEdit before 0 (utf16Len before) after] 0)

theorem rewritten_reachable (before after : Text) :
    Reachable Session.Initial (Session.Steps (Act.operations Char)) (rewritten before after) :=
  (Reachable.start ⟨before, rfl⟩).next
    (.applyMonacoChanges [stampedEdit before 0 (utf16Len before) after] 0) rfl

theorem stamped_singleton (base : Text) (rangeOffset rangeLength : Int) (text : Text) :
    Stamped base [stampedEdit base rangeOffset rangeLength text] := by
  intro change member
  rw [List.mem_singleton.1 member]
  rfl

theorem applied_operation_of_late_deletion : ∃ clientOperation forwards applied,
      changesToOperation (Act.operations Char) ['a', 'b']
          [stampedEdit ['a', 'b'] 0 1 []] = .ok clientOperation ∧
        (rewritten ['a', 'b'] ['c', 'd']).operations.drop 0 = forwards.map some ∧
          Document.transformThrough (Act.operations Char) clientOperation forwards = some applied ∧
            Act.apply applied ['c', 'd'] = some ['c', 'd'] := by
  obtain ⟨_, faithful⟩ := applied_operation_of_unambiguous
    (rewritten_reachable ['a', 'b'] ['c', 'd'])
    (show Session.Retained _ 0 from ⟨by decide, by decide⟩) (show _ = some ['a', 'b'] from rfl)
    (stamped_singleton ['a', 'b'] 0 1 [])
  have unambiguous : (rewritten ['a', 'b'] ['c', 'd']).Unambiguous 0 ['a', 'b'] :=
    .inr ⟨by decide, fun older _ before => absurd before (by omega)⟩
  obtain ⟨clientOperation, forwards, applied, converted, operations,
    transformed, leads, _⟩ := faithful unambiguous 0 _ _ rfl
  exact ⟨clientOperation, forwards, applied, converted, operations, transformed, leads⟩

/-- The texts `Aa` and `BB` have one fingerprint: a late deletion in the first one deletes a rune of
the second one. -/
theorem applied_operation_differs_on_collision : ∃ session : Session (List (Act Char)),
      Reachable Session.Initial (Session.Steps (Act.operations Char)) session ∧
        ∃ revision content changes after result, session.Retained revision ∧
          session.contents[revision]? = some content ∧ Stamped content changes ∧
          session.document.applyMonacoChanges (Act.operations Char) changes 0 =
            .ok (after, result) ∧ ∀ clientOperation forwards,
            changesToOperation (Act.operations Char) content changes =
              .ok clientOperation →
            session.operations.drop revision = forwards.map some →
              Document.transformThrough (Act.operations Char) clientOperation
                forwards ≠ Session.lastOperation after := by
  refine ⟨rewritten ['A', 'a'] ['B', 'B'], rewritten_reachable _ _, 0,
    ['A', 'a'], [stampedEdit ['A', 'a'] 0 1 []], _, _,
    ⟨by decide, by decide⟩, rfl, stamped_singleton _ _ _ _, rfl, ?_⟩
  intro clientOperation forwards converted operations
  cases converted
  obtain rfl : [[.drop, .drop, .put 'B', .put 'B']] = forwards :=
    List.map_injective_iff.2 (Option.some_injective _) operations
  decide

open TextOperation (Operations)
open FallibleProgram

namespace Document

/-- The assignments at the end of `applyMonacoChanges`, one after the other. -/
def commit (library : Operations Char Seq) (incoming : Seq)
    (current next : Text) : Program CollabError (Document Seq) Nat := do
  modify fun document => { document with revision := document.revision + 1 }
  modify fun document =>
    { document with
      history := document.history ++ [{
        revision := document.revision
        baseHash := contentHash current
        baseLength := utf16Len current
        targetHash := contentHash next
        targetLen := utf16Len next
        forward := incoming
        inverse := library.invert incoming current }] }
  modify fun document =>
    { document with history := retainRecent document.history }
  modify fun document => { document with content := next }
  pure (← get).revision

/-- `applyMonacoChanges` as it changes the document, also with an error. -/
def applyMonacoChangesInPlace (library : Operations Char Seq) (changes : List TextEdit)
    (maxBytes : Int) : Program CollabError (Document Seq) ApplyResult := do
  let document ← get
  let base ← liftExcept (resolveBase library document changes)
  let clientOperation ← liftExcept (changesToOperation library base.2 changes)
  let later := document.history.filter fun historical =>
    ¬ historical.revision ≤ base.1
  let incoming ← liftExcept (orError (transformThrough library clientOperation
      (later.map CollabOperation.forward)) CollabError.transform)
  let current := document.content
  let normalized ← liftExcept (operationToChanges library current incoming)
  let next ← liftExcept (orError (library.apply incoming current) CollabError.apply)
  if maxBytes > 0 ∧ (byteLength next : Int) > maxBytes then
    throw .tooLarge
  else
    let revision ← commit library incoming current next
    pure ⟨normalized, revision, base.1 ≠ revision - 1⟩

theorem run_applyMonacoChangesInPlace (library : Operations Char Seq)
    (document : Document Seq) (changes : List TextEdit) (maxBytes : Int) :
    (applyMonacoChangesInPlace library changes maxBytes).run document =
      match document.applyMonacoChanges library changes maxBytes with
      | .error error => (.error error, document)
      | .ok (after, result) => (.ok result, after) := by
  rw [applyMonacoChangesInPlace, run_get_bind, run_liftExcept_bind, applyMonacoChanges]
  cases resolveBase library document changes with
  | error error => rfl
  | ok base =>
    dsimp only
    rw [run_liftExcept_bind, ok_bind]
    cases changesToOperation library base.2 changes with
    | error error => rfl
    | ok operation =>
      dsimp only
      rw [run_liftExcept_bind, ok_bind]
      cases transformThrough library operation _ with
      | none => rfl
      | some incoming =>
        dsimp only [orError]
        rw [run_liftExcept_bind]
        cases operationToChanges library document.content incoming with
        | error error => rfl
        | ok normalized =>
          dsimp only
          rw [run_liftExcept_bind, ok_bind]
          cases library.apply incoming document.content with
          | none => rfl
          | some next =>
            dsimp only
            split_ifs
            · rfl
            · rfl

end Document

def Call.perform (library : Operations Char Seq)
    (document : Document Seq) : Call → Option CollabError × Document Seq
  | .applyMonacoChanges changes maxBytes =>
    match (Document.applyMonacoChangesInPlace library changes maxBytes).run
        document with
    | (.error error, after) => (some error, after)
    | (.ok _, after) => (none, after)
  | .replace content => (none, document.replace content)

def Document.performAll (library : Operations Char Seq)
    (document : Document Seq) (calls : List Call) : Document Seq :=
  calls.foldl (fun current call => (call.perform library current).2) document

theorem Call.perform_cases (library : Operations Char Seq) (document : Document Seq) (call : Call) :
    (call.perform library document).2 = document ∨ (call.perform library document).1 = none ∧
    ((∃ content, (call.perform library document).2 = document.replace content) ∨
    ∃ changes baseRevision baseContent clientOperation added,
    document.Accepted library changes (call.perform library document).2
    baseRevision baseContent clientOperation added) := by
  cases call with
  | replace content => exact .inr ⟨rfl, .inl ⟨content, rfl⟩⟩
  | applyMonacoChanges changes maxBytes =>
    rw [Call.perform, Document.run_applyMonacoChangesInPlace]
    cases applied :
        document.applyMonacoChanges library changes maxBytes with
    | error error => exact .inl rfl
    | ok outcome =>
      obtain ⟨_, _, _, _, accepted, _⟩ := Document.applyMonacoChanges_eq_ok applied
      exact .inr ⟨rfl, .inr ⟨changes, _, _, _, _, accepted⟩⟩

/-- Undoing operations, newest first, gives for each the content it was recorded on. -/
def Undone (library : Operations Char Seq) : Text → List (CollabOperation Seq) → Prop
  | _, [] => True
  | target, newest :: older =>
    ∃ base, library.apply newest.inverse target = some base ∧
      fingerprint base = (newest.baseHash, newest.baseLength) ∧
      library.apply newest.forward base = some target ∧
      fingerprint target = (newest.targetHash, newest.targetLen) ∧ Undone library base older

structure Document.HistoryConsistent (library : Operations Char Seq)
    (document : Document Seq) : Prop where
  bounded : document.history.length ≤ historyLimit
  consecutive : ∃ first, document.history.map CollabOperation.revision =
        List.range' first document.history.length ∧
      first + document.history.length = document.revision + 1
  undone : Undone library document.content document.history.reverse

theorem Undone.take (undone : Undone library target operations) (count : Nat) :
    Undone library target (operations.take count) := by
  induction operations generalizing target count with
  | nil => simp [Undone]
  | cons newest older ih =>
    cases count with
    | zero => trivial
    | succ count =>
      obtain ⟨base, inverse, based, forward, targeted, rest⟩ := undone
      exact ⟨base, inverse, based, forward, targeted, ih rest count⟩

namespace Document.HistoryConsistent

variable {document : Document Seq}

theorem of_empty (empty : document.history = []) : document.HistoryConsistent library := by
  refine ⟨?_, ⟨document.revision + 1, ?_, ?_⟩, ?_⟩
  · rw [empty]
    exact Nat.zero_le _
  · rw [empty]
    rfl
  · rw [empty]
    rfl
  · rw [empty]
    trivial

theorem accepted (consistent : document.HistoryConsistent library)
    (accepted : document.Accepted library changes after baseRevision
    baseContent clientOperation added) : after.HistoryConsistent library := by
  obtain ⟨first, revisions, ends⟩ := consistent.consecutive
  have extended : (document.history ++ [added]).map CollabOperation.revision =
        List.range' first (document.history.length + 1) := by
    rw [List.map_append, revisions, List.range'_concat, List.map_singleton,
      accepted.revision_eq, Nat.one_mul, ends]
  have undone : Undone library after.content (document.history ++ [added]).reverse := by
    rw [List.reverse_append, List.reverse_singleton, List.singleton_append]
    refine ⟨document.content, ?_, accepted.base_eq.symm, accepted.applied,
      accepted.target_eq.symm, consistent.undone⟩
    rw [accepted.inverse_eq]
    exact library.apply_invert _ _ _ accepted.applied
  obtain ⟨dropped, limited, kept⟩ :
      ∃ dropped, dropped = document.history.length + 1 - historyLimit ∧
        after.history = (document.history ++ [added]).drop dropped := by
    refine ⟨_, rfl, ?_⟩
    rw [accepted.after_history, retainRecent_eq_drop, List.length_append, List.length_singleton]
  have length : after.history.length = document.history.length + 1 - dropped := by
    rw [kept, List.length_drop, List.length_append, List.length_singleton]
  refine ⟨by omega, ⟨first + dropped, ?_, ?_⟩, ?_⟩
  · rw [length, kept, List.map_drop, extended, List.drop_range', Nat.mul_one]
  · rw [accepted.after_revision]
    omega
  · rw [kept, List.reverse_drop]
    exact undone.take _

theorem perform (consistent : document.HistoryConsistent library) (call : Call) :
    (call.perform library document).2.HistoryConsistent library := by
  rcases call.perform_cases library document with
    unchanged | ⟨_, ⟨content, replaced⟩ | ⟨_, _, _, _, _, edited⟩⟩
  · rw [unchanged]
    exact consistent
  · rw [replaced]
    exact of_empty rfl
  · exact consistent.accepted edited

theorem performAll (consistent : document.HistoryConsistent library) (calls : List Call) :
    (document.performAll library calls).HistoryConsistent library := by
  induction calls generalizing document with
  | nil => exact consistent
  | cons call rest ih =>
    exact ih (consistent.perform call)

end Document.HistoryConsistent

/-- The history is consistent after any calls, and a failing call leaves the document as it is. -/
theorem history_consistent_after_calls (library : Operations Char Seq)
    (content : Text) (calls : List Call) :
    ((Document.new content).performAll library calls).HistoryConsistent library ∧
      ∀ (call : Call) error, (call.perform library
          ((Document.new content).performAll library calls)).1 =
            some error → (call.perform library
          ((Document.new content).performAll library calls)).2 =
            (Document.new content).performAll library calls := by
  have new : (Document.new content).HistoryConsistent library := .of_empty rfl
  refine ⟨new.performAll calls, ?_⟩
  intro call error failed
  rcases call.perform_cases library
      ((Document.new content).performAll library calls) with
    unchanged | ⟨succeeded, _⟩
  · exact unchanged
  · rw [succeeded] at failed
    exact absurd failed (Option.some_ne_none error).symm

end Wings.Collaboration
