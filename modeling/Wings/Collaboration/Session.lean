import Mathlib
import Wings.Library.TextOperation
import Wings.Library.Transition

/-!
# A shared text document

An edit names the content it was made on by a hash and a length; the server finds that content in
its bounded history and transforms the edit through the operations that followed. Contents are lists
of runes, and the library of operations is a parameter. `Session` records the contents of all
revisions and the operations between them.
-/

namespace Wings.Collaboration

open TextOperation (Component Operations)

abbrev Text := List Char

def utf16Units (rune : Char) : List Nat :=
  if rune.toNat ≤ 0xffff then [rune.toNat]
  else
    [0xd800 + (rune.toNat - 0x10000) / 1024, 0xdc00 + (rune.toNat - 0x10000) % 1024]

def utf16Encode (content : Text) : List Nat := content.flatMap utf16Units

def utf16Len (content : Text) : Nat := (utf16Encode content).length

def hexDigits (number : Nat) : Text :=
  (List.range 8).map fun index =>
    Nat.digitChar (number / 16 ^ (7 - index) % 16)

/-- Matches the panel's JavaScript hash over code units. -/
def contentHash (content : Text) : Text := hexDigits ((utf16Encode content).foldl
    (fun hash unit => (hash * 31 + unit) % 2 ^ 32) 0)

def fingerprint (content : Text) : Text × Int := (contentHash content, utf16Len content)

theorem contentHash_ne_nil (content : Text) : contentHash content ≠ [] := by
  simp [contentHash, hexDigits]

/-- A replacement of a range in UTF-16 units, without a text if that is not UTF-8. -/
structure TextEdit where
  rangeOffset : Int
  rangeLength : Int
  text : Option Text
  baseHash : Text
  baseLength : Int
  deriving DecidableEq

inductive CollabError where
  | baseNotFound
  | invalidEdit
  | tooLarge
  | reconstruct
  | transform
  | apply
  | indexOutOfRange

def utf16Prefix (runes : Text) : List Nat :=
  runes.scanl (fun total rune =>
    if rune.toNat > 0xffff then total + 1 + 1 else total + 1) 0

def runeOffset (offsets : List Nat) (utf16Offset : Int) : Option Nat :=
  let index := offsets.findIdx fun (offset : Nat) => utf16Offset ≤ offset
  match offsets[index]? with
  | none => none
  | some offset => if (offset : Int) = utf16Offset then some index else none

def changeComponents (offsets : List Nat) (runeCount : Nat) :
    List TextEdit → Nat → Except CollabError (List (Component Char))
  | [], cursor => .ok [.retain (runeCount - cursor)]
  | change :: rest, cursor =>
    match change.text, runeOffset offsets change.rangeOffset,
      runeOffset offsets (change.rangeOffset + change.rangeLength) with
    | some text, some start, some stop =>
      if change.rangeOffset < 0 ∨ change.rangeLength < 0 ∨ start < cursor ∨ stop < start then
        .error .invalidEdit
      else do
        let following ← changeComponents offsets runeCount rest stop
        .ok (.retain (start - cursor) :: .delete (stop - start) :: .insert text :: following)
    | _, _, _ => .error .invalidEdit

section Library

variable {Seq : Type} (library : Operations Char Seq)

def changesToOperation (content : Text) (changes : List TextEdit) : Except CollabError Seq :=
  if changes = [] then .error .invalidEdit
  else do
    let sorted := changes.insertionSort fun left right =>
      left.rangeOffset ≤ right.rangeOffset
    let components ←
      changeComponents (utf16Prefix content) content.length sorted 0
    .ok (library.build components)

structure Conversion where
  sourceRune : Nat
  pending : Option TextEdit
  changes : List TextEdit

def Conversion.flush (conversion : Conversion) : Conversion :=
  match conversion.pending with
  | none => conversion
  | some edit =>
    if edit.rangeLength ≠ 0 ∨ edit.text ≠ some [] then
      { conversion with
        pending := none, changes := conversion.changes ++ [edit] }
    else { conversion with pending := none }

def Conversion.pendingEdit (content : Text)
    (conversion : Conversion) : Except CollabError TextEdit :=
  match conversion.pending with
  | some edit => .ok edit
  | none =>
    match (utf16Prefix content)[conversion.sourceRune]? with
    | none => .error .indexOutOfRange
    | some offset =>
      .ok ⟨offset, 0, some [], contentHash content, utf16Len content⟩

def Conversion.step (content : Text) (conversion : Conversion) :
    Component Char → Except CollabError Conversion
  | .retain n =>
    .ok { conversion.flush with sourceRune := conversion.sourceRune + n }
  | .insert text => do
    let edit ← conversion.pendingEdit content
    .ok { conversion with
      pending := some { edit with text := edit.text.map (· ++ text) } }
  | .delete n =>
    let stop := conversion.sourceRune + n
    if stop > content.length then .error .invalidEdit
    else do
      let edit ← conversion.pendingEdit content
      match (utf16Prefix content)[stop]?, (utf16Prefix content)[conversion.sourceRune]? with
      | some stopOffset, some offset =>
        .ok { conversion with
          sourceRune := stop
          pending := some { edit with
            rangeLength := edit.rangeLength + (stopOffset - offset) } }
      | _, _ => .error .indexOutOfRange

def operationToChanges (content : Text) (operation : Seq) : Except CollabError (List TextEdit) :=
  if library.baseLen operation ≠ content.length then .error .invalidEdit
  else do
    let converted ← (library.ops operation).foldlM (Conversion.step content) ⟨0, none, []⟩
    if converted.sourceRune ≠ content.length then .error .invalidEdit
    else .ok converted.flush.changes

end Library

def historyLimit : Nat := 128

structure CollabOperation (Seq : Type) where
  revision : Nat
  baseHash : Text
  baseLength : Int
  targetHash : Text
  targetLen : Int
  forward : Seq
  inverse : Seq

structure Document (Seq : Type) where
  content : Text
  revision : Nat
  history : List (CollabOperation Seq)

structure ApplyResult where
  changes : List TextEdit
  revision : Nat
  transformed : Bool

namespace Document

variable {Seq : Type} (library : Operations Char Seq)

def new (content : Text) : Document Seq := ⟨content, 0, []⟩

def replace (document : Document Seq) (content : Text) : Document Seq :=
  ⟨content, document.revision + 1, []⟩

def findBaseRevision (baseHash : Text) (baseLength : Int) : List (CollabOperation Seq) → Option Nat
  | [] => none
  | historical :: rest =>
    if historical.baseHash = baseHash ∧ historical.baseLength = baseLength then
      some (historical.revision - 1)
    else if historical.targetHash = baseHash ∧ historical.targetLen = baseLength then
      some historical.revision
    else findBaseRevision baseHash baseLength rest

def rewind (baseRevision : Nat) : List (CollabOperation Seq) → Text → Option Text
  | [], content => some content
  | historical :: older, content =>
    if historical.revision > baseRevision then
      (library.apply historical.inverse content).bind (rewind baseRevision older)
    else some content

def resolveBase (document : Document Seq) : List TextEdit → Except CollabError (Nat × Text)
  | [] => .error .invalidEdit
  | first :: rest =>
    let baseHash := first.baseHash
    let baseLength := first.baseLength
    if rest.any (fun change =>
        change.baseHash ≠ baseHash ∨ change.baseLength ≠ baseLength) then
      .error .invalidEdit
    else if baseHash = [] then .ok (document.revision, document.content)
    else if baseLength < 0 then .error .invalidEdit
    else if contentHash document.content = baseHash ∧
        (utf16Len document.content : Int) = baseLength then
      .ok (document.revision, document.content)
    else
      match findBaseRevision baseHash baseLength document.history with
      | none => .error .baseNotFound
      | some baseRevision =>
        match rewind library baseRevision document.history.reverse
            document.content with
        | none => .error .reconstruct
        | some baseContent =>
          if contentHash baseContent ≠ baseHash ∨ (utf16Len baseContent : Int) ≠ baseLength then
            .error .baseNotFound
          else .ok (baseRevision, baseContent)

def transformThrough (incoming : Seq) (forwards : List Seq) : Option Seq :=
  forwards.foldlM (fun current forward =>
    (library.transform current forward).map Prod.fst) incoming

def retainRecent (history : List (CollabOperation Seq)) : List (CollabOperation Seq) :=
  if history.length > historyLimit then
    history.drop (history.length - historyLimit)
  else history

def byteLength (content : Text) : Nat := (content.map Char.utf8Size).sum

def applyMonacoChanges (document : Document Seq) (changes : List TextEdit)
    (maxBytes : Int) : Except CollabError (Document Seq × ApplyResult) := do
  let (baseRevision, baseContent) ← resolveBase library document changes
  let incoming ← changesToOperation library baseContent changes
  let later := document.history.filter fun historical =>
    ¬ historical.revision ≤ baseRevision
  match transformThrough library incoming
      (later.map CollabOperation.forward) with
  | none => .error .transform
  | some incoming =>
    let current := document.content
    let normalized ← operationToChanges library current incoming
    match library.apply incoming current with
    | none => .error .apply
    | some next =>
      if maxBytes > 0 ∧ (byteLength next : Int) > maxBytes then
        .error .tooLarge
      else
        let revision := document.revision + 1
        .ok (⟨next, revision, retainRecent (document.history ++ [{
          revision := revision
          baseHash := contentHash current
          baseLength := utf16Len current
          targetHash := contentHash next
          targetLen := utf16Len next
          forward := incoming
          inverse := library.invert incoming current }])⟩,
          ⟨normalized, revision, baseRevision ≠ revision - 1⟩)

end Document

open TextOperation (Operations)
open Transition

variable {Seq : Type} {library : Operations Char Seq}

/-- A document with the contents of its revisions and the operations that led to them. -/
structure Session (Seq : Type) where
  document : Document Seq
  contents : List Text
  operations : List (Option Seq)

inductive Call where
  | applyMonacoChanges (changes : List TextEdit) (maxBytes : Int)
  | replace (content : Text)

namespace Session

def lastOperation (document : Document Seq) : Option Seq :=
  document.history.getLast?.map CollabOperation.forward

def step (library : Operations Char Seq) (session : Session Seq) : Call → Session Seq
  | .applyMonacoChanges changes maxBytes =>
    match session.document.applyMonacoChanges library changes maxBytes with
    | .error _ => session
    | .ok (document, _) =>
      ⟨document, session.contents ++ [document.content],
        session.operations ++ [lastOperation document]⟩
  | .replace content =>
    ⟨session.document.replace content, session.contents ++ [content], session.operations ++ [none]⟩

def Steps (library : Operations Char Seq) (session : Session Seq) (call : Call)
    (after : Session Seq) : Prop := after = session.step library call

def Initial (session : Session Seq) : Prop := ∃ content, session = ⟨.new content, [content], []⟩

def Retained (session : Session Seq) (revision : Nat) : Prop :=
  session.document.revision - session.document.history.length ≤ revision ∧
    revision ≤ session.document.revision

def Matches (contents : List Text) (print : Text × Int) (revision : Nat) : Prop :=
  ∃ content, contents[revision]? = some content ∧ fingerprint content = print

end Session

theorem Document.retainRecent_eq_drop (history : List (CollabOperation Seq)) :
    Document.retainRecent history = history.drop (history.length - historyLimit) := by
  unfold Document.retainRecent
  split_ifs with long
  · rfl
  · rw [Nat.sub_eq_zero_of_le (by omega), List.drop_zero]

structure Document.Accepted (library : Operations Char Seq)
    (document : Document Seq) (changes : List TextEdit) (after : Document Seq)
    (baseRevision : Nat) (baseContent : Text) (clientOperation : Seq)
    (added : CollabOperation Seq) : Prop where
  resolved : document.resolveBase library changes = .ok (baseRevision, baseContent)
  converted :
    changesToOperation library baseContent changes = .ok clientOperation
  transformed : transformThrough library clientOperation
    ((document.history.filter fun historical =>
      ¬ historical.revision ≤ baseRevision).map CollabOperation.forward) = some added.forward
  applied : library.apply added.forward document.content = some after.content
  revision_eq : added.revision = document.revision + 1
  base_eq : (added.baseHash, added.baseLength) = fingerprint document.content
  target_eq : (added.targetHash, added.targetLen) = fingerprint after.content
  inverse_eq : added.inverse = library.invert added.forward document.content
  after_revision : after.revision = document.revision + 1
  after_history : after.history = retainRecent (document.history ++ [added])

variable {document after : Document Seq}

theorem Document.applyMonacoChanges_eq_ok
    (accepted : document.applyMonacoChanges library changes maxBytes = .ok (after, result)) :
    ∃ baseRevision baseContent clientOperation added,
    document.Accepted library changes after baseRevision baseContent clientOperation added ∧
    operationToChanges library document.content added.forward = .ok result.changes ∧
    ¬ (maxBytes > 0 ∧ (byteLength after.content : Int) > maxBytes) := by
  simp only [applyMonacoChanges, bind, Except.bind] at accepted
  split at accepted
  · simp at accepted
  · rename_i resolved resolution
    split at accepted
    · simp at accepted
    · rename_i clientOperation converted
      split at accepted
      · simp at accepted
      · rename_i incoming transformed
        split at accepted
        · simp at accepted
        · rename_i normalized conversion
          split at accepted
          · simp at accepted
          · rename_i next applied
            split_ifs at accepted with large
            cases accepted
            exact ⟨_, _, clientOperation, _, ⟨resolution, converted,
              transformed, applied, rfl, rfl, rfl, rfl, rfl, rfl⟩, conversion,
              large⟩

theorem Document.Accepted.lastOperation_eq
    (accepted : document.Accepted library changes after baseRevision
    baseContent clientOperation added) : Session.lastOperation after = some added.forward := by
  have fewer : (document.history ++ [added]).length - historyLimit <
      (document.history ++ [added]).length := by
    simp only [List.length_append, List.length_singleton, historyLimit]
    omega
  rw [Session.lastOperation, accepted.after_history, retainRecent_eq_drop,
    List.getLast?_drop, if_neg (by omega), List.getLast?_concat]
  rfl

structure Describes (library : Operations Char Seq) (contents : List Text)
    (operations : List (Option Seq)) (revision : Nat)
    (historical : CollabOperation Seq) : Prop where
  revision_eq : historical.revision = revision + 1
  operation_eq : operations[revision]? = some (some historical.forward)
  base_matches : Session.Matches contents (historical.baseHash, historical.baseLength) revision
  target_matches : Session.Matches contents
    (historical.targetHash, historical.targetLen) (revision + 1)
  inverse_eq : ∀ target, contents[revision + 1]? = some target →
    library.apply historical.inverse target = contents[revision]?

def Follows (library : Operations Char Seq) (contents : List Text)
    (operations : List (Option Seq)) : Nat → List (CollabOperation Seq) → Prop
  | _, [] => True
  | revision, historical :: rest =>
    Describes library contents operations revision historical ∧
      Follows library contents operations (revision + 1) rest

section Follows

variable {contents : List Text}

theorem Session.Matches.append
    (hasPrint : Session.Matches contents print revision) (later : List Text) :
    Session.Matches (contents ++ later) print revision := by
  obtain ⟨content, found, equal⟩ := hasPrint
  obtain ⟨inRange, _⟩ := List.getElem?_eq_some_iff.1 found
  exact ⟨content, by rw [List.getElem?_append_left inRange, found], equal⟩

theorem Describes.append (describes : Describes library contents operations revision historical)
    (later : List Text) (laterOperations : List (Option Seq)) :
    Describes library (contents ++ later) (operations ++ laterOperations)
      revision historical where
  revision_eq := describes.revision_eq
  operation_eq := by
    obtain ⟨inRange, _⟩ := List.getElem?_eq_some_iff.1 describes.operation_eq
    rw [List.getElem?_append_left inRange, describes.operation_eq]
  base_matches := describes.base_matches.append later
  target_matches := describes.target_matches.append later
  inverse_eq := by
    obtain ⟨content, found, _⟩ := describes.target_matches
    obtain ⟨inRange, _⟩ := List.getElem?_eq_some_iff.1 found
    rw [List.getElem?_append_left inRange, List.getElem?_append_left (Nat.lt_of_succ_lt inRange)]
    exact describes.inverse_eq

theorem Follows.append (follows : Follows library contents operations revision history)
    (later : List Text) (laterOperations : List (Option Seq)) :
    Follows library (contents ++ later) (operations ++ laterOperations) revision history := by
  induction history generalizing revision with
  | nil => trivial
  | cons historical rest ih =>
    exact ⟨follows.1.append later laterOperations, ih follows.2⟩

theorem follows_concat : Follows library contents operations revision (history ++ [added]) ↔
    Follows library contents operations revision history ∧
    Describes library contents operations (revision + history.length) added := by
  induction history generalizing revision with
  | nil => simp [Follows]
  | cons historical rest ih =>
    simp only [List.cons_append, Follows, ih, List.length_cons, and_assoc]
    rw [Nat.add_right_comm, Nat.add_assoc]

theorem Follows.drop (follows : Follows library contents operations revision history)
    (count : Nat) (enough : count ≤ history.length) :
    Follows library contents operations (revision + count) (history.drop count) := by
  induction count generalizing revision history with
  | zero => exact follows
  | succ count ih =>
    cases history with
    | nil => trivial
    | cons historical rest =>
      rw [List.drop_succ_cons, Nat.add_comm count, ← Nat.add_assoc]
      exact ih follows.2 (Nat.le_of_succ_le_succ enough)

theorem Follows.retainRecent (follows : Follows library contents operations revision history) :
    Follows library contents operations (revision + (history.length - historyLimit))
    (Document.retainRecent history) := by
  rw [Document.retainRecent_eq_drop]
  have enough : history.length - historyLimit ≤ history.length := by omega
  generalize history.length - historyLimit = count at enough ⊢
  exact follows.drop count enough

theorem Follows.lt_revision (follows : Follows library contents operations revision history)
    (member : historical ∈ history) : revision < historical.revision := by
  induction history generalizing revision with
  | nil => simp at member
  | cons first rest ih =>
    rcases List.mem_cons.1 member with rfl | member
    · rw [follows.1.revision_eq]
      exact Nat.lt_succ_self _
    · exact (Nat.lt_succ_self _).trans (ih follows.2 member)

theorem Follows.filter_eq_drop (follows : Follows library contents operations revision history)
    (retained : revision ≤ base) : (history.filter fun historical => ¬ historical.revision ≤ base) =
    history.drop (base - revision) := by
  induction history generalizing revision with
  | nil => simp
  | cons historical rest ih =>
    rcases Nat.eq_or_lt_of_le retained with rfl | before
    · rw [Nat.sub_self, List.drop_zero, List.filter_eq_self]
      intro other member
      simpa using follows.lt_revision member
    · have skipped : historical.revision ≤ base := by
        rw [follows.1.revision_eq]
        exact before
      rw [List.filter_cons_of_neg (by simpa using skipped), ih follows.2 before]
      obtain ⟨steps, rfl⟩ := Nat.exists_eq_add_of_lt before
      rw [show revision + steps + 1 - (revision + 1) = steps by omega,
        show revision + steps + 1 - revision = steps + 1 by omega,
        List.drop_succ_cons]

theorem Follows.map_forward (follows : Follows library contents operations revision history)
    (ends : operations.length = revision + history.length) :
    (history.map fun historical => some historical.forward) = operations.drop revision := by
  induction history generalizing revision with
  | nil =>
    rw [List.map_nil, List.drop_eq_nil_of_le (by simpa using ends.le)]
  | cons historical rest ih =>
    obtain ⟨inRange, equal⟩ := List.getElem?_eq_some_iff.1 follows.1.operation_eq
    rw [List.drop_eq_getElem_cons inRange, equal, List.map_cons,
      ih follows.2 (by simp at ends; omega)]

theorem Follows.rewind_eq (follows : Follows library contents operations revision history)
    (current : contents[revision + history.length]? = some content)
    (retained : revision ≤ base) (past : base ≤ revision + history.length) :
    Document.rewind library base history.reverse content = contents[base]? := by
  induction history using List.reverseRecOn generalizing content with
  | nil =>
    obtain rfl : base = revision := by simp at past; omega
    exact current.symm
  | append_singleton older newest ih =>
    obtain ⟨followsOlder, describes⟩ := follows_concat.1 follows
    rw [List.length_append, List.length_singleton, ← Nat.add_assoc] at current past
    rw [List.reverse_append, List.reverse_singleton, List.singleton_append,
      Document.rewind, describes.revision_eq]
    by_cases later : revision + older.length + 1 > base
    · obtain ⟨previous, found, _⟩ := describes.base_matches
      rw [if_pos later, describes.inverse_eq content current, found, Option.bind_some]
      exact ih followsOlder found (by omega)
    · obtain rfl : base = revision + older.length + 1 := by omega
      rw [if_neg later, current]

theorem Session.Matches.iff_eq (hasPrint : Session.Matches contents print revision) :
    Session.Matches contents other revision ↔ print = other := by
  obtain ⟨content, found, rfl⟩ := hasPrint
  simp [Session.Matches, found]

theorem Describes.base_iff (describes : Describes library contents operations revision historical)
    (hash : Text) (length : Int) : historical.baseHash = hash ∧ historical.baseLength = length ↔
    Session.Matches contents (hash, length) revision := by
  rw [describes.base_matches.iff_eq, Prod.mk.injEq]

theorem Describes.target_iff (describes : Describes library contents operations revision historical)
    (hash : Text) (length : Int) : historical.targetHash = hash ∧ historical.targetLen = length ↔
    Session.Matches contents (hash, length) (revision + 1) := by
  rw [describes.target_matches.iff_eq, Prod.mk.injEq]

variable {hash : Text}

theorem Follows.findBaseRevision_eq_some
    (follows : Follows library contents operations revision history)
    (found : Document.findBaseRevision hash length history = some base) :
    revision ≤ base ∧ base ≤ revision + history.length ∧
    Session.Matches contents (hash, length) base ∧ ∀ older, revision ≤ older → older < base →
    ¬ Session.Matches contents (hash, length) older := by
  induction history generalizing revision with
  | nil => simp [Document.findBaseRevision] at found
  | cons historical rest ih =>
    obtain ⟨describes, followsRest⟩ := follows
    rw [Document.findBaseRevision, describes.revision_eq] at found
    rw [List.length_cons]
    split_ifs at found with atBase atTarget
    · cases found
      refine ⟨by omega, by omega, (describes.base_iff _ _).1 atBase, ?_⟩
      intro older after before
      omega
    · cases found
      refine ⟨by omega, by omega, (describes.target_iff _ _).1 atTarget, ?_⟩
      intro older after before
      obtain rfl : older = revision := by omega
      rwa [← describes.base_iff]
    · obtain ⟨after, before, isMatch, oldest⟩ := ih followsRest found
      refine ⟨by omega, by omega, isMatch, ?_⟩
      intro older onwards before
      rcases Nat.eq_or_lt_of_le onwards with rfl | onwards
      · rwa [← describes.base_iff]
      · exact oldest older onwards before

theorem Follows.exists_findBaseRevision
    (follows : Follows library contents operations revision history)
    (nonempty : history ≠ []) (retained : revision ≤ matching)
    (past : matching ≤ revision + history.length)
    (isMatch : Session.Matches contents (hash, length) matching) :
    ∃ base, Document.findBaseRevision hash length history = some base := by
  induction history generalizing revision with
  | nil => exact absurd rfl nonempty
  | cons historical rest ih =>
    obtain ⟨describes, followsRest⟩ := follows
    rw [Document.findBaseRevision]
    split_ifs with atBase atTarget
    · exact ⟨_, rfl⟩
    · exact ⟨_, rfl⟩
    · rw [describes.base_iff] at atBase
      rw [describes.target_iff] at atTarget
      have later : revision + 1 < matching := by
        rcases Nat.lt_trichotomy matching (revision + 1) with
          before | equal | after
        · obtain rfl : matching = revision := by omega
          exact absurd isMatch atBase
        · exact absurd (equal ▸ isMatch) atTarget
        · exact after
      rw [List.length_cons] at past
      refine ih followsRest ?_ later.le (by omega)
      rintro rfl
      simp at past
      omega

end Follows

/-- The contents end with the current one, and the history leads to it. -/
structure Session.Consistent (library : Operations Char Seq) (session : Session Seq) : Prop where
  contents_length : session.contents.length = session.document.revision + 1
  operations_length : session.operations.length = session.document.revision
  current : session.contents[session.document.revision]? = some session.document.content
  history_le : session.document.history.length ≤ session.document.revision
  follows : Follows library session.contents session.operations
    (session.document.revision - session.document.history.length) session.document.history

namespace Session.Consistent

variable {session : Session Seq}

theorem accepted (consistent : session.Consistent library)
    (accepted : session.document.Accepted library changes after baseRevision
    baseContent clientOperation added) :
    Consistent library ⟨after, session.contents ++ [after.content],
    session.operations ++ [some added.forward]⟩ := by
  have contentsLength := consistent.contents_length
  have historyLe := consistent.history_le
  have newest : (session.contents ++ [after.content])[
      session.document.revision + 1]? = some after.content := by
    rw [← contentsLength, List.getElem?_concat_length]
  have kept := consistent.current
  obtain ⟨inRange, _⟩ := List.getElem?_eq_some_iff.1 kept
  have previous : (session.contents ++ [after.content])[
      session.document.revision]? = some session.document.content := by
    rw [List.getElem?_append_left inRange, kept]
  have describes : Describes library (session.contents ++ [after.content])
      (session.operations ++ [some added.forward])
        session.document.revision added := {
    revision_eq := accepted.revision_eq
    operation_eq := by
      rw [← consistent.operations_length, List.getElem?_concat_length]
    base_matches := ⟨_, previous, accepted.base_eq.symm⟩
    target_matches := ⟨_, newest, accepted.target_eq.symm⟩
    inverse_eq := by
      intro target found
      obtain rfl := Option.some.inj (newest.symm.trans found)
      rw [accepted.inverse_eq, previous]
      exact library.apply_invert _ _ _ accepted.applied }
  have extended : Follows library (session.contents ++ [after.content])
      (session.operations ++ [some added.forward])
        (session.document.revision - session.document.history.length)
          (session.document.history ++ [added]) := by
    refine follows_concat.2 ⟨consistent.follows.append _ _, ?_⟩
    rw [Nat.sub_add_cancel historyLe]
    exact describes
  have recent := Follows.retainRecent extended
  rw [← accepted.after_history, List.length_append, List.length_singleton] at recent
  have lengthEqual : after.history.length = (session.document.history ++ [added]).length -
        ((session.document.history ++ [added]).length - historyLimit) := by
    rw [accepted.after_history, Document.retainRecent_eq_drop, List.length_drop]
  rw [List.length_append, List.length_singleton] at lengthEqual
  refine ⟨?_, ?_, ?_, ?_, ?_⟩
  · rw [List.length_append, contentsLength, accepted.after_revision]
    rfl
  · rw [List.length_append, consistent.operations_length, accepted.after_revision]
    rfl
  · rw [accepted.after_revision]
    exact newest
  · change after.history.length ≤ after.revision
    rw [accepted.after_revision]
    omega
  · convert recent using 1
    rw [accepted.after_revision, lengthEqual]
    omega

theorem step (consistent : session.Consistent library) (call : Call) :
    (session.step library call).Consistent library := by
  cases call with
  | applyMonacoChanges changes maxBytes =>
    simp only [Session.step]
    split
    · exact consistent
    · rename_i document result applied
      obtain ⟨_, _, _, added, accepted, _⟩ := Document.applyMonacoChanges_eq_ok applied
      rw [accepted.lastOperation_eq]
      exact consistent.accepted accepted
  | replace content =>
    have contentsLength := consistent.contents_length
    refine ⟨?_, ?_, ?_, Nat.zero_le _, trivial⟩
    · simp [Session.step, Document.replace, contentsLength]
    · simp [Session.step, Document.replace, consistent.operations_length]
    · simp only [Session.step, Document.replace]
      rw [← contentsLength, List.getElem?_concat_length]

end Session.Consistent

theorem Session.consistent_of_reachable
    (reached : Reachable Session.Initial (Session.Steps library) session) :
    session.Consistent library := by
  refine reached.invariant ?_ ?_
  · rintro _ ⟨content, rfl⟩
    exact ⟨rfl, rfl, rfl, Nat.zero_le _, trivial⟩
  · rintro before call _ consistent rfl
    exact consistent.step call

end Wings.Collaboration
