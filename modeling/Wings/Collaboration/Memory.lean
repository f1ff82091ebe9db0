import Wings.Collaboration.Session
import Wings.Library.Dictionary

/-!
# The memory of a shared session

A session keeps a document for every opened file. The lengths are added up under the lock of the
session, but each is read and changed under the lock of its document. The steps of a message are the
sections under a lock.
-/

namespace Wings.Collaboration.Memory

open Document (byteLength)
open TextOperation (Act)
open Function (update_of_ne update_self)
open Processes Transition
open TextOperation (Operations)

variable {Seq : Type}

def betterFilesCollabMaxPayloadBytes : Nat := 10 * 1024 * 1024

def betterFilesCollabMaxPatchChanges : Nat := 64

def betterFilesCollabMaxDocuments : Nat := 32

def betterFilesCollabMaxSessionBytes : Nat := 32 * 1024 * 1024

structure Session (Seq : Type) where
  maxFileBytes : Int
  documents : Dictionary String (Document Seq) := ∅
  /-- The message that has the lock of the session for writing. -/
  locked : Option Nat := none

inductive Message where
  | opened (path : String)
  | patch (path : String) (changes : List TextEdit)
  | snapshot (path : String) (content : Text)
  | saved (path : String) (content : Text)
  deriving DecidableEq

inductive Phase where
  | idle
  | looking (message : Message)
  | reading (message : Message)
  | adding (message : Message) (content : Text)
  | counting (message : Message) (content : Text) (remaining : List String) (currentBytes : Nat)
  | patching (path : String) (changes : List TextEdit)
  | measured (path : String) (changes : List TextEdit) (current : Nat)
  | summing (path : String) (changes : List TextEdit) (current : Nat)
      (remaining : List String) (total : Nat)
  | comparing (path : String) (content : Text)
  | differing (path : String) (content : Text)
  | replacing (path : String) (content : Text)
  | finished (error : Option String)
  deriving DecidableEq

/-- A section, with the answers to its calls. Documents are counted in any
order. -/
inductive Action where
  | begin (message : Message)
  | refuse (error : String)
  | look
  | read (file : Except String Text)
  | lock
  | count (index : Nat)
  | insert
  | measure
  | list
  | apply
  | compare
  | users (alone : Bool)
  | replace

namespace Session

section

variable (session : Session Seq)

def maxPayloadBytes : Int :=
  if session.maxFileBytes ≤ 0 ∨ session.maxFileBytes > betterFilesCollabMaxPayloadBytes then
    betterFilesCollabMaxPayloadBytes
  else session.maxFileBytes

def bytes : Nat := session.documents.total fun document => byteLength document.content

def lengthOf (path : String) : Nat :=
  (session.documents.lookup path).elim 0 fun document =>
    byteLength document.content

def setDocument (path : String) (document : Document Seq) : Session Seq :=
  { session with documents := session.documents.insert path document }

end

end Session

def Message.path : Message → String
  | .opened path => path
  | .patch path _ => path
  | .snapshot path _ => path
  | .saved path _ => path

def validChange (change : TextEdit) : Bool :=
  0 ≤ change.rangeOffset ∧ 0 ≤ change.rangeLength ∧ 0 ≤ change.baseLength ∧
    change.text.isSome = true ∧
    change.rangeOffset ≤ betterFilesCollabMaxPayloadBytes ∧
    change.rangeLength ≤ betterFilesCollabMaxPayloadBytes ∧
    change.baseLength ≤ betterFilesCollabMaxPayloadBytes

def patchError (maxPayloadBytes : Int) (changes : List TextEdit) : Option String :=
  if changes.length = 0 ∨ changes.length > betterFilesCollabMaxPatchChanges then
    some "invalid collaboration patch size"
  else if changes.all validChange = false then
    some "invalid collaboration patch change"
  else if ((changes.map fun change =>
      byteLength (change.text.getD [])).sum : Int) > maxPayloadBytes then
    some "collaboration patch is too large"
  else none

def Message.error (maxPayloadBytes : Int) : Message → Option String
  | .opened _ => none
  | .patch _ changes => patchError maxPayloadBytes changes
  | .snapshot _ content =>
    if (byteLength content : Int) > maxPayloadBytes then
      some "collaboration snapshot is too large or invalid"
    else none
  | .saved _ content =>
    if (byteLength content : Int) > maxPayloadBytes then
      some "collaboration save payload is too large or invalid"
    else none

def Message.located : Message → Phase
  | .opened _ => .finished none
  | .patch path changes => .patching path changes
  | .snapshot path content => .comparing path content
  | .saved path content => .replacing path content

section Move

variable (library : Operations Char Seq)

def lockSession (process : Nat) (session : Session Seq) (message : Message)
    (content : Text) : Session Seq × Phase :=
  if (session.documents.lookup message.path).isSome then
    (session, message.located)
  else if session.documents.entries.length ≥
      betterFilesCollabMaxDocuments then
    (session, .finished (some "collaboration session has too many open documents"))
  else ({ session with locked := some process }, .counting message content session.documents.keys 0)

/-- The document is added, unless it is too much, and the lock released. -/
def insertDocument (session : Session Seq) (message : Message) (content : Text)
    (currentBytes : Nat) : Session Seq × Phase :=
  let unlocked := { session with locked := none }
  if currentBytes + byteLength content > betterFilesCollabMaxSessionBytes then
    (unlocked, .finished (some "collaboration session document memory limit reached"))
  else (unlocked.setDocument message.path (.new content), message.located)

def patchLimit (session : Session Seq) (current total : Nat) : Int := min session.maxPayloadBytes
    (betterFilesCollabMaxSessionBytes - ((total : Int) - current))

def applyError : CollabError → Option String
  | .baseNotFound => none
  | .tooLarge => some "collaboration document is too large"
  | _ => some "invalid collaboration patch"

def applyPatch (session : Session Seq) (path : String) (changes : List TextEdit)
    (current total : Nat) : Session Seq × Phase :=
  let limit := patchLimit session current total
  if limit ≤ 0 then
    (session, .finished (some "collaboration session document memory limit reached"))
  else match session.documents.lookup path with
    | none => (session, .finished none)
    | some document =>
      match document.applyMonacoChanges library changes limit with
      | .error error => (session, .finished (applyError error))
      | .ok (after, _) => (session.setDocument path after, .finished none)

def replaceDocument (session : Session Seq) (path : String) (content : Text) : Session Seq :=
  match session.documents.lookup path with
  | none => session
  | some document => session.setDocument path (document.replace content)

def move (process : Nat) : Action → Session Seq → Phase → Option (Session Seq × Phase)
  | .begin message, session, .idle =>
    some (session, match message.error session.maxPayloadBytes with
      | some error => .finished (some error)
      | none => .looking message)
  | .refuse error, session, .looking _ =>
    some (session, .finished (some error))
  | .look, session, .looking message =>
    if session.locked = none then
      some (session, if (session.documents.lookup message.path).isSome then
        message.located else .reading message)
    else none
  | .read file, session, .reading message =>
    some (session, match file with
      | .error error => .finished (some error)
      | .ok content =>
        if (byteLength content : Int) > session.maxPayloadBytes then
          .finished (some "collaboration file is too large or is not UTF-8 text")
        else .adding message content)
  | .lock, session, .adding message content =>
    if session.locked = none then
      some (lockSession process session message content)
    else none
  | .count index, session, .counting message content remaining
      currentBytes =>
      remaining[index]?.map fun path =>
        (session, .counting message content (remaining.eraseIdx index)
          (currentBytes + session.lengthOf path))
  | .insert, session, .counting message content [] currentBytes =>
    some (insertDocument session message content currentBytes)
  | .measure, session, .patching path changes =>
    some (session, .measured path changes (session.lengthOf path))
  | .list, session, .measured path changes current =>
    if session.locked = none then
      some (session, .summing path changes current session.documents.keys 0)
    else none
  | .count index, session, .summing path changes current remaining total =>
    remaining[index]?.map fun other =>
      (session, .summing path changes current (remaining.eraseIdx index)
        (total + session.lengthOf other))
  | .apply, session, .summing path changes current [] total =>
    some (applyPatch library session path changes current total)
  | .compare, session, .comparing path content =>
    (session.documents.lookup path).map fun document =>
      (session, if document.content ≠ content ∧ document.revision = 0 then
        .differing path content else .finished none)
  | .users alone, session, .differing path content =>
    if session.locked = none then
      some (session, if alone then .replacing path content else
        .finished none)
    else none
  | .replace, session, .replacing path content =>
    some (replaceDocument session path content, .finished none)
  | _, _, _ => none

end Move

def Initial (config : Config (Session Seq) Phase) : Prop :=
  config.shared = { maxFileBytes := config.shared.maxFileBytes } ∧
    ∀ process, config.own process = .idle

def Phase.measuring : Phase → Bool
  | .counting _ _ _ _ => true
  | .measured _ _ _ => true
  | .summing _ _ _ _ _ => true
  | _ => false

def Action.changes : Action → Bool
  | .insert => true
  | .apply => true
  | .replace => true
  | _ => false

/-- No document changes while lengths are added up, and no content becomes longer. -/
def Undisturbed (config : Config (Session Seq) Phase) (label : Nat × Action) : Prop :=
  (label.2.changes = true → ∀ other, other ≠ label.1 → (config.own other).measuring = false) ∧
  ∀ path content, label.2 = .replace →
    config.own label.1 = .replacing path content → byteLength content ≤ config.shared.lengthOf path

theorem measuring_located (message : Message) : message.located.measuring = false := by
  cases message <;> rfl

/-- The sections by what they do to the documents and to the lengths that were
read. -/
inductive Moves (library : Operations Char Seq) (process : Nat) (session : Session Seq) :
    Action → Phase → Session Seq → Phase → Prop
  | quiet {action : Action} {phase next : Phase} :
      action.changes = false → next.measuring = false →
      Moves library process session action phase session next
  | lock {message : Message} {content : Text} :
      session.locked = none →
      session.documents.entries.length < betterFilesCollabMaxDocuments →
      Moves library process session .lock (.adding message content)
        { session with locked := some process } (.counting message content session.documents.keys 0)
  | count {index : Nat} {message : Message} {content : Text}
      {remaining : List String} {currentBytes : Nat} {path : String} :
      remaining[index]? = some path → Moves library process session (.count index)
        (.counting message content remaining currentBytes) session
        (.counting message content (remaining.eraseIdx index)
          (currentBytes + session.lengthOf path))
  | insert {message : Message} {content : Text} {currentBytes : Nat} :
      Moves library process session .insert (.counting message content [] currentBytes)
        (insertDocument session message content currentBytes).1
        (insertDocument session message content currentBytes).2
  | measure {path : String} {changes : List TextEdit} :
      Moves library process session .measure (.patching path changes) session
        (.measured path changes (session.lengthOf path))
  | list {path : String} {changes : List TextEdit} {current : Nat} :
      Moves library process session .list (.measured path changes current)
        session (.summing path changes current session.documents.keys 0)
  | sum {index : Nat} {path other : String} {changes : List TextEdit}
      {current total : Nat} {remaining : List String} :
      remaining[index]? = some other → Moves library process session (.count index)
        (.summing path changes current remaining total) session
        (.summing path changes current (remaining.eraseIdx index) (total + session.lengthOf other))
  | apply {path : String} {changes : List TextEdit} {current total : Nat} :
      Moves library process session .apply (.summing path changes current [] total)
        (applyPatch library session path changes current total).1
        (applyPatch library session path changes current total).2
  | replace {path : String} {content : Text} :
      Moves library process session .replace (.replacing path content)
        (replaceDocument session path content) (.finished none)

variable {session after : Session Seq}

theorem moves_of_lock (free : session.locked = none)
    (taken : lockSession process session message content = (after, next)) :
    Moves library process session .lock (.adding message content) after next := by
  rw [lockSession] at taken
  split at taken
  · cases taken
    exact .quiet rfl (measuring_located message)
  · split at taken
    · cases taken
      exact .quiet rfl rfl
    · rename_i few
      cases taken
      exact .lock free (Nat.lt_of_not_le few)

theorem moves_of_move (taken : move library process action session phase = some (after, next)) :
    Moves library process session action phase after next := by
  cases action with
  | begin message =>
    cases phase <;> cases taken
    refine .quiet rfl ?_
    split <;> rfl
  | refuse error =>
    cases phase <;> cases taken
    exact .quiet rfl rfl
  | look =>
    cases phase with
    | looking message =>
      rw [move] at taken
      split at taken <;> cases taken
      refine .quiet rfl ?_
      split
      · exact measuring_located message
      · rfl
    | _ => cases taken
  | read file =>
    cases phase <;> cases taken
    refine .quiet rfl ?_
    split
    · rfl
    · split <;> rfl
  | lock =>
    cases phase with
    | adding message content =>
      rw [move] at taken
      split at taken
      · next free => exact moves_of_lock free (Option.some.inj taken)
      · cases taken
    | _ => cases taken
  | count index =>
    cases phase with
    | counting message content remaining currentBytes =>
      obtain ⟨path, found, equal⟩ := Option.map_eq_some_iff.1 taken
      cases equal
      exact .count found
    | summing path changes current remaining total =>
      obtain ⟨other, found, equal⟩ := Option.map_eq_some_iff.1 taken
      cases equal
      exact .sum found
    | _ => cases taken
  | insert =>
    cases phase with
    | counting message content remaining currentBytes =>
      cases remaining with
      | cons path rest => cases taken
      | nil =>
        obtain ⟨rfl, rfl⟩ := Prod.ext_iff.1 (Option.some.inj taken)
        exact .insert
    | _ => cases taken
  | measure =>
    cases phase <;> cases taken
    exact .measure
  | list =>
    cases phase with
    | measured path changes current =>
      rw [move] at taken
      split at taken <;> cases taken
      exact .list
    | _ => cases taken
  | apply =>
    cases phase with
    | summing path changes current remaining total =>
      cases remaining with
      | cons path rest => cases taken
      | nil =>
        obtain ⟨rfl, rfl⟩ := Prod.ext_iff.1 (Option.some.inj taken)
        exact .apply
    | _ => cases taken
  | compare =>
    cases phase with
    | comparing path content =>
      obtain ⟨document, _, equal⟩ := Option.map_eq_some_iff.1 taken
      cases equal
      refine .quiet rfl ?_
      split <;> rfl
    | _ => cases taken
  | users alone =>
    cases phase with
    | differing path content =>
      rw [move] at taken
      split at taken <;> cases taken
      refine .quiet rfl ?_
      split <;> rfl
    | _ => cases taken
  | replace =>
    cases phase <;> cases taken
    exact .replace

theorem measuring_insertDocument (session : Session Seq) (message : Message)
    (content : Text) (currentBytes : Nat) :
    (insertDocument session message content currentBytes).2.measuring = false := by
  rw [insertDocument]
  split
  · rfl
  · exact measuring_located message

theorem measuring_applyPatch (session : Session Seq) (path : String)
    (changes : List TextEdit) (current total : Nat) :
    (applyPatch library session path changes current total).2.measuring = false := by
  rw [applyPatch]
  split
  · rfl
  · split
    · rfl
    · split <;> rfl

/-- A message about to add a document has the lock, and there is room. -/
def Reserves (process : Nat) (session : Session Seq) : Phase → Prop
  | .counting _ _ _ _ => session.locked = some process ∧
      session.documents.entries.length < betterFilesCollabMaxDocuments
  | _ => True

theorem reserves_of_measuring (session : Session Seq)
    (idle : phase.measuring = false) : Reserves process session phase := by
  cases phase with
  | counting message content remaining currentBytes => cases idle
  | _ => trivial

structure InPlace (session after : Session Seq) : Prop where
  locked : after.locked = session.locked
  length : after.documents.entries.length = session.documents.entries.length

theorem InPlace.refl (session : Session Seq) : InPlace session session := ⟨rfl, rfl⟩

variable {document : Document Seq}

theorem inPlace_setDocument (found : session.documents.lookup path = some document)
    (after : Document Seq) : InPlace session (session.setDocument path after) :=
  ⟨rfl, Dictionary.length_insert_of_found found after⟩

theorem inPlace_applyPatch (session : Session Seq) (path : String)
    (changes : List TextEdit) (current total : Nat) : InPlace session
    (applyPatch library session path changes current total).1 := by
  rw [applyPatch]
  split
  · exact .refl session
  · split
    · exact .refl session
    · rename_i document found
      split
      · exact .refl session
      · exact inPlace_setDocument found _

theorem inPlace_replaceDocument (session : Session Seq) (path : String) (content : Text) :
    InPlace session (replaceDocument session path content) := by
  rw [replaceDocument]
  split
  · exact .refl session
  · next document found => exact inPlace_setDocument found _

theorem length_insertDocument (session : Session Seq) (message : Message)
    (content : Text) (currentBytes : Nat) : (insertDocument session message content
    currentBytes).1.documents.entries.length ≤ session.documents.entries.length + 1 := by
  rw [insertDocument]
  split
  · exact Nat.le_succ _
  · exact Dictionary.length_insert_le _ _

theorem inPlace_or_of_moves (moved : Moves library process session action phase after next) :
    (InPlace session after ∧ (Reserves process session phase → Reserves process after next)) ∨
    (session.locked = none ∧ Reserves process after next ∧ after.documents = session.documents) ∨
    ∃ message content currentBytes, phase = .counting message content [] currentBytes ∧
    next.measuring = false ∧
    after.documents.entries.length ≤ session.documents.entries.length + 1 := by
  cases moved with
  | quiet _ idle =>
    exact .inl ⟨.refl session, fun _ => reserves_of_measuring session idle⟩
  | lock free few => exact .inr (.inl ⟨free, ⟨rfl, few⟩, rfl⟩)
  | count found => exact .inl ⟨.refl session, id⟩
  | insert =>
    exact .inr (.inr ⟨_, _, _, rfl, measuring_insertDocument _ _ _ _,
      length_insertDocument _ _ _ _⟩)
  | measure | list | sum found => exact .inl ⟨.refl session, fun _ => trivial⟩
  | apply =>
    exact .inl ⟨inPlace_applyPatch _ _ _ _ _, fun _ =>
      reserves_of_measuring _ (measuring_applyPatch _ _ _ _ _)⟩
  | replace =>
    exact .inl ⟨inPlace_replaceDocument _ _ _, fun _ => trivial⟩

theorem InPlace.reserves (inPlace : InPlace session after)
    (reserves : Reserves process session phase) : Reserves process after phase := by
  cases phase with
  | counting message content remaining currentBytes =>
    obtain ⟨holder, few⟩ := reserves
    exact ⟨inPlace.locked.trans holder, inPlace.length ▸ few⟩
  | _ => trivial

theorem reserves_of_not_holder (reserves : Reserves process session phase)
    (other : session.locked ≠ some process) (after : Session Seq) :
    Reserves process after phase := by
  cases phase with
  | counting message content remaining currentBytes =>
    exact absurd reserves.1 other
  | _ => trivial

theorem documents_few (reached : Reachable Initial (Config.Steps (move library)) config) :
    config.shared.documents.entries.length ≤ betterFilesCollabMaxDocuments ∧
    config.Each Reserves := by
  induction reached with
  | start initial =>
    obtain ⟨empty, idle⟩ := initial
    constructor
    · rw [empty]
      exact Nat.zero_le _
    · intro process
      rw [idle process]
      trivial
  | next _ label taken before =>
    obtain ⟨few, each⟩ := before
    obtain ⟨after, next, moved, rfl⟩ := Config.steps_iff.1 taken
    have mine := each label.1
    refine ⟨?_, each.step taken ?_ ?_⟩
    · rcases inPlace_or_of_moves (moves_of_move moved) with
        ⟨inPlace, _⟩ | ⟨_, _, same⟩ | ⟨message, content, bytes, phase, _, more⟩
      · exact inPlace.length ▸ few
      · exact same ▸ few
      · rw [phase] at mine
        exact more.trans mine.2
    · intro shared own moved
      rcases inPlace_or_of_moves (moves_of_move moved) with
        ⟨_, keeps⟩ | ⟨_, reserves, _⟩ | ⟨_, _, _, _, idle, _⟩
      · exact keeps mine
      · exact reserves
      · exact reserves_of_measuring shared idle
    · intro shared own moved process different reserves
      rcases inPlace_or_of_moves (moves_of_move moved) with
        ⟨inPlace, _⟩ | ⟨free, _, _⟩ | ⟨message, content, bytes, phase, _, _⟩
      · exact inPlace.reserves reserves
      · refine reserves_of_not_holder reserves ?_ shared
        rw [free]
        exact Option.some_ne_none process ∘ Eq.symm
      · refine reserves_of_not_holder reserves ?_ shared
        rw [phase] at mine
        rw [mine.1]
        exact fun equal => different (Option.some.inj equal).symm

theorem byteLength_of_applied {after : Document Seq} {changes : List TextEdit}
    {maxBytes : Int} {result : ApplyResult}
    (accepted : document.applyMonacoChanges library changes maxBytes = .ok (after, result))
    (positive : 0 < maxBytes) : (byteLength after.content : Int) ≤ maxBytes := by
  obtain ⟨_, _, _, _, _, _, fits⟩ := Document.applyMonacoChanges_eq_ok accepted
  exact Int.not_lt.1 fun long => fits ⟨positive, long⟩

section

variable (session : Session Seq)

def Session.lengthsOf (paths : List String) : Nat := (paths.map session.lengthOf).sum

theorem lengthsOf_eraseIdx (found : paths[index]? = some path) : session.lengthsOf paths =
    session.lengthOf path + session.lengthsOf (paths.eraseIdx index) := by
  obtain ⟨bound, rfl⟩ := List.getElem?_eq_some_iff.1 found
  have moved := (List.getElem_cons_eraseIdx_perm bound).map session.lengthOf
  rw [Session.lengthsOf, ← moved.sum_eq, List.map_cons, List.sum_cons]
  rfl

def Measures : Phase → Prop
  | .counting _ _ remaining currentBytes =>
    currentBytes + session.lengthsOf remaining = session.bytes
  | .measured path _ current => current = session.lengthOf path
  | .summing path _ current remaining total =>
    current = session.lengthOf path ∧ total + session.lengthsOf remaining = session.bytes
  | _ => True

theorem measures_of_measuring (idle : phase.measuring = false) : Measures session phase := by
  cases phase with
  | counting _ _ _ _ | measured _ _ _ | summing _ _ _ _ _ => cases idle
  | _ => trivial

end

theorem measures_of_documents (same : after.documents = session.documents)
    (measures : Measures session phase) : Measures after phase := by
  have lengths : after.lengthOf = session.lengthOf := by
    funext path
    rw [Session.lengthOf, Session.lengthOf, same]
  have bytes : after.bytes = session.bytes := by
    rw [Session.bytes, Session.bytes, same]
  cases phase with
  | counting _ _ _ _ | measured _ _ _ | summing _ _ _ _ _ =>
    simpa only [Measures, Session.lengthsOf, lengths, bytes] using measures
  | _ => trivial

theorem bytes_insertDocument (message : Message)
    (content : Text) (counted : currentBytes = session.bytes)
    (small : session.bytes ≤ betterFilesCollabMaxSessionBytes) :
    (insertDocument session message content currentBytes).1.bytes ≤
    betterFilesCollabMaxSessionBytes := by
  rw [insertDocument]
  split
  · exact small
  · rename_i fits
    have grown : Session.bytes (Session.setDocument
        { session with locked := none } message.path (.new content)) ≤
        byteLength content + session.bytes := Dictionary.total_insert_le _ _
    exact grown.trans (by omega)

theorem bytes_setDocument (found : session.documents.lookup path = some document)
    (after : Document Seq) : (session.setDocument path after).bytes + session.lengthOf path =
    session.bytes + byteLength after.content := by
  have measured : session.lengthOf path = byteLength document.content := by
    rw [Session.lengthOf, found]
    rfl
  have apart : session.bytes = byteLength document.content + _ := Dictionary.total_erase found
  have joined : (session.setDocument path after).bytes = byteLength after.content + _ :=
    Dictionary.total_insert path after
  omega

theorem bytes_applyPatch (changes : List TextEdit) (measured : current = session.lengthOf path)
    (counted : total = session.bytes) (small : session.bytes ≤ betterFilesCollabMaxSessionBytes) :
    (applyPatch library session path changes current total).1.bytes ≤
    betterFilesCollabMaxSessionBytes := by
  rw [applyPatch]
  split
  · exact small
  · rename_i positive
    split
    · exact small
    · rename_i document found
      split
      · exact small
      · rename_i after _ applied
        have limited := byteLength_of_applied applied (Int.not_le.1 positive)
        have exchanged := bytes_setDocument found after
        rw [patchLimit] at limited
        have final : (session.setDocument path after).bytes ≤
            betterFilesCollabMaxSessionBytes := by
          omega
        exact final

theorem bytes_replaceDocument (shorter : byteLength content ≤ session.lengthOf path)
    (small : session.bytes ≤ betterFilesCollabMaxSessionBytes) :
    (replaceDocument session path content).bytes ≤ betterFilesCollabMaxSessionBytes := by
  rw [replaceDocument]
  split
  · exact small
  · rename_i document found
    have exchanged : (session.setDocument path
        (document.replace content)).bytes + session.lengthOf path =
        session.bytes + byteLength content := bytes_setDocument found _
    omega

theorem bytes_of_moves (moved : Moves library process session action phase after next)
    (measures : Measures session phase) (shorter : ∀ path content, action = .replace →
    phase = .replacing path content → byteLength content ≤ session.lengthOf path)
    (small : session.bytes ≤ betterFilesCollabMaxSessionBytes) :
    after.bytes ≤ betterFilesCollabMaxSessionBytes ∧ Measures after next := by
  cases moved with
  | quiet _ idle => exact ⟨small, measures_of_measuring session idle⟩
  | @lock message content free few =>
    have counted : Measures session (.counting message content session.documents.keys 0) :=
      (Nat.zero_add _).trans Dictionary.sum_keys
    exact ⟨small, measures_of_documents rfl counted⟩
  | count found =>
    refine ⟨small, ?_⟩
    rw [Measures, lengthsOf_eraseIdx session found] at measures
    rw [Measures, Nat.add_assoc]
    exact measures
  | insert =>
    exact ⟨bytes_insertDocument _ _ measures small,
      measures_of_measuring _ (measuring_insertDocument _ _ _ _)⟩
  | measure => exact ⟨small, rfl⟩
  | list =>
    refine ⟨small, measures, ?_⟩
    exact (Nat.zero_add _).trans Dictionary.sum_keys
  | sum found =>
    refine ⟨small, measures.1, ?_⟩
    rw [Nat.add_assoc, ← lengthsOf_eraseIdx session found]
    exact measures.2
  | apply =>
    exact ⟨bytes_applyPatch _ measures.1 measures.2 small,
      measures_of_measuring _ (measuring_applyPatch _ _ _ _ _)⟩
  | replace =>
    exact ⟨bytes_replaceDocument (shorter _ _ rfl rfl) small, trivial⟩

theorem measures_of_moves (moved : Moves library process session action phase after next)
    (undisturbed : action.changes = true → other.measuring = false)
    (measures : Measures session other) : Measures after other := by
  cases moved with
  | lock free few => exact measures_of_documents rfl measures
  | insert | apply | replace =>
    exact measures_of_measuring _ (undisturbed rfl)
  | _ => exact measures

/-- The number of documents is bounded, and so is their total length if no document changes while
another message adds up lengths, and no content is replaced by a longer one. -/
theorem session_memory_bounded (library : Operations Char Seq) :
    (∀ config : Config (Session Seq) Phase,
      Reachable Initial (Config.Steps (move library)) config →
        config.shared.documents.entries.length ≤ betterFilesCollabMaxDocuments) ∧
    ∀ config : Config (Session Seq) Phase,
      Reachable Initial (Guarded Undisturbed (Config.Steps (move library)))
        config → config.shared.bytes ≤ betterFilesCollabMaxSessionBytes := by
  refine ⟨fun config reached => (documents_few reached).1, ?_⟩
  intro config reached
  suffices both : config.shared.bytes ≤ betterFilesCollabMaxSessionBytes ∧
      config.Each fun _ => Measures from both.1
  induction reached with
  | start initial =>
    obtain ⟨empty, idle⟩ := initial
    constructor
    · rw [empty]
      exact Nat.zero_le _
    · intro process
      rw [idle process]
      trivial
  | next _ label taken before =>
    obtain ⟨small, each⟩ := before
    obtain ⟨⟨still, shorter⟩, taken⟩ := taken
    obtain ⟨after, next, moved, rfl⟩ := Config.steps_iff.1 taken
    have measures := each label.1
    refine ⟨(bytes_of_moves (moves_of_move moved) measures shorter small).1, each.step taken ?_ ?_⟩
    · intro shared own moved
      exact (bytes_of_moves (moves_of_move moved) measures shorter small).2
    · intro shared own moved process different measured
      exact measures_of_moves (moves_of_move moved)
        (fun changes => still changes process different) measured

theorem reachable_saved (reached : Reachable Initial (Config.Steps (move library)) config)
    (idle : config.own process = .idle) (free : config.shared.locked = none)
    (found : config.shared.documents.lookup path = some document)
    (fits : (byteLength content : Int) ≤ config.shared.maxPayloadBytes) :
    ∃ after, Reachable Initial (Config.Steps (move library)) after ∧ after.shared =
    config.shared.setDocument path (document.replace content) ∧
    ∀ other, other ≠ process → after.own other = config.own other := by
  have begun := reached.next (process, .begin (.saved path content))
    (Config.steps_iff.2 ⟨config.shared, .looking (.saved path content), by
      rw [idle, move, Message.error, if_neg (Int.not_lt.2 fits)], rfl⟩)
  have located := begun.next (process, .look)
    (Config.steps_iff.2 ⟨config.shared, .replacing path content, by
      dsimp only
      rw [update_self, move, if_pos free, Message.path, found]
      rfl, rfl⟩)
  have replaced := located.next (process, .replace)
    (Config.steps_iff.2 ⟨config.shared.setDocument path
      (document.replace content), .finished none, by
      dsimp only
      rw [update_self, move, replaceDocument, found], rfl⟩)
  refine ⟨_, replaced, rfl, fun other different => ?_⟩
  dsimp only
  rw [update_of_ne different, update_of_ne different, update_of_ne different]

theorem reachable_saves (paths : List String) (distinct : paths.Nodup) (first : Nat)
    (reached : Reachable Initial (Config.Steps (move library)) config)
    (idle : ∀ index < paths.length, config.own (first + index) = .idle)
    (free : config.shared.locked = none) (empty : ∀ path ∈ paths, ∃ document,
    config.shared.documents.lookup path = some document ∧ document.content = [])
    (fits : (byteLength content : Int) ≤ config.shared.maxPayloadBytes) :
    ∃ after : Config (Session Seq) Phase, Reachable Initial (Config.Steps (move library)) after ∧
    after.shared.bytes = config.shared.bytes + paths.length * byteLength content := by
  induction paths generalizing config first with
  | nil => exact ⟨config, reached, by simp⟩
  | cons path paths ih =>
    obtain ⟨document, found, isEmpty⟩ := empty path List.mem_cons_self
    obtain ⟨after, reached, shared, others⟩ := reachable_saved reached
      (idle 0 (Nat.succ_pos _)) free found fits
    obtain ⟨notLater, distinct⟩ := List.nodup_cons.1 distinct
    have grown : after.shared.bytes = config.shared.bytes + byteLength content := by
      have exchanged : (config.shared.setDocument path
          (document.replace content)).bytes + config.shared.lengthOf path =
          config.shared.bytes + byteLength content := bytes_setDocument found _
      have nothing : config.shared.lengthOf path = 0 := by
        rw [Session.lengthOf, found, Option.elim_some, isEmpty]
        rfl
      rw [shared]
      omega
    obtain ⟨final, reached, total⟩ := ih distinct (first + 1) reached (by
        intro index bound
        rw [others _ (by omega), Nat.add_assoc, Nat.add_comm 1]
        exact idle (index + 1) (Nat.succ_lt_succ bound))
      (by rw [shared]; exact free)
      (by
        intro other member
        have different : other ≠ path := by
          rintro rfl
          exact notLater member
        rw [shared, Session.setDocument, AList.lookup_insert_ne different]
        exact empty other (List.mem_cons_of_mem _ member))
      (by rw [shared]; exact fits)
    refine ⟨final, reached, ?_⟩
    rw [total, grown, List.length_cons, Nat.succ_mul]
    omega

def emptyConfig : Config (Session (List (Act Char))) Phase where
  shared := { maxFileBytes := 0 }
  own _ := .idle

/-- An open of an empty file, handled alone while there are `present`
documents. -/
def opening (path : String) (present : Nat) : List Action :=
  [.begin (.opened path), .look, .read (.ok []), .lock] ++
    List.replicate present (.count 0) ++ [.insert]

/-- Four empty files are opened, and each is saved with a content of the largest length. -/
theorem session_memory_exceeded : ∃ config : Config (Session (List (Act Char))) Phase,
      Reachable Initial (Config.Steps (move (Act.operations Char))) config ∧
        betterFilesCollabMaxSessionBytes < config.shared.bytes := by
  have ran : (execute (Config.step (move (Act.operations Char)))
      emptyConfig ((opening "a" 0).map (Prod.mk 0) ++
        (opening "b" 1).map (Prod.mk 1) ++ (opening "c" 2).map (Prod.mk 2) ++
        (opening "d" 3).map (Prod.mk 3))).any (fun config =>
      config.shared.locked = none ∧ config.shared.maxFileBytes = 0 ∧
        (∀ index < 4, config.own (4 + index) = .idle) ∧
        (["a", "b", "c", "d"].all fun path =>
          (config.shared.documents.lookup path).any fun document =>
            document.content = []) = true) = true := by
    decide +kernel
  obtain ⟨config, executed, state⟩ := (Option.any_eq_true _ _).1 ran
  obtain ⟨free, unlimited, idle, empty⟩ := of_decide_eq_true state
  have length : byteLength (List.replicate betterFilesCollabMaxPayloadBytes
      'x') = betterFilesCollabMaxPayloadBytes := by
    rw [byteLength, List.map_replicate, List.sum_replicate, smul_eq_mul]
    exact Nat.mul_one _
  have start : Reachable Initial
      (Config.Steps (move (Act.operations Char))) emptyConfig :=
    .start ⟨rfl, fun _ => rfl⟩
  obtain ⟨final, reached, total⟩ := reachable_saves ["a", "b", "c", "d"]
    (by decide) 4 (start.execute _ executed) idle free (by
      intro path member
      obtain ⟨document, found, isEmpty⟩ :=
        (Option.any_eq_true _ _).1 (List.all_eq_true.1 empty path member)
      exact ⟨document, found, of_decide_eq_true isEmpty⟩)
    (by
      rw [length, Session.maxPayloadBytes, unlimited]
      exact le_rfl)
  refine ⟨final, reached, ?_⟩
  rw [total, length]
  refine Nat.lt_of_lt_of_le ?_ (Nat.le_add_left _ _)
  decide

theorem undisturbed_of_quiet (quiet : label.2.changes = false) : Undisturbed config label := by
  constructor
  · intro changes
    rw [quiet] at changes
    cases changes
  · intro path content replaces
    rw [replaces] at quiet
    cases quiet

theorem opened_memory_bounded : ∃ config : Config (Session (List (Act Char))) Phase,
      Reachable Initial (Guarded Undisturbed
          (Config.Steps (move (Act.operations Char)))) config ∧
        config.shared.lengthOf "a" = 1 ∧
        config.shared.bytes ≤ betterFilesCollabMaxSessionBytes := by
  have start : Reachable Initial (Guarded Undisturbed
      (Config.Steps (move (Act.operations Char)))) emptyConfig :=
    .start ⟨rfl, fun _ => rfl⟩
  have begun := start.next (0, .begin (.opened "a")) ⟨undisturbed_of_quiet rfl, rfl⟩
  have looked := begun.next (0, .look) ⟨undisturbed_of_quiet rfl, rfl⟩
  have read := looked.next (0, .read (.ok ['x'])) ⟨undisturbed_of_quiet rfl, rfl⟩
  have locked := read.next (0, .lock) ⟨undisturbed_of_quiet rfl, rfl⟩
  have inserted := locked.next (0, .insert) ⟨⟨by
    intro _ other different
    dsimp only
    rw [update_of_ne different, update_of_ne different,
      update_of_ne different, update_of_ne different]
    rfl, fun _ _ replaces => nomatch replaces⟩, rfl⟩
  exact ⟨_, inserted, rfl, (session_memory_bounded _).2 _ inserted⟩

end Wings.Collaboration.Memory
