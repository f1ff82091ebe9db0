import Mathlib.Data.List.Infix
import Wings.Library.Transition

/-!
# A native collaboration session

A label is one section of a subscription, an update or a save under the session lock; the file is
read and written outside it. A subscription that read the file before a save completed, and takes
the lock after it, replaces the document by what it read.
-/

namespace Wings.NativeCollaboration

abbrev Bytes := List UInt8

/-- The library of replicated documents, and functions on bytes. -/
structure Crdt (Doc Hash : Type) where
  /-- A new document with a text. -/
  ofText : Bytes → Doc
  /-- Merge an update, unless it is invalid. -/
  applyUpdateV1 : Doc → Bytes → Option Doc
  /-- The text of a document. -/
  toString : Doc → Bytes
  sum256 : Bytes → Hash
  validString : Bytes → Bool
  toString_ofText : ∀ content, toString (ofText content) = content

structure Member where
  handler : Nat
  pending : Bytes

structure Session (Doc Hash : Type) where
  doc : Doc
  dirty : Bool
  diskHash : Hash
  appliedUpdateBytes : Nat
  members : List Member

section Truncation

variable (validString : Bytes → Bool)

def trimInvalid : Nat → Bytes → Bytes
  | 0, content => content
  | count + 1, content =>
    if validString content then content
    else trimInvalid count content.dropLast

def truncateUTF8 (content : Bytes) (maxBytes : Nat) : Bytes :=
  if content.length ≤ maxBytes then content
  else trimInvalid validString maxBytes (content.take maxBytes)

end Truncation

namespace Session

variable {Doc Hash : Type} (crdt : Crdt Doc Hash) (fileSizeCap : Nat)

def resetDocument (session : Session Doc Hash) (content : Bytes) : Session Doc Hash :=
  { session with
    doc := crdt.ofText content
    diskHash := crdt.sum256 content
    appliedUpdateBytes := 0 }

def new (content : Bytes) : Session Doc Hash :=
  ⟨crdt.ofText content, false, crdt.sum256 content, 0, []⟩

def addMember (session : Session Doc Hash) (handler : Nat) : Session Doc Hash :=
  { session with
    members := ⟨handler, []⟩ :: session.members.filter fun member => member.handler ≠ handler }

/-- A session without unsaved edits follows the content that was read from the file. -/
def subscribe [DecidableEq Hash] (session : Session Doc Hash) (content : Bytes)
    (handler : Nat) : Session Doc Hash :=
  if session.dirty = false ∧ session.diskHash ≠ crdt.sum256 content then
    (session.resetDocument crdt content).addMember handler
  else session.addMember handler

section

variable (session : Session Doc Hash)

def removeMember (handler : Nat) : Session Doc Hash :=
  { session with
    members := session.members.filter fun member => member.handler ≠ handler }

def setPending (handler : Nat) (pending : Bytes) : Session Doc Hash :=
  { session with
    members := session.members.map fun member =>
      if member.handler = handler then { member with pending := pending }
      else member }

/-- The first section of an update: collect a chunk. -/
def collectChunk (handler : Nat) (finished : Bool)
    (chunk : Bytes) : Session Doc Hash × Option Bytes :=
  match session.members.find? (fun member => member.handler = handler) with
  | none => (session, none)
  | some member =>
    let pending := member.pending ++ chunk
    if pending.length > fileSizeCap then
      (session.setPending handler [], none)
    else if finished = false then
      (session.setPending handler pending, none)
    else if pending = [] then (session.setPending handler [], none)
    else (session.setPending handler [], some pending)

/-- The second section of an update: merge it, and start a new document when it has grown too large.
The flag asks the members to synchronise again. -/
def applyUpdate (update : Bytes) : Option (Session Doc Hash × Bool) :=
  match crdt.applyUpdateV1 session.doc update with
  | none => none
  | some doc =>
    let content := crdt.toString doc
    let appliedUpdateBytes := session.appliedUpdateBytes + update.length
    let merged := { session with
      doc := doc, dirty := true, appliedUpdateBytes := appliedUpdateBytes }
    if content.length > fileSizeCap ∨ appliedUpdateBytes > fileSizeCap * 8 then
      some ({ merged.resetDocument crdt
        (truncateUTF8 crdt.validString content fileSizeCap) with
          dirty := true }, true)
    else some (merged, false)

def finishSave (content : Bytes) : Session Doc Hash :=
  { session with
    diskHash := crdt.sum256 content
    dirty := crdt.toString session.doc ≠ content }

end

end Session

inductive Save where
  | captured (content : Bytes)
  | writing (content : Bytes)
  | written (content : Bytes)

/-- A session with its file and the calls in progress. The first content, the updates merged and the
content written last are recorded. -/
structure State (Doc Hash : Type) where
  session : Session Doc Hash
  file : Bytes
  subscribing : List (Nat × Bytes)
  updating : List Bytes
  waiting : List Nat
  saving : Option Save
  initial : Bytes
  updates : List Bytes
  lastWritten : Bytes

/-- A section of a call.  While a write is in progress the file may show any
content. -/
inductive Label where
  | subscribeRead (handler : Nat)
  | subscribeLock (index : Nat)
  | updateChunk (handler : Nat) (finished : Bool) (chunk : Bytes)
  | updateApply (index : Nat)
  | unsubscribe (handler : Nat)
  | saveRequest (handler : Nat)
  | saveCapture (index : Nat)
  | saveWrite (shown : Bytes)
  | saveWritten
  | saveFail
  | saveFinish

section System

variable {Doc Hash : Type} [DecidableEq Hash] (crdt : Crdt Doc Hash) (fileSizeCap : Nat)

def readFile (file : Bytes) : Option Bytes :=
  if file.length > fileSizeCap ∨ crdt.validString file = false then none
  else some file

namespace State

/-- One section of a call; none when the section cannot run. -/
def step (state : State Doc Hash) : Label → Option (State Doc Hash)
  | .subscribeRead handler =>
    match readFile crdt fileSizeCap state.file with
    | none => some state
    | some content => some { state with
        subscribing := (handler, content) :: state.subscribing }
  | .subscribeLock index =>
    match state.subscribing[index]? with
    | none => none
    | some (handler, content) => some { state with
        session := state.session.subscribe crdt content handler
        subscribing := state.subscribing.eraseIdx index }
  | .updateChunk handler finished chunk =>
    match state.session.collectChunk fileSizeCap handler finished chunk with
    | (session, none) => some { state with session := session }
    | (session, some update) => some { state with
        session := session, updating := update :: state.updating }
  | .updateApply index =>
    match state.updating[index]? with
    | none => none
    | some update =>
      let updating := state.updating.eraseIdx index
      match state.session.applyUpdate crdt fileSizeCap update with
      | none => some { state with updating := updating }
      | some (session, _) => some { state with
          session := session
          updating := updating
          updates := state.updates ++ [update] }
  | .unsubscribe handler =>
    some { state with session := state.session.removeMember handler }
  | .saveRequest handler =>
    if state.session.members.any fun member =>
        member.handler = handler then
      some { state with waiting := handler :: state.waiting }
    else some state
  | .saveCapture index =>
    match state.saving, state.waiting[index]? with
    | none, some _ => some { state with
        waiting := state.waiting.eraseIdx index
        saving := some (.captured (crdt.toString state.session.doc)) }
    | _, _ => none
  | .saveWrite shown =>
    match state.saving with
    | some (.captured content) =>
      some { state with file := shown, saving := some (.writing content) }
    | some (.writing content) =>
      some { state with file := shown, saving := some (.writing content) }
    | _ => none
  | .saveWritten =>
    match state.saving with
    | some (.writing content) => some { state with
        file := content
        saving := some (.written content)
        lastWritten := content }
    | _ => none
  | .saveFail =>
    match state.saving with
    | some (.captured _) => some { state with saving := none }
    | some (.writing _) => some { state with saving := none }
    | _ => none
  | .saveFinish =>
    match state.saving with
    | some (.written content) => some { state with
        session := state.session.finishSave crdt content
        saving := none }
    | _ => none

def Steps (state : State Doc Hash) (label : Label) (after : State Doc Hash) : Prop :=
  state.step crdt fileSizeCap label = some after

def Initial (state : State Doc Hash) : Prop := ∃ content handler,
    state = ⟨.new crdt content, content, [(handler, content)], [], [], none, content, [], content⟩

end State

end System

open Transition

variable {Doc Hash : Type} [DecidableEq Hash] {crdt : Crdt Doc Hash}

section Replay

variable (crdt) (fileSizeCap)

/-- Merge an update. A document that has merged too many bytes is built anew from its text. -/
def mergeUpdate (replica : Doc × Nat) (update : Bytes) : Doc × Nat :=
  match crdt.applyUpdateV1 replica.1 update with
  | none => replica
  | some doc =>
    if replica.2 + update.length > fileSizeCap * 8 then
      (crdt.ofText (crdt.toString doc), 0)
    else (doc, replica.2 + update.length)

/-- Merging updates, in order, into the initial content. -/
def replay (initial : Bytes) (updates : List Bytes) : Doc × Nat :=
  updates.foldl (mergeUpdate crdt fileSizeCap) (crdt.ofText initial, 0)

end Replay

/-- The section merges no update that takes the text above the size cap. -/
def WithinCap (crdt : Crdt Doc Hash) (fileSizeCap : Nat) (state : State Doc Hash) : Label → Prop
  | .updateApply index =>
    ∀ update doc, state.updating[index]? = some update →
      crdt.applyUpdateV1 state.session.doc update = some doc →
        (crdt.toString doc).length ≤ fileSizeCap
  | _ => True

/-- A subscription to a session without unsaved edits has read what was written last. -/
def ReadLastWritten (state : State Doc Hash) : Label → Prop
  | .subscribeLock index =>
    ∀ handler content, state.subscribing[index]? = some (handler, content) →
      state.session.dirty = false → content = state.lastWritten
  | _ => True

/-- A captured text is current unless there are unsaved edits, and was written last once written. -/
def Save.Agrees (text lastWritten : Bytes) (dirty : Bool) : Save → Prop
  | .captured content => dirty = false → text = content
  | .writing content => dirty = false → text = content
  | .written content => lastWritten = content

/-- All updates are in the document, which is written unless there are unsaved edits. -/
structure Kept (crdt : Crdt Doc Hash) (fileSizeCap : Nat) (state : State Doc Hash) : Prop where
  replica_eq : (state.session.doc, state.session.appliedUpdateBytes) =
    replay crdt fileSizeCap state.initial state.updates
  clean : state.session.dirty = false → crdt.toString state.session.doc = state.lastWritten ∧
      state.session.diskHash = crdt.sum256 state.lastWritten
  saving : ∀ save, state.saving = some save →
    save.Agrees (crdt.toString state.session.doc) state.lastWritten state.session.dirty

namespace Kept

omit [DecidableEq Hash] in
theorem frame (kept : Kept crdt fileSizeCap state) (members : List Member)
    (file : Bytes) (subscribing : List (Nat × Bytes)) (updating : List Bytes) (waiting : List Nat) :
    Kept crdt fileSizeCap ⟨{ state.session with members := members }, file, subscribing, updating,
        waiting, state.saving, state.initial, state.updates, state.lastWritten⟩ :=
  { kept with }

theorem subscribe_eq (kept : Kept crdt fileSizeCap state)
    (current : state.session.dirty = false → content = state.lastWritten) (handler : Nat) :
    state.session.subscribe crdt content handler = state.session.addMember handler := by
  refine if_neg ?_
  rintro ⟨clean, differs⟩
  rw [current clean, (kept.clean clean).2] at differs
  exact differs rfl

omit [DecidableEq Hash] in
theorem collectChunk_frame (session : Session Doc Hash) (handler : Nat)
    (finished : Bool) (chunk : Bytes) :
    ∃ members, (session.collectChunk fileSizeCap handler finished chunk).1 =
      { session with members := members } := by
  simp only [Session.collectChunk]
  split
  · exact ⟨session.members, rfl⟩
  · split_ifs <;> exact ⟨_, rfl⟩

omit [DecidableEq Hash] in
theorem applyUpdate_eq {session merged : Session Doc Hash} {update : Bytes} {resync : Bool}
    (within : ∀ doc, crdt.applyUpdateV1 session.doc update = some doc →
    (crdt.toString doc).length ≤ fileSizeCap)
    (applied : session.applyUpdate crdt fileSizeCap update = some (merged, resync)) :
    merged.dirty = true ∧ (merged.doc, merged.appliedUpdateBytes) = mergeUpdate crdt fileSizeCap
    (session.doc, session.appliedUpdateBytes) update := by
  cases result : crdt.applyUpdateV1 session.doc update with
  | none => simp [Session.applyUpdate, result] at applied
  | some doc =>
    have small := within doc result
    have untouched : truncateUTF8 crdt.validString (crdt.toString doc)
        fileSizeCap = crdt.toString doc := if_pos small
    simp only [Session.applyUpdate, result, untouched] at applied
    simp only [mergeUpdate, result]
    split_ifs at applied with large
    · obtain ⟨rfl, _⟩ := Prod.mk.inj (Option.some.inj applied)
      rcases large with large | large
      · omega
      · rw [if_pos large]
        exact ⟨rfl, rfl⟩
    · obtain ⟨rfl, _⟩ := Prod.mk.inj (Option.some.inj applied)
      rw [if_neg (by omega)]
      exact ⟨rfl, rfl⟩

theorem updateApply {index : Nat} (kept : Kept crdt fileSizeCap state)
    (within : WithinCap crdt fileSizeCap state (.updateApply index))
    (taken : state.Steps crdt fileSizeCap (.updateApply index) after) :
    Kept crdt fileSizeCap after := by
  simp only [State.Steps, State.step] at taken
  cases found : state.updating[index]? with
  | none => simp [found] at taken
  | some update =>
    simp only [found] at taken
    cases applied : state.session.applyUpdate crdt fileSizeCap update with
    | none =>
      simp only [applied] at taken
      cases taken
      exact kept.frame _ _ _ _ _
    | some result =>
      obtain ⟨merged, resync⟩ := result
      simp only [applied] at taken
      cases taken
      obtain ⟨dirty, replica⟩ := applyUpdate_eq
        (fun doc merges => within update doc found merges) applied
      refine ⟨?_, ?_, ?_⟩
      · change (merged.doc, merged.appliedUpdateBytes) = _
        rw [replica, kept.replica_eq, replay, replay, List.foldl_append]
        rfl
      · intro clean
        exact absurd (dirty.symm.trans clean) (by decide)
      · intro save inProgress
        have agrees := kept.saving save inProgress
        cases save with
        | captured content | writing content =>
          intro clean
          exact absurd (dirty.symm.trans clean) (by decide)
        | written content => exact agrees

omit [DecidableEq Hash] in
theorem saveWritten (kept : Kept crdt fileSizeCap state)
    (inProgress : state.saving = some (.writing content)) :
    Kept crdt fileSizeCap { state with
      file := content
      saving := some (.written content)
      lastWritten := content } := by
  have agrees := kept.saving _ inProgress
  refine ⟨kept.replica_eq, ?_, ?_⟩
  · intro clean
    obtain ⟨text, hash⟩ := kept.clean clean
    have captured := agrees clean
    exact ⟨captured, by rw [hash, ← text, captured]⟩
  · rintro save ⟨⟩
    rfl

omit [DecidableEq Hash] in
theorem saveFinish (kept : Kept crdt fileSizeCap state)
    (inProgress : state.saving = some (.written content)) :
    Kept crdt fileSizeCap { state with
      session := state.session.finishSave crdt content
      saving := none } := by
  obtain rfl : state.lastWritten = content := kept.saving _ inProgress
  refine ⟨kept.replica_eq, ?_, ?_⟩
  · intro clean
    exact ⟨by simpa [Session.finishSave] using clean, rfl⟩
  · rintro save ⟨⟩

theorem step (kept : Kept crdt fileSizeCap state)
    (within : WithinCap crdt fileSizeCap state label) (current : ReadLastWritten state label)
    (taken : state.Steps crdt fileSizeCap label after) : Kept crdt fileSizeCap after := by
  cases label with
  | subscribeRead handler =>
    simp only [State.Steps, State.step] at taken
    split at taken <;> obtain rfl := Option.some.inj taken
    · exact kept
    · exact kept.frame _ _ _ _ _
  | subscribeLock index =>
    simp only [State.Steps, State.step] at taken
    split at taken
    · simp at taken
    · rename_i handler content found
      cases taken
      rw [kept.subscribe_eq (current handler content found)]
      exact kept.frame _ _ _ _ _
  | updateChunk handler finished chunk =>
    obtain ⟨members, collected⟩ := collectChunk_frame state.session handler finished chunk
    simp only [State.Steps, State.step] at taken
    split at taken <;> rename_i result <;>
      rw [result] at collected <;> obtain rfl := collected <;>
      obtain rfl := Option.some.inj taken <;> exact kept.frame _ _ _ _ _
  | updateApply index => exact kept.updateApply within taken
  | unsubscribe handler =>
    cases taken
    exact kept.frame _ _ _ _ _
  | saveRequest handler =>
    simp only [State.Steps, State.step] at taken
    split_ifs at taken with subscribed <;>
      cases taken
    · exact kept.frame _ _ _ _ _
    · exact kept
  | saveCapture index =>
    simp only [State.Steps, State.step] at taken
    split at taken
    · cases taken
      refine ⟨kept.replica_eq, kept.clean, ?_⟩
      rintro save ⟨⟩ _
      rfl
    · simp at taken
  | saveWrite shown =>
    simp only [State.Steps, State.step] at taken
    split at taken
    · rename_i content inProgress
      have agrees := kept.saving _ inProgress
      cases taken
      refine ⟨kept.replica_eq, kept.clean, ?_⟩
      rintro save ⟨⟩
      exact agrees
    · rename_i content inProgress
      have agrees := kept.saving _ inProgress
      cases taken
      refine ⟨kept.replica_eq, kept.clean, ?_⟩
      rintro save ⟨⟩
      exact agrees
    · simp at taken
  | saveWritten =>
    simp only [State.Steps, State.step] at taken
    split at taken
    · rename_i content inProgress
      cases taken
      exact kept.saveWritten inProgress
    · simp at taken
  | saveFail =>
    simp only [State.Steps, State.step] at taken
    split at taken
    · cases taken
      exact ⟨kept.replica_eq, kept.clean, by rintro save ⟨⟩⟩
    · cases taken
      exact ⟨kept.replica_eq, kept.clean, by rintro save ⟨⟩⟩
    · simp at taken
  | saveFinish =>
    simp only [State.Steps, State.step] at taken
    split at taken
    · rename_i content inProgress
      cases taken
      exact kept.saveFinish inProgress
    · simp at taken

end Kept

omit [DecidableEq Hash] in
theorem State.Initial.kept (initial : state.Initial crdt) : Kept crdt fileSizeCap state := by
  obtain ⟨content, handler, rfl⟩ := initial
  exact ⟨rfl, fun _ => ⟨crdt.toString_ofText content, rfl⟩, by rintro save ⟨⟩⟩

/-- If subscriptions to a session without unsaved edits have read what was written last, the
document is the result of merging every update, and without unsaved edits it is saved. -/
theorem edits_kept_of_readLastWritten {state : State Doc Hash}
    (reached : Reachable (State.Initial crdt)
      (Guarded (fun state label => WithinCap crdt fileSizeCap state label ∧
        ReadLastWritten state label) (State.Steps crdt fileSizeCap)) state) :
    (state.session.doc, state.session.appliedUpdateBytes) =
        replay crdt fileSizeCap state.initial state.updates ∧
      (state.session.dirty = false → crdt.toString state.session.doc = state.lastWritten) := by
  have kept : Kept crdt fileSizeCap state := reached.invariant (fun _ initial => initial.kept)
      fun _ _ _ kept taken => kept.step taken.1.1 taken.1.2 taken.2
  exact ⟨kept.replica_eq, fun clean => (kept.clean clean).1⟩

def appendCrdt : Crdt Bytes Bytes where
  ofText content := content
  applyUpdateV1 doc update := some (doc ++ update)
  toString doc := doc
  sum256 content := content
  validString _ := true
  toString_ofText _ := rfl

def opened : State Bytes Bytes := ⟨.new appendCrdt [1], [1], [(0, [1])], [], [], none, [1], [], [1]⟩

theorem withinCap_append (next : state.updating[0]? = some update)
    (small : (state.session.doc ++ update).length ≤ fileSizeCap) :
    WithinCap appendCrdt fileSizeCap state (.updateApply 0) := by
  intro other doc found merges
  obtain rfl := Option.some.inj (next.symm.trans found)
  cases merges
  exact small

theorem edits_kept_after_edit_and_save : ∃ state : State Bytes Bytes,
      Reachable (State.Initial appendCrdt)
          (Guarded (fun state label => WithinCap appendCrdt 8 state label ∧
            ReadLastWritten state label) (State.Steps appendCrdt 8)) state ∧
        state.updates = [[2]] ∧ state.session.dirty = false ∧ state.lastWritten = [1, 2] ∧
            appendCrdt.toString state.session.doc = state.lastWritten := by
  have start : Reachable (State.Initial appendCrdt)
      (Guarded (fun state label => WithinCap appendCrdt 8 state label ∧
        ReadLastWritten state label) (State.Steps appendCrdt 8)) opened := .start ⟨[1], 0, rfl⟩
  have subscribed := start.next (.subscribeLock 0) ⟨⟨trivial, by
    rintro handler content ⟨⟩ _
    rfl⟩, rfl⟩
  have finished := subscribed.next (.updateChunk 0 true [2]) ⟨⟨trivial, trivial⟩, rfl⟩
  have edited := finished.next (.updateApply 0) ⟨⟨withinCap_append rfl (by decide), trivial⟩, rfl⟩
  have saved := edited.executeGuarded [.saveRequest 0, .saveCapture 0, .saveWrite [], .saveWritten,
    .saveFinish] (by simp [WithinCap, ReadLastWritten]) rfl
  exact ⟨_, saved, rfl, rfl, rfl, (edits_kept_of_readLastWritten saved).2 rfl⟩

/-- A second handler reads the file before the first one edits and saves it, and takes the lock
afterwards. -/
theorem edits_lost_after_stale_subscription : ∃ state : State Bytes Bytes,
      Reachable (State.Initial appendCrdt)
          (Guarded (WithinCap appendCrdt 8) (State.Steps appendCrdt 8)) state ∧
        state.updates = [[2]] ∧ state.session.dirty = false ∧
          state.lastWritten = [1, 2] ∧ state.file = [1, 2] ∧
            (replay appendCrdt 8 state.initial state.updates).1 = [1, 2] ∧
              appendCrdt.toString state.session.doc = [1] := by
  have start : Reachable (State.Initial appendCrdt)
      (Guarded (WithinCap appendCrdt 8) (State.Steps appendCrdt 8)) opened := .start ⟨[1], 0, rfl⟩
  have finished := start.executeGuarded [.subscribeLock 0, .subscribeRead 1,
    .updateChunk 0 true [2]] (by simp [WithinCap]) rfl
  have edited := finished.next (.updateApply 0) ⟨withinCap_append rfl (by decide), rfl⟩
  have lost := edited.executeGuarded [.saveRequest 0, .saveCapture 0, .saveWrite [], .saveWritten,
    .saveFinish, .subscribeLock 0] (by simp [WithinCap]) rfl
  exact ⟨_, lost, rfl, rfl, rfl, rfl, rfl, rfl⟩

end Wings.NativeCollaboration

namespace Wings.NativeCollaboration

/-- The bytes encode characters. -/
def IsUTF8 (content : List UInt8) : Prop :=
  ∃ text : List Char, content = text.flatMap String.utf8EncodeChar

/-- `utf8.ValidString`. -/
def validString (content : List UInt8) : Bool := content.toByteArray.validateUTF8

/-- The loop; `none` stands for the panic of `content[:len(content)-1]` on the empty string. -/
def cutInvalid (content : List UInt8) : Option (List UInt8) :=
  if validString content then some content
  else if content = [] then none
  else cutInvalid content.dropLast
termination_by content.length
decreasing_by
  rw [List.length_dropLast]
  exact Nat.sub_one_lt (List.length_pos_of_ne_nil ‹_›).ne'

/-- The slice `content[:maxBytes]` panics if `maxBytes` is negative. -/
def nativeFileCollabTruncateUTF8 (content : List UInt8) (maxBytes : Int) : Option (List UInt8) :=
  if content.length ≤ maxBytes then some content
  else if maxBytes < 0 then none
  else cutInvalid (content.take maxBytes.toNat)

theorem validString_iff : validString content = true ↔ IsUTF8 content := by
  rw [validString, ByteArray.validateUTF8_eq_true_iff]
  constructor
  · rintro ⟨text, encoded⟩
    have bytes := congrArg (fun array => array.data.toList) encoded
    simp only [List.utf8Encode, List.data_toByteArray] at bytes
    exact ⟨text, bytes⟩
  · rintro ⟨text, rfl⟩
    exact ⟨text, rfl⟩

theorem cutInvalid_longest (content : List UInt8) : ∃ result, cutInvalid content = some result ∧
    result <+: content ∧ IsUTF8 result ∧ ∀ other, other <+: content → IsUTF8 other →
    other <+: result := by
  induction content using List.reverseRecOn with
  | nil =>
    have empty : IsUTF8 [] := ⟨[], rfl⟩
    rw [cutInvalid, if_pos (validString_iff.2 empty)]
    exact ⟨[], rfl, List.prefix_refl _, empty, fun _ shorter _ => shorter⟩
  | append_singleton content last ih =>
    rw [cutInvalid]
    split_ifs with valid empty
    · exact ⟨_, rfl, List.prefix_refl _, validString_iff.1 valid, fun _ shorter _ => shorter⟩
    · simp at empty
    · obtain ⟨result, cut, shorter, isValid, longest⟩ := ih
      rw [List.dropLast_concat]
      refine ⟨result, cut, shorter.trans (List.prefix_append _ _), isValid, ?_⟩
      intro other before otherValid
      rcases List.prefix_concat_iff.1 before with rfl | before
      · exact absurd (validString_iff.2 otherValid) valid
      · exact longest other before otherValid

/-- What is returned for a valid document is its longest valid beginning of at most `maxBytes`
bytes. -/
theorem truncate_longest_valid (valid : IsUTF8 content) (nonnegative : 0 ≤ maxBytes) :
    ∃ result, nativeFileCollabTruncateUTF8 content maxBytes = some result ∧
      (result <+: content ∧ IsUTF8 result ∧ result.length ≤ maxBytes) ∧
        ∀ other, other <+: content → IsUTF8 other → other.length ≤ maxBytes →
          other <+: result := by
  rw [nativeFileCollabTruncateUTF8]
  split_ifs with fits negative
  · exact ⟨content, rfl, ⟨List.prefix_refl _, valid, fits⟩, fun _ shorter _ _ => shorter⟩
  · omega
  · obtain ⟨result, cut, shorter, isValid, longest⟩ := cutInvalid_longest
      (content.take maxBytes.toNat)
    have few := shorter.length_le.trans (List.length_take_le _ _)
    refine ⟨result, cut, ⟨shorter.trans (List.take_prefix _ _), isValid, by omega⟩, ?_⟩
    intro other before otherValid within
    exact longest other (List.prefix_take_iff.2 ⟨before, by omega⟩) otherValid

theorem truncate_accented : IsUTF8 [0x61, 0xc3, 0xa9] ∧
    ∃ result, nativeFileCollabTruncateUTF8 [0x61, 0xc3, 0xa9] 2 = some result ∧
      result.length ≤ (2 : Int) ∧ [0x61] <+: result := by
  have valid : IsUTF8 [0x61, 0xc3, 0xa9] := ⟨['a', 'é'], by decide⟩
  obtain ⟨result, cut, ⟨-, -, few⟩, longest⟩ :=
    truncate_longest_valid valid (show (0 : Int) ≤ 2 by decide)
  exact ⟨valid, result, cut, few, longest [0x61] (by decide) ⟨['a'], by decide⟩ (by decide)⟩

end Wings.NativeCollaboration
