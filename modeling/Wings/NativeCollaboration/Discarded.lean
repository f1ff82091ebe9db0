import Wings.NativeCollaboration.Session

/-!
# Replaced documents of a native collaboration session

An update that makes the document too large replaces it and tells every member; a subscription that
finds the file changed replaces it and tells the subscriber only. Calls run one after the other, and
the file may change between them.
-/

namespace Wings.NativeCollaboration

open Transition

inductive Message where
  | sync (text : Bytes) (dirty : Bool)
  | participants (handlers : List Nat)
  | update (update : Bytes)
  | saved (handler : Nat)
  | error (message : String)
  deriving DecidableEq

def resync : Message := .error "resync"

inductive Event where
  | sent (handler : Nat) (message : Message)
  /-- A call of a handler has replaced the document of these members. -/
  | replaced (caller : Nat) (members : List Nat)
  | applied (caller : Nat) (update : Bytes)
  deriving DecidableEq

structure Conversation (Doc Hash : Type) where
  session : Session Doc Hash
  file : Option Bytes
  log : List Event

/-- A call, or a change of the file. A chunk is missing when its text cannot be
decoded. -/
inductive Call where
  | subscribe (handler : Nat) (received : Bool)
  | unsubscribe (handler : Nat)
  | update (handler : Nat) (finished : Bool) (chunk : Option Bytes)
  | save (handler : Nat) (failed : Option String)
  | write (file : Option Bytes)

variable {Doc Hash : Type} (crdt : Crdt Doc Hash) (fileSizeCap : Nat)

def nativeFileCollabReadFile : Option Bytes → Except String Bytes
  | none => .error "file not found"
  | some content =>
    if content.length > fileSizeCap then
      .error "file is too large for collaborative editing"
    else if crdt.validString content = false then
      .error "file is not editable as text"
    else .ok content

namespace Session

def handlers (session : Session Doc Hash) : List Nat := session.members.map Member.handler

def isStale [DecidableEq Hash] (session : Session Doc Hash) (content : Bytes) : Bool :=
  session.dirty = false ∧ session.diskHash ≠ crdt.sum256 content

def broadcast (session : Session Doc Hash) (except : Option Nat) (message : Message) : List Event :=
  (session.handlers.filter fun handler => some handler ≠ except).map
    fun handler => .sent handler message

def broadcastParticipants (session : Session Doc Hash) : List Event :=
  session.broadcast none (.participants session.handlers)

def chunkError (session : Session Doc Hash) (handler : Nat) (finished : Bool)
    (chunk : Bytes) : Option String :=
  match session.members.find? (fun member => member.handler = handler) with
  | none => some "not subscribed to this file"
  | some member =>
    let pending := member.pending ++ chunk
    if pending.length > fileSizeCap then some "update is too large"
    else if finished = true ∧ pending = [] then
      some "invalid collaborative editing request"
    else none

end Session

namespace Conversation

def refuse (conversation : Conversation Doc Hash) (handler : Nat)
    (message : String) : Conversation Doc Hash :=
  { conversation with
    log := conversation.log ++ [.sent handler (.error message)] }

def proceed (conversation : Conversation Doc Hash) (session : Session Doc Hash)
    (events : List Event) : Conversation Doc Hash :=
  { conversation with
    session := session
    log := conversation.log ++ events }

def subscribed [DecidableEq Hash] (session : Session Doc Hash) (handler : Nat)
    (received : Bool) (content : Bytes) : List Event :=
  let after := session.subscribe crdt content handler
  (if session.isStale crdt content then
    [.replaced handler session.handlers] else []) ++
    [.sent handler (.sync (crdt.toString after.doc) after.dirty)] ++
    if received then after.broadcastParticipants else []

section

variable (conversation : Conversation Doc Hash)

def updated (session : Session Doc Hash) (handler : Nat) (update : Bytes) : Conversation Doc Hash :=
  match session.applyUpdate crdt fileSizeCap update with
  | none => (conversation.proceed session []).refuse handler "invalid update"
  | some (after, true) =>
    conversation.proceed after ([.applied handler update, .replaced handler session.handlers] ++
        after.broadcast none resync)
  | some (after, false) =>
    conversation.proceed after (.applied handler update ::
      after.broadcast (some handler) (.update update))

def update (handler : Nat) (finished : Bool) (chunk : Bytes) : Conversation Doc Hash :=
  let session := conversation.session
  let refused := session.chunkError fileSizeCap handler finished chunk
  match session.collectChunk fileSizeCap handler finished chunk with
  | (after, some update) => conversation.updated crdt fileSizeCap after handler update
  | (after, none) =>
    refused.elim (conversation.proceed after []) ((conversation.proceed after []).refuse handler)

def save (handler : Nat) (failed : Option String) : Conversation Doc Hash :=
  let content := crdt.toString conversation.session.doc
  match failed with
  | some message =>
    conversation.refuse handler ("failed to write file: " ++ message)
  | none =>
    let after := conversation.session.finishSave crdt content
    { conversation.proceed after (after.broadcast none (.saved handler)) with
      file := some content }

end

def step [DecidableEq Hash] (conversation : Conversation Doc Hash) : Call → Conversation Doc Hash
  | .subscribe handler received =>
    match nativeFileCollabReadFile crdt fileSizeCap conversation.file with
    | .error message => conversation.refuse handler message
    | .ok content =>
      conversation.proceed (conversation.session.subscribe crdt content handler)
        (subscribed crdt conversation.session handler received content)
  | .unsubscribe handler =>
    let after := conversation.session.removeMember handler
    conversation.proceed after (if conversation.session.handlers.contains handler = true ∧
          after.members ≠ [] then
        after.broadcastParticipants else [])
  | .update handler finished chunk =>
    if conversation.session.handlers.contains handler = false then
      conversation.refuse handler "not subscribed to this file"
    else match chunk with
      | none => conversation.refuse handler "invalid update encoding"
      | some chunk =>
        conversation.update crdt fileSizeCap handler finished chunk
  | .save handler failed =>
    if conversation.session.handlers.contains handler = false then
      conversation.refuse handler "not subscribed to this file"
    else match nativeFileCollabReadFile crdt fileSizeCap
        conversation.file with
      | .error message => conversation.refuse handler message
      | .ok _ => conversation.save crdt handler failed
  | .write file => { conversation with file := file }

def Steps [DecidableEq Hash] (conversation : Conversation Doc Hash)
    (call : Call) (after : Conversation Doc Hash) : Prop :=
  conversation.step crdt fileSizeCap call = after

def Initial (conversation : Conversation Doc Hash) : Prop :=
  ∃ content, conversation = ⟨.new crdt content, some content, []⟩

def Undisturbing [DecidableEq Hash] (conversation : Conversation Doc Hash) : Call → Prop
  | .subscribe handler _ =>
    ∀ content, nativeFileCollabReadFile crdt fileSizeCap conversation.file = .ok content →
      conversation.session.isStale crdt content = true →
        ∀ member ∈ conversation.session.handlers, member = handler
  | _ => True

end Conversation

def Event.isApplied : Event → Bool
  | .applied _ _ => true
  | _ => false

/-- After every replacement each member but the caller is told before the next update. -/
def Resynchronised (log : List Event) : Prop := ∀ before caller members rest,
    log = before ++ .replaced caller members :: rest →
      ∀ member ∈ members, member ≠ caller → ∃ meanwhile later,
          rest = meanwhile ++ .sent member resync :: later ∧
            ∀ event ∈ meanwhile, event.isApplied = false

def Unreplaced (log : List Event) : Prop := ∀ caller members, .replaced caller members ∉ log

theorem Unreplaced.resynchronised (unreplaced : Unreplaced log) : Resynchronised log := by
  intro before caller members rest equal
  have member : Event.replaced caller members ∈ log := by
    rw [equal]
    exact List.mem_append_right _ List.mem_cons_self
  exact absurd member (unreplaced caller members)

theorem Resynchronised.append (first : Resynchronised log)
    (second : Resynchronised more) : Resynchronised (log ++ more) := by
  intro before caller members rest equal member present different
  rcases List.append_eq_append_iff.1 equal with
    ⟨between, rfl, inMore⟩ | ⟨between, inLog, atEnd⟩
  · exact second between caller members rest inMore member present different
  · cases between with
    | nil =>
      exact second [] caller members rest atEnd.symm member present different
    | cons event tail =>
      obtain ⟨rfl, rfl⟩ := List.cons.inj atEnd
      obtain ⟨meanwhile, later, rfl, quiet⟩ :=
        first before caller members tail inLog member present different
      exact ⟨meanwhile, later ++ more, List.append_assoc _ _ _, quiet⟩

theorem resynchronised_of_told (unreplaced : Unreplaced rest)
    (quiet : ∀ event ∈ rest, event.isApplied = false)
    (told : ∀ member ∈ members, member ≠ caller → .sent member resync ∈ rest) :
    Resynchronised (.replaced caller members :: rest) := by
  intro before other others remaining equal member present different
  cases before with
  | nil =>
    obtain ⟨same, rfl⟩ := List.cons.inj equal
    obtain ⟨rfl, rfl⟩ := Event.replaced.inj same
    obtain ⟨meanwhile, later, rfl⟩ := List.append_of_mem (told member present different)
    refine ⟨meanwhile, later, rfl, fun event earlier => ?_⟩
    exact quiet event (List.mem_append_left _ earlier)
  | cons event before =>
    obtain ⟨_, rfl⟩ := List.cons.inj equal
    exact absurd (List.mem_append_right before List.mem_cons_self) (unreplaced other others)

variable {crdt fileSizeCap}

theorem mem_broadcast_iff {session : Session Doc Hash} {except : Option Nat}
    {message : Message} {event : Event} :
    event ∈ session.broadcast except message ↔ ∃ handler ∈ session.handlers, some handler ≠ except ∧
    event = .sent handler message := by
  rw [Session.broadcast, List.mem_map]
  constructor
  · rintro ⟨handler, kept, rfl⟩
    obtain ⟨member, other⟩ := List.mem_filter.1 kept
    exact ⟨handler, member, of_decide_eq_true other, rfl⟩
  · rintro ⟨handler, member, other, rfl⟩
    exact ⟨handler, List.mem_filter.2 ⟨member, decide_eq_true other⟩, rfl⟩

def OnlySent (log : List Event) : Prop :=
  ∀ event ∈ log, ∃ handler message, event = .sent handler message

theorem OnlySent.unreplaced (sent : OnlySent log) : Unreplaced log := by
  intro caller members present
  obtain ⟨handler, message, equal⟩ := sent _ present
  cases equal

theorem OnlySent.isApplied_eq (sent : OnlySent log) : ∀ event ∈ log, event.isApplied = false := by
  intro event present
  obtain ⟨handler, message, rfl⟩ := sent event present
  rfl

theorem onlySent_broadcast (session : Session Doc Hash) (except : Option Nat)
    (message : Message) : OnlySent (session.broadcast except message) := by
  intro event present
  obtain ⟨handler, _, _, rfl⟩ := mem_broadcast_iff.1 present
  exact ⟨handler, message, rfl⟩

theorem members_applyUpdate {session after : Session Doc Hash} {update : Bytes} {needsResync : Bool}
    (applied : session.applyUpdate crdt fileSizeCap update =
    some (after, needsResync)) : after.members = session.members := by
  rw [Session.applyUpdate] at applied
  split at applied
  · cases applied
  · dsimp only at applied
    split at applied
    · obtain ⟨rfl, _⟩ := Prod.mk.inj (Option.some.inj applied)
      rfl
    · obtain ⟨rfl, _⟩ := Prod.mk.inj (Option.some.inj applied)
      rfl

namespace Conversation

variable {conversation : Conversation Doc Hash}

theorem resynchronised_proceed (before : Resynchronised conversation.log)
    (session : Session Doc Hash)
    (during : Resynchronised events) : Resynchronised (conversation.proceed session events).log :=
  before.append during

theorem resynchronised_refuse (before : Resynchronised conversation.log)
    (handler : Nat) (message : String) :
    Resynchronised (conversation.refuse handler message).log := by
  refine before.append (OnlySent.unreplaced ?_).resynchronised
  intro event present
  exact ⟨handler, .error message, List.mem_singleton.1 present⟩

theorem resynchronised_subscribed [DecidableEq Hash]
    {session : Session Doc Hash} {handler : Nat} {content : Bytes}
    (alone : session.isStale crdt content = true → ∀ member ∈ session.handlers, member = handler)
    (received : Bool) : Resynchronised (subscribed crdt session handler received content) := by
  have sent : OnlySent ([.sent handler (.sync
        (crdt.toString (session.subscribe crdt content handler).doc)
        (session.subscribe crdt content handler).dirty)] ++
        if received then
          (session.subscribe crdt content handler).broadcastParticipants
        else []) := by
    intro event present
    rcases List.mem_append.1 present with first | rest
    · exact ⟨handler, _, List.mem_singleton.1 first⟩
    · split at rest
      · exact onlySent_broadcast _ _ _ event rest
      · cases rest
  rw [subscribed, List.append_assoc]
  split
  · rename_i stale
    refine resynchronised_of_told sent.unreplaced sent.isApplied_eq ?_
    intro member present different
    exact absurd (alone stale member present) different
  · exact sent.unreplaced.resynchronised

section

variable (before : Resynchronised conversation.log)
include before

theorem resynchronised_updated
    (session : Session Doc Hash) (handler : Nat) (update : Bytes) : Resynchronised
    (conversation.updated crdt fileSizeCap session handler update).log := by
  rw [updated]
  split
  · exact resynchronised_refuse (resynchronised_proceed before session
        (Unreplaced.resynchronised fun _ _ => List.not_mem_nil)) _ _
  · rename_i after applied
    have sent := onlySent_broadcast after none resync
    have merged : Resynchronised [.applied handler update] := by
      refine Unreplaced.resynchronised fun caller members present => ?_
      cases List.mem_singleton.1 present
    refine resynchronised_proceed before after (merged.append ?_)
    refine resynchronised_of_told sent.unreplaced sent.isApplied_eq ?_
    intro member present _
    refine mem_broadcast_iff.2 ⟨member, ?_, Option.some_ne_none member, rfl⟩
    rwa [Session.handlers, members_applyUpdate applied]
  · rename_i after _
    refine resynchronised_proceed before after
      (Unreplaced.resynchronised fun caller members present => ?_)
    rcases List.mem_cons.1 present with same | later
    · cases same
    · exact (onlySent_broadcast after _ _).unreplaced caller members later

theorem resynchronised_update (handler : Nat) (finished : Bool) (chunk : Bytes) : Resynchronised
    (conversation.update crdt fileSizeCap handler finished chunk).log := by
  have kept : ∀ after, Resynchronised (conversation.proceed after []).log := fun after =>
    resynchronised_proceed before after (Unreplaced.resynchronised fun _ _ => List.not_mem_nil)
  rw [update]
  split
  · exact resynchronised_updated before _ _ _
  · rename_i after _
    cases conversation.session.chunkError fileSizeCap handler finished
        chunk with
    | none => exact kept after
    | some message => exact resynchronised_refuse (kept after) _ _

theorem resynchronised_save (handler : Nat) (failed : Option String) :
    Resynchronised (conversation.save crdt handler failed).log := by
  cases failed with
  | some message => exact resynchronised_refuse before _ _
  | none =>
    exact before.append (onlySent_broadcast _ _ _).unreplaced.resynchronised

end

theorem resynchronised_step [DecidableEq Hash] {call : Call}
    (before : Resynchronised conversation.log)
    (undisturbing : conversation.Undisturbing crdt fileSizeCap call) :
    Resynchronised (conversation.step crdt fileSizeCap call).log := by
  cases call with
  | subscribe handler received =>
    cases read : nativeFileCollabReadFile crdt fileSizeCap
        conversation.file with
    | error message =>
      rw [step, read]
      exact resynchronised_refuse before _ _
    | ok content =>
      rw [step, read]
      exact resynchronised_proceed before _
        (resynchronised_subscribed (undisturbing content read) received)
  | unsubscribe handler =>
    refine resynchronised_proceed before _ (OnlySent.unreplaced ?_).resynchronised
    split
    · exact onlySent_broadcast _ _ _
    · exact List.forall_mem_nil _
  | update handler finished chunk =>
    cases chunk with
    | none =>
      rw [step]
      split
      · exact resynchronised_refuse before _ _
      · exact resynchronised_refuse before _ _
    | some chunk =>
      rw [step]
      split
      · exact resynchronised_refuse before _ _
      · exact resynchronised_update before _ _ _
  | save handler failed =>
    rw [step]
    split
    · exact resynchronised_refuse before _ _
    · split
      · exact resynchronised_refuse before _ _
      · exact resynchronised_save before _ _
  | write file => exact before

end Conversation

/-- If no subscription replaces the document of other members, each member but the caller is told to
synchronise after every replacement, before the next update. -/
theorem resynchronised_of_undisturbing [DecidableEq Hash] {conversation : Conversation Doc Hash}
    (reached : Reachable (Conversation.Initial crdt)
      (Guarded (Conversation.Undisturbing crdt fileSizeCap)
        (Conversation.Steps crdt fileSizeCap)) conversation) : Resynchronised conversation.log := by
  induction reached with
  | start initial =>
    obtain ⟨content, rfl⟩ := initial
    exact Unreplaced.resynchronised fun _ _ => List.not_mem_nil
  | next _ call taken before =>
    obtain ⟨undisturbing, rfl⟩ := taken
    exact Conversation.resynchronised_step before undisturbing

theorem undisturbing_of_unchanged {conversation : Conversation Bytes Bytes}
    {content : Bytes} (file : conversation.file = some content)
    (unchanged : conversation.session.diskHash = content) (handler : Nat) (received : Bool) :
    conversation.Undisturbing appendCrdt fileSizeCap (.subscribe handler received) := by
  intro other read stale
  have same : other = content := by
    rw [file, nativeFileCollabReadFile] at read
    split at read
    · cases read
    · exact (Except.ok.inj read).symm
  rw [Session.isStale, unchanged, same] at stale
  exact absurd rfl (of_decide_eq_true stale).2

theorem large_update_resynchronised : ∃ conversation : Conversation Bytes Bytes,
      Reachable (Conversation.Initial appendCrdt) (Guarded (Conversation.Undisturbing appendCrdt 1)
            (Conversation.Steps appendCrdt 1)) conversation ∧
        .replaced 0 [1, 0] ∈ conversation.log ∧ Resynchronised conversation.log := by
  have start : Reachable (Conversation.Initial appendCrdt)
      (Guarded (Conversation.Undisturbing appendCrdt 1)
        (Conversation.Steps appendCrdt 1)) ⟨.new appendCrdt [1], some [1], []⟩ := .start ⟨[1], rfl⟩
  have first := start.next (.subscribe 0 true) ⟨undisturbing_of_unchanged rfl rfl 0 true, rfl⟩
  have second := first.next (.subscribe 1 true) ⟨undisturbing_of_unchanged rfl rfl 1 true, rfl⟩
  have edited := second.next (.update 0 true (some [2])) ⟨trivial, rfl⟩
  exact ⟨_, edited, by decide, resynchronised_of_undisturbing edited⟩

/-- The file changes and a second handler subscribes: the first one is not told, and its next update
is merged. -/
theorem member_not_resynchronised : ∃ conversation : Conversation Bytes Bytes,
      Reachable (Conversation.Initial appendCrdt) (Conversation.Steps appendCrdt 8) conversation ∧
        ∃ before rest,
          conversation.log = before ++ .replaced 1 [0] :: rest ∧
            .applied 0 [3] ∈ rest ∧ .sent 0 resync ∉ rest := by
  have start : Reachable (Conversation.Initial appendCrdt)
      (Conversation.Steps appendCrdt 8) ⟨.new appendCrdt [1], some [1], []⟩ := .start ⟨[1], rfl⟩
  have first := start.next (.subscribe 0 true) rfl
  have changed := first.next (.write (some [2])) rfl
  have second := changed.next (.subscribe 1 true) rfl
  have edited := second.next (.update 0 true (some [3])) rfl
  exact ⟨_, edited, [.sent 0 (.sync [1] false), .sent 0 (.participants [0])],
    _, rfl, by decide, by decide⟩

end Wings.NativeCollaboration
