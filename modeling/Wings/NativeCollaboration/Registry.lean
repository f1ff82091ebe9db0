import Wings.Library.Dictionary
import Wings.NativeCollaboration.Session

/-!
# The registry of native collaboration sessions

A subscription finds or creates its session under the lock of the registry and enters it later. A
teardown removes a session unless a member has entered it since. A label is one section under a
lock, and sessions are known by their positions among all that were created.
-/

namespace Wings.NativeCollaboration

open Transition

def fileCollabMaxSessionsPerServer : Nat := 32

def nativeFileCollabKey (serverUUID path : String) : String := serverUUID ++ "\x00" ++ path

structure Entry (Doc Hash : Type) where
  serverUUID : String
  path : String
  session : Session Doc Hash
  teardownGeneration : UInt64
  /-- The current document was destroyed. -/
  destroyed : Bool

structure Subscription where
  handler : Nat
  key : String
  session : Nat

/-- The registry with the calls in progress and the subscriptions that have entered their sessions.
-/
structure Registry (Doc Hash : Type) where
  created : List (Entry Doc Hash) := []
  sessions : Dictionary String Nat := ∅
  subscribing : List (Subscription × Bytes) := []
  removing : List (Nat × Nat) := []
  timers : List (Nat × UInt64) := []
  subscribed : List Subscription := []

inductive RegistryLabel where
  | find (handler : Nat) (serverUUID path : String) (content : Bytes)
  | add (index : Nat)
  | unsubscribe (handler : Nat) (serverUUID path : String)
  | disconnect (handler : Nat) (serverUUID : String)
  | remove (index : Nat)
  | teardown (index : Nat)

variable {Doc Hash : Type}

namespace Entry

variable (crdt : Crdt Doc Hash)

def key (entry : Entry Doc Hash) : String := nativeFileCollabKey entry.serverUUID entry.path

def hasMember (entry : Entry Doc Hash) (handler : Nat) : Bool :=
  entry.session.members.any fun member => member.handler = handler

def new (serverUUID path : String) (content : Bytes) : Entry Doc Hash :=
  ⟨serverUUID, path, .new crdt content, 0, false⟩

/-- The section of a subscription under the lock of the session. -/
def add [DecidableEq Hash] (entry : Entry Doc Hash) (content : Bytes)
    (handler : Nat) : Entry Doc Hash :=
  { entry with
    session := entry.session.subscribe crdt content handler
    teardownGeneration := entry.teardownGeneration + 1
    destroyed :=
      if entry.session.dirty = false ∧ entry.session.diskHash ≠ crdt.sum256 content then false
      else entry.destroyed }

def remove (entry : Entry Doc Hash) (handler : Nat) : Entry Doc Hash :=
  { entry with
    session := entry.session.removeMember handler
    teardownGeneration := entry.teardownGeneration + 1 }

variable {crdt}

theorem hasMember_iff {entry : Entry Doc Hash} {handler : Nat} : entry.hasMember handler = true ↔
    ∃ member ∈ entry.session.members, member.handler = handler := by
  simp [hasMember]

theorem members_add [DecidableEq Hash] (entry : Entry Doc Hash) (content : Bytes) (handler : Nat) :
    (entry.add crdt content handler).session.members = ⟨handler, []⟩ ::
    entry.session.members.filter fun member => member.handler ≠ handler := by
  rw [add, Session.subscribe]
  split <;> rfl

theorem hasMember_add [DecidableEq Hash] (entry : Entry Doc Hash)
    (content : Bytes) (handler : Nat) :
    (entry.add crdt content handler).hasMember handler = true := by
  rw [hasMember_iff, members_add]
  exact ⟨⟨handler, []⟩, List.mem_cons_self, rfl⟩

variable {entry : Entry Doc Hash}

theorem hasMember_add_of_hasMember [DecidableEq Hash]
    (isMember : entry.hasMember other = true) (content : Bytes) (handler : Nat) :
    (entry.add crdt content handler).hasMember other = true := by
  obtain ⟨member, present, isOther⟩ := hasMember_iff.1 isMember
  rw [hasMember_iff, members_add]
  by_cases same : handler = other
  · exact ⟨⟨handler, []⟩, List.mem_cons_self, same⟩
  · refine ⟨member, List.mem_cons_of_mem _ (List.mem_filter.2 ⟨present, ?_⟩), isOther⟩
    rw [isOther]
    exact decide_eq_true (Ne.symm same)

theorem hasMember_remove {handler : Nat} (different : other ≠ handler)
    (isMember : entry.hasMember other = true) : (entry.remove handler).hasMember other = true := by
  obtain ⟨member, present, isOther⟩ := hasMember_iff.1 isMember
  refine hasMember_iff.2 ⟨member, List.mem_filter.2 ⟨present, ?_⟩, isOther⟩
  rw [isOther]
  exact decide_eq_true different

end Entry

namespace Registry

variable (crdt : Crdt Doc Hash) (registry : Registry Doc Hash)

def serverOf (session : Nat) : Option String := registry.created[session]?.map Entry.serverUUID

def isOf (serverUUID : String) (session : Nat) : Bool := registry.serverOf session = some serverUUID

def sessionCount (serverUUID : String) : Nat := registry.sessions.count (registry.isOf serverUUID)

def subscribeTo (subscription : Subscription) (content : Bytes) : Registry Doc Hash :=
  { registry with
    subscribing := (subscription, content) :: registry.subscribing }

def create (serverUUID path : String) (content : Bytes) : Registry Doc Hash :=
  { registry with
    created := registry.created ++ [.new crdt serverUUID path content]
    sessions := registry.sessions.insert
      (nativeFileCollabKey serverUUID path) registry.created.length }

def find (handler : Nat) (serverUUID path : String) (content : Bytes) : Registry Doc Hash :=
  let key := nativeFileCollabKey serverUUID path
  match registry.sessions.lookup key with
  | some session =>
    registry.subscribeTo ⟨handler, key, session⟩ content
  | none =>
    if fileCollabMaxSessionsPerServer ≤ registry.sessionCount serverUUID then registry
    else (registry.create crdt serverUUID path content).subscribeTo
      ⟨handler, key, registry.created.length⟩ content

def enter [DecidableEq Hash] (registry : Registry Doc Hash)
    (entry : Entry Doc Hash) (subscription : Subscription) (content : Bytes) : Registry Doc Hash :=
  { registry with
    created := registry.created.set subscription.session
      (entry.add crdt content subscription.handler)
    subscribed := subscription :: registry.subscribed }

def leave (entry : Entry Doc Hash) (session handler : Nat) : Registry Doc Hash :=
  if entry.hasMember handler then
    let removed := entry.remove handler
    { registry with
      created := registry.created.set session removed
      timers := if removed.session.members = [] then
          (session, removed.teardownGeneration) :: registry.timers
        else registry.timers
      subscribed := registry.subscribed.filter fun subscription =>
        ¬(subscription.session = session ∧ subscription.handler = handler) }
  else registry

def teardown (entry : Entry Doc Hash) (session : Nat) (generation : UInt64) : Registry Doc Hash :=
  if entry.session.members = [] ∧ entry.teardownGeneration = generation ∧
      registry.sessions.lookup entry.key = some session then
    { registry with
      created := registry.created.set session { entry with destroyed := true }
      sessions := registry.sessions.erase entry.key }
  else registry

/-- One section of a call; none when the section cannot run. -/
def step [DecidableEq Hash] (registry : Registry Doc Hash) :
    RegistryLabel → Option (Registry Doc Hash)
  | .find handler serverUUID path content =>
    some (registry.find crdt handler serverUUID path content)
  | .add index => do
    let (subscription, content) ← registry.subscribing[index]?
    let entry ← registry.created[subscription.session]?
    return { registry.enter crdt entry subscription content with
      subscribing := registry.subscribing.eraseIdx index }
  | .unsubscribe handler serverUUID path =>
    some { registry with
      removing := (registry.sessions.lookup
        (nativeFileCollabKey serverUUID path)).toList.map (·, handler) ++ registry.removing }
  | .disconnect handler serverUUID =>
    some { registry with
      removing := (registry.sessions.items (registry.isOf serverUUID)).map (·, handler) ++
          registry.removing }
  | .remove index => do
    let (session, handler) ← registry.removing[index]?
    let entry ← registry.created[session]?
    return { registry.leave entry session handler with
      removing := registry.removing.eraseIdx index }
  | .teardown index => do
    let (session, generation) ← registry.timers[index]?
    let entry ← registry.created[session]?
    return { registry.teardown entry session generation with
      timers := registry.timers.eraseIdx index }

def Steps [DecidableEq Hash] (registry : Registry Doc Hash)
    (label : RegistryLabel) (after : Registry Doc Hash) : Prop :=
  registry.step crdt label = some after

def Empty : Prop := registry = {}

def Serves (subscription : Subscription) : Prop :=
  registry.sessions.lookup subscription.key = some subscription.session ∧
    ∃ entry, registry.created[subscription.session]? = some entry ∧
      entry.hasMember subscription.handler = true ∧ entry.destroyed = false

def Unclaimed : RegistryLabel → Prop
  | .teardown index =>
    ∀ session generation, registry.timers[index]? =
        some (session, generation) → ∀ waiting ∈ registry.subscribing, waiting.1.session ≠ session
  | _ => True

variable {crdt registry} [DecidableEq Hash] {after : Registry Doc Hash}

theorem steps_add_iff : registry.Steps crdt (.add index) after ↔ ∃ subscription content entry,
        registry.subscribing[index]? = some (subscription, content) ∧
        registry.created[subscription.session]? = some entry ∧
        { registry.enter crdt entry subscription content with
          subscribing := registry.subscribing.eraseIdx index } = after := by
  simp [Steps, step, Option.bind_eq_some_iff]

theorem steps_remove_iff : registry.Steps crdt (.remove index) after ↔ ∃ session handler entry,
        registry.removing[index]? = some (session, handler) ∧
        registry.created[session]? = some entry ∧
        { registry.leave entry session handler with
          removing := registry.removing.eraseIdx index } = after := by
  simp [Steps, step, Option.bind_eq_some_iff]

theorem steps_teardown_iff :
    registry.Steps crdt (.teardown index) after ↔ ∃ session generation entry,
        registry.timers[index]? = some (session, generation) ∧
        registry.created[session]? = some entry ∧
        { registry.teardown entry session generation with
          timers := registry.timers.eraseIdx index } = after := by
  simp [Steps, step, Option.bind_eq_some_iff]

omit [DecidableEq Hash] in
theorem getElem?_set {created : List (Entry Doc Hash)} {entry : Entry Doc Hash}
    (found : created[session]? = some entry) (replaced : Entry Doc Hash) (other : Nat) :
    (created.set session replaced)[other]? =
      if other = session then some replaced else created[other]? := by
  split
  · rename_i same
    subst same
    obtain ⟨bound, _⟩ := List.getElem?_eq_some_iff.1 found
    exact List.getElem?_set_self bound
  · next different => exact List.getElem?_set_ne (Ne.symm different)

omit [DecidableEq Hash] in
theorem isOf_congr (same : after.serverOf session = registry.serverOf session)
    (serverUUID : String) : after.isOf serverUUID session = registry.isOf serverUUID session := by
  rw [isOf, isOf, same]

/-- Registered sessions were created, and no server has too many of them. -/
structure Bounded (registry : Registry Doc Hash) : Prop where
  named : ∀ key session, registry.sessions.lookup key = some session →
    ∃ entry, registry.created[session]? = some entry ∧ entry.key = key
  few : ∀ serverUUID, registry.sessionCount serverUUID ≤ fileCollabMaxSessionsPerServer

namespace Bounded

omit [DecidableEq Hash]

section

variable (bounded : registry.Bounded)
include bounded

theorem of_eq (created : after.created = registry.created)
    (sessions : after.sessions = registry.sessions) : after.Bounded := by
  constructor
  · rw [created, sessions]
    exact bounded.named
  · intro serverUUID
    have servers : after.isOf serverUUID = registry.isOf serverUUID := by
      funext session
      apply isOf_congr
      rw [serverOf, serverOf, created]
    rw [sessionCount, servers, sessions]
    exact bounded.few serverUUID

theorem replace {replaced : Entry Doc Hash} (found : registry.created[session]? = some entry)
    (created : after.created = registry.created.set session replaced)
    (server : replaced.serverUUID = entry.serverUUID) (path : replaced.path = entry.path)
    (sessions : after.sessions = registry.sessions ∨
    ∃ key, after.sessions = registry.sessions.erase key) : after.Bounded := by
  have servers : after.isOf = registry.isOf := by
    funext serverUUID other
    apply isOf_congr
    rw [serverOf, serverOf, created, getElem?_set found]
    split
    · next same => rw [same, found, Option.map_some, Option.map_some, server]
    · rfl
  constructor
  · intro key other registered
    have before : registry.sessions.lookup key = some other := by
      rcases sessions with same | ⟨erased, same⟩
      · rwa [same] at registered
      · rw [same] at registered
        exact (Dictionary.lookup_erase_iff.1 registered).2
    obtain ⟨old, present, keyed⟩ := bounded.named key other before
    rw [created, getElem?_set found]
    split
    · rename_i same
      subst same
      obtain rfl := Option.some.inj (found.symm.trans present)
      refine ⟨replaced, rfl, ?_⟩
      rw [← keyed, Entry.key, Entry.key, server, path]
    · exact ⟨old, present, keyed⟩
  · intro serverUUID
    refine Nat.le_trans ?_ (bounded.few serverUUID)
    rw [sessionCount, sessionCount, servers]
    rcases sessions with same | ⟨erased, same⟩
    · rw [same]
    · rw [same]
      exact Dictionary.count_erase_le erased

theorem create (content : Bytes)
    (fresh : registry.sessions.lookup (nativeFileCollabKey serverUUID path) = none)
    (room : registry.sessionCount serverUUID < fileCollabMaxSessionsPerServer) :
    (registry.create crdt serverUUID path content).Bounded := by
  have old : ∀ key session, registry.sessions.lookup key = some session →
      (registry.create crdt serverUUID path content).created[session]? =
        registry.created[session]? := by
    intro key session registered
    obtain ⟨entry, present, _⟩ := bounded.named key session registered
    obtain ⟨bound, _⟩ := List.getElem?_eq_some_iff.1 present
    exact List.getElem?_append_left bound
  constructor
  · intro key session registered
    rcases Dictionary.lookup_insert_iff.1 registered with
      ⟨rfl, rfl⟩ | ⟨_, registered⟩
    · exact ⟨.new crdt serverUUID path content, List.getElem?_concat_length, rfl⟩
    · rw [old key session registered]
      exact bounded.named key session registered
  · intro other
    have same : registry.sessions.count
          ((registry.create crdt serverUUID path content).isOf other) =
        registry.sessionCount other := by
      refine Dictionary.count_congr fun key session registered => ?_
      apply isOf_congr
      rw [serverOf, serverOf, old key session registered]
    have counted : (registry.create crdt serverUUID path content).sessionCount other = _ :=
      Dictionary.count_insert_fresh fresh registry.created.length
    rw [counted, same]
    split
    · rename_i mine
      have isServer : serverUUID = other := by
        have named : (registry.create crdt serverUUID path content).serverOf
            registry.created.length = some serverUUID := by
          rw [serverOf, Registry.create, List.getElem?_concat_length]
          rfl
        exact Option.some.inj (named.symm.trans (of_decide_eq_true mine))
      subst isServer
      exact room
    · exact bounded.few other

theorem find (handler : Nat) (serverUUID path : String) (content : Bytes) :
    (registry.find crdt handler serverUUID path content).Bounded := by
  rw [Registry.find]
  split
  · exact bounded.of_eq rfl rfl
  · rename_i fresh
    split
    · exact bounded
    · rename_i room
      exact (bounded.create content fresh (Nat.lt_of_not_le room)).of_eq
        rfl rfl

theorem leave (found : registry.created[session]? = some entry) (handler : Nat) :
    (registry.leave entry session handler).Bounded := by
  rw [Registry.leave]
  split
  · exact bounded.replace found rfl rfl rfl (.inl rfl)
  · exact bounded

theorem teardown (found : registry.created[session]? = some entry) (generation : UInt64) :
    (registry.teardown entry session generation).Bounded := by
  rw [Registry.teardown]
  split
  · exact bounded.replace found rfl rfl rfl (.inr ⟨entry.key, rfl⟩)
  · exact bounded

end

theorem step [DecidableEq Hash] (bounded : registry.Bounded)
    (taken : registry.Steps crdt label after) : after.Bounded := by
  cases label with
  | find handler serverUUID path content =>
    cases taken
    exact bounded.find handler serverUUID path content
  | add index =>
    obtain ⟨subscription, content, entry, _, found, rfl⟩ := steps_add_iff.1 taken
    exact bounded.replace found rfl rfl rfl (.inl rfl)
  | unsubscribe handler serverUUID path | disconnect handler serverUUID =>
    cases taken
    exact bounded.of_eq rfl rfl
  | remove index =>
    obtain ⟨session, handler, entry, _, found, rfl⟩ := steps_remove_iff.1 taken
    exact (bounded.leave found handler).of_eq rfl rfl
  | teardown index =>
    obtain ⟨session, generation, entry, _, found, rfl⟩ := steps_teardown_iff.1 taken
    exact (bounded.teardown found generation).of_eq rfl rfl

end Bounded

/-- Registered sessions are in use, and calls and subscribers are in registered sessions. -/
structure Live (registry : Registry Doc Hash) : Prop where
  registered : ∀ key session, registry.sessions.lookup key = some session →
    ∃ entry, registry.created[session]? = some entry ∧ entry.key = key ∧ entry.destroyed = false
  subscribing : ∀ waiting ∈ registry.subscribing,
    registry.sessions.lookup waiting.1.key = some waiting.1.session
  subscribed : ∀ subscription ∈ registry.subscribed, registry.Serves subscription

namespace Live

omit [DecidableEq Hash]

section

variable (live : registry.Live)
include live

theorem of_eq (created : after.created = registry.created)
    (sessions : after.sessions = registry.sessions)
    (subscribed : after.subscribed = registry.subscribed)
    (subscribing : ∀ waiting ∈ after.subscribing, waiting ∈ registry.subscribing) : after.Live := by
  constructor
  · rw [created, sessions]
    exact live.registered
  · intro waiting member
    rw [sessions]
    exact live.subscribing waiting (subscribing waiting member)
  · intro subscription member
    rw [subscribed] at member
    rw [Serves, created, sessions]
    exact live.subscribed subscription member

theorem subscribeTo (found : registry.sessions.lookup subscription.key = some subscription.session)
    (content : Bytes) : (registry.subscribeTo subscription content).Live := by
  constructor
  · exact live.registered
  · intro waiting member
    rcases List.mem_cons.1 member with rfl | earlier
    · exact found
    · exact live.subscribing waiting earlier
  · exact live.subscribed

theorem create (content : Bytes)
    (fresh : registry.sessions.lookup (nativeFileCollabKey serverUUID path) =
    none) : (registry.create crdt serverUUID path content).Live := by
  have kept : ∀ key session, registry.sessions.lookup key = some session →
      (registry.create crdt serverUUID path content).sessions.lookup key = some session ∧
      (registry.create crdt serverUUID path content).created[session]? =
        registry.created[session]? := by
    intro key session found
    obtain ⟨entry, present, _⟩ := live.registered key session found
    obtain ⟨bound, _⟩ := List.getElem?_eq_some_iff.1 present
    have different : key ≠ nativeFileCollabKey serverUUID path := by
      intro same
      rw [same, fresh] at found
      cases found
    refine ⟨?_, List.getElem?_append_left bound⟩
    exact Dictionary.lookup_insert_iff.2 (.inr ⟨different, found⟩)
  constructor
  · intro key session found
    rcases Dictionary.lookup_insert_iff.1 found with ⟨rfl, rfl⟩ | ⟨_, found⟩
    · exact ⟨.new crdt serverUUID path content, List.getElem?_concat_length, rfl, rfl⟩
    · rw [(kept key session found).2]
      exact live.registered key session found
  · intro waiting member
    exact (kept _ _ (live.subscribing waiting member)).1
  · intro subscription member
    obtain ⟨found, serves⟩ := live.subscribed subscription member
    obtain ⟨still, same⟩ := kept _ _ found
    rw [Serves, same]
    exact ⟨still, serves⟩

theorem find (handler : Nat) (serverUUID path : String) (content : Bytes) :
    (registry.find crdt handler serverUUID path content).Live := by
  rw [Registry.find]
  split
  · next session found => exact live.subscribeTo found content
  · rename_i fresh
    split
    · exact live
    · refine (live.create content fresh).subscribeTo ?_ content
      rw [Registry.create, AList.lookup_insert]

theorem replace {replaced : Entry Doc Hash} (found : registry.created[session]? = some entry)
    (created : after.created = registry.created.set session replaced)
    (sameKey : replaced.key = entry.key)
    (kept : entry.destroyed = false → replaced.destroyed = false)
    (sessions : after.sessions = registry.sessions)
    (subscribing : after.subscribing = registry.subscribing)
    (subscribed : ∀ subscription ∈ after.subscribed,
      registry.sessions.lookup subscription.key = some subscription.session ∧
        if subscription.session = session then
          replaced.hasMember subscription.handler = true
        else subscription ∈ registry.subscribed) : after.Live := by
  have inUse : ∀ key other, registry.sessions.lookup key = some other →
      ∃ current, after.created[other]? = some current ∧ current.key = key ∧
        current.destroyed = false := by
    intro key other registered
    obtain ⟨old, present, keyed, intact⟩ := live.registered key other registered
    rw [created, getElem?_set found]
    split
    · rename_i same
      subst same
      obtain rfl := Option.some.inj (found.symm.trans present)
      exact ⟨replaced, rfl, sameKey.trans keyed, kept intact⟩
    · exact ⟨old, present, keyed, intact⟩
  constructor
  · rw [sessions]
    exact inUse
  · rw [sessions, subscribing]
    exact live.subscribing
  · intro subscription member
    obtain ⟨registered, rest⟩ := subscribed subscription member
    rw [Serves, sessions, created, getElem?_set found]
    split at rest
    · rename_i same
      obtain ⟨current, present, _, intact⟩ := inUse _ _ registered
      rw [created, getElem?_set found, if_pos same] at present
      cases present
      rw [if_pos same]
      exact ⟨registered, replaced, rfl, rest, intact⟩
    · rename_i different
      rw [if_neg different]
      exact live.subscribed subscription rest

end

theorem enter [DecidableEq Hash] (live : registry.Live)
    (found : registry.created[subscription.session]? = some entry)
    (registered : registry.sessions.lookup subscription.key = some subscription.session)
    (content : Bytes) : (registry.enter crdt entry subscription content).Live := by
  refine live.replace found rfl rfl ?_ rfl rfl ?_
  · intro intact
    rw [Entry.add, intact]
    exact ite_self false
  · intro other member
    rcases List.mem_cons.1 member with rfl | earlier
    · refine ⟨registered, ?_⟩
      rw [if_pos rfl]
      exact Entry.hasMember_add entry content _
    · obtain ⟨found', current, present, isMember, _⟩ := live.subscribed other earlier
      refine ⟨found', ?_⟩
      split
      · rename_i same
        rw [same] at present
        obtain rfl := Option.some.inj (found.symm.trans present)
        exact Entry.hasMember_add_of_hasMember isMember content _
      · exact earlier

theorem leave (live : registry.Live)
    (found : registry.created[session]? = some entry) (handler : Nat) :
    (registry.leave entry session handler).Live := by
  rw [Registry.leave]
  split
  · refine live.replace found rfl rfl id rfl rfl ?_
    intro other member
    obtain ⟨earlier, stays⟩ := List.mem_filter.1 member
    obtain ⟨registered, current, present, isMember, _⟩ := live.subscribed other earlier
    refine ⟨registered, ?_⟩
    split
    · rename_i same
      rw [same] at present
      obtain rfl := Option.some.inj (found.symm.trans present)
      have different : other.handler ≠ handler := fun equal =>
        of_decide_eq_true stays ⟨same, equal⟩
      exact Entry.hasMember_remove different isMember
    · exact earlier
  · exact live

theorem teardown (live : registry.Live) (found : registry.created[session]? = some entry)
    (unclaimed : ∀ waiting ∈ registry.subscribing, waiting.1.session ≠ session)
    (generation : UInt64) : (registry.teardown entry session generation).Live := by
  rw [Registry.teardown]
  split
  · rename_i removes
    obtain ⟨nobody, _, registered⟩ := removes
    have kept : ∀ key other, registry.sessions.lookup key = some other →
        other ≠ session → (registry.sessions.erase entry.key).lookup key = some other := by
      intro key other present different
      refine Dictionary.lookup_erase_iff.2 ⟨?_, present⟩
      intro same
      rw [same, registered] at present
      exact different (Option.some.inj present).symm
    constructor
    · intro key other present
      obtain ⟨another, present⟩ := Dictionary.lookup_erase_iff.1 present
      obtain ⟨old, isEntry, keyed, intact⟩ := live.registered key other present
      have different : other ≠ session := by
        intro equal
        rw [equal] at isEntry
        obtain rfl := Option.some.inj (found.symm.trans isEntry)
        exact another keyed.symm
      rw [getElem?_set found, if_neg different]
      exact ⟨old, isEntry, keyed, intact⟩
    · intro waiting member
      exact kept _ _ (live.subscribing waiting member) (unclaimed waiting member)
    · intro subscription member
      obtain ⟨present, current, isEntry, isMember, intact⟩ := live.subscribed subscription member
      have different : subscription.session ≠ session := by
        intro equal
        rw [equal] at isEntry
        obtain rfl := Option.some.inj (found.symm.trans isEntry)
        rw [Entry.hasMember, nobody] at isMember
        cases isMember
      refine ⟨kept _ _ present different, ?_⟩
      rw [getElem?_set found, if_neg different]
      exact ⟨current, isEntry, isMember, intact⟩
  · exact live

theorem step [DecidableEq Hash] (live : registry.Live) (unclaimed : registry.Unclaimed label)
    (taken : registry.Steps crdt label after) : after.Live := by
  cases label with
  | find handler serverUUID path content =>
    cases taken
    exact live.find handler serverUUID path content
  | add index =>
    obtain ⟨subscription, content, entry, waits, found, rfl⟩ := steps_add_iff.1 taken
    have registered := live.subscribing _ (List.mem_of_getElem? waits)
    exact (live.enter found registered content).of_eq rfl rfl rfl fun _ => List.mem_of_mem_eraseIdx
  | unsubscribe handler serverUUID path | disconnect handler serverUUID =>
    cases taken
    exact live.of_eq rfl rfl rfl fun _ => id
  | remove index =>
    obtain ⟨session, handler, entry, _, found, rfl⟩ := steps_remove_iff.1 taken
    exact (live.leave found handler).of_eq rfl rfl rfl fun _ => id
  | teardown index =>
    obtain ⟨session, generation, entry, fires, found, rfl⟩ := steps_teardown_iff.1 taken
    exact (live.teardown found (unclaimed session generation fires)
      generation).of_eq rfl rfl rfl fun _ => id

end Live

/-- The number of sessions is bounded. If no teardown runs between the two sections of a
subscription, every subscriber is in a registered session whose document is in use. -/
theorem subscribers_served_of_unclaimed (crdt : Crdt Doc Hash) : (∀ registry : Registry Doc Hash,
      Reachable Empty (Steps crdt) registry → ∀ serverUUID,
        registry.sessionCount serverUUID ≤ fileCollabMaxSessionsPerServer) ∧
    ∀ registry : Registry Doc Hash,
      Reachable Empty (Guarded Unclaimed (Steps crdt)) registry →
        ∀ subscription ∈ registry.subscribed, registry.Serves subscription := by
  constructor
  · intro registry reached
    refine (reached.invariant ?_ ?_ : registry.Bounded).few
    · rintro _ rfl
      exact ⟨fun _ _ => nofun, fun _ => Nat.zero_le _⟩
    · intro _ _ _ bounded taken
      exact bounded.step taken
  · intro registry reached
    refine (reached.invariant ?_ ?_ : registry.Live).subscribed
    · rintro _ rfl
      exact ⟨fun _ _ => nofun, List.forall_mem_nil _, List.forall_mem_nil _⟩
    · intro _ _ _ live taken
      exact live.step taken.1 taken.2

def subscription (handler : Nat) : List RegistryLabel :=
  [.find handler "server" "/file" [1], .add 0]

theorem second_subscriber_served : ∃ registry : Registry Bytes Bytes,
      Reachable Empty (Guarded Unclaimed (Steps appendCrdt)) registry ∧
        ∃ subscription ∈ registry.subscribed,
          subscription.handler = 1 ∧ registry.Serves subscription := by
  have ran : (execute (step appendCrdt) {} (subscription 0 ++ subscription 1 ++
      [.unsubscribe 0 "server" "/file", .remove 0])).any (fun registry =>
        registry.subscribed.any fun subscription => subscription.handler = 1) =
      true := by
    decide +kernel
  obtain ⟨registry, executed, found⟩ := (Option.any_eq_true _ _).1 ran
  obtain ⟨subscription, member, second⟩ := List.any_eq_true.1 found
  have start : Reachable Empty (Guarded Unclaimed (Steps appendCrdt))
      ({} : Registry Bytes Bytes) := .start rfl
  have reached := start.executeGuarded _ (by
    intro label member source
    cases label with
    | teardown index => simp [Registry.subscription] at member
    | find | add | unsubscribe | disconnect | remove => trivial) executed
  exact ⟨registry, reached, subscription, member, of_decide_eq_true second,
    (subscribers_served_of_unclaimed appendCrdt).2 registry reached subscription member⟩

/-- A handler finds a session whose only member leaves, and enters it after the teardown. -/
theorem subscriber_in_removed_session : ∃ registry : Registry Bytes Bytes,
      Reachable Empty (Steps appendCrdt) registry ∧ ∃ subscription ∈ registry.subscribed,
          registry.sessions.lookup subscription.key = none ∧
            registry.created[subscription.session]?.map Entry.destroyed = some true := by
  have ran : (execute (step appendCrdt) {} (subscription 0 ++
      [.unsubscribe 0 "server" "/file", .remove 0,
        .find 1 "server" "/file" [1], .teardown 0, .add 0])).any
      (fun registry => registry.subscribed.any fun subscription =>
        registry.sessions.lookup subscription.key = none ∧
          registry.created[subscription.session]?.map Entry.destroyed = some true) = true := by
    decide +kernel
  obtain ⟨registry, executed, found⟩ := (Option.any_eq_true _ _).1 ran
  obtain ⟨subscription, member, removed⟩ := List.any_eq_true.1 found
  exact ⟨registry, Reachable.execute (.start rfl) _ executed, subscription,
    member, of_decide_eq_true removed⟩

end Registry

end Wings.NativeCollaboration
