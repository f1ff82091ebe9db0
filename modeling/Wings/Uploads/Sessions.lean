import Wings.Library.Dictionary
import Wings.Library.Transition

/-!
# Upload sessions and one-time tokens

A token is bound to the file of its first use until it expires, and it is spent when the upload is
complete. Times are counted from the zero time, which stands for no time. The order in which the
registry visits its sessions is part of a call. The token store forgets an id an hour after it was
seen, whatever the expiration time of the token.
-/

namespace Wings.Uploads.Sessions

open Transition
open Dictionary (count total_erase lookup_insert_iff)

structure Session where
  serverID : String
  target : String
  expires : Int
  consumed : Bool

def Session.spent (session : Session) : Session := { session with target := "", consumed := true }

structure SessionRegistry where
  globalLimit : Nat
  perServerLimit : Nat
  /-- Zero if no session is registered. -/
  nextExpiry : Int
  sessions : Dictionary String Session
  byServer : Dictionary String Int

namespace SessionRegistry

section

variable (registry : SessionRegistry)

/-- The number under a server, zero if there is none. -/
def served (serverID : String) : Int := (registry.byServer.lookup serverID).getD 0

/-- Count one less under a server, and drop a count of zero. -/
def decrement (serverID : String) : Dictionary String Int :=
  let byServer := registry.byServer.insert serverID (registry.served serverID - 1)
  if registry.served serverID - 1 = 0 then byServer.erase serverID
  else byServer

def remove (id : String) (session : Session) : SessionRegistry :=
  { registry with
    sessions := registry.sessions.erase id
    byServer := registry.decrement session.serverID }

def notice (expires : Int) : SessionRegistry :=
  if registry.nextExpiry = 0 ∨ expires < registry.nextExpiry then
    { registry with nextExpiry := expires }
  else registry

end

def visit (now : Nat) (registry : SessionRegistry) (id : String) : SessionRegistry :=
  match registry.sessions.lookup id with
  | none => registry
  | some session =>
    if session.expires ≤ now then registry.remove id session
    else registry.notice session.expires

def pruneExpired (registry : SessionRegistry) (order : List String) (now : Nat) : SessionRegistry :=
  if registry.nextExpiry = 0 ∨ now < registry.nextExpiry then registry
  else order.foldl (visit now) { registry with nextExpiry := 0 }

def add (registry : SessionRegistry) (id serverID target : String)
    (expires : Int) : SessionRegistry :=
  { registry with
    sessions := registry.sessions.insert id ⟨serverID, target, expires, false⟩
    byServer := registry.byServer.insert serverID (registry.served serverID + 1) }

def register (registry : SessionRegistry) (id serverID target : String)
    (expires : Int) : SessionRegistry := (registry.add id serverID target expires).notice expires

end SessionRegistry

/-- The tokens that were seen, with the time until which they are kept. -/
abbrev TokenCache := Dictionary String Nat

def tokenLifetime : Nat := 60 * 60 * 1000000000

def isValidToken (cache : TokenCache) (now : Nat) (token : String) : TokenCache × Bool :=
  if (cache.lookup token).any (now ≤ ·) then (cache, false)
  else (cache.insert token (now + tokenLifetime), true)

section Calls

variable (expiration : String → Option Int)

section

variable (registry : SessionRegistry)

def bindNew (cache : TokenCache) (now : Nat)
    (id serverID target : String) : SessionRegistry × TokenCache × Bool :=
  if registry.globalLimit ≤ registry.sessions.entries.length ∨
      registry.perServerLimit ≤ registry.served serverID then
    (registry, cache, false)
  else
    match expiration id with
    | none => (registry, cache, false)
    | some expires =>
      if expires ≤ now then (registry, cache, false)
      else
        let (cache, unique) := isValidToken cache now id
        if unique then
          (registry.register id serverID target expires, cache, true)
        else (registry, cache, false)

def bind (cache : TokenCache) (order : List String) (now : Nat)
    (id serverID target : String) : SessionRegistry × TokenCache × Bool :=
  let registry := registry.pruneExpired order now
  match registry.sessions.lookup id with
  | some session =>
    (registry, cache, !session.consumed && session.serverID = serverID && session.target = target)
  | none => bindNew expiration registry cache now id serverID target

/-- The session of a token that is not yet spent and is bound to the file. -/
def retirable (id serverID target : String) : Option Session :=
  (registry.sessions.lookup id).filter fun session =>
    !session.consumed && session.serverID = serverID && session.target = target

def retire (id serverID target : String) : SessionRegistry :=
  match retirable registry id serverID target with
  | none => registry
  | some session =>
    { registry with sessions := registry.sessions.insert id session.spent }

end

structure Run where
  registry : SessionRegistry
  cache : TokenCache
  clock : Nat
  bound : List (String × String × String)
  retired : List String

inductive Call where
  | bind (order : List String) (now : Nat) (id serverID target : String)
  | retire (id serverID target : String)
  /-- Another request asks whether a token is valid. -/
  | seen (now : Nat) (id : String)

def Run.step (run : Run) : Call → Option Run
  | .bind order now id serverID target =>
    if run.clock ≤ now ∧ order.isPerm run.registry.sessions.keys then
      let (registry, cache, succeeded) :=
        bind expiration run.registry run.cache order now id serverID target
      some { run with
        registry := registry
        cache := cache
        clock := now
        bound := if succeeded then (id, serverID, target) :: run.bound
          else run.bound }
    else none
  | .retire id serverID target =>
    some { run with
      registry := retire run.registry id serverID target
      retired := if (retirable run.registry id serverID target).isSome then
          id :: run.retired
        else run.retired }
  | .seen now id =>
    if run.clock ≤ now then
      some { run with
        cache := (isValidToken run.cache now id).1
        clock := now }
    else none

def Run.Steps (run : Run) (call : Call) (after : Run) : Prop :=
  run.step expiration call = some after

def Run.Initial (run : Run) : Prop := run.registry.sessions = ∅ ∧ run.registry.byServer = ∅ ∧
    run.registry.nextExpiry = 0 ∧ run.bound = [] ∧ run.retired = []

end Calls

namespace SessionRegistry

variable {registry : SessionRegistry} {id : String}

def tally (registry : SessionRegistry) (serverID : String) : Nat :=
  registry.sessions.count fun session => session.serverID = serverID

def Tallied (registry : SessionRegistry) : Prop :=
  ∀ serverID, registry.served serverID = registry.tally serverID

theorem lookup_decrement (serverID : String) :
    ((registry.decrement serverID).lookup serverID).getD 0 = registry.served serverID - 1 := by
  simp only [decrement]
  by_cases zero : registry.served serverID - 1 = 0
  · rw [if_pos zero, AList.lookup_erase, Option.getD_none, zero]
  · rw [if_neg zero, AList.lookup_insert, Option.getD_some]

theorem lookup_decrement_ne (different : serverID ≠ other) :
    (registry.decrement serverID).lookup other = registry.byServer.lookup other := by
  simp only [decrement]
  by_cases zero : registry.served serverID - 1 = 0
  · rw [if_pos zero, AList.lookup_erase_ne different.symm, AList.lookup_insert_ne different.symm]
  · rw [if_neg zero, AList.lookup_insert_ne different.symm]

theorem served_remove (serverID : String) : (registry.remove id session).served serverID =
      registry.served serverID -
        if session.serverID = serverID then 1 else 0 := by
  by_cases same : session.serverID = serverID
  · subst same
    rw [if_pos rfl, served, remove, lookup_decrement]
  · rw [if_neg same, Int.sub_zero, served, remove, lookup_decrement_ne same, served]

theorem tally_remove (found : registry.sessions.lookup id = some session) (serverID : String) :
    registry.tally serverID = (registry.remove id session).tally serverID +
      if session.serverID = serverID then 1 else 0 := by
  rw [tally, count, total_erase found, Nat.add_comm]
  simp only [decide_eq_true_eq, tally, count, remove]

theorem Tallied.remove (tallied : registry.Tallied)
    (found : registry.sessions.lookup id = some session) :
    (registry.remove id session).Tallied := by
  intro serverID
  have counted := tally_remove found serverID
  rw [served_remove, tallied serverID, counted]
  split <;> omega

theorem notice_eq (registry : SessionRegistry) (expires : Int) :
    ∃ next, registry.notice expires = { registry with nextExpiry := next } := by
  rw [notice]
  split <;> exact ⟨_, rfl⟩

theorem notice_spec (registry : SessionRegistry) (positive : 0 < expires) :
    ∃ next, registry.notice expires = { registry with nextExpiry := next } ∧
      (next ≠ 0 ∧ next ≤ expires) ∧ (next = expires ∨ next = registry.nextExpiry) ∧
        (registry.nextExpiry ≠ 0 → next ≤ registry.nextExpiry) := by
  rw [notice]
  split
  · rename_i earlier
    exact ⟨_, rfl, ⟨Int.ne_of_gt positive, Int.le_refl _⟩, .inl rfl, fun known =>
      Int.le_of_lt (earlier.resolve_left known)⟩
  · rename_i later
    obtain ⟨known, atMost⟩ := not_or.1 later
    exact ⟨_, rfl, ⟨known, Int.not_lt.1 atMost⟩, .inr rfl, fun _ => Int.le_refl _⟩

/-- What the loop has established when some sessions are still to be visited. -/
structure Visiting (now : Nat) (original : SessionRegistry) (rest : List String)
    (registry : SessionRegistry) : Prop where
  tallied : registry.Tallied
  limits : registry.globalLimit = original.globalLimit ∧
    registry.perServerLimit = original.perServerLimit
  fewer : registry.sessions.entries.length ≤ original.sessions.entries.length
  served : ∀ serverID, registry.served serverID ≤ original.served serverID
  old : ∀ id session, registry.sessions.lookup id = some session →
    original.sessions.lookup id = some session
  kept : ∀ id session, original.sessions.lookup id = some session →
    now < session.expires → registry.sessions.lookup id = some session
  visited : ∀ id session, registry.sessions.lookup id = some session →
    id ∈ rest ∨ now < session.expires ∧ registry.nextExpiry ≠ 0 ∧
      registry.nextExpiry ≤ session.expires
  attained : registry.nextExpiry ≠ 0 → ∃ id session,
    registry.sessions.lookup id = some session ∧ now < session.expires ∧
      session.expires = registry.nextExpiry

namespace Visiting

section

variable (visiting : Visiting now original (id :: rest) registry)
include visiting

theorem absent (missing : registry.sessions.lookup id = none) :
    Visiting now original rest registry := by
  refine { visiting with visited := fun other found known => ?_ }
  refine (visiting.visited other found known).imp_left fun listed => ?_
  refine (List.mem_cons.1 listed).resolve_left fun same => ?_
  rw [same, missing] at known
  cases known

theorem remove
    (found : registry.sessions.lookup id = some session) (expired : session.expires ≤ now) :
    Visiting now original rest (registry.remove id session) where
  tallied := visiting.tallied.remove found
  limits := visiting.limits
  fewer := (List.kerase_sublist _ _).length_le.trans visiting.fewer
  served serverID := by
    rw [served_remove]
    have before := visiting.served serverID
    split <;> omega
  old other known kept := visiting.old other known (Dictionary.lookup_erase_iff.1 kept).2
  kept other known stored later := by
    have stays := visiting.kept other known stored later
    refine Dictionary.lookup_erase_iff.2 ⟨?_, stays⟩
    rintro rfl
    rw [found] at stays
    cases stays
    omega
  visited other known kept := by
    obtain ⟨different, stored⟩ := Dictionary.lookup_erase_iff.1 kept
    refine (visiting.visited other known stored).imp_left fun listed => ?_
    exact (List.mem_cons.1 listed).resolve_left different
  attained known := by
    obtain ⟨other, earliest, stored, later, equal⟩ := visiting.attained known
    refine ⟨other, earliest, Dictionary.lookup_erase_iff.2 ⟨?_, stored⟩, later, equal⟩
    rintro rfl
    rw [found] at stored
    cases stored
    omega

theorem notice
    (found : registry.sessions.lookup id = some session) (later : now < session.expires) :
    Visiting now original rest (registry.notice session.expires) := by
  obtain ⟨next, same, soon, either, earlier⟩ :=
    notice_spec registry (show 0 < session.expires by omega)
  rw [same]
  refine { visiting with visited := fun other known stored => ?_, attained := fun _ => ?_ }
  · rcases visiting.visited other known stored with listed | ⟨unexpired, set, below⟩
    · rcases List.mem_cons.1 listed with rfl | remains
      · cases found.symm.trans stored
        exact .inr ⟨later, soon⟩
      · exact .inl remains
    · exact .inr ⟨unexpired, soon.1, Int.le_trans (earlier set) below⟩
  · rcases either with rfl | rfl
    · exact ⟨id, session, found, later, rfl⟩
    · exact visiting.attained soon.1

theorem visit : Visiting now original rest (registry.visit now id) := by
  rw [SessionRegistry.visit]
  cases found : registry.sessions.lookup id with
  | none => exact visiting.absent found
  | some session =>
    dsimp only
    split
    · rename_i expired
      exact visiting.remove found expired
    · rename_i unexpired
      exact visiting.notice found (Int.not_le.1 unexpired)

end

theorem foldl (visiting : Visiting now original order registry) :
    Visiting now original [] (order.foldl (SessionRegistry.visit now) registry) := by
  induction order generalizing registry with
  | nil => exact visiting
  | cons id rest ih =>
    exact ih visiting.visit

end Visiting

structure Sound (expiration : String → Option Int) (registry : SessionRegistry) : Prop where
  tallied : registry.Tallied
  global : registry.sessions.entries.length ≤ registry.globalLimit
  perServer : ∀ serverID, registry.served serverID ≤ registry.perServerLimit
  expiring : ∀ id session, registry.sessions.lookup id = some session →
    expiration id = some session.expires
  earliest : ∀ id session, registry.sessions.lookup id = some session →
    registry.nextExpiry ≠ 0 ∧ registry.nextExpiry ≤ session.expires
  attained : registry.nextExpiry ≠ 0 → ∃ id session, registry.sessions.lookup id = some session ∧
      session.expires = registry.nextExpiry

structure Cleared (now : Nat) (registry after : SessionRegistry) : Prop where
  old : ∀ id session, after.sessions.lookup id = some session →
    registry.sessions.lookup id = some session ∧ now < session.expires
  kept : ∀ id session, registry.sessions.lookup id = some session →
    now < session.expires → after.sessions.lookup id = some session

section Prune

theorem Sound.visiting (sound : Sound expiration registry)
    (all : order.isPerm registry.sessions.keys = true) :
    Visiting now registry order { registry with nextExpiry := 0 } where
  tallied := sound.tallied
  limits := ⟨rfl, rfl⟩
  fewer := Nat.le_refl _
  served _ := Int.le_refl _
  old _ _ found := found
  kept _ _ found _ := found
  visited id session found := by
    refine .inl ((List.isPerm_iff.1 all).mem_iff.2 ?_)
    exact AList.mem_keys.1 (AList.lookup_isSome.1 (by
      rw [show registry.sessions.lookup id = some session from found]
      rfl))
  attained impossible := absurd rfl impossible

theorem Sound.pruneExpired (sound : Sound expiration registry)
    (all : order.isPerm registry.sessions.keys = true) :
    Sound expiration (registry.pruneExpired order now) ∧
    Cleared now registry (registry.pruneExpired order now) := by
  rw [SessionRegistry.pruneExpired]
  split
  · rename_i early
    refine ⟨sound, fun id session found => ⟨found, ?_⟩, fun id session found _ => found⟩
    obtain ⟨set, below⟩ := sound.earliest id session found
    omega
  · have started : Visiting now registry order
        { registry with nextExpiry := 0 } := sound.visiting all
    have finished := started.foldl
    have unexpired : ∀ id session, (order.foldl (visit now)
        { registry with nextExpiry := 0 }).sessions.lookup id = some session →
        _ :=
      fun id session found =>
        (finished.visited id session found).resolve_left List.not_mem_nil
    refine ⟨⟨finished.tallied, ?_, ?_, ?_, ?_, ?_⟩, ?_, finished.kept⟩
    · rw [finished.limits.1]
      exact finished.fewer.trans sound.global
    · intro serverID
      rw [finished.limits.2]
      exact Int.le_trans (finished.served serverID) (sound.perServer serverID)
    · intro id session found
      exact sound.expiring id session (finished.old id session found)
    · intro id session found
      exact (unexpired id session found).2
    · intro set
      obtain ⟨id, session, found, _, equal⟩ := finished.attained set
      exact ⟨id, session, found, equal⟩
    · intro id session found
      exact ⟨finished.old id session found, (unexpired id session found).1⟩

end Prune

section Changes

theorem sessions_register : (registry.register id serverID target expires).sessions =
    registry.sessions.insert id ⟨serverID, target, expires, false⟩ := by
  obtain ⟨_, same⟩ := notice_eq (registry.add id serverID target expires) expires
  rw [register, same, add]

theorem served_register (other : String) :
    (registry.register id serverID target expires).served other =
      registry.served other + if serverID = other then 1 else 0 := by
  obtain ⟨_, noticed⟩ := notice_eq (registry.add id serverID target expires) expires
  rw [served, register, noticed, add]
  by_cases same : serverID = other
  · subst same
    rw [AList.lookup_insert, Option.getD_some, if_pos rfl]
  · rw [AList.lookup_insert_ne (Ne.symm same), if_neg same, Int.add_zero, served]

theorem lookup_register : (registry.register id serverID target expires).sessions.lookup other =
    some found ↔ other = id ∧ ⟨serverID, target, expires, false⟩ = found ∨
    other ≠ id ∧ registry.sessions.lookup other = some found := by
  rw [sessions_register]
  exact lookup_insert_iff

theorem Sound.register (sound : Sound expiration registry)
    (fresh : registry.sessions.lookup id = none)
    (few : registry.sessions.entries.length < registry.globalLimit)
    (fewHere : registry.served serverID < registry.perServerLimit)
    (expiring : expiration id = some expires) (positive : 0 < expires) :
    Sound expiration (registry.register id serverID target expires) := by
  obtain ⟨next, noticed, soon, either, earlier⟩ :=
    notice_spec (registry.add id serverID target expires) positive
  refine ⟨?_, ?_, ?_, ?_, ?_, ?_⟩
  · intro other
    rw [served_register, tally, sessions_register,
      Dictionary.count_insert_fresh fresh, sound.tallied other, tally]
    simp only [decide_eq_true_eq]
    split <;> simp
  · rw [SessionRegistry.register, noticed]
    exact (Dictionary.length_insert_le id _).trans few
  · intro other
    have before := sound.perServer other
    rw [served_register, SessionRegistry.register, noticed]
    split
    · rename_i here
      rw [← here]
      exact fewHere
    · exact (Int.add_zero _).trans_le before
  · intro other found known
    rcases lookup_register.1 known with ⟨rfl, rfl⟩ | ⟨_, stored⟩
    · exact expiring
    · exact sound.expiring other found stored
  · intro other found known
    rw [SessionRegistry.register, noticed]
    rcases lookup_register.1 known with ⟨rfl, rfl⟩ | ⟨_, stored⟩
    · exact soon
    · obtain ⟨set, below⟩ := sound.earliest other found stored
      exact ⟨soon.1, Int.le_trans (earlier set) below⟩
  · intro _
    rw [SessionRegistry.register, noticed]
    rcases either with rfl | rfl
    · exact ⟨id, _, lookup_insert_iff.2 (.inl ⟨rfl, rfl⟩), rfl⟩
    · obtain ⟨other, found, stored, attained⟩ := sound.attained soon.1
      refine ⟨other, found, lookup_insert_iff.2 (.inr ⟨?_, stored⟩), attained⟩
      rintro rfl
      rw [fresh] at stored
      cases stored

theorem lookup_retire (spent : retirable registry id serverID target = some session) :
    (retire registry id serverID target).sessions.lookup other =
    some found ↔ other = id ∧ session.spent = found ∨
    other ≠ id ∧ registry.sessions.lookup other = some found := by
  rw [retire, spent]
  exact lookup_insert_iff

theorem retirable_eq_some_iff : retirable registry id serverID target = some session ↔
    registry.sessions.lookup id = some session ∧
    session.consumed = false ∧ session.serverID = serverID ∧ session.target = target := by
  rw [retirable, Option.filter_eq_some_iff]
  simp [and_assoc]

theorem Sound.retire (sound : Sound expiration registry) :
    Sound expiration (Sessions.retire registry id serverID target) := by
  cases spent : retirable registry id serverID target with
  | none =>
    rw [Sessions.retire, spent]
    exact sound
  | some session =>
    have stored := (retirable_eq_some_iff.1 spent).1
    rw [Sessions.retire, spent]
    refine ⟨?_, ?_, sound.perServer, ?_, ?_, ?_⟩
    · intro other
      have counted := sound.tallied other
      rw [tally, count, total_erase stored] at counted
      exact counted
    · exact (Dictionary.length_insert_of_found stored _).trans_le sound.global
    · intro other found known
      rcases lookup_insert_iff.1 known with ⟨rfl, rfl⟩ | ⟨_, kept⟩
      · exact sound.expiring other session stored
      · exact sound.expiring other found kept
    · intro other found known
      rcases lookup_insert_iff.1 known with ⟨rfl, rfl⟩ | ⟨_, kept⟩
      · exact sound.earliest other session stored
      · exact sound.earliest other found kept
    · intro set
      obtain ⟨other, found, known, attained⟩ := sound.attained set
      by_cases own : other = id
      · subst own
        rw [stored] at known
        cases known
        exact ⟨other, _, lookup_insert_iff.2 (.inl ⟨rfl, rfl⟩), attained⟩
      · exact ⟨other, found, lookup_insert_iff.2 (.inr ⟨own, known⟩), attained⟩

end Changes

end SessionRegistry

def Current (expiration : String → Option Int) (clock : Nat)
    (registry : SessionRegistry) (id : String) (holds : Session → Prop) : Prop :=
  ∃ expires, expiration id = some expires ∧ (expires ≤ clock ∨
    ∃ session, registry.sessions.lookup id = some session ∧ holds session)

namespace Current

variable {id other serverID target : String}

section

variable (current : Current expiration clock registry id holds)
include current

theorem cleared
    (sound : registry.Sound expiration) (cleared : SessionRegistry.Cleared now registry after)
    (later : clock ≤ now) : Current expiration now after id holds := by
  obtain ⟨expires, expiring, elapsed | ⟨session, found, known⟩⟩ := current
  · exact ⟨expires, expiring, .inl (by omega)⟩
  · refine ⟨expires, expiring, ?_⟩
    have same : expires = session.expires :=
      Option.some.inj (expiring.symm.trans (sound.expiring id session found))
    by_cases unexpired : now < session.expires
    · exact .inr ⟨session, cleared.kept id session found unexpired, known⟩
    · rw [same]
      exact .inl (Int.not_lt.1 unexpired)

theorem register (fresh : registry.sessions.lookup other = none) :
    Current expiration clock (registry.register other serverID target expires) id holds := by
  obtain ⟨limit, expiring, elapsed | ⟨session, found, known⟩⟩ := current
  · exact ⟨limit, expiring, .inl elapsed⟩
  · refine ⟨limit, expiring, .inr ⟨session, ?_, known⟩⟩
    refine SessionRegistry.lookup_register.2 (.inr ⟨?_, found⟩)
    rintro rfl
    rw [fresh] at found
    cases found

theorem retire (stable : ∀ session, holds session → holds session.spent) :
    Current expiration clock (Sessions.retire registry other serverID target) id holds := by
  obtain ⟨limit, expiring, elapsed | ⟨session, found, known⟩⟩ := current
  · exact ⟨limit, expiring, .inl elapsed⟩
  · refine ⟨limit, expiring, .inr ?_⟩
    cases spent : retirable registry other serverID target with
    | none =>
      rw [Sessions.retire, spent]
      exact ⟨session, found, known⟩
    | some old =>
      by_cases same : id = other
      · subst same
        have stored := (SessionRegistry.retirable_eq_some_iff.1 spent).1
        rw [found] at stored
        cases stored
        exact ⟨_, (SessionRegistry.lookup_retire spent).2 (.inl ⟨rfl, rfl⟩), stable session known⟩
      · exact ⟨session, (SessionRegistry.lookup_retire spent).2 (.inr ⟨same, found⟩), known⟩

theorem later (later : clock ≤ now) : Current expiration now registry id holds := by
  obtain ⟨limit, expiring, elapsed | found⟩ := current
  · exact ⟨limit, expiring, .inl (by omega)⟩
  · exact ⟨limit, expiring, .inr found⟩

end

theorem session (current : Current expiration now registry id holds)
    (unexpired : ∀ expires, expiration id = some expires → now < expires) :
    ∃ session, registry.sessions.lookup id = some session ∧ holds session := by
  obtain ⟨expires, expiring, elapsed | found⟩ := current
  · have later := unexpired expires expiring
    omega
  · exact found

end Current

def Serves (serverID target : String) (session : Session) : Prop := session.serverID = serverID ∧
    (session.consumed = true ∨ session.target = target)

inductive Bound (expiration : String → Option Int) (pruned : SessionRegistry)
    (now : Nat) (id serverID target : String) : SessionRegistry → Bool → Prop
  | found {session : Session} (stored : pruned.sessions.lookup id = some session) :
      Bound expiration pruned now id serverID target pruned
        (!session.consumed && session.serverID = serverID && session.target = target)
  | refused (missing : pruned.sessions.lookup id = none) :
      Bound expiration pruned now id serverID target pruned false
  | registered {expires : Int} (missing : pruned.sessions.lookup id = none)
      (few : pruned.sessions.entries.length < pruned.globalLimit)
      (fewHere : pruned.served serverID < pruned.perServerLimit)
      (expiring : expiration id = some expires) (unexpired : now < expires) :
      Bound expiration pruned now id serverID target
        (pruned.register id serverID target expires) true

variable {id serverID target : String}

theorem bound_bindNew (missing : pruned.sessions.lookup id = none) :
    Bound expiration pruned now id serverID target
    (bindNew expiration pruned cache now id serverID target).1
    (bindNew expiration pruned cache now id serverID target).2.2 := by
  rw [bindNew]
  split
  · exact .refused missing
  · rename_i room
    obtain ⟨few, fewHere⟩ := not_or.1 room
    cases expiring : expiration id with
    | none => exact .refused missing
    | some expires =>
      dsimp only
      split
      · exact .refused missing
      · rename_i unexpired
        split
        · exact .registered missing (Nat.not_le.1 few)
            (Int.not_le.1 fewHere) expiring (Int.not_le.1 unexpired)
        · exact .refused missing

theorem bound_bind (expiration : String → Option Int)
    (registry : SessionRegistry) (cache : TokenCache) (order : List String)
    (now : Nat) (id serverID target : String) :
    Bound expiration (registry.pruneExpired order now) now id serverID target
    (bind expiration registry cache order now id serverID target).1
    (bind expiration registry cache order now id serverID target).2.2 := by
  simp only [bind]
  cases stored : (registry.pruneExpired order now).sessions.lookup id with
  | none => exact bound_bindNew stored
  | some session => exact .found stored

section Bind

theorem Bound.sound (bound : Bound expiration pruned now id serverID target after succeeded)
    (sound : pruned.Sound expiration) : after.Sound expiration := by
  cases bound with
  | found | refused => exact sound
  | registered missing few fewHere expiring unexpired =>
    exact sound.register missing few fewHere expiring (by omega)

theorem Bound.current (bound : Bound expiration pruned now id serverID target after succeeded)
    (current : Current expiration now pruned other holds) :
    Current expiration now after other holds := by
  cases bound with
  | found | refused => exact current
  | registered missing => exact current.register missing

theorem Bound.holds (bound : Bound expiration pruned now id serverID target after true)
    (sound : pruned.Sound expiration) :
    Current expiration now after id (Serves serverID target) := by
  generalize outcome : true = succeeded at bound
  cases bound with
  | found stored =>
    simp only [Bool.true_eq, Bool.and_eq_true, Bool.not_eq_true', decide_eq_true_eq] at outcome
    obtain ⟨⟨_, server⟩, file⟩ := outcome
    exact ⟨_, sound.expiring id _ stored, .inr ⟨_, stored, server, .inr file⟩⟩
  | refused => cases outcome
  | registered missing few fewHere expiring unexpired =>
    exact ⟨_, expiring, .inr ⟨_, SessionRegistry.lookup_register.2
      (.inl ⟨rfl, rfl⟩), rfl, .inr rfl⟩⟩

theorem Bound.finds {holds : Session → Prop}
    (bound : Bound expiration pruned now id serverID target after true)
    (sound : pruned.Sound expiration)
    (unexpired : ∀ session, pruned.sessions.lookup id = some session → now < session.expires)
    (current : Current expiration now pruned id holds) :
    ∃ session, holds session ∧ session.consumed = false ∧
    session.serverID = serverID ∧ session.target = target := by
  generalize outcome : true = succeeded at bound
  cases bound with
  | found stored =>
    simp only [Bool.true_eq, Bool.and_eq_true, Bool.not_eq_true', decide_eq_true_eq] at outcome
    obtain ⟨⟨unspent, server⟩, file⟩ := outcome
    obtain ⟨known, found, held⟩ := current.session fun expires expiring => by
      rw [sound.expiring id _ stored] at expiring
      cases expiring
      exact unexpired _ stored
    rw [stored] at found
    cases found
    exact ⟨_, held, unspent, server, file⟩
  | refused => cases outcome
  | registered missing few fewHere expiring later =>
    obtain ⟨known, found, _⟩ := current.session fun expires other => by
      rw [expiring] at other
      cases other
      exact later
    rw [missing] at found
    cases found

end Bind

/-- Tokens that were bound keep their file, and tokens that were spent stay so. -/
structure Remembered (expiration : String → Option Int) (run : Run) : Prop where
  bound : ∀ id serverID target, (id, serverID, target) ∈ run.bound →
    Current expiration run.clock run.registry id (Serves serverID target)
  agree : ∀ id serverID target otherID otherTarget, (id, serverID, target) ∈ run.bound →
      (id, otherID, otherTarget) ∈ run.bound → serverID = otherID ∧ target = otherTarget
  retired : ∀ id ∈ run.retired, Current expiration run.clock run.registry id fun session =>
      session.consumed = true


def Orderly (expiration : String → Option Int) (run : Run) : Prop :=
  run.registry.Sound expiration ∧ Remembered expiration run

theorem Run.Initial.orderly (initial : run.Initial) : Orderly expiration run := by
  obtain ⟨sessions, byServer, unset, bound, retired⟩ := initial
  have missing : ∀ id, run.registry.sessions.lookup id = none := by
    intro id
    rw [sessions, AList.lookup_empty]
  have none : ∀ serverID, run.registry.served serverID = 0 := by
    intro serverID
    rw [SessionRegistry.served, byServer, AList.lookup_empty, Option.getD_none]
  refine ⟨⟨?_, ?_, ?_, by simp [missing], by simp [missing], fun set => absurd unset set⟩,
    by simp [bound], by simp [bound], by simp [retired]⟩
  · intro serverID
    rw [none, SessionRegistry.tally, sessions]
    rfl
  · rw [sessions]
    exact Nat.zero_le _
  · intro serverID
    rw [none]
    exact Int.natCast_nonneg _

section Binding

section

variable (orderly : Orderly expiration run)
include orderly

theorem Orderly.finds {holds : Session → Prop} (later : run.clock ≤ now)
    (all : order.isPerm run.registry.sessions.keys = true)
    (succeeded : (Sessions.bind expiration run.registry run.cache order now id
    serverID target).2.2 = true) (current : Current expiration run.clock run.registry id holds) :
    ∃ session, holds session ∧ session.consumed = false ∧
    session.serverID = serverID ∧ session.target = target := by
  obtain ⟨pruned, cleared⟩ : _ ∧ SessionRegistry.Cleared now run.registry _ :=
    orderly.1.pruneExpired all
  have outcome := bound_bind expiration run.registry run.cache order now id serverID target
  rw [succeeded] at outcome
  exact outcome.finds pruned (fun session stored => (cleared.old id session stored).2)
    (current.cleared orderly.1 cleared later)

theorem Orderly.agrees (later : run.clock ≤ now)
    (all : order.isPerm run.registry.sessions.keys = true)
    (succeeded : (Sessions.bind expiration run.registry run.cache order now id
    serverID target).2.2 = true) (known : (id, otherID, otherTarget) ∈ run.bound) :
    serverID = otherID ∧ target = otherTarget := by
  obtain ⟨session, ⟨otherServer, spent | otherFile⟩, unspent, server, file⟩ :=
    orderly.finds later all succeeded (orderly.2.bound id otherID otherTarget known)
  · rw [unspent] at spent
    cases spent
  · exact ⟨server.symm.trans otherServer, file.symm.trans otherFile⟩

theorem Orderly.refused (later : run.clock ≤ now)
    (all : order.isPerm run.registry.sessions.keys = true) (spent : id ∈ run.retired) :
    (Sessions.bind expiration run.registry run.cache order now id serverID target).2.2 = false := by
  rw [Bool.eq_false_iff]
  intro succeeded
  obtain ⟨session, consumed, unspent, _⟩ :=
    orderly.finds later all succeeded (orderly.2.retired id spent)
  rw [unspent] at consumed
  cases consumed

theorem Orderly.bind (moved : run.Steps expiration (.bind order now id serverID target) after) :
    Orderly expiration after := by
  simp only [Run.Steps, Run.step] at moved
  split at moved
  · rename_i valid
    obtain ⟨later, all⟩ := valid
    have agrees : (Sessions.bind expiration run.registry run.cache order now id
        serverID target).2.2 = true → ∀ {otherID otherTarget},
          (id, otherID, otherTarget) ∈ run.bound → serverID = otherID ∧ target = otherTarget :=
      fun succeeded => orderly.agrees later all succeeded
    obtain ⟨sound, remembered⟩ := orderly
    obtain ⟨pruned, cleared⟩ : _ ∧ SessionRegistry.Cleared now run.registry
      _ := sound.pruneExpired all
    have outcome := bound_bind expiration run.registry run.cache order now id serverID target
    generalize Sessions.bind expiration run.registry run.cache order now id
      serverID target = result at outcome moved agrees
    obtain ⟨registry, cache, succeeded⟩ := result
    cases moved
    have stays : ∀ {other holds}, Current expiration run.clock run.registry other holds →
          Current expiration now registry other holds :=
      fun current => outcome.current (current.cleared sound cleared later)
    refine ⟨outcome.sound pruned, ?_, ?_, fun other known =>
      stays (remembered.retired other known)⟩
    · intro other otherID otherTarget known
      cases succeeded with
      | false => exact stays (remembered.bound other otherID otherTarget known)
      | true =>
        rcases List.mem_cons.1 known with same | earlier
        · cases same
          exact outcome.holds pruned
        · exact stays (remembered.bound other otherID otherTarget earlier)
    · intro other firstID firstTarget secondID secondTarget first second
      cases succeeded with
      | false => exact remembered.agree other _ _ _ _ first second
      | true =>
        rcases List.mem_cons.1 first with same | first
        · cases same
          rcases List.mem_cons.1 second with same | second
          · cases same
            exact ⟨rfl, rfl⟩
          · exact agrees rfl second
        · rcases List.mem_cons.1 second with same | second
          · cases same
            exact (agrees rfl first).imp Eq.symm Eq.symm
          · exact remembered.agree other _ _ _ _ first second
  · cases moved

end

end Binding

section

variable (orderly : Orderly expiration run)
include orderly

theorem Orderly.retire (moved : run.Steps expiration (.retire id serverID target) after) :
    Orderly expiration after := by
  obtain ⟨sound, remembered⟩ := orderly
  cases moved
  refine ⟨sound.retire, ?_, remembered.agree, ?_⟩
  · intro other otherID otherTarget known
    exact (remembered.bound other otherID otherTarget known).retire
      fun _ serves => ⟨serves.1, .inl rfl⟩
  · intro other known
    have stays : other ∈ run.retired → Current expiration run.clock
        (Sessions.retire run.registry id serverID target) other
        fun session => session.consumed = true :=
      fun earlier => (remembered.retired other earlier).retire fun _ _ => rfl
    cases spent : retirable run.registry id serverID target with
    | none =>
      rw [spent] at known
      exact stays known
    | some session =>
      rw [spent] at known
      rcases List.mem_cons.1 known with rfl | earlier
      · have stored := (SessionRegistry.retirable_eq_some_iff.1 spent).1
        exact ⟨_, sound.expiring other session stored, .inr ⟨_,
          (SessionRegistry.lookup_retire spent).2 (.inl ⟨rfl, rfl⟩), rfl⟩⟩
      · exact stays earlier

theorem Orderly.seen
    (moved : run.Steps expiration (.seen now id) after) : Orderly expiration after := by
  obtain ⟨sound, remembered⟩ := orderly
  simp only [Run.Steps, Run.step] at moved
  split at moved
  · rename_i later
    cases moved
    refine ⟨sound, ?_, remembered.agree, ?_⟩
    · intro other otherID otherTarget known
      exact (remembered.bound other otherID otherTarget known).later later
    · intro other known
      exact (remembered.retired other known).later later
  · cases moved

theorem Orderly.step (moved : run.Steps expiration call after) : Orderly expiration after := by
  cases call with
  | bind => exact orderly.bind moved
  | retire => exact orderly.retire moved
  | seen => exact orderly.seen moved

end

theorem orderly_of_reachable (reached : Reachable Run.Initial (Run.Steps expiration) run) :
    Orderly expiration run :=
  reached.invariant (fun _ => Run.Initial.orderly) fun _ _ _ orderly moved =>
    orderly.step moved

theorem SessionRegistry.Sound.nextExpiry_eq_zero_iff
    {registry : SessionRegistry} (sound : registry.Sound expiration) :
    registry.nextExpiry = 0 ↔ registry.sessions = ∅ := by
  constructor
  · intro unset
    apply AList.ext
    rw [AList.empty_entries, List.eq_nil_iff_forall_not_mem]
    intro entry listed
    have found := Dictionary.mem_entries_iff.1 listed
    exact (sound.earliest entry.1 entry.2 found).1 unset
  · intro none
    by_contra set
    obtain ⟨id, session, found, _⟩ := sound.attained set
    rw [none, AList.lookup_empty] at found
    cases found

/-- A token is spent once, on one file. -/
theorem token_spent_once (expiration : String → Option Int) (run : Run)
    (reached : Reachable Run.Initial (Run.Steps expiration) run) :
    (∀ serverID, run.registry.served serverID = run.registry.tally serverID) ∧
      (run.registry.sessions.entries.length ≤ run.registry.globalLimit ∧ ∀ serverID,
          run.registry.served serverID ≤ run.registry.perServerLimit) ∧
      (∀ id session, run.registry.sessions.lookup id = some session →
        run.registry.nextExpiry ≤ session.expires) ∧
      (run.registry.nextExpiry = 0 ↔ run.registry.sessions = ∅) ∧
      (∀ id serverID target otherID otherTarget,
        (id, serverID, target) ∈ run.bound →
          (id, otherID, otherTarget) ∈ run.bound → serverID = otherID ∧ target = otherTarget) ∧
      ∀ id ∈ run.retired, ∀ order now serverID target, run.clock ≤ now →
        order.isPerm run.registry.sessions.keys = true →
          (bind expiration run.registry run.cache order now id serverID target).2.2 = false := by
  have orderly := orderly_of_reachable reached
  have sound := orderly.1
  exact ⟨sound.tallied, ⟨sound.global, sound.perServer⟩,
    fun id session found => (sound.earliest id session found).2,
    sound.nextExpiry_eq_zero_iff, orderly.2.agree,
    fun id spent order now serverID target later all =>
      orderly.refused later all spent⟩


private def tenthMoment (_ : String) : Option Int := some 10

/-- One token is bound twice and spent, and another is bound once it has
expired. -/
private def spending : List Call := [.bind [] 1 "first" "server" "notes.txt",
    .bind ["first"] 2 "first" "server" "notes.txt",
    .retire "first" "server" "notes.txt", .seen 3 "second",
    .bind ["first"] 12 "second" "server" "notes.txt"]

private def unused : Run := ⟨⟨2, 1, 0, ∅, ∅⟩, ∅, 0, [], []⟩

theorem spent_token_refused : ∃ run, Reachable Run.Initial (Run.Steps tenthMoment) run ∧
      run.bound = [("first", "server", "notes.txt"), ("first", "server", "notes.txt")] ∧
      run.registry.sessions.lookup "first" = none ∧
      (bind tenthMoment run.registry run.cache [] 12 "first" "server" "notes.txt").2.2 = false := by
  have ran : (execute (Run.step tenthMoment) unused spending).any (fun run =>
      decide (run.clock = 12 ∧ run.retired = ["first"] ∧
        run.bound = [("first", "server", "notes.txt"), ("first", "server", "notes.txt")] ∧
        run.registry.sessions.lookup "first" = none ∧
        List.isPerm [] run.registry.sessions.keys = true)) = true := by
    decide +kernel
  obtain ⟨run, executed, found⟩ := (Option.any_eq_true _ _).1 ran
  obtain ⟨clock, retired, bound, pruned, all⟩ := of_decide_eq_true found
  have reached : Reachable Run.Initial (Run.Steps tenthMoment) run :=
    Reachable.execute (.start ⟨rfl, rfl, rfl, rfl, rfl⟩) spending executed
  refine ⟨run, reached, bound, pruned, ?_⟩
  apply (token_spent_once tenthMoment run reached).2.2.2.2.2
  · rw [retired]
    exact List.mem_singleton.2 rfl
  · exact Nat.le_of_eq clock
  · exact all

end Wings.Uploads.Sessions

namespace Wings.Uploads.Tokens

open Sessions

structure Payload where
  uniqueId : String
  /-- In seconds. -/
  expirationTime : Option Nat

structure Request where
  token : Payload
  /-- In nanoseconds. -/
  now : Nat

def parseToken (request : Request) : Bool :=
  request.token.expirationTime.any (request.now / 1000000000 ≤ ·)

def isUniqueRequest (cache : TokenCache) (request : Request) : TokenCache × Bool :=
  isValidToken cache request.now request.token.uniqueId

def accepted (cache : TokenCache) : List Request → List Request
  | [] => []
  | request :: rest =>
    if parseToken request then
      if (isUniqueRequest cache request).2 then
        request :: accepted (isUniqueRequest cache request).1 rest
      else accepted (isUniqueRequest cache request).1 rest
    else accepted cache rest

def acceptedWith (uniqueId : String) (cache : TokenCache) (requests : List Request) :
    List Request :=
  (accepted cache requests).filter (·.token.uniqueId = uniqueId)

theorem isUniqueRequest_cases (cache : TokenCache) (request : Request) :
    (∃ kept, cache.lookup request.token.uniqueId = some kept ∧ request.now ≤ kept ∧
    isUniqueRequest cache request = (cache, false)) ∨
    (∀ kept, cache.lookup request.token.uniqueId = some kept → kept < request.now) ∧
    isUniqueRequest cache request =
    (cache.insert request.token.uniqueId (request.now + tokenLifetime), true) := by
  unfold isUniqueRequest isValidToken
  cases found : cache.lookup request.token.uniqueId with
  | none => simp
  | some kept =>
    by_cases seen : request.now ≤ kept
    · exact .inl ⟨kept, rfl, seen, by simp [seen]⟩
    · exact .inr ⟨by simpa using seen, by simp [seen]⟩

theorem acceptedWith_of_kept (known : cache.lookup uniqueId = some kept)
    (soon : ∀ request ∈ requests, request.token.uniqueId = uniqueId →
    parseToken request = true → request.now ≤ kept) :
    acceptedWith uniqueId cache requests = [] := by
  induction requests generalizing cache with
  | nil => rfl
  | cons request rest ih =>
    rw [List.forall_mem_cons] at soon
    unfold acceptedWith at ih ⊢
    unfold accepted
    split_ifs with parsed unique
    · obtain ⟨_, _, _, refused⟩ | ⟨unseen, inserted⟩ := isUniqueRequest_cases cache request
      · simp [refused] at unique
      · have other : request.token.uniqueId ≠ uniqueId := by
          rintro same
          exact absurd (soon.1 same parsed) (not_le.mpr (unseen kept (same ▸ known)))
        rw [List.filter_cons_of_neg (by simpa using other), inserted]
        exact ih (by rwa [AList.lookup_insert_ne other.symm]) soon.2
    · obtain ⟨_, _, _, refused⟩ | ⟨_, inserted⟩ := isUniqueRequest_cases cache request
      · rw [refused]
        exact ih known soon.2
      · simp [inserted] at unique
    · exact ih known soon.2

/-- A token that expires within an hour of each request that presents it is accepted once. -/
theorem acceptedWith_length_le_one (cache : TokenCache) (requests : List Request)
    (uniqueId : String) (early : ∀ first ∈ requests, first.token.uniqueId = uniqueId →
      ∀ request ∈ requests, request.token.uniqueId = uniqueId →
        ∀ expires, request.token.expirationTime = some expires →
          (expires + 1) * 1000000000 ≤ first.now + tokenLifetime + 1) :
    (acceptedWith uniqueId cache requests).length ≤ 1 := by
  induction requests generalizing cache with
  | nil => exact Nat.zero_le 1
  | cons request rest ih =>
    have later := fun cache => ih cache fun first member own other otherMember =>
      early first (.tail _ member) own other (.tail _ otherMember)
    unfold acceptedWith at later ⊢
    unfold accepted
    split_ifs with parsed unique
    · by_cases own : request.token.uniqueId = uniqueId
      · obtain ⟨_, _, _, refused⟩ | ⟨_, inserted⟩ := isUniqueRequest_cases cache request
        · simp [refused] at unique
        · have none : acceptedWith uniqueId (isUniqueRequest cache request).1 rest = [] := by
            rw [inserted, own]
            refine acceptedWith_of_kept (AList.lookup_insert _) ?_
            intro other member otherOwn otherParsed
            obtain ⟨expires, set, now⟩ := (Option.any_eq_true _ _).mp otherParsed
            have := early request (.head _) own other (.tail _ member) otherOwn expires set
            have := of_decide_eq_true now
            omega
          rw [List.filter_cons_of_pos (by simpa using own), ← acceptedWith, none]
          exact le_rfl
      · rw [List.filter_cons_of_neg (by simpa using own)]
        exact later _
    · exact later _
    · exact later _

theorem acceptedWith_hour : (acceptedWith "id" ∅ [⟨⟨"id", some 3600⟩, 1000000000⟩,
    ⟨⟨"id", some 3600⟩, 3600000000000⟩]).length ≤ 1 :=
  acceptedWith_length_le_one _ _ _ (by simp [tokenLifetime])

/-- A token of two hours is accepted again after the first hour. -/
theorem accepted_twice :
    (accepted ∅ [⟨⟨"id", some 7200⟩, 0⟩, ⟨⟨"id", some 7200⟩, 3600000000001⟩]).length = 2 := by
  decide

end Wings.Uploads.Tokens
