import Wings.Library.Transition

/-!
# Members of a shared session

Joins, removals and closes of one session code, cut at the locks they take. A removal notes under
the lock of the session that no member is left, and later deletes whatever is registered.
-/

namespace Wings.Collaboration.Membership

open Processes Transition
open Function (update update_of_ne update_self)

structure Member where
  handlerId : String
  userUuid : String

/-- A session.  `closed` records that it was closed, which the source does not. -/
structure Session where
  serverUuid : String
  ownerUuid : String
  mode : String
  maxUsers : Int
  members : List Member
  closed : Bool

structure SessionInfo where
  serverUuid : String
  ownerUuid : String
  mode : String
  maxUsers : Int

structure Join where
  handlerId : String
  userUuid : String
  verifiedSession : SessionInfo

/-- The session registered under one code and all that were created, in order. -/
structure Registry where
  registered : Option Nat
  sessions : Nat → Session
  created : Nat

namespace Session

def blank : Session := ⟨"", "", "", 0, [], false⟩

def hasMember (session : Session) (handlerId : String) : Bool :=
  session.members.any fun member => member.handlerId == handlerId

def deleteMember (session : Session) (handlerId : String) : Session :=
  { session with
    members := session.members.filter fun member =>
      member.handlerId != handlerId }

def addMember (session : Session) (join : Join) : Session :=
  { session with
    members := (session.deleteMember join.handlerId).members ++ [⟨join.handlerId, join.userUuid⟩] }

/-- The largest number of members a session may be given. -/
def betterFilesCollabMaxUsers : Int := 20

def ofInfo (info : SessionInfo) : Session where
  serverUuid := info.serverUuid
  ownerUuid := info.ownerUuid
  mode := if info.mode ≠ "edit" then "view" else info.mode
  maxUsers :=
    if info.maxUsers < 2 ∨ info.maxUsers > betterFilesCollabMaxUsers then 10
    else info.maxUsers
  members := []
  closed := false

def agrees (session : Session) (info : SessionInfo) : Bool :=
  session.serverUuid == info.serverUuid && session.mode == info.mode

end Session

namespace Registry

def empty : Registry := ⟨none, fun _ => Session.blank, 0⟩

section

variable (registry : Registry)

def modify (session : Nat) (change : Session → Session) : Registry :=
  { registry with
    sessions := update registry.sessions session (change (registry.sessions session)) }

def deleteEntry : Registry := { registry with registered := none }

def close (session : Nat) : Registry :=
  registry.modify session fun closing => { closing with closed := true }

def create (info : SessionInfo) : Registry where
  registered := some registry.created
  sessions := update registry.sessions registry.created (Session.ofInfo info)
  created := registry.created + 1

theorem sessions_modify_self (session : Nat) (change : Session → Session) :
    (registry.modify session change).sessions session = change (registry.sessions session) :=
  update_self _ _ _

theorem sessions_modify_of_ne (change : Session → Session) (distinct : other ≠ session) :
    (registry.modify session change).sessions other = registry.sessions other :=
  update_of_ne distinct _ _

theorem sessions_create_of_ne (info : SessionInfo) (distinct : session ≠ registry.created) :
    (registry.create info).sessions session = registry.sessions session :=
  update_of_ne distinct _ _

end

end Registry

/-- What a call does next. A removal may be the first part of a join. -/
inductive Call where
  | leaveAll (handlerId : String) (join : Option Join)
  | removeMember (handlerId : String) (join : Option Join)
  | deleteMember (handlerId : String) (session : Nat) (join : Option Join)
  | deleteEntry (session : Nat) (join : Option Join)
  | getOrCreate (join : Join)
  | addMember (join : Join) (session : Nat)
  | memberFor (handlerId : String)
  | checkOwner (handlerId : String) (session : Nat)
  | closeSession (session : Nat)
  | revoke (serverUuid mode : String)
  | clearMembers (session : Nat)
  | returned

/-- After a removal: a join looks up its session, any other call returns. -/
def Call.afterLeaving : Option Join → Call
  | none => .returned
  | some join => .getOrCreate join

namespace Registry

section

variable (registry : Registry)

def leaveAll (handlerId : String) (join : Option Join) : Registry × Call :=
  match registry.registered with
  | none => (registry, .afterLeaving join)
  | some _ => (registry, .removeMember handlerId join)

def removeMember (handlerId : String) (join : Option Join) : Registry × Call :=
  match registry.registered with
  | none => (registry, .afterLeaving join)
  | some session => (registry, .deleteMember handlerId session join)

def deleteMember (handlerId : String) (session : Nat) (join : Option Join) : Registry × Call :=
  if (registry.sessions session).hasMember handlerId then
    (registry.modify session fun found => found.deleteMember handlerId,
      if ((registry.sessions session).deleteMember handlerId).members.isEmpty then
        .deleteEntry session join
      else .afterLeaving join)
  else (registry, .afterLeaving join)

def joinCall (join : Join) (session : Nat) : Call :=
  if (registry.sessions session).agrees join.verifiedSession then
    .addMember join session
  else .returned

def getOrCreate (join : Join) : Registry × Call :=
  match registry.registered with
  | some session => (registry, registry.joinCall join session)
  | none =>
    (registry.create join.verifiedSession,
      (registry.create join.verifiedSession).joinCall join registry.created)

def addMember (join : Join) (session : Nat) : Registry × Call :=
  if ((registry.sessions session).members.length : Int) ≥
      (registry.sessions session).maxUsers then (registry, .returned)
  else (registry.modify session fun found => found.addMember join, .returned)

def memberFor (handlerId : String) : Registry × Call :=
  match registry.registered with
  | none => (registry, .returned)
  | some session => (registry, .checkOwner handlerId session)

def checkOwner (handlerId : String) (session : Nat) : Registry × Call :=
  match (registry.sessions session).members.find? fun member =>
      member.handlerId == handlerId with
  | none => (registry, .returned)
  | some member =>
    if (registry.sessions session).ownerUuid ≠ "" ∧
        member.userUuid ≠ (registry.sessions session).ownerUuid then
      (registry, .returned)
    else (registry, .closeSession session)

end

/-- Whether revoking the sessions of a server and a mode means this one. -/
def revokes (serverUuid mode : String) (session : Session) : Bool :=
  session.serverUuid == serverUuid && (mode != "edit" && mode != "view" || session.mode == mode)

def revoke (registry : Registry) (serverUuid mode : String) : Registry × Call :=
  match registry.registered with
  | none => (registry, .returned)
  | some session =>
    if revokes serverUuid mode (registry.sessions session) then
      ((registry.close session).deleteEntry, .clearMembers session)
    else (registry, .returned)

end Registry

def move (_ : Nat) (_ : Unit) (registry : Registry) : Call → Option (Registry × Call)
  | .leaveAll handlerId join => some (registry.leaveAll handlerId join)
  | .removeMember handlerId join => some (registry.removeMember handlerId join)
  | .deleteMember handlerId session join =>
    some (registry.deleteMember handlerId session join)
  | .deleteEntry _ join => some (registry.deleteEntry, .afterLeaving join)
  | .getOrCreate join => some (registry.getOrCreate join)
  | .addMember join session => some (registry.addMember join session)
  | .memberFor handlerId => some (registry.memberFor handlerId)
  | .checkOwner handlerId session => some (registry.checkOwner handlerId session)
  | .closeSession session =>
    some ((registry.close session).deleteEntry, .returned)
  | .revoke serverUuid mode => some (registry.revoke serverUuid mode)
  | .clearMembers session =>
    some (registry.modify session fun found => { found with members := [] }, .returned)
  | .returned => none

abbrev Calls := Config Registry Call

def Call.Begins : Call → Prop
  | .leaveAll handlerId (some join) => join.handlerId = handlerId
  | .leaveAll _ none | .removeMember _ none | .memberFor _ | .revoke _ _
  | .returned => True
  | _ => False

structure Initial (config : Calls) : Prop where
  registry : config.shared = Registry.empty
  calls : ∀ process, (config.own process).Begins

def Registry.OnlyRegistered (registry : Registry) (session : Nat) : Prop :=
  ∀ other, registry.registered = some other → other = session

def Call.Unregisters (call : Call) : Prop := ∃ session join, call = .deleteEntry session join

def Call.Joins (call : Call) (session : Nat) : Prop := ∃ join, call = .addMember join session

/-- No join looks up a session that is about to be deleted, and no member leaves and no session
closes while another session or a joining member depends on the entry. -/
def Orderly (config : Calls) (label : Nat × Unit) : Prop :=
  match config.own label.1 with
  | .getOrCreate _ => ∀ process, ¬(config.own process).Unregisters
  | .deleteMember handlerId session _ =>
    (config.shared.sessions session).hasMember handlerId = true →
    (∀ member ∈ (config.shared.sessions session).members, member.handlerId = handlerId) →
    (∀ process, ¬(config.own process).Joins session) ∧ config.shared.OnlyRegistered session
  | .closeSession session => config.shared.OnlyRegistered session
  | _ => True

/-- A call that is about neither to delete the entry nor to add a member. -/
def Call.Quiet (call : Call) : Prop := ¬call.Unregisters ∧ ∀ session, ¬call.Joins session

inductive Effect (registry : Registry) (call : Call) (after : Registry) (moved : Call) : Prop
  | keeps : after = registry → moved.Quiet → Effect registry call after moved
  | looksUp (join : Join) (session : Nat) :
      call = .getOrCreate join → registry.registered = some session →
      after = registry → ¬moved.Unregisters →
      (∀ joined, moved.Joins joined → joined = session) → Effect registry call after moved
  | creates (join : Join) :
      call = .getOrCreate join → registry.registered = none →
      after = registry.create join.verifiedSession → ¬moved.Unregisters →
      (∀ joined, moved.Joins joined → joined = registry.created) → Effect registry call after moved
  | leaves (session : Nat) (change : Session → Session) :
      (∀ found, (change found).closed = found.closed) →
      (∀ found, found.members = [] → (change found).members = []) →
      after = registry.modify session change → moved.Quiet → Effect registry call after moved
  | empties (handlerId : String) (session : Nat) (join : Option Join) :
      call = .deleteMember handlerId session join →
      (registry.sessions session).hasMember handlerId = true →
      ((registry.sessions session).deleteMember handlerId).members = [] →
      after = registry.modify session (fun found =>
        found.deleteMember handlerId) →
      (∀ joined, ¬moved.Joins joined) → Effect registry call after moved
  | adds (join : Join) (session : Nat) :
      call = .addMember join session →
      after = registry.modify session (fun found => found.addMember join) →
      moved.Quiet → Effect registry call after moved
  | unregisters :
      call.Unregisters → after = registry.deleteEntry → moved.Quiet →
      Effect registry call after moved
  | closes (session : Nat) :
      call = .closeSession session ∨ registry.registered = some session →
      after = (registry.close session).deleteEntry → moved.Quiet → Effect registry call after moved

variable {call : Call}

theorem Call.quiet_of_ne (notDelete : ∀ session join, call ≠ .deleteEntry session join)
    (notAdd : ∀ join session, call ≠ .addMember join session) : call.Quiet := by
  constructor
  · rintro ⟨session, join, isDelete⟩
    exact notDelete session join isDelete
  · rintro session ⟨join, isAdd⟩
    exact notAdd join session isAdd

theorem quiet_returned : Call.returned.Quiet := Call.quiet_of_ne nofun nofun

theorem quiet_afterLeaving (join : Option Join) : (Call.afterLeaving join).Quiet := by
  cases join with
  | none => exact quiet_returned
  | some join => exact Call.quiet_of_ne nofun nofun

variable {registry : Registry}

theorem joins_joinCall (joins : (registry.joinCall join session).Joins joined) :
    joined = session := by
  obtain ⟨other, same⟩ := joins
  unfold Registry.joinCall at same
  split_ifs at same
  exact (Call.addMember.inj same).2.symm

theorem not_unregisters_joinCall (registry : Registry) (join : Join)
    (session : Nat) : ¬(registry.joinCall join session).Unregisters := by
  unfold Registry.joinCall
  split_ifs <;> simp [Call.Unregisters]

variable {session : Session}

theorem Session.deleteMember_members_of_nil (handlerId : String) (nobody : session.members = []) :
    (session.deleteMember handlerId).members = [] := by
  rw [deleteMember, nobody, List.filter_nil]

section Sections

variable (registry : Registry)

theorem effect_of_leaveAll (handlerId : String) (join : Option Join) :
    Effect registry call (registry.leaveAll handlerId join).1
    (registry.leaveAll handlerId join).2 := by
  unfold Registry.leaveAll
  split
  · exact .keeps rfl (quiet_afterLeaving join)
  · exact .keeps rfl (Call.quiet_of_ne nofun nofun)

theorem effect_of_removeMember (handlerId : String) (join : Option Join) :
    Effect registry call (registry.removeMember handlerId join).1
    (registry.removeMember handlerId join).2 := by
  unfold Registry.removeMember
  split
  · exact .keeps rfl (quiet_afterLeaving join)
  · exact .keeps rfl (Call.quiet_of_ne nofun nofun)

theorem effect_of_deleteMember (handlerId : String) (session : Nat) (join : Option Join) :
    Effect registry (.deleteMember handlerId session join)
    (registry.deleteMember handlerId session join).1
    (registry.deleteMember handlerId session join).2 := by
  unfold Registry.deleteMember
  split_ifs with present nobody
  · refine .empties handlerId session join rfl present (List.isEmpty_iff.mp nobody) rfl ?_
    simp [Call.Joins]
  · refine .leaves session (fun found => found.deleteMember handlerId)
      (fun _ => rfl) ?_ rfl (quiet_afterLeaving join)
    intro found
    exact Session.deleteMember_members_of_nil handlerId
  · exact .keeps rfl (quiet_afterLeaving join)

theorem effect_of_getOrCreate (join : Join) :
    Effect registry (.getOrCreate join) (registry.getOrCreate join).1
    (registry.getOrCreate join).2 := by
  rw [Registry.getOrCreate]
  cases found : registry.registered with
  | some session =>
    exact .looksUp join session rfl found rfl
      (not_unregisters_joinCall _ _ _) fun _ => joins_joinCall
  | none =>
    exact .creates join rfl found rfl (not_unregisters_joinCall _ _ _) fun _ => joins_joinCall

theorem effect_of_addMember (join : Join) (session : Nat) :
    Effect registry (.addMember join session) (registry.addMember join session).1
    (registry.addMember join session).2 := by
  unfold Registry.addMember
  split_ifs with full
  · exact .keeps rfl quiet_returned
  · exact .adds join session rfl rfl quiet_returned

theorem effect_of_memberFor (handlerId : String) :
    Effect registry call (registry.memberFor handlerId).1 (registry.memberFor handlerId).2 := by
  unfold Registry.memberFor
  split <;>
    exact .keeps rfl (Call.quiet_of_ne nofun nofun)

theorem effect_of_checkOwner (handlerId : String) (session : Nat) :
    Effect registry call (registry.checkOwner handlerId session).1
    (registry.checkOwner handlerId session).2 := by
  unfold Registry.checkOwner
  split
  · exact .keeps rfl (Call.quiet_of_ne nofun nofun)
  · split_ifs <;>
      exact .keeps rfl (Call.quiet_of_ne nofun nofun)

theorem effect_of_revoke (serverUuid mode : String) :
    Effect registry call (registry.revoke serverUuid mode).1
    (registry.revoke serverUuid mode).2 := by
  rw [Registry.revoke]
  cases found : registry.registered with
  | none => exact .keeps rfl quiet_returned
  | some session =>
    dsimp only
    split_ifs
    · exact .closes session (.inr found) rfl (Call.quiet_of_ne nofun nofun)
    · exact .keeps rfl quiet_returned

end Sections

variable {process : Nat}

theorem effect_of_move (taken : move process () registry call = some (after, moved)) :
    Effect registry call after moved := by
  have parts : ∀ {pair : Registry × Call}, some pair = some (after, moved) →
      Effect registry call pair.1 pair.2 → Effect registry call after moved := by
    intro pair same effect
    rw [Option.some.inj same] at effect
    exact effect
  cases call with
  | leaveAll handlerId join =>
    exact parts taken (effect_of_leaveAll registry handlerId join)
  | removeMember handlerId join =>
    exact parts taken (effect_of_removeMember registry handlerId join)
  | deleteMember handlerId session join =>
    exact parts taken (effect_of_deleteMember registry handlerId session join)
  | deleteEntry session join =>
    exact parts taken (.unregisters ⟨session, join, rfl⟩ rfl (quiet_afterLeaving join))
  | getOrCreate join =>
    exact parts taken (effect_of_getOrCreate registry join)
  | addMember join session =>
    exact parts taken (effect_of_addMember registry join session)
  | memberFor handlerId =>
    exact parts taken (effect_of_memberFor registry handlerId)
  | checkOwner handlerId session =>
    exact parts taken (effect_of_checkOwner registry handlerId session)
  | closeSession session =>
    exact parts taken (.closes session (.inl rfl) rfl quiet_returned)
  | revoke serverUuid mode =>
    exact parts taken (effect_of_revoke registry serverUuid mode)
  | clearMembers session =>
    exact parts taken (.leaves session (fun found => { found with members := [] })
        (fun _ => rfl) (fun _ _ => rfl) rfl quiet_returned)
  | returned => cases taken

/-- How the registry stands to the calls that are about to delete the entry or to add a member. -/
structure Sound (registry : Registry) (unregistering : Prop) (joining : Nat → Prop) : Prop where
  registered_of_members : ∀ session,
    (registry.sessions session).members ≠ [] →
    (registry.sessions session).closed = false → registry.registered = some session
  created_of_registered : ∀ session, registry.registered = some session → session < registry.created
  joined : ∀ session, joining session → session < registry.created ∧
      (registry.registered = some session ∨ (registry.sessions session).closed = true)
  unregistered : unregistering → ∀ session,
    registry.registered = some session → (registry.sessions session).members = [] ∧ ¬joining session

namespace Sound

theorem mono (sound : Sound registry unregistering joining) (unregisters : fewer → unregistering)
    (joins : ∀ session, less session → joining session) :
    Sound registry fewer less where
  __ := sound
  joined session joined := sound.joined session (joins session joined)
  unregistered pending session isRegistered := by
    have idle := sound.unregistered (unregisters pending) session isRegistered
    exact ⟨idle.1, fun joined => idle.2 (joins session joined)⟩

variable {session : Nat}

section

variable (sound : Sound registry unregistering joining)
include sound

theorem lookUp (isRegistered : registry.registered = some session) (nobody : ¬unregistering) :
    Sound registry unregistering
      fun joined => joining joined ∨ joined = session where
  __ := sound
  joined other joined := by
    rcases joined with joined | rfl
    · exact sound.joined other joined
    · exact ⟨sound.created_of_registered other isRegistered, .inl isRegistered⟩
  unregistered pending := absurd pending nobody

theorem create
    (info : SessionInfo) (notRegistered : registry.registered = none) (nobody : ¬unregistering) :
    Sound (registry.create info) unregistering
      fun joined => joining joined ∨ joined = registry.created where
  registered_of_members session members notClosed := by
    by_cases same : session = registry.created
    · rw [same, Registry.create]
    · rw [Registry.sessions_create_of_ne _ _ same] at members notClosed
      have isRegistered := sound.registered_of_members session members notClosed
      rw [notRegistered] at isRegistered
      cases isRegistered
  created_of_registered session isRegistered := by
    rw [← Option.some.inj isRegistered]
    exact Nat.lt_succ_self _
  joined session joined := by
    rcases joined with joined | rfl
    · obtain ⟨created, isRegistered | closed⟩ := sound.joined session joined
      · rw [notRegistered] at isRegistered
        cases isRegistered
      · refine ⟨Nat.lt_succ_of_lt created, .inr ?_⟩
        rw [Registry.sessions_create_of_ne _ _ (Nat.ne_of_lt created)]
        exact closed
    · exact ⟨Nat.lt_succ_self _, .inl rfl⟩
  unregistered pending := absurd pending nobody

theorem modify
    (closed : (change (registry.sessions session)).closed = (registry.sessions session).closed)
    (members : (change (registry.sessions session)).members ≠ [] →
    (registry.sessions session).members ≠ [] ∨ joining session) :
    Sound (registry.modify session change) unregistering joining := by
  have sameClosed : ∀ other, ((registry.modify session change).sessions other).closed =
      (registry.sessions other).closed := by
    intro other
    by_cases same : other = session
    · subst same
      rw [Registry.sessions_modify_self, closed]
    · rw [Registry.sessions_modify_of_ne _ _ same]
  have before : ∀ other,
      ((registry.modify session change).sessions other).members ≠ [] →
      (registry.sessions other).members ≠ [] ∨ joining other := by
    intro other
    by_cases same : other = session
    · subst same
      rw [Registry.sessions_modify_self]
      exact members
    · rw [Registry.sessions_modify_of_ne _ _ same]
      exact .inl
  constructor
  · intro other present notClosed
    rw [sameClosed] at notClosed
    rcases before other present with present | joined
    · exact sound.registered_of_members other present notClosed
    · rcases (sound.joined other joined).2 with isRegistered | closed
      · exact isRegistered
      · rw [notClosed] at closed
        cases closed
  · exact sound.created_of_registered
  · intro other joined
    rw [sameClosed]
    exact sound.joined other joined
  · intro pending other isRegistered
    obtain ⟨nobody, notJoining⟩ := sound.unregistered pending other isRegistered
    refine ⟨?_, notJoining⟩
    by_contra present
    exact (before other present).elim (absurd nobody) notJoining

theorem empties
    (closed : (change (registry.sessions session)).closed = (registry.sessions session).closed)
    (nobody : (change (registry.sessions session)).members = []) (notJoining : ¬joining session)
    (only : registry.OnlyRegistered session) :
    Sound (registry.modify session change) True joining := by
  refine { sound.modify closed (absurd nobody) with unregistered := ?_ }
  intro _ other isRegistered
  obtain rfl := only other isRegistered
  rw [Registry.sessions_modify_self]
  exact ⟨nobody, notJoining⟩

theorem deleteEntry (pending : unregistering) :
    Sound registry.deleteEntry unregistering joining where
  registered_of_members session members notClosed := by
    have isRegistered := sound.registered_of_members session members notClosed
    exact absurd (sound.unregistered pending session isRegistered).1 members
  created_of_registered _ isRegistered := nomatch isRegistered
  joined session joined := by
    obtain ⟨created, isRegistered | closed⟩ := sound.joined session joined
    · exact absurd joined (sound.unregistered pending session isRegistered).2
    · exact ⟨created, .inr closed⟩
  unregistered _ _ isRegistered := nomatch isRegistered

theorem close (only : registry.OnlyRegistered session) :
    Sound (registry.close session).deleteEntry unregistering joining := by
  have closed : ((registry.close session).sessions session).closed = true := by
    rw [Registry.close, Registry.sessions_modify_self]
  have kept : ∀ other, other ≠ session →
      (registry.close session).sessions other = registry.sessions other :=
    fun _ => Registry.sessions_modify_of_ne _ _
  constructor
  · intro other members notClosed
    by_cases same : other = session
    · subst same
      exact absurd closed (Bool.eq_false_iff.mp notClosed)
    · rw [Registry.deleteEntry, kept other same] at members notClosed
      exact absurd (only other (sound.registered_of_members other members notClosed)) same
  · intro other isRegistered
    cases isRegistered
  · intro other joined
    have before := sound.joined other joined
    refine ⟨before.1, .inr ?_⟩
    by_cases same : other = session
    · subst same
      exact closed
    · rw [Registry.deleteEntry, kept other same]
      exact before.2.resolve_left fun isRegistered =>
        same (only other isRegistered)
  · intro _ other isRegistered
    cases isRegistered

end

end Sound

def Consistent (config : Calls) : Prop :=
  Sound config.shared (∃ process, (config.own process).Unregisters)
    fun session => ∃ process, (config.own process).Joins session

theorem exists_of_exists_update (property : Call → Prop)
    (found : ∃ other, property (update own process moved other)) :
    (∃ other, property (own other)) ∨ property moved := by
  obtain ⟨other, holds⟩ := found
  by_cases same : other = process
  · subst same
    rw [update_self] at holds
    exact .inr holds
  · rw [update_of_ne same] at holds
    exact .inl ⟨other, holds⟩

theorem Consistent.step (consistent : Consistent config) (orderly : Orderly config label)
    (taken : config.Steps move label after) : Consistent after := by
  obtain ⟨registry, moved, isMove, rfl⟩ := Config.steps_iff.mp taken
  have sound : Sound config.shared _ _ := consistent
  have joinsBefore : ∀ session, (∃ process,
        (update config.own label.1 moved process).Joins session) →
      (∃ process, (config.own process).Joins session) ∨ moved.Joins session :=
    fun session => exists_of_exists_update fun call => call.Joins session
  have quietly : moved.Quiet → Sound registry (∃ process, (config.own process).Unregisters)
        (fun session => ∃ process, (config.own process).Joins session) →
      Consistent ⟨registry, update config.own label.1 moved⟩ := by
    intro quiet kept
    refine kept.mono ?_ ?_
    · intro found
      exact (exists_of_exists_update _ found).resolve_right quiet.1
    · intro session found
      exact (joinsBefore session found).resolve_right (quiet.2 session)
  cases effect_of_move isMove with
  | keeps same quiet =>
    subst same
    exact quietly quiet sound
  | looksUp join session isLookup isRegistered same notUnregisters joins =>
    subst same
    rw [Orderly, isLookup] at orderly
    refine (sound.lookUp isRegistered (not_exists.mpr orderly)).mono ?_ ?_
    · intro found
      exact (exists_of_exists_update _ found).resolve_right notUnregisters
    · intro joined found
      exact (joinsBefore joined found).imp_right (joins joined)
  | creates join isLookup notRegistered same notUnregisters joins =>
    subst same
    rw [Orderly, isLookup] at orderly
    refine (sound.create _ notRegistered (not_exists.mpr orderly)).mono ?_ ?_
    · intro found
      exact (exists_of_exists_update _ found).resolve_right notUnregisters
    · intro joined found
      exact (joinsBefore joined found).imp_right (joins joined)
  | leaves session change closed members same quiet =>
    subst same
    refine quietly quiet (sound.modify (closed _) ?_)
    intro present
    exact .inl fun nobody => present (members _ nobody)
  | empties handlerId session join isDeletion present nobody same notJoins =>
    subst same
    rw [Orderly, isDeletion] at orderly
    obtain ⟨notJoining, only⟩ := orderly present
      (by simpa [Session.deleteMember, List.filter_eq_nil_iff] using nobody)
    have kept : Sound (config.shared.modify session fun found =>
        found.deleteMember handlerId) True _ :=
      sound.empties rfl nobody (not_exists.mpr notJoining) only
    refine kept.mono (fun _ => trivial) ?_
    intro joined found
    exact (joinsBefore joined found).resolve_right (notJoins joined)
  | adds join session isAddition same quiet =>
    subst same
    refine quietly quiet (sound.modify rfl fun _ => .inr ?_)
    exact ⟨label.1, join, isAddition⟩
  | unregisters isDeletion same quiet =>
    subst same
    exact quietly quiet (sound.deleteEntry ⟨label.1, isDeletion⟩)
  | closes session closes same quiet =>
    subst same
    refine quietly quiet (sound.close ?_)
    rcases closes with isClose | isRegistered
    · rw [Orderly, isClose] at orderly
      exact orderly
    · intro other otherRegistered
      rw [isRegistered] at otherRegistered
      exact (Option.some.inj otherRegistered).symm

theorem consistent_of_initial (initial : Initial config) : Consistent config := by
  have idle : ∀ process, (config.own process).Quiet := by
    intro process
    have begins := initial.calls process
    constructor
    · rintro ⟨session, join, same⟩
      rw [same] at begins
      exact begins
    · rintro session ⟨join, same⟩
      rw [same] at begins
      exact begins
  rw [Consistent, initial.registry]
  constructor
  · intro session members
    exact absurd rfl members
  · intro session isRegistered
    cases isRegistered
  · rintro session ⟨process, joins⟩
    exact absurd joins ((idle process).2 session)
  · rintro ⟨process, unregisters⟩
    exact absurd unregisters (idle process).1

/-- In every orderly run the members of sessions that were not closed are in the registered one. -/
theorem members_share_registered_session {config : Calls}
    (reached : Reachable Initial (Guarded Orderly (Config.Steps move)) config) :
    (∀ session, (config.shared.sessions session).members ≠ [] →
      (config.shared.sessions session).closed = false → config.shared.registered = some session) ∧
    ∀ first second,
      (config.shared.sessions first).members ≠ [] →
      (config.shared.sessions first).closed = false →
      (config.shared.sessions second).members ≠ [] →
      (config.shared.sessions second).closed = false →
      first = second := by
  have consistent : Consistent config := by
    refine reached.invariant (fun _ => consistent_of_initial) ?_
    rintro before label after consistent ⟨orderly, taken⟩
    exact consistent.step orderly taken
  have registered := consistent.registered_of_members
  refine ⟨registered, ?_⟩
  intro first second members notClosed otherMembers otherNotClosed
  have isFirst := registered first members notClosed
  rw [registered second otherMembers otherNotClosed] at isFirst
  exact (Option.some.inj isFirst).symm

def pairToken : SessionInfo := ⟨"server", "", "edit", 2⟩

def joinOf (handlerId : String) : Call := .leaveAll handlerId (some ⟨handlerId, "user", pairToken⟩)

def threeConnections : Calls where
  shared := .empty
  own
    | 0 => joinOf "first"
    | 1 => .removeMember "first" none
    | 2 => joinOf "second"
    | 3 => joinOf "third"
    | 4 | 5 => .memberFor "first"
    | _ => .returned

theorem threeConnections_initial : Initial threeConnections := by
  refine ⟨rfl, ?_⟩
  intro process
  match process with
  | 0 | 2 | 3 => exact rfl
  | 1 | 4 | 5 => exact trivial
  | _ + 6 => exact trivial

theorem single_join_registered : ∃ config : Calls,
      Reachable Initial (Guarded Orderly (Config.Steps move)) config ∧
      (config.shared.sessions 0).members ≠ [] ∧ config.shared.registered = some 0 := by
  have start : Reachable Initial (Guarded Orderly (Config.Steps move))
      threeConnections := .start threeConnections_initial
  have left := start.next (0, ()) ⟨trivial, rfl⟩
  have nobody : ∀ process, ¬(update threeConnections.own 0
      (.getOrCreate ⟨"first", "user", pairToken⟩) process).Unregisters := by
    rintro process ⟨session, join, same⟩
    match process with
    | 0 | 1 | 2 | 3 | 4 | 5 => cases same
    | _ + 6 => cases same
  have found := left.next (0, ()) ⟨nobody, rfl⟩
  have joined := found.next (0, ()) ⟨trivial, rfl⟩
  obtain ⟨config, reached, members, notClosed⟩ : ∃ config : Calls,
      Reachable Initial (Guarded Orderly (Config.Steps move)) config ∧
      (config.shared.sessions 0).members ≠ [] ∧ (config.shared.sessions 0).closed = false :=
    ⟨_, joined, List.cons_ne_nil _ _, rfl⟩
  exact ⟨config, reached, members, (members_share_registered_session reached).1 0 members notClosed⟩

/-- A removal deletes the entry of a session that was joined meanwhile; a join adds its member to an
unregistered session; and a close deletes the entry of another session. -/
theorem members_in_unregistered_session : (∃ config : Calls,
      Reachable Initial (Config.Steps move) config ∧ config.shared.registered = some 1 ∧
      ∀ session < 2, (config.shared.sessions session).members ≠ [] ∧
        (config.shared.sessions session).closed = false) ∧ (∃ config : Calls,
      Reachable Initial (Config.Steps move) config ∧ config.shared.registered = none ∧
      (config.shared.sessions 0).members ≠ [] ∧ (config.shared.sessions 0).closed = false) ∧
    ∃ config : Calls, Reachable Initial (Config.Steps move) config ∧
      config.shared.registered = none ∧ (config.shared.sessions 1).members ≠ [] ∧
      (config.shared.sessions 1).closed = false := by
  have start : Reachable Initial (Config.Steps move) threeConnections :=
    .start threeConnections_initial
  refine ⟨⟨_, start.execute [(0, ()), (0, ()), (0, ()), (1, ()), (1, ()), (2, ()), (2, ()), (2, ()),
        (2, ()), (2, ()), (1, ()), (3, ()), (3, ()), (3, ())] rfl, rfl, ?_⟩, ⟨_, start.execute
      [(0, ()), (0, ()), (0, ()), (2, ()), (2, ()), (2, ()), (2, ()), (1, ()),
        (1, ()), (1, ()), (2, ())] rfl, rfl, List.cons_ne_nil _ _, rfl⟩, ⟨_, start.execute
      [(0, ()), (0, ()), (0, ()), (4, ()), (5, ()), (4, ()), (5, ()), (4, ()),
        (2, ()), (2, ()), (2, ()), (5, ())] rfl, rfl, List.cons_ne_nil _ _, rfl⟩⟩
  intro session below
  match session with
  | 0 => exact ⟨List.cons_ne_nil _ _, rfl⟩
  | 1 => exact ⟨List.cons_ne_nil _ _, rfl⟩

end Wings.Collaboration.Membership
