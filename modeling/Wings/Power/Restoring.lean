import Wings.Library.Transition

/-!
# The power lock, power actions and restores

The lock is a channel with one slot, a mutex, and a channel that is closed when it is destroyed.
`HandlePowerAction` reads three flags, acquires the lock and acts; a restore sets a flag and waits
for the server to stop, without the lock. Each access and each call is one step.
-/

namespace Wings.Power.Lock

open Processes Transition

/-- Whether `mu` is locked, the slot of `ch` is full, and `done` is closed. -/
structure Locker where
  mu : Bool
  ch : Bool
  done : Bool

inductive LockError where
  | locked
  | destroyed
  deriving DecidableEq

/-- What the mutex is locked for. `TryAcquire` confirms once it has filled the
slot. -/
inductive Region where
  | acquire
  | confirm
  | release
  | destroy
  deriving DecidableEq

inductive Outcome where
  | acquired
  | failed (err : LockError)
  | finished
  deriving DecidableEq

inductive Phase where
  | idle
  | failed (err : LockError)
  | holding
  /-- At the two selects of `TryAcquire`. -/
  | trying
  | waiting
  /-- At `l.mu.Lock()`, and then at the first statement behind it. -/
  | entering (region : Region)
  | inside (region : Region)
  /-- At the select of `Acquire`, and at that of `TryAcquire` on a lock that was
  destroyed. -/
  | sending
  | undoing
  /-- At the select and at the last statement of `Destroy`. -/
  | emptying
  | closing
  /-- At the deferred `l.mu.Unlock()`. -/
  | leaving (outcome : Outcome)
  deriving DecidableEq

/-- A call, or a step of one. The error of a context that ends is reported as `ErrLockerLocked`. -/
inductive Action where
  | acquire
  | tryAcquire
  | release
  | destroy
  | lock
  | unlock
  | proceed
  | send
  | receiveDone
  | contextDone

def move (_caller : Nat) (action : Action) (l : Locker) (phase : Phase) : Option (Locker × Phase) :=
  match action, phase with
  | .acquire, .idle => some (l, .entering .acquire)
  | .tryAcquire, .idle => some (l, .trying)
  | .release, .holding => some (l, .entering .release)
  | .destroy, .idle => some (l, .entering .destroy)
  | .lock, .entering region =>
    if l.mu then none else some ({ l with mu := true }, .inside region)
  | .unlock, .leaving .acquired => some ({ l with mu := false }, .holding)
  | .unlock, .leaving (.failed err) =>
    some ({ l with mu := false }, .failed err)
  | .unlock, .leaving .finished => some ({ l with mu := false }, .idle)
  | .proceed, .inside .acquire =>
    if l.done then some (l, .leaving (.failed .destroyed))
    else some (l, .sending)
  | .proceed, .sending =>
    if l.ch then some (l, .leaving (.failed .locked))
    else some ({ l with ch := true }, .leaving .acquired)
  | .proceed, .trying =>
    if l.done then some (l, .failed .destroyed) else some (l, .waiting)
  | .send, .waiting =>
    if l.ch then none else some ({ l with ch := true }, .entering .confirm)
  | .receiveDone, .waiting =>
    if l.done then some (l, .failed .destroyed) else none
  | .contextDone, .waiting => some (l, .failed .locked)
  | .proceed, .inside .confirm =>
    if l.done then some (l, .undoing) else some (l, .leaving .acquired)
  | .proceed, .undoing =>
    some ({ l with ch := false }, .leaving (.failed .destroyed))
  | .proceed, .inside .release =>
    some ({ l with ch := false }, .leaving .finished)
  | .proceed, .inside .destroy =>
    if l.done then some (l, .leaving .finished) else some (l, .emptying)
  | .proceed, .emptying => some ({ l with ch := false }, .closing)
  | .proceed, .closing => some ({ l with done := true }, .leaving .finished)
  | _, _ => none

def Initial (config : Config Locker Phase) : Prop :=
  config.shared = ⟨false, false, false⟩ ∧ ∀ caller, config.own caller = .idle

def Phase.critical : Phase → Bool
  | .inside _ | .sending | .undoing | .emptying | .closing | .leaving _ => true
  | _ => false

def Phase.holds : Phase → Bool
  | .leaving outcome => outcome == .acquired
  | .entering region | .inside region => region == .release
  | .holding => true
  | _ => false

def Phase.owns : Phase → Bool
  | .leaving outcome => outcome == .acquired
  | .entering region | .inside region =>
    region == .confirm || region == .release
  | .holding => true
  | _ => false

structure Moved (l : Locker) (phase : Phase) (after : Locker) (next : Phase) : Prop where
  enters : next.critical = true → phase.critical = true ∨ l.mu = false
  locked : next.critical = true → (phase.critical = true → l.mu = true) → after.mu = true
  frees : l.mu = true → after.mu = true ∨ phase.critical = true
  stays : l.done = true → after.done = true
  closes : after.done = true → l.done = true ∨ phase = .closing
  closed : phase = .closing → after.done = true
  fills : next.owns = true → phase.owns = true ∧ after.ch = l.ch ∨ l.ch = false ∧ after.ch = true
  empties : l.ch = true → after.ch = true ∨ phase.owns = true ∨ phase = .undoing ∨ next = .closing
  gains : next.holds = true → phase.holds = true ∨
    phase = .sending ∧ l.ch = false ∨ phase = .inside .confirm ∧ l.done = false
  sends : next = .sending → after.done = false
  undoes : next = .undoing → after.done = true

variable {phase next : Phase}

theorem moved_of_move (moved : move caller action l phase = some (after, next)) :
    Moved l phase after next := by
  unfold move at moved
  split at moved
  all_goals
    try split_ifs at moved
    all_goals
      cases moved <;> constructor <;>
        simp_all [Phase.critical, Phase.owns, Phase.holds]

theorem Phase.owns_of_holds (holds : phase.holds = true) : phase.owns = true := by
  cases phase <;> simp_all [Phase.holds, Phase.owns]

/-- No `Destroy` has emptied the slot. -/
def Live (config : Config Locker Phase) : Prop :=
  config.shared.done = false ∧ ∀ caller, config.own caller ≠ .closing

/-- A caller with the mutex has locked it, and what it has found of a
destruction is so. -/
def Fits (_caller : Nat) (l : Locker) (phase : Phase) : Prop :=
  (phase.critical = true → l.mu = true) ∧
    (phase = .sending → l.done = false) ∧ (phase = .undoing → l.done = true)

structure Orderly (config : Config Locker Phase) : Prop where
  each : config.Each Fits
  single : ∀ first second, (config.own first).critical = true →
    (config.own second).critical = true → first = second
  full : Live config → ∀ caller, (config.own caller).owns = true → config.shared.ch = true
  owner : Live config → ∀ first second, (config.own first).owns = true →
    (config.own second).owns = true → first = second
  holder : ∀ first second, (config.own first).holds = true →
    (config.own second).holds = true → first = second

variable {label : Nat × Action}

theorem Initial.orderly (initial : Initial config) : Orderly config := by
  obtain ⟨_, idle⟩ := initial
  constructor <;> simp [Config.Each, Fits, idle, Phase.critical, Phase.owns, Phase.holds]

theorem Live.before (live : Live final) (taken : config.Steps move label final) : Live config := by
  obtain ⟨shared, own, moved, rfl⟩ := Config.steps_iff.1 taken
  have facts := moved_of_move moved
  refine ⟨Bool.eq_false_iff.2 fun done => ?_, fun caller closing => ?_⟩
  · exact absurd (facts.stays done) (Bool.eq_false_iff.1 live.1)
  · by_cases same : caller = label.1
    · subst same
      exact absurd (facts.closed closing) (Bool.eq_false_iff.1 live.1)
    · apply live.2 caller
      exact (Function.update_of_ne same own config.own).trans closing

namespace Orderly

section

variable (orderly : Orderly config)
include orderly

theorem live (critical : (config.own caller).critical = true) (other : config.own caller ≠ .closing)
    (intact : config.shared.done = false) : Live config := by
  refine ⟨intact, fun destroyer closing => other ?_⟩
  rw [orderly.single caller destroyer critical (by rw [closing]; rfl)]
  exact closing

theorem each_step (taken : config.Steps move label final) : final.Each Fits := by
  refine orderly.each.step taken (fun shared own moved => ?_)
    fun shared own moved caller other fits => ?_
  · have facts := moved_of_move moved
    exact ⟨fun critical => facts.locked critical (orderly.each label.1).1,
      facts.sends, facts.undoes⟩
  · have facts := moved_of_move moved
    have alone : (config.own caller).critical = true →
        (config.own label.1).critical ≠ true := fun mine theirs =>
      other (orderly.single _ _ mine theirs)
    refine ⟨fun critical => ?_, fun sending => ?_, fun undoing => ?_⟩
    · exact (facts.frees (fits.1 critical)).resolve_right (alone critical)
    · refine Bool.eq_false_iff.2 fun done => ?_
      rcases facts.closes done with before | closing
      · rw [fits.2.1 sending] at before
        cases before
      · refine alone ?_ ?_
        · rw [sending]
          rfl
        · rw [closing]
          rfl
    · exact facts.stays (fits.2.2 undoing)

theorem full_step (taken : config.Steps move label final) (live : Live final) (caller : Nat)
    (owns : (final.own caller).owns = true) : final.shared.ch = true := by
  have before := live.before taken
  obtain ⟨shared, own, moved, rfl⟩ := Config.steps_iff.1 taken
  have facts := moved_of_move moved
  by_cases same : caller = label.1
  · subst same
    simp only [Function.update_self] at owns
    rcases facts.fills owns with ⟨owned, kept⟩ | filled
    · exact kept.trans (orderly.full before _ owned)
    · exact filled.2
  · simp only [Function.update_of_ne same] at owns
    rcases facts.empties (orderly.full before caller owns) with
      full | owned | undoing | closing
    · exact full
    · exact absurd (orderly.owner before _ _ owns owned) same
    · have done := (orderly.each label.1).2.2 undoing
      rw [before.1] at done
      cases done
    · exact absurd ((Function.update_self label.1 own config.own).trans closing) (live.2 label.1)

theorem free_of_gain
    (moved : move label.1 label.2 config.shared (config.own label.1) = some (l, own))
    (holds : own.holds = true) : (config.own label.1).holds = true ∨ config.shared.done = false ∧
    ∀ caller, (config.own caller).holds = false := by
  rcases (moved_of_move moved).gains holds with
    held | ⟨sending, empty⟩ | ⟨confirming, intact⟩
  · exact .inl held
  · have intact := (orderly.each label.1).2.1 sending
    have live := orderly.live (by rw [sending]; rfl) (by rw [sending]; nofun) intact
    refine .inr ⟨intact, fun caller => Bool.eq_false_iff.2 fun other => ?_⟩
    have full := orderly.full live caller (Phase.owns_of_holds other)
    rw [empty] at full
    cases full
  · have live := orderly.live (by rw [confirming]; rfl) (by rw [confirming]; nofun) intact
    refine .inr ⟨intact, fun caller => Bool.eq_false_iff.2 fun other => ?_⟩
    have same := orderly.owner live caller label.1 (Phase.owns_of_holds other)
      (by rw [confirming]; rfl)
    rw [same, confirming] at other
    cases other

theorem step (taken : config.Steps move label final) : Orderly final where
  each := orderly.each_step taken
  single := by
    refine Config.unique_step orderly.single taken fun shared own moved comes =>
      ((moved_of_move moved).enters comes).imp_right fun unlocked caller => ?_
    refine Bool.eq_false_iff.2 fun critical => ?_
    rw [(orderly.each caller).1 critical] at unlocked
    cases unlocked
  full := orderly.full_step taken
  owner live := by
    have before := live.before taken
    refine Config.unique_step (orderly.owner before) taken fun shared own moved comes => ?_
    rcases (moved_of_move moved).fills comes with owned | filled
    · exact .inl owned.1
    · refine .inr fun caller => Bool.eq_false_iff.2 fun owns => ?_
      rw [orderly.full before caller owns] at filled
      cases filled.1
  holder := Config.unique_step orderly.holder taken fun _ _ moved comes =>
    (orderly.free_of_gain moved comes).imp_right And.right

end

end Orderly

/-- One caller at most holds the lock, the slot is full meanwhile unless `Destroy` has emptied it,
and a destroyed lock is not acquired. -/
theorem lock_exclusive (reached : Reachable Initial (Config.Steps move) config) :
    (∀ first second, (config.own first).holds = true →
      (config.own second).holds = true → first = second) ∧
    (Live config → ∀ caller, (config.own caller).holds = true → config.shared.ch = true) ∧
    ∀ label final, config.Steps move label final → config.shared.done = true → ∀ caller,
        (final.own caller).holds = true → (config.own caller).holds = true := by
  have orderly : Orderly config := reached.invariant (fun _ initial => initial.orderly)
      fun _ _ _ orderly taken => orderly.step taken
  refine ⟨orderly.holder, fun live caller holds =>
    orderly.full live caller (Phase.owns_of_holds holds), ?_⟩
  intro label final taken done caller holds
  obtain ⟨shared, own, moved, rfl⟩ := Config.steps_iff.1 taken
  by_cases same : caller = label.1
  · subst same
    simp only [Function.update_self] at holds
    refine (orderly.free_of_gain moved holds).resolve_right fun free => ?_
    rw [done] at free
    cases free.1
  · simp only [Function.update_of_ne same] at holds
    exact holds

private def heldActions : List (Nat × Action) :=
  [(0, .acquire), (0, .lock), (0, .proceed), (1, .tryAcquire), (1, .proceed),
    (0, .proceed), (0, .unlock), (2, .destroy), (2, .lock)]

theorem held_by_one : ∃ config, Reachable Initial (Config.Steps move) config ∧
      (config.own 0).holds = true ∧ config.own 1 = .waiting ∧ config.own 2 = .inside .destroy ∧
      ∀ caller, (config.own caller).holds = true → caller = 0 := by
  have ran : (execute (Config.step move) ⟨⟨false, false, false⟩, fun _ => .idle⟩
      heldActions).any (fun config => decide ((config.own 0).holds = true ∧
        config.own 1 = .waiting ∧ config.own 2 = .inside .destroy)) = true := by
    decide +kernel
  obtain ⟨config, executed, found⟩ := (Option.any_eq_true _ _).1 ran
  obtain ⟨holds, waiting, inside⟩ := of_decide_eq_true found
  have reached : Reachable Initial (Config.Steps move) config :=
    Reachable.execute (.start ⟨rfl, fun _ => rfl⟩) heldActions executed
  exact ⟨config, reached, holds, waiting, inside, fun caller other =>
    (lock_exclusive reached).1 caller 0 other holds⟩

end Wings.Power.Lock

namespace Wings.Power

open Processes

structure Server where
  installing : Bool
  transferring : Bool
  restoring : Bool
  /-- The power lock is held. -/
  locked : Bool
  /-- The state of the environment is `ProcessOfflineState`. -/
  offline : Bool

inductive PowerAction where
  | start
  | stop
  | restart
  | terminate
  | unknown
  deriving DecidableEq

def PowerAction.isStart : PowerAction → Bool
  | .start | .restart => true
  | _ => false

/-- How far `HandlePowerAction` is, and whether it holds the lock. -/
inductive PowerPhase where
  | begun
  | notInstalling
  | notTransferring
  | checked
  | acting (held : Bool)
  | preparing (held : Bool)
  | booting (held : Bool)
  | releasing (held : Bool)
  | returned

/-- A call of `HandlePowerAction`; `waits` tells whether it waits for the lock. -/
structure PowerCall where
  action : PowerAction
  waits : Bool
  phase : PowerPhase

/-- How far a restore request is.  From `prepared` on it runs `RestoreBackup`. -/
inductive RestorePhase where
  | begun
  | flagged
  | prepared
  | waiting
  | truncating
  | writing
  | finished
  | returned

/-- A restore request; `truncate` asks to delete the files first. -/
structure Restore where
  truncate : Bool
  phase : RestorePhase

inductive Party where
  | power (call : PowerCall)
  | restore (request : Restore)

inductive StopOutcome where
  | stopped
  | notFound
  | failed
  deriving DecidableEq

/-- A step of a party, with the outcome of what it calls, or a change from elsewhere. -/
inductive Action where
  | readInstalling
  | readTransferring
  | readRestoring
  | acquire
  | giveUp
  | readState
  | waitForStop (outcome : StopOutcome)
  | onBeforeStart (ok : Bool)
  | start (running : Bool)
  | terminate (ok : Bool)
  | reject
  | release
  | setRestoring
  | locate (found : Bool)
  | truncateRootDirectory (ok : Bool)
  | restoreEntry
  | endRestore
  | clearRestoring
  | setInstalling (state : Bool)
  | setTransferring (state : Bool)
  | exits

def Server.waitForStop (server : Server) : StopOutcome → Server
  | .stopped => { server with offline := true }
  | _ => server

namespace PowerCall

def enter (call : PowerCall) (phase : PowerPhase) : PowerCall := { call with phase := phase }

def move (action : Action) (server : Server) (call : PowerCall) : Option (Server × PowerCall) :=
  match action, call.phase with
  | .readInstalling, .begun =>
    some (server, call.enter (if server.installing then .returned else .notInstalling))
  | .readTransferring, .notInstalling =>
    some (server, call.enter (if server.transferring then .returned else .notTransferring))
  | .readRestoring, .notTransferring =>
    some (server, call.enter (if server.restoring then .returned else .checked))
  | .acquire, .checked =>
    if server.locked = false then
      some ({ server with locked := true }, call.enter (.acting true))
    else if call.action = .terminate then
      some (server, call.enter (.acting false))
    else if call.waits then none
    else some (server, call.enter .returned)
  | .giveUp, .checked => some (server, call.enter .returned)
  | .readState, .acting held =>
    if call.action = .start then
      some (server, call.enter (if server.offline then .preparing held else .releasing held))
    else none
  | .waitForStop outcome, .acting held =>
    if call.action = .stop ∨ call.action = .restart then
      some (server.waitForStop outcome, call.enter
        (if outcome = .stopped ∧ call.action = .restart then .preparing held
          else .releasing held))
    else none
  | .onBeforeStart ok, .preparing held =>
    some (server, call.enter (if ok then .booting held else .releasing held))
  | .start running, .booting held =>
    some ({ server with offline := !running }, call.enter (.releasing held))
  | .terminate ok, .acting held =>
    if call.action = .terminate then
      some ({ server with offline := ok || server.offline }, call.enter (.releasing held))
    else none
  | .reject, .acting held =>
    if call.action = .unknown then
      some (server, call.enter (.releasing held))
    else none
  | .release, .releasing held =>
    some ({ server with locked := server.locked && !held }, call.enter .returned)
  | _, _ => none

end PowerCall

namespace Restore

def enter (request : Restore) (phase : RestorePhase) : Restore := { request with phase := phase }

def afterStop (request : Restore) : RestorePhase :=
  if request.truncate then .truncating else .writing

def move (action : Action) (server : Server) (request : Restore) : Option (Server × Restore) :=
  match action, request.phase with
  | .setRestoring, .begun =>
    some ({ server with restoring := true }, request.enter .flagged)
  | .locate found, .flagged =>
    some (server, request.enter (if found then .prepared else .finished))
  | .readState, .prepared =>
    some (server, request.enter (if server.offline then request.afterStop else .waiting))
  | .waitForStop outcome, .waiting =>
    some (server.waitForStop outcome, request.enter
      (if outcome = .failed then .finished else request.afterStop))
  | .truncateRootDirectory ok, .truncating =>
    some (server, request.enter (if ok then .writing else .finished))
  | .restoreEntry, .writing => some (server, request)
  | .endRestore, .writing => some (server, request.enter .finished)
  | .clearRestoring, .finished =>
    some ({ server with restoring := false }, request.enter .returned)
  | _, _ => none

end Restore

/-- The other flags change, or the server process ends. -/
def Server.disturb (server : Server) : Action → Option Server
  | .setInstalling state => some { server with installing := state }
  | .setTransferring state => some { server with transferring := state }
  | .exits => some { server with offline := true }
  | _ => none

def move (_ : Nat) (action : Action) (server : Server) (party : Party) : Option (Server × Party) :=
  match server.disturb action with
  | some after => some (after, party)
  | none =>
    match party with
    | .power call =>
      (call.move action server).map fun moved => (moved.1, .power moved.2)
    | .restore request =>
      (request.move action server).map fun moved =>
        (moved.1, .restore moved.2)

abbrev Servers := Config Server Party

def Party.Fresh : Party → Prop
  | .power call => call.phase = .begun
  | .restore request => request.phase = .begun

structure Initial (config : Servers) : Prop where
  restoring : config.shared.restoring = false
  parties : ∀ party, (config.own party).Fresh

open Processes Transition

namespace Party

/-- A power action that has found the flags clear and may still start the server. -/
def isPending : Party → Bool
  | .power call =>
    match call.phase with
    | .checked | .acting _ => call.action.isStart
    | .preparing _ | .booting _ => true
    | _ => false
  | .restore _ => false

def isActive : Party → Bool
  | .power _ => false
  | .restore request =>
    match request.phase with
    | .begun | .returned => false
    | _ => true

/-- A restore that has waited for the server to stop and has entries to write. -/
def isCritical : Party → Bool
  | .power _ => false
  | .restore request =>
    match request.phase with
    | .truncating | .writing => true
    | _ => false

theorem isActive_of_isCritical {party : Party} (critical : party.isCritical = true) :
    party.isActive = true := by
  cases party with
  | power call => cases critical
  | restore request =>
    obtain ⟨truncate, phase⟩ := request
    cases phase <;> first | rfl | cases critical

end Party

/-- A restore sets the flag only while no start has read the flags and no other restore runs. -/
def Orderly (config : Servers) (label : Nat × Action) : Prop := label.2 = .setRestoring → ∀ party,
    (config.own party).isPending = false ∧ (config.own party).isActive = false

inductive Effect (action : Action) (server : Server) (party : Party)
    (after : Server) (moved : Party) : Prop
  | keeps :
      after.restoring = server.restoring →
      (moved.isPending = true → party.isPending = true ∨ server.restoring = false) →
      (moved.isActive = true → party.isActive = true) → Effect action server party after moved
  | sets :
      action = .setRestoring → after.restoring = true →
      moved.isPending = false → Effect action server party after moved
  | clears :
      party.isActive = true → after.restoring = false →
      moved.isActive = false → Effect action server party after moved

theorem restoring_waitForStop (server : Server) (outcome : StopOutcome) :
    (server.waitForStop outcome).restoring = server.restoring := by
  cases outcome <;> rfl

theorem effect_of_power (taken : call.move action server = some (after, moved)) :
    Effect action server (.power call) after (.power moved) := by
  unfold PowerCall.move at taken
  split at taken
  case h_13 => cases taken
  all_goals rename_i phase
  case h_4 =>
    have acting : ∀ held, (Party.power (call.enter (.acting held))).isPending =
        true → (Party.power call).isPending = true := by
      intro held pending
      rw [Party.isPending, phase]
      exact pending
    split_ifs at taken
    · cases taken
      exact .keeps rfl (fun pending => .inl (acting _ pending)) fun active => active
    · cases taken
      exact .keeps rfl (fun pending => .inl (acting _ pending)) fun active => active
    · cases taken
      exact .keeps rfl (fun pending => nomatch pending) fun active => active
  case h_6 =>
    by_cases isStart : call.action = .start
    · rw [if_pos isStart] at taken
      cases taken
      refine .keeps rfl (fun _ => .inl ?_) fun active => active
      rw [Party.isPending, phase, isStart]
      rfl
    · rw [if_neg isStart] at taken
      cases taken
  case h_7 =>
    by_cases isStop : call.action = .stop ∨ call.action = .restart
    · rw [if_pos isStop] at taken
      cases taken
      refine .keeps (restoring_waitForStop _ _) ?_ fun active => active
      split_ifs with restarts
      · intro _
        left
        rw [Party.isPending, phase, restarts.2]
        rfl
      · exact fun pending => nomatch pending
    · rw [if_neg isStop] at taken
      cases taken
  case h_10 | h_11 =>
    split_ifs at taken
    cases taken
    exact .keeps rfl (fun pending => nomatch pending) fun active => active
  all_goals
    cases taken
    refine .keeps rfl ?_ fun active => active
  case h_3 =>
    split_ifs with flag
    · exact fun pending => nomatch pending
    · exact fun _ => .inr (Bool.eq_false_iff.mpr flag)
  case h_8 =>
    intro _
    left
    rw [Party.isPending, phase]
  all_goals
    try split_ifs
    all_goals exact fun pending => nomatch pending

theorem effect_of_restore (taken : request.move action server = some (after, moved)) :
    Effect action server (.restore request) after (.restore moved) := by
  unfold Restore.move at taken
  split at taken
  case h_9 => cases taken
  all_goals
    rename_i phase
    cases taken
  case h_1 => exact .sets rfl rfl rfl
  case h_8 =>
    refine .clears ?_ rfl rfl
    rw [Party.isActive, phase]
  case h_4 =>
    refine .keeps (restoring_waitForStop _ _) (fun pending => nomatch pending) fun _ => ?_
    rw [Party.isActive, phase]
  all_goals
    refine .keeps rfl (fun pending => nomatch pending) fun _ => ?_
    rw [Party.isActive, phase]

theorem effect_of_move (taken : move process action server party = some (after, moved)) :
    Effect action server party after moved := by
  unfold move at taken
  cases disturbed : server.disturb action with
  | some disturbance =>
    rw [disturbed] at taken
    obtain ⟨rfl, rfl⟩ := Prod.mk.inj (Option.some.inj taken)
    have same : disturbance.restoring = server.restoring := by
      unfold Server.disturb at disturbed
      split at disturbed <;> cases disturbed <;> rfl
    exact .keeps same .inl fun active => active
  | none =>
    rw [disturbed] at taken
    cases party with
    | power call =>
      obtain ⟨⟨_, _⟩, acted, same⟩ := Option.map_eq_some_iff.mp taken
      obtain ⟨rfl, rfl⟩ := Prod.mk.inj same
      exact effect_of_power acted
    | restore request =>
      obtain ⟨⟨_, _⟩, acted, same⟩ := Option.map_eq_some_iff.mp taken
      obtain ⟨rfl, rfl⟩ := Prod.mk.inj same
      exact effect_of_restore acted

/-- The flag is clear while a power action may start the server, and set while a
restore runs. -/
def Agrees (_ : Nat) (server : Server) (party : Party) : Prop :=
  (party.isPending = true → server.restoring = false) ∧
    (party.isActive = true → server.restoring = true)

/-- Every party agrees with the flag, and at most one restore runs. -/
structure Ordered (config : Servers) : Prop where
  agrees : config.Each Agrees
  unique : ∀ first second,
    (config.own first).isActive = true → (config.own second).isActive = true → first = second

variable {config : Servers}

theorem Ordered.step {after : Servers} {label : Nat × Action}
    (ordered : Ordered config) (orderly : Orderly config label)
    (taken : config.Steps move label after) : Ordered after := by
  constructor
  · refine ordered.agrees.step taken ?_ ?_
    · intro server moved isMove
      have agrees := ordered.agrees label.1
      cases effect_of_move isMove with
      | keeps same pending active =>
        rw [Agrees, same]
        refine ⟨?_, fun holds => agrees.2 (active holds)⟩
        intro holds
        exact (pending holds).elim agrees.1 id
      | sets _ flag notPending =>
        rw [Agrees, flag, notPending]
        exact ⟨(fun holds => nomatch holds), fun _ => rfl⟩
      | clears _ flag notActive =>
        rw [Agrees, flag, notActive]
        exact ⟨fun _ => rfl, fun holds => nomatch holds⟩
    · intro server moved isMove other distinct agrees
      cases effect_of_move isMove with
      | keeps same _ _ =>
        rw [Agrees, same]
        exact agrees
      | sets isSet flag _ =>
        rw [Agrees, flag, (orderly isSet other).1]
        exact ⟨(fun holds => nomatch holds), fun _ => rfl⟩
      | clears active flag _ =>
        rw [Agrees, flag]
        refine ⟨fun _ => rfl, fun holds => ?_⟩
        exact absurd (ordered.unique _ _ holds active) distinct
  · refine Config.unique_step ordered.unique taken ?_
    intro server moved isMove active
    cases effect_of_move isMove with
    | keeps _ _ before => exact .inl (before active)
    | sets isSet _ _ => exact .inr fun party => (orderly isSet party).2
    | clears _ _ notActive =>
      rw [notActive] at active
      cases active

theorem ordered_of_reachable
    (reached : Reachable Initial (Guarded Orderly (Config.Steps move)) config) :
    Ordered config := by
  refine reached.invariant ?_ ?_
  · intro start initial
    have idle : ∀ party, (start.own party).isPending = false ∧
        (start.own party).isActive = false := by
      intro party
      have fresh := initial.parties party
      cases owned : start.own party with
      | power call | restore request =>
        rw [owned] at fresh
        simp only [Party.Fresh] at fresh
        simp [Party.isPending, Party.isActive, fresh]
    constructor
    · intro party
      simp [Agrees, idle party]
    · intro first second active
      rw [(idle first).2] at active
      cases active
  · rintro before label after ordered ⟨orderly, taken⟩
    exact ordered.step orderly taken

theorem isPending_of_start {after : Servers} {process : Nat} {running : Bool}
    (taken : config.Steps move (process, .start running) after) :
    (config.own process).isPending = true := by
  obtain ⟨server, party, moved, _⟩ := Config.steps_iff.mp taken
  cases owned : config.own process with
  | power call =>
    simp only [owned, move, Server.disturb, PowerCall.move] at moved
    cases phase : call.phase with
    | booting held => rw [Party.isPending, phase]
    | _ => simp [phase] at moved
  | restore request =>
    simp [owned, move, Server.disturb, Restore.move] at moved

/-- In every orderly run the flag is set while a restore writes, and `Environment.Start` is not
called in that time. -/
theorem no_start_while_restoring {config : Servers}
    (reached : Reachable Initial (Guarded Orderly (Config.Steps move)) config)
    {restore : Nat} (critical : (config.own restore).isCritical = true) :
    config.shared.restoring = true ∧ ∀ process running after,
        ¬config.Steps move (process, .start running) after := by
  have ordered := ordered_of_reachable reached
  have restoring := (ordered.agrees restore).2 (Party.isActive_of_isCritical critical)
  refine ⟨restoring, ?_⟩
  intro process running after taken
  have clear := (ordered.agrees process).1 (isPending_of_start taken)
  rw [restoring] at clear
  cases clear

def idleServer : Servers where
  shared := ⟨false, false, false, false, true⟩
  own
    | 0 => .power ⟨.start, false, .begun⟩
    | _ + 1 => .restore ⟨false, .begun⟩

theorem idleServer_initial : Initial idleServer := by
  refine ⟨rfl, ?_⟩
  intro party
  cases party <;> rfl

theorem flag_set_while_writing : ∃ config : Servers,
      Reachable Initial (Guarded Orderly (Config.Steps move)) config ∧
      (config.own 1).isCritical = true ∧ config.shared.restoring = true := by
  have start : Reachable Initial (Guarded Orderly (Config.Steps move))
      idleServer := .start idleServer_initial
  have flagged := start.next (1, .setRestoring) ⟨by
    rintro - party
    cases party <;> exact ⟨rfl, rfl⟩, rfl⟩
  have writing := flagged.executeGuarded [(1, .locate true), (1, .readState), (1, .restoreEntry)]
    (by simp [Orderly]) rfl
  obtain ⟨config, reached, critical⟩ : ∃ config : Servers,
      Reachable Initial (Guarded Orderly (Config.Steps move)) config ∧
      (config.own 1).isCritical = true := ⟨_, writing, rfl⟩
  exact ⟨config, reached, critical, (no_start_while_restoring reached critical).1⟩

/-- A start that has read the flags before a restore set its own, and a failing restore that clears
the flag of another one. -/
theorem start_and_clear_while_restoring : (∃ config : Servers,
      Reachable Initial (Config.Steps move) config ∧ (config.own 1).isCritical = true ∧
      ∃ after, config.Steps move (0, .start true) after) ∧ ∃ config : Servers,
      Reachable Initial (Config.Steps move) config ∧
      (config.own 1).isCritical = true ∧ config.shared.restoring = false := by
  have start : Reachable Initial (Config.Steps move) idleServer := .start idleServer_initial
  refine ⟨⟨_, start.execute [(0, .readInstalling), (0, .readTransferring), (0, .readRestoring),
      (1, .setRestoring), (1, .locate true), (1, .readState),
      (0, .acquire), (0, .readState), (0, .onBeforeStart true)] rfl, rfl, _, rfl⟩, ⟨_, start.execute
    [(1, .setRestoring), (1, .locate true), (1, .readState),
      (2, .setRestoring), (2, .locate false), (2, .clearRestoring)] rfl,
    rfl, rfl⟩⟩

end Wings.Power
