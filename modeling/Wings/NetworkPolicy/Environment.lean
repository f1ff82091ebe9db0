import Wings.NetworkPolicy.Store

/-!
# The network policy of an environment

The operations on the policy of one server run one at a time, under a lock; a background
reconciliation may run any time after it was scheduled. Every call out of the environment has an
arbitrary answer, and a context may be found expired at any check of it.
-/

namespace Wings.NetworkPolicy.Envelope.Enforcement

open FallibleProgram

structure Problem where
  message : String
  /-- The context of the call was cancelled or has expired. -/
  interrupted : Bool := false
  notFound : Bool := false

structure Container where
  id : String := ""
  running : Bool := false
  /-- The container has the network label of the server. -/
  managed : Bool := false
  /-- The container has the labels and the name of the server. -/
  trusted : Bool := false

inductive State where
  | unset
  | pending
  | applied
  | failed
  deriving DecidableEq

structure Status where
  apiVersion : Nat := 1
  state : State := .unset
  appliedRevision : UInt64 := 0
  appliedHash : Option String := none
  desired : Policy := {}
  effectiveBandwidth : Bandwidth := {}
  error : String := ""

structure Attempt where
  policy : Policy
  container : String
  succeeded : Bool

structure Environment where
  disk : Disk
  allocations : Assigned := []
  deleted : Bool := false
  status : Option Status := none
  verified : Bool := false
  appliedPolicy : Option Policy := none
  /-- The container of the last application, of which the identifier is
  kept. -/
  recorded : Container := {}
  /-- A background reconciliation is due. -/
  scheduled : Bool := false
  attempts : List Attempt := []

/-- What does not change while the environment exists. -/
structure Setup where
  go : Libraries
  id : String
  ceiling : Bandwidth := {}
  enabled : Bool := true
  /-- A container runtime that installs policies is configured. -/
  runtime : Bool := false
  /-- The check of a policy by the compiler of rulesets. -/
  compileRuleset : Policy → Assigned → Except String Unit

structure Reply where
  status : Status
  error : Option Problem := none

namespace Environment

section

variable (env : Environment)

def networkStatusSnapshot : Status := env.status.getD { state := .pending }

def storeNetworkStatus (status : Status) : Environment := { env with status := some status }

def addError (text : String) : Environment :=
  let status := env.networkStatusSnapshot
  env.storeNetworkStatus { status with error := status.error ++ text }

def scheduleNetworkReconcile : Environment := { env with scheduled := true }

def record (policy : Policy) (container : Container) (outcome : Option Problem) : Environment :=
  { env with
    attempts := ⟨policy, container.id, outcome.isNone⟩ :: env.attempts }

end

end Environment

def networkConflict : Problem :=
  { message := "network policy revision conflict or restart required" }

def networkInvalid : Problem := { message := "invalid network policy" }

def networkUnsupported (cause : Problem) : Problem :=
  { cause with message := "network policy backend unavailable: " ++ cause.message }

section Operations

variable (setup : Setup)

def required (policy : Policy) : Bool :=
  policy.body.firewall.enabled || 0 < policy.body.bandwidth.upload ||
    0 < policy.body.bandwidth.download || 0 < setup.ceiling.upload || 0 < setup.ceiling.download

def limited (rate ceiling : Int64) : Int64 :=
  if 0 < ceiling ∧ (rate = 0 ∨ ceiling < rate) then ceiling else rate

def effective (policy : Policy) : Bandwidth where
  upload := limited policy.body.bandwidth.upload setup.ceiling.upload
  download := limited policy.body.bandwidth.download setup.ceiling.download

def validateEnforcement (policy : Policy) (assigned : Assigned) : Except String Unit := do
  validate setup.go (some policy) assigned setup.ceiling
  let rate := effective setup policy
  forM [rate.upload, rate.download] fun rate =>
    require (rate = 0 ∨ rate % 8 = 0)
      ("Linux TBF can enforce only whole-byte rates; bandwidth must be " ++
        "divisible by 8 bits per second")
  if policy.body.firewall.enabled then setup.compileRuleset policy assigned

section

variable (env : Environment) (policy : Policy)

def pendingNetworkStatus : Status :=
  { env.networkStatusSnapshot with
    apiVersion := 1
    state := .pending
    desired := policy
    effectiveBandwidth := effective setup policy
    error := "" }

def failNetworkStatus (problem : Problem) : Environment :=
  ({ env with verified := false } : Environment).storeNetworkStatus
    { pendingNetworkStatus setup env policy with
      state := .failed
      error := problem.message }

def markPending : Environment :=
  ({ env with verified := false } : Environment).storeNetworkStatus
    (pendingNetworkStatus setup env policy)

def storeApplied (container : Container) : Environment :=
  let env := { env with
    recorded := container
    appliedPolicy := some policy
    verified := true }
  if policy.revision = 0 ∨ policy.policyHash = "" then
    env.storeNetworkStatus (pendingNetworkStatus setup env policy)
  else
    env.storeNetworkStatus
      { state := .applied
        appliedRevision := policy.revision
        appliedHash := some policy.policyHash
        desired := policy
        effectiveBandwidth := effective setup policy }

def deferNetworkCheck (problem : Problem) : Environment :=
  (({ env with verified := false } : Environment).storeNetworkStatus
    { pendingNetworkStatus setup env policy with
      error := "network verification interrupted; retrying: " ++
        problem.message }).scheduleNetworkReconcile

end

structure Closing where
  gate : Option Problem := none
  kill : Option Problem := none

def closeNetwork (container : Container) (answers : Closing) : Option Problem :=
  if container.trusted = false then
    some { message := "refusing to quarantine a container without the Wings server identity" }
  else if container.managed = true ∧ answers.gate.isNone = true then none
  else answers.kill.filter fun problem => !problem.notFound

def closing (message text : String) (container : Container) (answers : Closing) : String :=
  match closeNetwork container answers with
  | none => message
  | some problem => message ++ text ++ problem.message

structure Verifying where
  lease : Option Problem := none
  /-- The first error of the inspection of the network, the endpoint, the
  runtime container, the interfaces, the shaping and the firewall. -/
  checks : Option Problem := none

def runtimeLease (lease : Option Problem) : Option Problem := if setup.runtime then lease else none

def verifyNetworkPolicy (env : Environment) (policy : Policy)
    (container : Container) (checks : Option Problem) : Option Problem :=
  let assigned := if 0 < policy.revision then env.allocations else []
  match validate setup.go (some policy) assigned setup.ceiling with
  | .error message => some { message }
  | .ok () =>
    if required setup policy = false ∧ container.managed = false then none
    else if container.managed = false then
      some { message := "policy requires an isolated NSM bridge" }
    else checks

def verifyNetwork (env : Environment) (policy : Policy) (container : Container)
    (answers : Verifying) : Option Problem × Environment :=
  let lease := if container.managed then runtimeLease setup answers.lease else none
  let outcome := lease.or (verifyNetworkPolicy setup env policy container answers.checks)
  (outcome, env.record policy container outcome)

structure Reading where
  expired : Option Problem := none
  /-- Another operation holds the lock. -/
  busy : Bool := false
  load : Faults := {}
  inspect : Except Problem Container
  verify : Verifying := {}
  close : Closing := {}

section

variable (answers : Reading)

def readUnloaded (message : String) (env : Environment) : Environment :=
  let status := env.networkStatusSnapshot
  let error := if status.state = .applied then
      closing message "; fail-closed protection failed: "
        (answers.inspect.toOption.getD {}) answers.close
    else message
  ({ env with verified := false } : Environment).storeNetworkStatus
    { status with apiVersion := 1, state := .failed, error }

def readFailed (container : Container) (message : String) (env : Environment) : Environment :=
  (({ env with verified := false } : Environment).storeNetworkStatus
    { env.networkStatusSnapshot with
      state := .failed
      error := closing message "; fail-closed protection failed: "
        container answers.close }).scheduleNetworkReconcile

def readApplied (policy : Policy) (env : Environment) : Environment :=
  match answers.inspect with
  | .ok container =>
    if container.running = true ∧ container.id = env.recorded.id then
      match verifyNetwork setup env policy container answers.verify with
      | (none, env) => env
      | (some problem, env) =>
        if problem.interrupted then deferNetworkCheck setup env policy problem
        else readFailed answers container problem.message env
    else if container.running then
      readFailed answers container "applied container identity changed" env
    else
      ({ env with verified := false } : Environment).storeNetworkStatus
        { env.networkStatusSnapshot with state := .pending }
  | .error problem =>
    if problem.notFound then
      ({ env with verified := false } : Environment).storeNetworkStatus
        { env.networkStatusSnapshot with state := .pending }
    else if problem.interrupted then deferNetworkCheck setup env policy problem
    else readFailed answers {} problem.message env

def readLoaded (policy : Policy) (env : Environment) : Environment :=
  let status := env.networkStatusSnapshot
  let env := if status.state = .unset ∨ status.desired.revision ≠ policy.revision ∨
        status.desired.policyHash ≠ policy.policyHash then
      markPending setup env policy
    else env
  if env.networkStatusSnapshot.state = .applied then
    readApplied setup answers policy env
  else env

def networkPolicy (env : Environment) : Reply × Environment :=
  match answers.expired with
  | some problem => (⟨env.networkStatusSnapshot, some problem⟩, env)
  | none =>
    if answers.busy then (⟨env.networkStatusSnapshot, none⟩, env)
    else
      let env :=
        match load setup.go answers.load env.disk setup.id with
        | .error message => readUnloaded answers message env
        | .ok policy => readLoaded setup answers policy env
      (⟨env.networkStatusSnapshot, none⟩, env)

end

inductive Call where
  | networkSupported
  | names
  | networkInspect
  | checkNetwork
  | runtimeLease
  | verifyRuntimeContainer
  | gate
  | verifyGate
  | attachments
  | portBindings
  | endpoint
  | openNamespace
  | hostLinks
  | insideLinks
  | interfaces
  | shapeUpload
  | verifyUpload
  | shapeDownload
  | verifyDownload
  | firewall
  | verifyFirewall

structure Reconciling where
  expired : Option Problem := none
  load : Faults := {}
  inspect : Except Problem Container
  call : Call → Option Problem := fun _ => none
  /-- The checks of the policy that was applied before. -/
  previous : Option Problem := none
  /-- The firewall of a running server is replaced, and verified. -/
  replace : Option Problem := none
  verifyReplaced : Option Problem := none
  /-- The container, and the checks of the policy applied before, after the
  firewall could not be replaced. -/
  current : Except Problem Container := .ok {}
  currentChecks : Option Problem := none
  /-- The container that is closed after an error. -/
  stopped : Except Problem Container := .ok {}
  close : Closing := {}

def Call.needsRuntime : Call → Bool
  | .runtimeLease | .verifyRuntimeContainer => true
  | _ => false

def Reconciling.perform (answers : Reconciling) (calls : List Call) : Option Problem :=
  (calls.filter fun call => setup.runtime || !call.needsRuntime).findSome? answers.call

structure Result where
  error : Option Problem := none
  /-- The container has to be closed after an error. -/
  protect : Bool
  /-- The rules that were installed before were verified again. -/
  retainVerified : Bool := false
  env : Environment

/-- Verify the policy that was applied before, after its rules could not be
replaced. -/
def verifyPrevious (answers : Reconciling) (previous : Policy)
    (container : Container) (env : Environment) : Bool × Environment :=
  match answers.current with
  | .error _ => (false, env)
  | .ok current =>
    if current.id = container.id then
      let outcome := verifyNetworkPolicy setup env previous current answers.currentChecks
      (outcome.isNone, env.record previous current outcome)
    else (false, env)

def replaceLiveFirewall (answers : Reconciling) (previous policy : Policy)
    (container : Container) (env : Environment) : Result :=
  match answers.replace with
  | some problem =>
    let (retained, env) := verifyPrevious setup answers previous container
      (env.record policy container (some problem))
    ⟨some problem, true, retained, env⟩
  | none =>
    ⟨answers.verifyReplaced, true, false, env.record policy container answers.verifyReplaced⟩

def installCalls : List Call :=
  [.gate, .verifyGate, .attachments, .portBindings, .endpoint, .openNamespace,
    .hostLinks, .insideLinks, .interfaces, .shapeUpload, .verifyUpload,
    .shapeDownload, .verifyDownload, .firewall, .verifyFirewall]

section

variable (answers : Reconciling)

def install (policy : Policy) (container : Container) (env : Environment) : Result :=
  let outcome := answers.perform setup installCalls
  ⟨outcome, true, false, env.record policy container outcome⟩

/-- Apply a policy to a container. The gate stays open if the shaping stays the same and the policy
applied before is verified. -/
def applyPolicy (policy : Policy) (container : Container) (env : Environment) : Result :=
  let live := env.appliedPolicy.filter fun previous =>
    decide (container.id = env.recorded.id) &&
      decide (effective setup previous = effective setup policy)
  match live with
  | none => install setup answers policy container env
  | some previous =>
    let outcome := verifyNetworkPolicy setup env previous container answers.previous
    let env := env.record previous container outcome
    if outcome.isNone then
      replaceLiveFirewall setup answers previous policy container env
    else install setup answers policy container env

def reconcileManaged (policy : Policy) (container : Container) (env : Environment) : Result :=
  match answers.perform setup [.names, .networkInspect, .checkNetwork, .runtimeLease,
        .verifyRuntimeContainer] with
  | some problem => ⟨some problem, true, false, env⟩
  | none =>
  match (if 0 < policy.revision then
      validateEnforcement setup policy env.allocations else .ok ()) with
  | .error message => ⟨some { message }, true, false, env⟩
  | .ok () =>
    let result := applyPolicy setup answers policy container env
    match result.error with
    | some _ => result
    | none =>
      { result with
        env := storeApplied setup result.env policy container }

def reconcileRunning (policy : Policy) (container : Container) (env : Environment) : Result :=
  if required setup policy = false ∧ container.managed = false then
    if 0 < policy.revision then
      ⟨none, false, false, storeApplied setup env policy container⟩
    else ⟨none, false, false, env⟩
  else
  match answers.call .networkSupported with
  | some problem => ⟨some problem, true, false, env⟩
  | none =>
    if container.managed = false then
      ⟨some { message := "policy requires a restart onto an isolated NSM bridge" },
        true, false, env⟩
    else reconcileManaged setup answers policy container env

def reconcile (loaded : Except String Policy) (env : Environment) : Result :=
  match loaded with
  | .error message => ⟨some { message }, true, false, env⟩
  | .ok policy =>
    let protect := required setup policy
    match validateEnforcement setup empty [] with
    | .error message => ⟨some { message }, protect, false, env⟩
    | .ok () =>
    match answers.inspect with
    | .error problem =>
      if problem.notFound then ⟨none, protect, false, env⟩
      else ⟨some problem, protect, false, env⟩
    | .ok container =>
      if container.running = false then ⟨none, protect, false, env⟩
      else reconcileRunning setup answers policy container env

def reconcileNetwork (env : Environment) : Option Problem × Environment :=
  match answers.expired with
  | some problem => (some problem, env)
  | none =>
  if env.deleted then (some networkConflict, env)
  else
  let loaded := load setup.go answers.load env.disk setup.id
  let policy := loadedPolicy setup.go answers.load env.disk setup.id
  let result := reconcile setup answers loaded (markPending setup env policy)
  match result.error with
  | none => (none, result.env)
  | some problem =>
    let env := failNetworkStatus setup result.env policy problem
    if result.protect = false ∨ result.retainVerified = true then
      (some problem, env)
    else
    match answers.stopped with
    | .error fault =>
      if fault.notFound then (some problem, env)
      else
        (some problem, env.addError ("; could not inspect container for quarantine: " ++
            fault.message))
    | .ok container =>
      if container.running = false then (some problem, env)
      else
        match closeNetwork container answers.close with
        | none => (some problem, env)
        | some fault =>
          (some problem, env.addError ("; could not quarantine container: " ++ fault.message))

end

structure Recording where
  load : Faults := {}
  inspect : Except Problem Container
  verify : Verifying := {}

def verifyRecordedNetwork (answers : Recording) (env : Environment) :
    Option Problem × Environment :=
  match load setup.go answers.load env.disk setup.id with
  | .error message => (some { message }, env)
  | .ok policy =>
  match answers.inspect with
  | .error problem => (some problem, env)
  | .ok container =>
  if container.running = false ∨ container.id ≠ env.recorded.id then
    (some { message := "verified container is no longer running" }, env)
  else
  match verifyNetwork setup env policy container answers.verify with
  | (some problem, env) => (some problem, env)
  | (none, env) => (none, storeApplied setup env policy container)

structure Background where
  lock : Option Problem := none
  recorded : Recording
  reconcile : Reconciling

def reconcilePendingNetwork (answers : Background) (env : Environment) : Environment :=
  if env.scheduled = false then env
  else
  let env := { env with scheduled := false }
  if answers.lock.isSome = true ∨ env.deleted = true then env
  else
  match verifyRecordedNetwork setup answers.recorded env with
  | (none, env) => env
  | (some _, env) => (reconcileNetwork setup answers.reconcile env).2

/-- The answers to the calls that stop a server after an error. -/
structure Stopping where
  inspect : Except Problem Container
  close : Closing := {}

def failSyncedPolicy (answers : Stopping) (policy : Policy) (cause : Problem)
    (env : Environment) : Option Problem × Environment :=
  let env := failNetworkStatus setup env policy cause
  match answers.inspect with
  | .error problem =>
    if problem.notFound then (some cause, env)
    else
      let text := "; could not inspect container for fail-closed stop: " ++ problem.message
      (some { cause with message := cause.message ++ text }, env.addError text)
  | .ok container =>
    if container.running = false then (some cause, env)
    else
      match closeNetwork container answers.close with
      | none => (some cause, env)
      | some problem =>
        let text := "; could not quarantine container: " ++ problem.message
        (some { cause with message := cause.message ++ text }, env.addError text)

structure Rejecting where
  lock : Option Problem := none
  load : Faults := {}
  inspect : Except Problem Container
  close : Closing := {}

def rejectNetworkPolicy (answers : Rejecting) (cause : Option Problem)
    (env : Environment) : Option Problem × Environment :=
  let cause := cause.getD networkInvalid
  match answers.lock with
  | some problem =>
    (some { cause with message := cause.message ++
      ": could not serialize fail-closed handling: " ++ problem.message }, env)
  | none =>
  if env.deleted then
    (some { cause with
      message := cause.message ++ ": " ++ networkConflict.message }, env)
  else
  let loaded := load setup.go answers.load env.disk setup.id
  let cause :=
    match loaded with
    | .ok _ => cause
    | .error message =>
      { cause with message := cause.message ++
        "; could not load durable network policy: " ++ message }
  let policy := loadedPolicy setup.go answers.load env.disk setup.id
  let env := failNetworkStatus setup env policy cause
  let close (container : Container) (env : Environment) : Option Problem × Environment :=
    match closeNetwork container answers.close with
    | none => (some cause, env)
    | some problem =>
      let text := "; fail-closed protection failed: " ++ problem.message
      (some { cause with message := cause.message ++ text }, env.addError text)
  match answers.inspect with
  | .error problem =>
    if problem.notFound then (some cause, env)
    else close {} (env.addError ("; could not inspect container for fail-closed handling: " ++
        problem.message))
  | .ok container =>
    if container.running = false then (some cause, env)
    else close container env

def validatePolicyUpdate (old next : Policy) (owned : Assigned) : Option Problem :=
  match validateEnforcement setup next owned with
  | .error message =>
    some { message := networkInvalid.message ++ ": " ++ message }
  | .ok () =>
    if next.revision < old.revision then some networkConflict
    else if next.revision = old.revision ∧
        next.policyHash ≠ old.policyHash ∧ next.body ≠ old.body then
      some { message := networkConflict.message ++
        ": policy rules changed without a newer revision" }
    else none

structure Supporting where
  inspect : Except Problem Container
  supported : Option Problem := none
  check : Option Problem := none

def checkPolicySupport (answers : Supporting) (old next : Policy) : Option Problem :=
  if setup.enabled = false then
    some (networkUnsupported { message := "docker.network_policy.enabled is false" })
  else
  let backend (managed : Bool) : Option Problem :=
    if required setup next = true ∨ required setup old = true ∨ managed = true then
      (answers.supported.or answers.check).map networkUnsupported
    else none
  match answers.inspect with
  | .error problem => if problem.notFound then backend false else some problem
  | .ok container =>
    if container.running = true ∧ required setup next = true ∧ container.managed = false then
      some { message := networkConflict.message ++ ": stop the server before enabling a policy" }
    else backend container.managed

structure Saving where
  lease : Option Problem := none
  save : Faults := {}
  /-- The binding of the runtime is brought up to date. -/
  sync : Option Problem := none

def saveNetworkPolicy (answers : Saving) (policy : Policy) (changed : Bool)
    (env : Environment) : Option Problem × Environment :=
  match runtimeLease setup answers.lease with
  | some problem => (some problem, env)
  | none =>
  let saved := if changed then
      (save setup.go answers.save setup.id policy).run env.disk
    else (.ok (), env.disk)
  let env := { env with disk := saved.2 }
  match saved.1 with
  | .error message => (some { message }, env)
  | .ok () => (if setup.runtime then answers.sync else none, env)

def differs (old next : Policy) : Bool :=
  old.revision ≠ next.revision || old.policyHash ≠ next.policyHash

structure Confirming where
  inspect : Except Problem Container
  verify : Verifying := {}

def confirm (answers : Confirming) (policy : Policy) (env : Environment) : Bool × Environment :=
  match answers.inspect with
  | .error _ => (false, env)
  | .ok container =>
    if container.running = true ∧ container.id = env.recorded.id then
      let (outcome, env) := verifyNetwork setup env policy container answers.verify
      (outcome.isNone, env)
    else (false, env)

structure Updating where
  lock : Option Problem := none
  expired : Option Problem := none
  load : Faults := {}
  support : Supporting
  expiredLater : Option Problem := none
  confirm : Confirming
  save : Saving := {}
  reconcile : Reconciling

def changePolicy (answers : Updating) (old policy : Policy)
    (env : Environment) : Reply × Environment :=
  let env := markPending setup env policy
  match saveNetworkPolicy setup answers.save policy (differs old policy) env
  with
  | (none, env) =>
    let env := env.scheduleNetworkReconcile
    (⟨env.networkStatusSnapshot, none⟩, env)
  | (some problem, env) =>
    let (fault, env) := reconcileNetwork setup answers.reconcile env
    let problem :=
      match fault with
      | none => problem
      | some fault =>
        { problem with message := problem.message ++
          "; reconciliation also failed: " ++ fault.message }
    let env := failNetworkStatus setup env policy problem
    (⟨env.networkStatusSnapshot, some problem⟩, env)

def updateNetworkPolicy (answers : Updating) (policy : Policy)
    (env : Environment) : Reply × Environment :=
  match answers.lock.or answers.expired with
  | some problem => (⟨env.networkStatusSnapshot, some problem⟩, env)
  | none =>
  if env.deleted then (⟨env.networkStatusSnapshot, some networkConflict⟩, env)
  else
  match load setup.go answers.load env.disk setup.id with
  | .error message =>
    let old := loadedPolicy setup.go answers.load env.disk setup.id
    let env := failNetworkStatus setup env old { message }
    (⟨env.networkStatusSnapshot, some { message }⟩, env)
  | .ok old =>
  match ((validatePolicyUpdate setup old policy env.allocations).or
      (checkPolicySupport setup answers.support old policy)).or
      answers.expiredLater with
  | some problem => (⟨env.networkStatusSnapshot, some problem⟩, env)
  | none =>
  if differs old policy = false ∧ env.verified = true then
    match confirm setup answers.confirm policy env with
    | (true, env) => (⟨env.networkStatusSnapshot, none⟩, env)
    | (false, env) => changePolicy setup answers old policy env
  else changePolicy setup answers old policy env

structure Setting where
  load : Faults := {}
  support : Supporting
  expired : Option Problem := none
  save : Saving := {}
  /-- The policy that is visible after it could not be saved. -/
  reload : Faults := {}
  stop : Stopping
  confirm : Confirming
  reconcile : Reconciling

def applySettings (answers : Setting) (allocations : Assigned)
    (old next : Policy) (env : Environment) : Option Problem × Environment :=
  match saveNetworkPolicy setup answers.save next (differs old next) env with
  | (some problem, env) =>
    match load setup.go answers.reload env.disk setup.id with
    | .ok visible =>
      failSyncedPolicy setup answers.stop visible problem env
    | .error message =>
      failSyncedPolicy setup answers.stop old
        { problem with message := problem.message ++
          "; could not reload visible policy: " ++ message } env
  | (none, env) =>
    let wasVerified := env.verified
    let env := { env with allocations }
    let apply (env : Environment) : Option Problem × Environment :=
      reconcileNetwork setup answers.reconcile (markPending setup env next)
    if differs old next = false ∧ wasVerified = true then
      match confirm setup answers.confirm next env with
      | (true, env) => (none, env)
      | (false, env) => apply env
    else apply env

def setNetworkSettings (answers : Setting) (allocations : Assigned)
    (incoming : Option Policy) (env : Environment) : Option Problem × Environment :=
  if env.deleted then (some networkConflict, env)
  else
  match load setup.go answers.load env.disk setup.id with
  | .error message =>
    failSyncedPolicy setup answers.stop
      (loadedPolicy setup.go answers.load env.disk setup.id) { message } env
  | .ok old =>
  if incoming = none ∧ old.revision = 0 ∧ required setup old = false then
    let env := { env with allocations }
    (none, env.storeNetworkStatus (pendingNetworkStatus setup env old))
  else
  if incoming.any (fun next => decide (next.revision < old.revision)) then
    (some networkConflict, env)
  else
  match (incoming.bind fun next =>
      validatePolicyUpdate setup old next allocations).or
      (checkPolicySupport setup answers.support old (incoming.getD old)) with
  | some problem => failSyncedPolicy setup answers.stop old problem env
  | none =>
  match answers.expired with
  | some problem => (some problem, env)
  | none =>
    applySettings setup answers allocations old (incoming.getD old) env

def beginNetworkChange (faults : Faults) (env : Environment) : Option Problem × Environment :=
  match load setup.go faults env.disk setup.id with
  | .error message =>
    let policy := loadedPolicy setup.go faults env.disk setup.id
    (some { message }, failNetworkStatus setup env policy { message })
  | .ok policy => (none, markPending setup env policy)

structure Finishing where
  load : Faults := {}
  inspect : Except Problem Container
  verify : Verifying := {}
  stop : Stopping
  reconcile : Reconciling

def finishNetworkStart (answers : Finishing) (env : Environment) : Option Problem × Environment :=
  if setup.runtime = false then reconcileNetwork setup answers.reconcile env
  else
  match load setup.go answers.load env.disk setup.id with
  | .error message =>
    failSyncedPolicy setup answers.stop
      (loadedPolicy setup.go answers.load env.disk setup.id) { message } env
  | .ok policy =>
  match answers.inspect with
  | .error problem => failSyncedPolicy setup answers.stop policy problem env
  | .ok container =>
  if required setup policy = false ∧ container.managed = false then
    (none, env)
  else
  match verifyNetwork setup env policy container answers.verify with
  | (some problem, env) =>
    failSyncedPolicy setup answers.stop policy problem env
  | (none, env) => (none, storeApplied setup env policy container)

structure Monitoring where
  lock : Option Problem := none
  read : Reading

def monitorNetwork (answers : Monitoring) (env : Environment) : Environment :=
  let status := env.networkStatusSnapshot
  if status.desired.revision = 0 ∧ required setup status.desired = false then
    env
  else if status.state = .applied then
    (networkPolicy setup answers.read env).2
  else if answers.lock.isNone = true ∧ env.deleted = false then
    env.scheduleNetworkReconcile
  else env

inductive Operation where
  | read (answers : Reading)
  | update (answers : Updating) (policy : Policy)
  | settings (answers : Setting) (allocations : Assigned) (incoming : Option Policy)
  | reconcile (lock : Option Problem) (answers : Reconciling)
  | background (answers : Background)
  | reject (answers : Rejecting) (cause : Option Problem)
  | begin (faults : Faults)
  | finish (answers : Finishing)
  | monitor (answers : Monitoring)
  /-- The daemon is started again. -/
  | restart

def perform : Operation → Environment → Environment
  | .read answers, env => (networkPolicy setup answers env).2
  | .update answers policy, env =>
    (updateNetworkPolicy setup answers policy env).2
  | .settings answers allocations incoming, env =>
    (setNetworkSettings setup answers allocations incoming env).2
  | .reconcile lock answers, env =>
    if lock.isSome then env else (reconcileNetwork setup answers env).2
  | .background answers, env => reconcilePendingNetwork setup answers env
  | .reject answers cause, env =>
    (rejectNetworkPolicy setup answers cause env).2
  | .begin faults, env => (beginNetworkChange setup faults env).2
  | .finish answers, env => (finishNetworkStart setup answers env).2
  | .monitor answers, env => monitorNetwork setup answers env
  | .restart, env => { disk := env.disk, allocations := env.allocations }

def Performs (env : Environment) (operation : Operation) (after : Environment) : Prop :=
  after = perform setup operation env

end Operations

end Wings.NetworkPolicy.Envelope.Enforcement
