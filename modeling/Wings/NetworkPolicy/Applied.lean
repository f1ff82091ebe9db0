import Wings.Library.Transition
import Wings.NetworkPolicy.Environment

/-!
# Applied statuses and saved revisions

A status that says that a policy is applied is backed by the saved policy and by its last
application or verification, unless there was nothing to enforce. The revision of the saved policy
never decreases, and as long as it stays the same the rules do.
-/

namespace Wings.NetworkPolicy.Envelope.Enforcement

open FallibleProgram Transition

theorem load_of_faults {go : Libraries} {faults : Faults} {disk : Disk}
    {id : String} (loaded : load go faults disk id = .ok policy) :
    load go {} disk id = .ok policy := by
  have read : ∀ {text}, readState go faults disk id = .ok text →
      readState go {} disk id = .ok text := by
    intro text read
    obtain ⟨named, missing | ⟨owned, _, entry⟩⟩ := readState_eq_ok_iff.1 read
    · exact readState_eq_ok_iff.2 ⟨named, .inl missing⟩
    · refine readState_eq_ok_iff.2 ⟨named, .inr ⟨owned, rfl, ?_⟩⟩
      rcases entry with missing | ⟨data, regular, _, _, _, equal⟩
      · exact .inl missing
      · exact .inr ⟨data, regular, rfl, rfl, rfl, equal⟩
  rcases load_eq_ok_iff.1 loaded with ⟨none, equal⟩ | ⟨data, some, decoded⟩
  · exact load_eq_ok_iff.2 (.inl ⟨read none, equal⟩)
  · exact load_eq_ok_iff.2 (.inr ⟨data, read some, decoded⟩)

def LastSucceeded (attempts : List Attempt) (policy : Policy) (container : String) : Prop :=
  (attempts.find? fun attempt =>
    decide (attempt.policy = policy ∧ attempt.container = container)).any Attempt.succeeded = true

theorem lastSucceeded_cons (attempts : List Attempt) (policy : Policy) (container : String) :
    LastSucceeded (⟨policy, container, true⟩ :: attempts) policy container := by
  rw [LastSucceeded, List.find?_cons_of_pos]
  · rfl
  · exact decide_eq_true ⟨rfl, rfl⟩

theorem LastSucceeded.cons (succeeded : LastSucceeded attempts policy container) (other : Policy)
    (place : String) : LastSucceeded (⟨other, place, true⟩ :: attempts) policy container := by
  rw [LastSucceeded, List.find?_cons]
  split
  · rfl
  · exact succeeded

structure Backed (setup : Setup) (env : Environment) (status : Status) : Prop where
  verified : env.verified = true
  revision : status.appliedRevision = status.desired.revision
  hash : status.appliedHash = some status.desired.policyHash
  policy : env.appliedPolicy = some status.desired
  saved : load setup.go {} env.disk setup.id = .ok status.desired
  enforced : LastSucceeded env.attempts status.desired env.recorded.id ∨
    required setup status.desired = false ∧ env.recorded.managed = false

def Truthful (setup : Setup) (env : Environment) : Prop :=
  env.networkStatusSnapshot.state = .applied → Backed setup env env.networkStatusSnapshot

variable {env after : Environment}

theorem truthful_of_state (state : State) (other : state ≠ .applied)
    (stored : env.networkStatusSnapshot.state = state) : Truthful setup env :=
  fun applied => absurd (stored.symm.trans applied) other

theorem truthful_storeApplied (saved : load setup.go {} env.disk setup.id = .ok policy)
    (enforced : LastSucceeded env.attempts policy container.id ∨
    required setup policy = false ∧ container.managed = false) :
    Truthful setup (storeApplied setup env policy container) := by
  rw [storeApplied]
  split
  · exact truthful_of_state .pending (by decide) rfl
  · intro _
    exact ⟨rfl, rfl, rfl, rfl, saved, enforced⟩

theorem Truthful.record (truthful : Truthful setup env) (policy : Policy) (container : Container) :
    Truthful setup (env.record policy container none) := by
  intro applied
  have backed := truthful applied
  refine { backed with enforced := ?_ }
  rcases backed.enforced with succeeded | nothing
  · exact .inl (succeeded.cons policy container.id)
  · exact .inr nothing

structure Keeps (setup : Setup) (env after : Environment) : Prop where
  disk : after.disk = env.disk
  truthful : Truthful setup env → Truthful setup after

namespace Keeps

theorem refl : Keeps setup env env := ⟨rfl, id⟩

theorem trans (first : Keeps setup env after)
    (second : Keeps setup after last) : Keeps setup env last :=
  ⟨second.disk.trans first.disk, second.truthful ∘ first.truthful⟩

theorem of_state (state : State) (other : state ≠ .applied) (disk : after.disk = env.disk)
    (stored : after.networkStatusSnapshot.state = state) : Keeps setup env after :=
  ⟨disk, fun _ => truthful_of_state state other stored⟩

theorem record (policy : Policy) (container : Container) :
    Keeps setup env (env.record policy container none) :=
  ⟨rfl, fun truthful => truthful.record policy container⟩

theorem schedule : Keeps setup env env.scheduleNetworkReconcile := ⟨rfl, fun truthful applied => by
    have backed := truthful applied
    exact { backed with }⟩

end Keeps

theorem keeps_markPending (policy : Policy) : Keeps setup env (markPending setup env policy) :=
  .of_state .pending (by decide) rfl rfl

theorem verifyNetwork_eq (verified : verifyNetwork setup env policy container answers =
    (outcome, after)) : after = env.record policy container outcome := by
  cases verified
  rfl

theorem keeps_readApplied (answers : Reading) (policy : Policy) :
    Keeps setup env (readApplied setup answers policy env) := by
  rw [readApplied]
  cases answers.inspect with
  | error problem =>
    dsimp only
    split_ifs
    · exact .of_state .pending (by decide) rfl rfl
    · exact .of_state .pending (by decide) rfl rfl
    · exact .of_state .failed (by decide) rfl rfl
  | ok container =>
    dsimp only
    split_ifs
    · rcases verified : verifyNetwork setup env policy container
        answers.verify with ⟨_ | problem, checked⟩
      · rw [verifyNetwork_eq verified]
        exact .record policy container
      · have disk : checked.disk = env.disk := by
          rw [verifyNetwork_eq verified]
          rfl
        dsimp only
        split_ifs
        · exact .of_state .pending (by decide) disk rfl
        · exact .of_state .failed (by decide) disk rfl
    · exact .of_state .failed (by decide) rfl rfl
    · exact .of_state .pending (by decide) rfl rfl

theorem keeps_networkPolicy (answers : Reading) :
    Keeps setup env (networkPolicy setup answers env).2 := by
  rw [networkPolicy]
  cases answers.expired with
  | some problem => exact .refl
  | none =>
    split_ifs
    · exact .refl
    · cases load setup.go answers.load env.disk setup.id with
      | error message => exact .of_state .failed (by decide) rfl rfl
      | ok policy =>
        dsimp only [readLoaded]
        split_ifs
        · exact (keeps_markPending policy).trans (keeps_readApplied answers policy)
        · exact keeps_markPending policy
        · exact keeps_readApplied answers policy
        · exact .refl

/-- An application changes no file, and it succeeds only if the last attempt
does. -/
structure Tried (env : Environment) (policy : Policy) (container : Container)
    (result : Result) : Prop where
  disk : result.env.disk = env.disk
  succeeded : result.error = none → LastSucceeded result.env.attempts policy container.id

theorem lastSucceeded_record (succeeded : outcome = none) :
    LastSucceeded (env.record policy container outcome).attempts policy container.id := by
  rw [succeeded]
  exact lastSucceeded_cons env.attempts policy container.id

theorem disk_verifyPrevious (answers : Reconciling) (previous : Policy) (container : Container) :
    (verifyPrevious setup answers previous container env).2.disk = env.disk := by
  rw [verifyPrevious]
  cases answers.current with
  | error problem => rfl
  | ok current =>
    dsimp only
    split_ifs <;> rfl

theorem tried_replaceLiveFirewall (setup : Setup) (env : Environment)
    (answers : Reconciling) (previous policy : Policy) (container : Container) :
    Tried env policy container
    (replaceLiveFirewall setup answers previous policy container env) := by
  rw [replaceLiveFirewall]
  cases answers.replace with
  | none => exact ⟨rfl, lastSucceeded_record⟩
  | some problem =>
    refine ⟨disk_verifyPrevious answers previous container, ?_⟩
    intro none
    cases none

theorem tried_applyPolicy (setup : Setup) (env : Environment)
    (answers : Reconciling) (policy : Policy) (container : Container) : Tried env policy container
    (applyPolicy setup answers policy container env) := by
  rw [applyPolicy]
  dsimp only
  split
  · exact ⟨rfl, lastSucceeded_record⟩
  · rename_i previous _
    split_ifs
    · have tried := tried_replaceLiveFirewall setup
        (env.record previous container (verifyNetworkPolicy setup env
          previous container answers.previous)) answers previous policy container
      exact ⟨tried.disk, tried.succeeded⟩
    · exact ⟨rfl, lastSucceeded_record⟩

inductive Reconciled (setup : Setup) (loaded : Except String Policy)
    (env : Environment) : Environment → Prop
  | unchanged : Reconciled setup loaded env env
  | applied {middle : Environment} {policy : Policy} {container : Container} :
      loaded = .ok policy →
      middle.disk = env.disk → (LastSucceeded middle.attempts policy container.id ∨
        required setup policy = false ∧ container.managed = false) →
      Reconciled setup loaded env (storeApplied setup middle policy container)

theorem disk_storeApplied (policy : Policy) (container : Container) :
    (storeApplied setup env policy container).disk = env.disk := by
  rw [storeApplied]
  split_ifs <;> rfl

structure Outcome (setup : Setup) (loaded : Except String Policy)
    (env : Environment) (result : Result) : Prop where
  disk : result.env.disk = env.disk
  reconciled : result.error = none → Reconciled setup loaded env result.env

theorem Outcome.unchanged : Outcome setup loaded env ⟨error, protect, retained, env⟩ :=
    ⟨rfl, fun _ => .unchanged⟩

theorem outcome_reconcileManaged (answers : Reconciling) (policy : Policy) (container : Container) :
    Outcome setup (.ok policy) env (reconcileManaged setup answers policy container env) := by
  unfold reconcileManaged
  split
  · exact .unchanged
  split
  · exact .unchanged
  have tried := tried_applyPolicy setup env answers policy container
  cases failed : (applyPolicy setup answers policy container env).error with
  | some problem =>
    dsimp only
    rw [failed]
    refine ⟨tried.disk, fun none => ?_⟩
    rw [failed] at none
    cases none
  | none =>
    dsimp only
    rw [failed]
    exact ⟨(disk_storeApplied policy container).trans tried.disk,
      fun _ => .applied rfl tried.disk (.inl (tried.succeeded failed))⟩

theorem outcome_reconcileRunning (answers : Reconciling) (policy : Policy) (container : Container) :
    Outcome setup (.ok policy) env (reconcileRunning setup answers policy container env) := by
  rw [reconcileRunning]
  by_cases free : required setup policy = false ∧ container.managed = false
  · rw [if_pos free]
    split
    · exact ⟨disk_storeApplied policy container, fun _ => .applied rfl rfl (.inr free)⟩
    · exact .unchanged
  · rw [if_neg free]
    split
    · exact .unchanged
    · split
      · exact .unchanged
      · exact outcome_reconcileManaged answers policy container

theorem outcome_reconcile (setup : Setup) (env : Environment)
    (answers : Reconciling) (loaded : Except String Policy) :
    Outcome setup loaded env (reconcile setup answers loaded env) := by
  unfold reconcile
  cases loaded with
  | error message => exact .unchanged
  | ok policy =>
    dsimp only
    split
    · exact .unchanged
    cases answers.inspect with
    | error problem =>
      dsimp only
      split_ifs <;> exact .unchanged
    | ok container =>
      dsimp only
      split
      · exact .unchanged
      · exact outcome_reconcileRunning answers policy container

theorem truthful_of_reconciled (reconciled :
    Reconciled setup (load setup.go faults env.disk setup.id)
    (markPending setup env policy) after) : Truthful setup after := by
  cases reconciled with
  | unchanged => exact truthful_of_state .pending (by decide) rfl
  | applied loaded disk enforced =>
    apply truthful_storeApplied _ enforced
    rw [disk]
    exact load_of_faults loaded

theorem settled_reconcileNetwork (running : answers.expired = none)
    (present : env.deleted = false) : (reconcileNetwork setup answers env).2.disk = env.disk ∧
    Truthful setup (reconcileNetwork setup answers env).2 := by
  rw [reconcileNetwork, running, present]
  dsimp only
  rw [if_neg (by decide)]
  have outcome := outcome_reconcile setup (markPending setup env
      (loadedPolicy setup.go answers.load env.disk setup.id)) answers
    (load setup.go answers.load env.disk setup.id)
  have failed : ∀ after : Environment, after.disk = (reconcile setup answers
        (load setup.go answers.load env.disk setup.id)
        (markPending setup env (loadedPolicy setup.go answers.load env.disk
          setup.id))).env.disk →
      after.networkStatusSnapshot.state = .failed → after.disk = env.disk ∧ Truthful setup after :=
    fun after disk stored => ⟨disk.trans outcome.disk, truthful_of_state .failed (by decide) stored⟩
  split
  · rename_i none
    exact ⟨outcome.disk, truthful_of_reconciled (outcome.reconciled none)⟩
  · split
    · exact failed _ rfl rfl
    · split
      · split <;> exact failed _ rfl rfl
      · split
        · exact failed _ rfl rfl
        · split <;> exact failed _ rfl rfl

theorem keeps_reconcileNetwork (answers : Reconciling) :
    Keeps setup env (reconcileNetwork setup answers env).2 := by
  cases expired : answers.expired with
  | some problem =>
    rw [reconcileNetwork, expired]
    exact .refl
  | none =>
    cases deleted : env.deleted with
    | true =>
      rw [reconcileNetwork, expired, deleted]
      exact .refl
    | false =>
      obtain ⟨disk, truthful⟩ := settled_reconcileNetwork expired deleted
      exact ⟨disk, fun _ => truthful⟩

theorem verifyRecordedNetwork_eq (verified : verifyRecordedNetwork setup answers env =
    (outcome, after)) : after.disk = env.disk ∧ after.deleted = env.deleted ∧
    (outcome = none → Truthful setup after) := by
  unfold verifyRecordedNetwork at verified
  split at verified
  · cases verified
    exact ⟨rfl, rfl, nofun⟩
  rename_i policy loaded
  split at verified
  · cases verified
    exact ⟨rfl, rfl, nofun⟩
  rename_i container _
  split at verified
  · cases verified
    exact ⟨rfl, rfl, nofun⟩
  split at verified
  · rename_i checked
    cases verified
    rw [verifyNetwork_eq checked]
    exact ⟨rfl, rfl, nofun⟩
  · rename_i checked
    cases verified
    rw [verifyNetwork_eq checked]
    refine ⟨disk_storeApplied policy container, ?_, fun _ => ?_⟩
    · rw [storeApplied]
      split_ifs <;> rfl
    · exact truthful_storeApplied (load_of_faults loaded) (.inl (lastSucceeded_record rfl))

theorem disk_reconcilePendingNetwork (answers : Background) :
    (reconcilePendingNetwork setup answers env).disk = env.disk := by
  rw [reconcilePendingNetwork]
  dsimp only
  split_ifs
  · rfl
  · rfl
  · rcases verified : verifyRecordedNetwork setup answers.recorded
      { env with scheduled := false } with ⟨_ | problem, checked⟩
    · exact (verifyRecordedNetwork_eq verified).1
    · exact (keeps_reconcileNetwork answers.reconcile).disk.trans
        (verifyRecordedNetwork_eq verified).1

theorem keeps_reconcilePendingNetwork (running : answers.reconcile.expired = none) :
    Keeps setup env (reconcilePendingNetwork setup answers env) := by
  refine ⟨disk_reconcilePendingNetwork answers, fun truthful => ?_⟩
  rw [reconcilePendingNetwork]
  have unscheduled : Truthful setup { env with scheduled := false } := by
    intro applied
    have backed := truthful applied
    exact { backed with }
  dsimp only
  split_ifs with idle stopped
  · exact truthful
  · exact unscheduled
  · rcases verified : verifyRecordedNetwork setup answers.recorded
      { env with scheduled := false } with ⟨_ | problem, checked⟩
    · exact (verifyRecordedNetwork_eq verified).2.2 rfl
    · have present : checked.deleted = false := by
        rw [(verifyRecordedNetwork_eq verified).2.1]
        exact Bool.eq_false_iff.2 fun deleted => stopped (.inr deleted)
      exact (settled_reconcileNetwork running present).2

theorem failSyncedPolicy_fails (setup : Setup) (env : Environment)
    (answers : Stopping) (policy : Policy) (cause : Problem) :
    (failSyncedPolicy setup answers policy cause env).2.disk = env.disk ∧
    (failSyncedPolicy setup answers policy cause env).2.networkStatusSnapshot.state = .failed := by
  rw [failSyncedPolicy]
  cases answers.inspect with
  | error problem =>
    dsimp only
    split_ifs <;> exact ⟨rfl, rfl⟩
  | ok container =>
    dsimp only
    split_ifs
    · exact ⟨rfl, rfl⟩
    · split <;> exact ⟨rfl, rfl⟩

theorem keeps_failSyncedPolicy (disk : middle.disk = env.disk) (answers : Stopping)
    (policy : Policy) (cause : Problem) :
    Keeps setup env (failSyncedPolicy setup answers policy cause middle).2 := by
  have fails := failSyncedPolicy_fails setup middle answers policy cause
  exact .of_state .failed (by decide) (fails.1.trans disk) fails.2

theorem keeps_rejectNetworkPolicy (answers : Rejecting) (cause : Option Problem) :
    Keeps setup env (rejectNetworkPolicy setup answers cause env).2 := by
  rw [rejectNetworkPolicy]
  cases answers.lock with
  | some problem => exact .refl
  | none =>
    split_ifs
    · exact .refl
    cases answers.inspect with
    | error problem | ok container =>
      dsimp only
      split_ifs
      · exact .of_state .failed (by decide) rfl rfl
      · split <;> exact .of_state .failed (by decide) rfl rfl

theorem keeps_beginNetworkChange (faults : Faults) :
    Keeps setup env (beginNetworkChange setup faults env).2 := by
  rw [beginNetworkChange]
  split
  · exact .of_state .failed (by decide) rfl rfl
  · exact keeps_markPending _

theorem keeps_finishNetworkStart (answers : Finishing) :
    Keeps setup env (finishNetworkStart setup answers env).2 := by
  rw [finishNetworkStart]
  split
  · exact keeps_reconcileNetwork answers.reconcile
  split
  · exact keeps_failSyncedPolicy rfl answers.stop _ _
  rename_i policy loaded
  split
  · exact keeps_failSyncedPolicy rfl answers.stop policy _
  rename_i container _
  split
  · exact .refl
  split
  · rename_i problem checked verified
    have disk : checked.disk = env.disk := by
      rw [verifyNetwork_eq verified]
      rfl
    exact keeps_failSyncedPolicy disk answers.stop policy problem
  · rename_i checked verified
    rw [verifyNetwork_eq verified]
    exact ⟨disk_storeApplied policy container, fun _ =>
      truthful_storeApplied (load_of_faults loaded) (.inl (lastSucceeded_record rfl))⟩
theorem keeps_monitorNetwork (answers : Monitoring) :
    Keeps setup env (monitorNetwork setup answers env) := by
  rw [monitorNetwork]
  split_ifs
  · exact .refl
  · exact keeps_networkPolicy answers.read
  · exact .schedule
  · exact .refl

theorem confirm_eq (checked : confirm setup answers policy env = (confirmed, after)) :
    after.disk = env.disk ∧ (confirmed = true → Truthful setup env → Truthful setup after) := by
  rw [confirm] at checked
  cases inspected : answers.inspect with
  | error problem =>
    rw [inspected] at checked
    cases checked
    exact ⟨rfl, nofun⟩
  | ok container =>
    rw [inspected] at checked
    dsimp only at checked
    split_ifs at checked
    · cases checked
      refine ⟨rfl, fun none truthful => ?_⟩
      rw [Option.isNone_iff_eq_none] at none
      have recorded := truthful.record policy container
      rw [← none] at recorded
      exact recorded
    · cases checked
      exact ⟨rfl, nofun⟩

theorem saveNetworkPolicy_eq (saved : saveNetworkPolicy setup answers policy changed env =
    (outcome, after)) :
    ∃ disk, after = { env with disk } ∧ (disk = env.disk ∨ changed = true ∧
        disk = ((save setup.go answers.save setup.id policy).run env.disk).2) := by
  rw [saveNetworkPolicy] at saved
  split at saved
  · cases saved
    exact ⟨env.disk, rfl, .inl rfl⟩
  · cases changed with
    | false =>
      cases saved
      exact ⟨env.disk, rfl, .inl rfl⟩
    | true =>
      dsimp only at saved
      split at saved <;> cases saved <;> exact ⟨_, rfl, .inr ⟨rfl, rfl⟩⟩

theorem truthful_changePolicy (answers : Updating) (old policy : Policy) :
    Truthful setup (changePolicy setup answers old policy env).2 := by
  rw [changePolicy]
  rcases saved : saveNetworkPolicy setup answers.save policy
    (differs old policy) (markPending setup env policy) with
    ⟨_ | problem, after⟩
  · obtain ⟨disk, rfl, _⟩ := saveNetworkPolicy_eq saved
    exact truthful_of_state .pending (by decide) rfl
  · exact truthful_of_state .failed (by decide) rfl

theorem truthful_updateNetworkPolicy (truthful : Truthful setup env)
    (answers : Updating) (policy : Policy) :
    Truthful setup (updateNetworkPolicy setup answers policy env).2 := by
  rw [updateNetworkPolicy]
  split
  · exact truthful
  split
  · exact truthful
  split
  · exact truthful_of_state .failed (by decide) rfl
  split
  · exact truthful
  split
  · split
    · rename_i checked
      exact (confirm_eq checked).2 rfl truthful
    · exact truthful_changePolicy answers _ policy
  · exact truthful_changePolicy answers _ policy

theorem truthful_applySettings (truthful : Truthful setup env)
    (answers : Setting) (allocations : Assigned) (old next : Policy) : Truthful setup
    (applySettings setup answers allocations old next env).2 := by
  rw [applySettings]
  rcases saved : saveNetworkPolicy setup answers.save next (differs old next)
    env with ⟨_ | problem, after⟩
  · obtain ⟨disk, rfl, kept⟩ := saveNetworkPolicy_eq saved
    have reconciled : ∀ middle, Truthful setup (reconcileNetwork setup
        answers.reconcile (markPending setup middle next)).2 := fun middle =>
      (keeps_reconcileNetwork answers.reconcile).truthful
        (truthful_of_state .pending (by decide) rfl)
    dsimp only
    split
    · rename_i same
      split
      · rename_i checked
        apply (confirm_eq checked).2 rfl
        intro applied
        have backed := truthful applied
        refine { backed with saved := ?_ }
        rcases kept with kept | ⟨changed, _⟩
        · dsimp only
          rw [kept]
          exact backed.saved
        · rw [same.1] at changed
          cases changed
      · exact reconciled _
    · exact reconciled _
  · dsimp only
    split <;> exact truthful_of_state .failed (by decide) (failSyncedPolicy_fails _ _ _ _ _).2

theorem truthful_setNetworkSettings (truthful : Truthful setup env)
    (answers : Setting) (allocations : Assigned) (incoming : Option Policy) : Truthful setup
    (setNetworkSettings setup answers allocations incoming env).2 := by
  have failed : ∀ policy cause, Truthful setup
      (failSyncedPolicy setup answers.stop policy cause env).2 :=
    fun policy cause => truthful_of_state .failed (by decide)
      (failSyncedPolicy_fails setup env answers.stop policy cause).2
  rw [setNetworkSettings]
  split
  · exact truthful
  split
  · exact failed _ _
  split
  · exact truthful_of_state .pending (by decide) rfl
  split
  · exact truthful
  split
  · exact failed _ _
  split
  · exact truthful
  · exact truthful_applySettings truthful answers allocations _ _

/-- The environment of a server whose policy may have been saved before. -/
def Fresh (env : Environment) : Prop := ∃ disk allocations, env = { disk, allocations }

/-- The context has not expired when a background verification has failed. -/
def Prompt (_ : Environment) (operation : Operation) : Prop :=
  ∀ answers, operation = .background answers → answers.reconcile.expired = none

theorem truthful_perform (prompt : Prompt env operation)
    (truthful : Truthful setup env) : Truthful setup (perform setup operation env) := by
  cases operation with
  | read answers => exact (keeps_networkPolicy answers).truthful truthful
  | update answers policy =>
    exact truthful_updateNetworkPolicy truthful answers policy
  | settings answers allocations incoming =>
    exact truthful_setNetworkSettings truthful answers allocations incoming
  | reconcile lock answers =>
    rw [perform]
    split
    · exact truthful
    · exact (keeps_reconcileNetwork answers).truthful truthful
  | background answers =>
    exact (keeps_reconcilePendingNetwork (prompt answers rfl)).truthful truthful
  | reject answers cause =>
    exact (keeps_rejectNetworkPolicy answers cause).truthful truthful
  | begin faults =>
    exact (keeps_beginNetworkChange faults).truthful truthful
  | finish answers =>
    exact (keeps_finishNetworkStart answers).truthful truthful
  | monitor answers =>
    exact (keeps_monitorNetwork answers).truthful truthful
  | restart => exact truthful_of_state .pending (by decide) rfl

/-- A status that says applied is backed, if no background reconciliation finds its context expired
after its verification has failed. -/
theorem applied_status_backed (setup : Setup) {env : Environment}
    (reached : Reachable Fresh (Guarded Prompt (Performs setup)) env) : Truthful setup env := by
  refine reached.invariant ?_ ?_
  · rintro _ ⟨disk, allocations, rfl⟩
    exact truthful_of_state .pending (by decide) rfl
  · rintro env operation _ truthful ⟨prompt, rfl⟩
    exact truthful_perform prompt truthful

def openSetup : Setup where
  go := openLibraries
  id := "open"
  compileRuleset _ _ := .ok ()

def openServer : Environment where
  disk := ⟨.owned, fun _ => .regular (openDocument ['0'])⟩

def openContainer : Container :=
  { id := "container", running := true, managed := true, trusted := true }

def deadline : Problem := { message := "context deadline exceeded", interrupted := true }

def applies : Operation := .reconcile none { inspect := .ok openContainer }

def interruptedRead : Operation := .read
    { inspect := .ok openContainer
      verify := { checks := some deadline } }

def lateVerification : Operation := .background
    { recorded := { inspect := .ok openContainer
                    verify := { checks := some deadline } }
      reconcile := { expired := some deadline
                     inspect := .ok openContainer } }

theorem fresh_openServer : Fresh openServer := ⟨_, [], rfl⟩

/-- The policy is applied again before a network is verified that an
interrupted read has left. -/
def reapplied : Environment := perform openSetup applies (perform openSetup interruptedRead
      (perform openSetup applies openServer))

theorem reached_reapplied : Reachable Fresh (Guarded Prompt (Performs openSetup)) reapplied := by
  apply Reachable.next _ applies ⟨fun _ => Operation.noConfusion, rfl⟩
  apply Reachable.next _ interruptedRead ⟨fun _ => Operation.noConfusion, rfl⟩
  apply Reachable.next _ applies ⟨fun _ => Operation.noConfusion, rfl⟩
  exact .start fresh_openServer

theorem reapplied_status_backed : reapplied.networkStatusSnapshot.state = .applied ∧
      Backed openSetup reapplied reapplied.networkStatusSnapshot := by
  have applied : reapplied.networkStatusSnapshot.state = .applied := by
    decide +kernel
  exact ⟨applied, applied_status_backed openSetup reached_reapplied applied⟩

/-- The network is verified late and the verification fails. -/
theorem late_verification_not_backed : ∃ env, Reachable Fresh (Performs openSetup) env ∧
      env.networkStatusSnapshot.state = .applied ∧
      ¬LastSucceeded env.attempts env.networkStatusSnapshot.desired env.recorded.id ∧
      env.recorded.managed = true := by
  refine ⟨perform openSetup lateVerification reapplied, ?_, ?_⟩
  · exact .next reached_reapplied.of_guarded lateVerification rfl
  · rw [LastSucceeded]
    decide +kernel

end Wings.NetworkPolicy.Envelope.Enforcement

namespace Wings.NetworkPolicy.Envelope.Enforcement

open FallibleProgram Transition

structure Succeeds (old next : Policy) : Prop where
  revision : old.revision ≤ next.revision
  rules : old.revision = next.revision → old.body = next.body

namespace Succeeds

theorem refl (policy : Policy) : Succeeds policy policy := ⟨UInt64.le_refl _, fun _ => rfl⟩

theorem trans (one : Succeeds first second)
    (two : Succeeds second third) : Succeeds first third := by
  refine ⟨UInt64.le_trans one.revision two.revision, ?_⟩
  intro equal
  have same : first.revision = second.revision := by
    apply UInt64.le_antisymm one.revision
    rw [equal]
    exact two.revision
  exact (one.rules same).trans (two.rules (same.symm.trans equal))

end Succeeds

def Follows (setup : Setup) (before after : Disk) : Prop :=
  ∀ old, load setup.go {} before setup.id = .ok old →
    ∃ next, load setup.go {} after setup.id = .ok next ∧ Succeeds old next

namespace Follows

theorem of_load_eq (same : load setup.go {} after setup.id =
    load setup.go {} before setup.id) : Follows setup before after :=
  fun old loaded => ⟨old, same.trans loaded, .refl old⟩

theorem refl : Follows setup before before := of_load_eq rfl

theorem of_eq (same : after = before) : Follows setup before after := of_load_eq (by rw [same])

theorem trans (first : Follows setup before middle)
    (second : Follows setup middle after) : Follows setup before after := by
  intro old loaded
  obtain ⟨next, between, earlier⟩ := first old loaded
  obtain ⟨last, found, later⟩ := second next between
  exact ⟨last, found, earlier.trans later⟩

end Follows

theorem load_made (go : Libraries) (disk : Disk) (id : String) :
    load go {} disk.made id = load go {} disk id := by
  by_cases missing : disk.directory = .missing
  · rw [Disk.made, if_pos missing, load, load, readState, readState, missing]
    rfl
  · rw [Disk.made, if_neg missing]

def Stores (go : Libraries) (id : String) (policy : Policy) (before after : Disk) : Prop :=
  load go {} after id = load go {} before id ∨ load go {} after id = .ok policy

namespace Stores

variable {id : String}

theorem refl (disk : Disk) : Stores go id policy disk disk := .inl rfl

theorem trans (first second third : Disk) (one : Stores go id policy first second)
    (two : Stores go id policy second third) : Stores go id policy first third := by
  rcases two with same | new
  · rw [Stores, same]
    exact one
  · exact .inr new

theorem made (disk : Disk) : Stores go id policy disk disk.made := .inl (load_made go disk id)

theorem replace (validated : validateStatic go policy = .ok ()) (disk : Disk) :
    Stores go id policy disk (disk.replace id (marshal policy)) := by
  by_cases named : go.netip.parseUUID id = some id
  · cases directory : disk.directory with
    | owned =>
      right
      have owned : (disk.replace id (marshal policy)).directory = .owned := directory
      exact load_regular named owned (Function.update_self _ _ _) (decode_marshal validated)
    | missing =>
      left
      rw [load, load, readState, readState, Disk.replace, directory]
      rfl
    | foreign =>
      left
      obtain ⟨message, refused⟩ := privatePolicyDirectory_foreign {}
      rw [load, load, readState, readState, Disk.replace, directory, refused]
  · left
    have refused : policyPath go id = .error "invalid server UUID" := if_neg named
    rw [load, load, readState, readState, refused]
    rfl

end Stores

theorem stores_save (go : Libraries) (faults : Faults) (id : String)
    (policy : Policy) (disk : Disk) :
    Stores go id policy disk ((save go faults id policy).run disk).2 := by
  rw [save, run_liftExcept_bind]
  cases validated : validateStatic go policy with
  | error message => exact .refl disk
  | ok _ =>
    have bind : ∀ {α β : Type} {program : Program String Disk α} {next : α → Program String Disk β},
        Relates (Stores go id policy) program →
        (∀ value, Relates (Stores go id policy) (next value)) →
        Relates (Stores go id policy) (do next (← program)) := Relates.bind Stores.trans
    have lift : ∀ {α : Type} (outcome : Except String α), Relates (Stores go id policy)
          (liftExcept outcome : Program String Disk α) := Relates.lift Stores.refl
    have written : Relates (Stores go id policy) (writeState faults id (marshal policy)) :=
      bind (lift _) fun _ => bind (lift _) fun _ => bind (lift _) fun _ =>
        bind (lift _) fun _ =>
        bind (Relates.change (Stores.replace validated)) fun _ =>
        bind (lift _) fun _ => lift _
    exact bind (lift _) (fun _ =>
      bind (bind (lift _) fun _ => Relates.change Stores.made) fun _ =>
      bind (Relates.read Stores.refl) fun _ => bind (lift _) fun _ =>
      bind (lift _) fun _ => written) disk

theorem succeeds_of_validatePolicyUpdate (valid : validatePolicyUpdate setup old next owned = none)
    (different : differs old next = true) : Succeeds old next := by
  rw [validatePolicyUpdate] at valid
  split at valid
  · cases valid
  · split_ifs at valid with smaller changed
    refine ⟨UInt64.not_lt.1 smaller, fun same => ?_⟩
    by_contra rules
    have hashes : old.policyHash ≠ next.policyHash := by
      rw [differs, same] at different
      simpa using different
    exact changed ⟨same.symm, hashes.symm, fun equal => rules equal.symm⟩

theorem follows_saveNetworkPolicy (loaded : load setup.go faults env.disk setup.id = .ok old)
    (allowed : differs old next = true → Succeeds old next)
    (saved : saveNetworkPolicy setup answers next (differs old next) env =
    (outcome, after)) : Follows setup env.disk after.disk := by
  obtain ⟨disk, rfl, same | ⟨different, written⟩⟩ := saveNetworkPolicy_eq saved
  · exact .of_eq same
  · intro policy found
    rw [load_of_faults loaded] at found
    cases found
    rw [written]
    rcases stores_save setup.go answers.save setup.id next env.disk with
      kept | new
    · exact ⟨old, kept.trans (load_of_faults loaded), .refl old⟩
    · exact ⟨next, new, allowed different⟩

theorem follows_changePolicy (loaded : load setup.go faults env.disk setup.id = .ok old)
    (allowed : differs old policy = true → Succeeds old policy) (answers : Updating) :
    Follows setup env.disk (changePolicy setup answers old policy env).2.disk := by
  rw [changePolicy]
  have pending : load setup.go faults (markPending setup env policy).disk
      setup.id = .ok old := loaded
  rcases saved : saveNetworkPolicy setup answers.save policy
    (differs old policy) (markPending setup env policy) with
    ⟨_ | problem, after⟩
  · have follows := follows_saveNetworkPolicy pending allowed saved
    exact follows
  · have follows := follows_saveNetworkPolicy pending allowed saved
    exact follows.trans (.of_eq (keeps_reconcileNetwork answers.reconcile).disk)

theorem follows_updateNetworkPolicy (answers : Updating) (policy : Policy) : Follows setup env.disk
    (updateNetworkPolicy setup answers policy env).2.disk := by
  rw [updateNetworkPolicy]
  split
  · exact .refl
  split
  · exact .refl
  split
  · exact .refl
  rename_i old loaded
  split
  · exact .refl
  rename_i accepted
  have allowed : differs old policy = true → Succeeds old policy := by
    rw [Option.or_eq_none_iff, Option.or_eq_none_iff] at accepted
    exact succeeds_of_validatePolicyUpdate accepted.1.1
  split
  · split
    · rename_i checked
      exact .of_eq (confirm_eq checked).1
    · rename_i checked
      have same := (confirm_eq checked).1
      rw [← same] at loaded ⊢
      exact follows_changePolicy loaded allowed answers
  · exact follows_changePolicy loaded allowed answers

theorem follows_applySettings (loaded : load setup.go faults env.disk setup.id = .ok old)
    (allowed : differs old next = true → Succeeds old next) (answers : Setting)
    (allocations : Assigned) : Follows setup env.disk
    (applySettings setup answers allocations old next env).2.disk := by
  rw [applySettings]
  rcases saved : saveNetworkPolicy setup answers.save next (differs old next)
    env with ⟨_ | problem, after⟩
  · have follows := follows_saveNetworkPolicy loaded allowed saved
    dsimp only
    split
    · split
      · rename_i checked
        exact follows.trans (.of_eq (confirm_eq checked).1)
      · rename_i checked
        exact follows.trans (.of_eq ((keeps_reconcileNetwork answers.reconcile).disk.trans
            (confirm_eq checked).1))
    · exact follows.trans (.of_eq (keeps_reconcileNetwork answers.reconcile).disk)
  · have follows := follows_saveNetworkPolicy loaded allowed saved
    dsimp only
    split <;> exact follows.trans (.of_eq (failSyncedPolicy_fails setup after answers.stop _ _).1)

theorem follows_setNetworkSettings (answers : Setting) (allocations : Assigned)
    (incoming : Option Policy) : Follows setup env.disk
    (setNetworkSettings setup answers allocations incoming env).2.disk := by
  have failed : ∀ policy cause, Follows setup env.disk
      (failSyncedPolicy setup answers.stop policy cause env).2.disk := fun policy cause => .of_eq
      (failSyncedPolicy_fails setup env answers.stop policy cause).1
  rw [setNetworkSettings]
  split
  · exact .refl
  split
  · exact failed _ _
  rename_i old loaded
  split
  · exact .refl
  split
  · exact .refl
  split
  · exact failed _ _
  rename_i accepted
  split
  · exact .refl
  apply follows_applySettings loaded
  cases incoming with
  | none =>
    intro different
    exact .refl old
  | some next =>
    rw [Option.or_eq_none_iff] at accepted
    exact succeeds_of_validatePolicyUpdate accepted.1

theorem follows_perform (operation : Operation) :
    Follows setup env.disk (perform setup operation env).disk := by
  cases operation with
  | read answers => exact .of_eq (keeps_networkPolicy answers).disk
  | update answers policy => exact follows_updateNetworkPolicy answers policy
  | settings answers allocations incoming =>
    exact follows_setNetworkSettings answers allocations incoming
  | reconcile lock answers =>
    rw [perform]
    split
    · exact .refl
    · exact .of_eq (keeps_reconcileNetwork answers).disk
  | background answers => exact .of_eq (disk_reconcilePendingNetwork answers)
  | reject answers cause =>
    exact .of_eq (keeps_rejectNetworkPolicy answers cause).disk
  | begin faults => exact .of_eq (keeps_beginNetworkChange faults).disk
  | finish answers => exact .of_eq (keeps_finishNetworkStart answers).disk
  | monitor answers => exact .of_eq (keeps_monitorNetwork answers).disk
  | restart => exact .refl

theorem follows_run (reached : Reachable (fun env => env = earlier) (Performs setup) later) :
    Follows setup earlier.disk later.disk := by
  induction reached with
  | start isEarlier =>
    subst isEarlier
    exact .refl
  | next _ operation performed ih =>
    subst performed
    exact ih.trans (follows_perform operation)

/-- A policy found later has a higher revision, or the same revision and the same rules. -/
theorem saved_revisions_monotone (setup : Setup) {earlier later : Environment}
    (reached : Reachable (fun env => env = earlier) (Performs setup) later) {first : Policy}
    (found : load setup.go {} earlier.disk setup.id = .ok first) :
    ∃ last, load setup.go {} later.disk setup.id = .ok last ∧
      first.revision ≤ last.revision ∧
      (first.revision = last.revision → first.body = last.body) := by
  obtain ⟨last, loaded, succeeds⟩ := follows_run reached first found
  exact ⟨last, loaded, succeeds.revision, succeeds.rules⟩

theorem unsynced_policy_found : ∃ last, load openLibraries {} (perform openSetup (.update
          { support := { inspect := .ok {} }
            confirm := { inspect := .ok {} }
            save := { save := { syncDirectory := some "input/output error" } }
            reconcile := { inspect := .ok {} } } openPolicy)
        { disk := ⟨.missing, fun _ => .missing⟩ }).disk "open" = .ok last ∧
      empty.revision ≤ last.revision ∧
      (empty.revision = last.revision → empty.body = last.body) :=
  saved_revisions_monotone openSetup (.next (.start rfl) _ rfl) (by decide +kernel)

/-- The disk after calls of `save`, which may fail anywhere. -/
def saveAll (go : Libraries) (id : String) (disk : Disk) (calls : List (Faults × Policy)) : Disk :=
  calls.foldl (fun disk call => ((save go call.1 id call.2).run disk).2) disk

/-- A policy that was saved is found until the policy of a later call is, wherever those fail. -/
theorem policy_register (go : Libraries) (id : String) (disk : Disk)
    (calls : List (Faults × Policy)) :
    (∀ faults policy before, (save go faults id policy).run before = (.ok (), disk) →
      load go {} disk id = .ok policy) ∧
    (load go {} (saveAll go id disk calls) id = load go {} disk id ∨
      ∃ call ∈ calls, load go {} (saveAll go id disk calls) id = .ok call.2) := by
  constructor
  · intro faults policy before saved
    obtain ⟨validated, named, _, _, usable, written⟩ := save_eq_ok_iff.1 saved
    obtain ⟨_, _, _, _, _, _, _, rfl⟩ := writeState_eq_ok_iff.1 written
    exact load_regular named (made_directory_iff.2 usable) (Function.update_self _ _ _)
      (decode_marshal validated)
  · induction calls using List.reverseRecOn with
    | nil => exact .inl rfl
    | append_singleton calls call ih =>
      rw [saveAll, List.foldl_concat]
      rcases stores_save go call.1 id call.2 (saveAll go id disk calls) with kept | new
      · exact ih.imp kept.trans fun ⟨other, listed, found⟩ =>
          ⟨other, List.mem_append_left _ listed, kept.trans found⟩
      · exact .inr ⟨call, by simp, new⟩

end Wings.NetworkPolicy.Envelope.Enforcement
