import Wings.NetworkPolicy.Applied

/-!
# Starts by the container runtime

The daemon saves a policy and writes its revision and hash into the binding of the container, from
which the runtime enforces it. Both hold the lock of the server. A process may crash at any step,
and a step in the kernel that fails may have had its effect.
-/

namespace Wings.NetworkPolicy.Envelope.Runtime

open Enforcement FallibleProgram Processes Transition

variable {Ruleset : Type}

structure Binding where
  version : Int64 := 1
  server : String
  container : String
  generation : String
  runtime : String
  allocations : Option Assigned
  revision : UInt64
  policyHash : String

def Binding.assigned (binding : Binding) : Assigned := binding.allocations.getD []

def nilUUID : String := "00000000-0000-0000-0000-000000000000"

def Binding.validate (go : Libraries) (binding : Binding) : Except String Unit := do
  policyPath go binding.server
  require (go.netip.parseUUID binding.generation = some binding.generation ∧
    binding.generation ≠ nilUUID) "invalid runtime generation"
  require (binding.version = 1 ∧ hashPattern binding.container = true ∧
    binding.runtime ≠ "" ∧ binding.allocations.isSome = true) "incomplete runtime binding"
  require (¬(binding.revision = 0 ∧ binding.policyHash ≠ "") ∧
    ¬(0 < binding.revision ∧ hashPattern binding.policyHash = false))
    "invalid runtime policy identity"
  let _ ← assignedAllocations go binding.assigned

inductive BindingFile where
  | missing
  | stored (binding : Binding)
  | unreadable (message : String)

def loadRuntimeBinding (setup : Setup) (fault : Option PathError)
    (file : BindingFile) : Except PathError Binding :=
  match fault, file with
  | some error, _ => .error error
  | none, .missing => .error .notExist
  | none, .unreadable message => .error (.other message)
  | none, .stored binding =>
    if binding.server ≠ setup.id then
      .error (.other "runtime binding belongs to another server")
    else ((binding.validate setup.go).mapError .other).map fun _ => binding

def beforeRename (faults : Faults) : Option String :=
  [faults.mkdirAll, faults.lstat, faults.createTemp, faults.write,
    faults.sync, faults.close, faults.rename].findSome? id

def afterRename (faults : Faults) : Option String := faults.openDirectory.or faults.syncDirectory

def saveRuntimeBinding (setup : Setup) (faults : Faults) (binding : Binding)
    (file : BindingFile) : Except String Unit × BindingFile :=
  match (binding.validate setup.go), beforeRename faults with
  | .error message, _ => (.error message, file)
  | .ok (), some message => (.error message, file)
  | .ok (), none => (attempt (afterRename faults), .stored binding)

structure Shared (Ruleset : Type) where
  disk : Disk
  binding : BindingFile := .missing
  /-- The process that has the lock. -/
  holder : Option Nat := none
  /-- The rules in the table of the server, if it has one. -/
  firewall : Option Ruleset := none
  /-- The rate of each container towards the bridge, zero without a limit. -/
  upload : String → Int64 := fun _ => 0
  /-- The rate of the bridge towards each container. -/
  download : String → Int64 := fun _ => 0

structure RuntimeState where
  id : String
  pid : Int
  created : Bool
  server : String
  generation : String

inductive Install where
  | gate
  | verifyGate
  | shapeUpload
  | verifyUpload
  | shapeDownload
  | verifyDownload
  | firewall
  | verifyFirewall
  | context

section Steps

variable (setup : Setup) (compile : Policy → Assigned → Bool → Except String Ruleset)

def Install.effect (policy : Policy) (binding : Binding) (shared : Shared Ruleset) :
    Install → Option (Shared Ruleset)
  | .gate =>
    (compile policy [] true).toOption.map fun ruleset =>
      { shared with firewall := some ruleset }
  | .shapeUpload =>
    some { shared with
      upload := Function.update shared.upload binding.container (effective setup policy).upload }
  | .shapeDownload =>
    some { shared with
      download := Function.update shared.download binding.container
        (effective setup policy).download }
  | .firewall =>
    if policy.body.firewall.enabled then
      (compile policy binding.assigned false).toOption.map fun ruleset =>
        { shared with firewall := some ruleset }
    else some { shared with firewall := none }
  | .verifyGate | .verifyUpload | .verifyDownload | .verifyFirewall
  | .context => some shared

def installs (policy : Policy) : List Install :=
  (if policy.body.firewall.enabled then [.gate, .verifyGate] else []) ++
    [.shapeUpload, .verifyUpload, .shapeDownload, .verifyDownload, .firewall,
      .verifyFirewall, .context]

structure Damage (Ruleset : Type) where
  firewall : Option Ruleset
  upload : String → Int64
  download : String → Int64

def Shared.damaged (shared : Shared Ruleset) (damage : Damage Ruleset) : Shared Ruleset :=
  { shared with
    firewall := damage.firewall
    upload := damage.upload
    download := damage.download }

inductive SavePhase where
  | waiting
  | locked
  | saved
  | loaded (binding : Binding)
  | closing

inductive StartPhase where
  | waiting
  | locked
  | stated (state : RuntimeState)
  | bound (state : RuntimeState) (binding : Binding)
  | read (state : RuntimeState) (binding : Binding) (policy : Policy)
  | installing (binding : Binding) (policy : Policy) (steps : List Install)
  | closing

/-- A process: one call of `saveNetworkPolicy` or of `RuntimeStart`. -/
inductive Process where
  | idle
  | saver (policy : Policy) (changed : Bool) (phase : SavePhase)
  | starter (runtime : String) (phase : StartPhase)
  | finished

inductive Action (Ruleset : Type) where
  | beginSave (policy : Policy) (changed : Bool)
  | beginStart (runtime : String)
  /-- The call returns before it has the lock. -/
  | giveUp
  | lock
  | save (faults : Faults)
  | loadBinding (fault : Option PathError)
  | saveBinding (faults : Faults)
  | loadState (answer : Option RuntimeState)
  | loadPolicy (faults : Faults)
  /-- The namespace and the interfaces of the container are found. -/
  | findInterfaces (found : Bool)
  | install (failure : Option (Damage Ruleset))
  | start
  | release
  | crash

def Shared.release (shared : Shared Ruleset) (process : Nat) : Shared Ruleset :=
  { shared with
    holder := if shared.holder = some process then none else shared.holder }

def moveSaver (process : Nat) (policy : Policy) (changed : Bool) :
    SavePhase → Action Ruleset → Shared Ruleset → Option (Shared Ruleset × Process)
  | .waiting, .giveUp, shared => some (shared, .finished)
  | .waiting, .lock, shared =>
    if shared.holder = none then
      some ({ shared with holder := some process }, .saver policy changed .locked)
    else none
  | .locked, .save faults, shared =>
    if changed then
      let saved := (Envelope.save setup.go faults setup.id policy).run shared.disk
      some ({ shared with disk := saved.2 }, .saver policy changed
        (if saved.1.toOption.isSome then .saved else .closing))
    else some (shared, .saver policy changed .saved)
  | .saved, .loadBinding fault, shared =>
    some (shared, .saver policy changed
      ((loadRuntimeBinding setup fault shared.binding).toOption.elim .closing .loaded))
  | .loaded binding, .saveBinding faults, shared =>
    let written := saveRuntimeBinding setup faults
      { binding with
        revision := policy.revision
        policyHash := policy.policyHash } shared.binding
    some ({ shared with binding := written.2 }, .saver policy changed .closing)
  | .closing, .release, shared => some (shared.release process, .finished)
  | _, _, _ => none

def RuntimeState.fits (state : RuntimeState) (binding : Binding) : Bool :=
  state.created && 1 < state.pid && decide (state.id = binding.container) &&
    decide (state.server = binding.server) &&
    decide (state.generation = binding.generation)

def moveStarter (process : Nat) (runtime : String) :
    StartPhase → Action Ruleset → Shared Ruleset → Option (Shared Ruleset × Process)
  | .waiting, .giveUp, shared => some (shared, .finished)
  | .waiting, .lock, shared =>
    if shared.holder = none then
      some ({ shared with holder := some process }, .starter runtime .locked)
    else none
  | .locked, .loadState answer, shared =>
    some (shared, .starter runtime (answer.elim .closing .stated))
  | .stated state, .loadBinding fault, shared =>
    some (shared, .starter runtime
      (match loadRuntimeBinding setup fault shared.binding with
      | .error _ => .closing
      | .ok binding =>
        if runtime = "" ∨ binding.runtime ≠ runtime then .closing
        else .bound state binding))
  | .bound state binding, .loadPolicy faults, shared =>
    some (shared, .starter runtime
      (match load setup.go faults shared.disk setup.id with
      | .error _ => .closing
      | .ok policy =>
        if policy.revision ≠ binding.revision ∨ policy.policyHash ≠ binding.policyHash then .closing
        else .read state binding policy))
  | .read state binding policy, .findInterfaces found, shared =>
    some (shared, .starter runtime
      (match validateEnforcement setup policy binding.assigned with
      | .error _ => .closing
      | .ok () =>
        if state.fits binding && found then
          .installing binding policy (installs policy)
        else .closing))
  | .installing binding policy (step :: steps), .install failure, shared =>
    match failure, step.effect setup compile policy binding shared with
    | some damage, _ =>
      some (shared.damaged damage, .starter runtime .closing)
    | none, none => some (shared, .starter runtime .closing)
    | none, some after =>
      some (after, .starter runtime (.installing binding policy steps))
  | .installing _ _ [], .start, shared =>
    some (shared, .starter runtime .closing)
  | .closing, .release, shared => some (shared.release process, .finished)
  | _, _, _ => none

def move (process : Nat) :
    Action Ruleset → Shared Ruleset → Process → Option (Shared Ruleset × Process)
  | .crash, shared, _ => some (shared.release process, .finished)
  | .beginSave policy changed, shared, .idle =>
    some (shared, .saver policy changed .waiting)
  | .beginStart runtime, shared, .idle =>
    some (shared, .starter runtime .waiting)
  | action, shared, .saver policy changed phase =>
    moveSaver setup process policy changed phase action shared
  | action, shared, .starter runtime phase =>
    moveStarter setup compile process runtime phase action shared
  | _, _, _ => none

/-- Before any process has begun. The files and the kernel are arbitrary. -/
def Initial (config : Config (Shared Ruleset) Process) : Prop :=
  config.shared.holder = none ∧ ∀ process, config.own process = .idle

end Steps

def Process.critical : Process → Bool
  | .saver _ _ .waiting => false
  | .saver _ _ _ => true
  | .starter _ .waiting => false
  | .starter _ _ => true
  | .idle | .finished => false

structure Matches (setup : Setup) (shared : Shared Ruleset) (binding : Binding)
    (policy : Policy) : Prop where
  saved : load setup.go {} shared.disk setup.id = .ok policy
  bound : shared.binding = .stored binding
  revision : policy.revision = binding.revision
  hash : policy.policyHash = binding.policyHash

structure Installed (setup : Setup) (compile : Policy → Assigned → Bool → Except String Ruleset)
    (shared : Shared Ruleset) (binding : Binding) (policy : Policy) : Prop where
  rules : policy.body.firewall.enabled = true →
    ∃ ruleset, compile policy binding.assigned false = .ok ruleset ∧ shared.firewall = some ruleset
  noRules : policy.body.firewall.enabled = false → shared.firewall = none
  upload : shared.upload binding.container = (effective setup policy).upload
  download : shared.download binding.container = (effective setup policy).download

/-- What a process knows of the shared state while it has the lock. -/
def Knows (setup : Setup) (compile : Policy → Assigned → Bool → Except String Ruleset)
    (shared : Shared Ruleset) : Process → Prop
  | .starter _ (.bound _ binding) => shared.binding = .stored binding
  | .starter _ (.read _ binding policy) =>
    Matches setup shared binding policy
  | .starter _ (.installing binding policy steps) =>
    Matches setup shared binding policy ∧
      ∀ final, steps.foldlM (Install.effect setup compile policy binding)
        shared = some final → Installed setup compile final binding policy
  | _ => True

theorem loadRuntimeBinding_eq_ok (loaded : loadRuntimeBinding setup fault file = .ok binding) :
    file = .stored binding := by
  cases fault with
  | some error => cases loaded
  | none =>
    cases file with
    | missing | unreadable message => cases loaded
    | stored other =>
      rw [loadRuntimeBinding] at loaded
      split at loaded
      · cases loaded
      · cases checked : (other.validate setup.go) with
        | error message =>
          rw [checked] at loaded
          cases loaded
        | ok _ =>
          rw [checked] at loaded
          cases loaded
          rfl

theorem effect_frame {step : Install}
    (made : step.effect setup compile policy binding shared = some after) :
    after.disk = shared.disk ∧ after.binding = shared.binding ∧ after.holder = shared.holder := by
  cases step with
  | gate =>
    obtain ⟨_, _, rfl⟩ := Option.map_eq_some_iff.1 made
    exact ⟨rfl, rfl, rfl⟩
  | firewall =>
    rw [Install.effect] at made
    split at made
    · obtain ⟨_, _, rfl⟩ := Option.map_eq_some_iff.1 made
      exact ⟨rfl, rfl, rfl⟩
    · cases made
      exact ⟨rfl, rfl, rfl⟩
  | shapeUpload | shapeDownload | verifyGate | verifyUpload | verifyDownload
  | verifyFirewall | context =>
    cases made
    exact ⟨rfl, rfl, rfl⟩

theorem installed_of_installs (made : (installs policy).foldlM
    (Install.effect setup compile policy binding) shared = some final) :
    Installed setup compile final binding policy := by
  rw [installs, List.foldlM_append, Option.bind_eq_bind, Option.bind_eq_some_iff] at made
  obtain ⟨gated, _, made⟩ := made
  simp only [List.foldlM_cons, List.foldlM_nil, Install.effect,
    Option.bind_eq_bind, Option.bind_some, Option.bind_eq_some_iff, pure, Option.some.injEq] at made
  obtain ⟨ruled, installed, rfl⟩ := made
  cases enabled : policy.body.firewall.enabled with
  | true =>
    rw [enabled, if_pos rfl] at installed
    obtain ⟨ruleset, compiled, rfl⟩ := Option.map_eq_some_iff.1 installed
    refine ⟨fun _ => ⟨ruleset, ?_, rfl⟩, (fun disabled => nomatch enabled.symm.trans disabled),
      Function.update_self _ _ _, Function.update_self _ _ _⟩
    cases outcome : compile policy binding.assigned false with
    | error message =>
      rw [outcome] at compiled
      cases compiled
    | ok other =>
      rw [outcome] at compiled
      cases compiled
      rfl
  | false =>
    rw [enabled, if_neg (by decide)] at installed
    cases installed
    exact ⟨(fun disabled => nomatch enabled.symm.trans disabled),
      fun _ => rfl, Function.update_self _ _ _, Function.update_self _ _ _⟩

inductive Effect (setup : Setup)
    (compile : Policy → Assigned → Bool → Except String Ruleset) (process : Nat)
    (shared : Shared Ruleset) (own : Process) (after : Shared Ruleset) (moved : Process) : Prop
  | outside :
      after = shared → moved.critical = false → Effect setup compile process shared own after moved
  | enters :
      shared.holder = none → after.holder = some process →
      Knows setup compile after moved → Effect setup compile process shared own after moved
  | inside :
      own.critical = true → after.holder = shared.holder →
      (Knows setup compile shared own → Knows setup compile after moved) →
      Effect setup compile process shared own after moved
  | leaves :
      after = shared.release process → moved.critical = false →
      Effect setup compile process shared own after moved

theorem effect_of_moveSaver (taken : moveSaver setup process policy changed phase action shared =
    some (after, moved)) : Effect setup compile process shared (.saver policy changed phase) after
    moved := by
  unfold moveSaver at taken
  split at taken
  · cases taken
    exact .outside rfl rfl
  · split at taken
    · rename_i free
      cases taken
      exact .enters free rfl trivial
    · cases taken
  · split at taken
    · cases taken
      exact .inside rfl rfl fun _ => trivial
    · cases taken
      exact .inside rfl rfl fun _ => trivial
  · cases taken
    exact .inside rfl rfl fun _ => trivial
  · cases taken
    exact .inside rfl rfl fun _ => trivial
  · cases taken
    exact .leaves rfl rfl
  · cases taken

theorem effect_of_moveStarter (taken :
    moveStarter setup compile process runtime phase action shared = some (after, moved)) :
    Effect setup compile process shared (.starter runtime phase) after moved := by
  unfold moveStarter at taken
  split at taken
  · cases taken
    exact .outside rfl rfl
  · split at taken
    · rename_i free
      cases taken
      exact .enters free rfl trivial
    · cases taken
  · rename_i answer
    cases taken
    cases answer with
    | none | some state => exact .inside rfl rfl fun _ => trivial
  · rename_i state fault
    cases taken
    refine .inside rfl rfl fun _ => ?_
    cases loaded : loadRuntimeBinding setup fault shared.binding with
    | error error => exact trivial
    | ok binding =>
      dsimp only
      split
      · exact trivial
      · exact loadRuntimeBinding_eq_ok loaded
  · rename_i state binding faults
    cases taken
    refine .inside rfl rfl fun bound => ?_
    cases loaded : load setup.go faults shared.disk setup.id with
    | error message => exact trivial
    | ok policy =>
      dsimp only
      split
      · exact trivial
      · rename_i same
        rw [not_or, not_ne_iff, not_ne_iff] at same
        exact ⟨load_of_faults loaded, bound, same.1, same.2⟩
  · rename_i state binding policy found
    cases taken
    refine .inside rfl rfl fun matched => ?_
    cases validateEnforcement setup policy binding.assigned with
    | error message => exact trivial
    | ok _ =>
      dsimp only
      split
      · exact ⟨matched, fun _ made => installed_of_installs made⟩
      · exact trivial
  · rename_i binding policy step steps failure
    split at taken
    · cases taken
      exact .inside rfl rfl fun _ => trivial
    · cases taken
      exact .inside rfl rfl fun _ => trivial
    · rename_i made
      cases taken
      obtain ⟨disk, file, holder⟩ := effect_frame made
      refine .inside rfl holder fun known => ?_
      obtain ⟨matched, leads⟩ := known
      refine ⟨⟨?_, ?_, matched.revision, matched.hash⟩, ?_⟩
      · rw [disk]
        exact matched.saved
      · rw [file]
        exact matched.bound
      · intro final rest
        apply leads
        rw [List.foldlM_cons, made]
        exact rest
  · cases taken
    exact .inside rfl rfl fun _ => trivial
  · cases taken
    exact .leaves rfl rfl
  · cases taken

theorem effect_of_move (taken : move setup compile process action shared own =
    some (after, moved)) : Effect setup compile process shared own after moved := by
  unfold move at taken
  split at taken
  · cases taken
    exact .leaves rfl rfl
  · cases taken
    exact .outside rfl rfl
  · cases taken
    exact .outside rfl rfl
  · exact effect_of_moveSaver taken
  · exact effect_of_moveStarter taken
  · cases taken

def Holds (setup : Setup)
    (compile : Policy → Assigned → Bool → Except String Ruleset) (process : Nat)
    (shared : Shared Ruleset) (own : Process) : Prop :=
  own.critical = true → shared.holder = some process ∧ Knows setup compile shared own

theorem Effect.mover (effect : Effect setup compile process shared own after moved)
    (holds : Holds setup compile process shared own) : Holds setup compile process after moved := by
  intro critical
  cases effect with
  | outside _ waits | leaves _ waits =>
    rw [waits] at critical
    cases critical
  | enters _ entered known => exact ⟨entered, known⟩
  | inside was holder known =>
    obtain ⟨mine, knew⟩ := holds was
    exact ⟨holder.trans mine, known knew⟩

theorem Effect.others (effect : Effect setup compile process shared own after moved)
    (holds : Holds setup compile process shared own) (different : other ≠ process)
    (held : Holds setup compile other shared waiting) :
    Holds setup compile other after waiting := by
  intro critical
  obtain ⟨holder, knows⟩ := held critical
  cases effect with
  | outside same _ =>
    rw [same]
    exact ⟨holder, knows⟩
  | enters free _ _ =>
    rw [free] at holder
    cases holder
  | inside was _ _ =>
    obtain ⟨mine, _⟩ := holds was
    rw [mine] at holder
    exact absurd (Option.some.inj holder).symm different
  | leaves same _ =>
    have unchanged : after = shared := by
      rw [same, Shared.release, if_neg]
      rw [holder]
      exact fun equal => different (Option.some.inj equal)
    rw [unchanged]
    exact ⟨holder, knows⟩

theorem holds_of_reachable (reached :
    Reachable Initial (Config.Steps (move setup compile)) config) :
    config.Each (Holds setup compile) := by
  refine reached.invariant ?_ ?_
  · intro config initial process critical
    rw [initial.2 process] at critical
    cases critical
  · intro config label after each taken
    refine each.step taken ?_ ?_
    · intro shared own moved
      exact (effect_of_move moved).mover (each label.1)
    · intro shared own moved process different held
      exact (effect_of_move moved).others (each label.1) different held

theorem start_eq (taken : move setup compile process .start shared own = some (after, moved)) :
    ∃ runtime binding policy, own = .starter runtime (.installing binding policy []) := by
  cases own with
  | idle | finished => cases taken
  | saver policy changed phase => cases phase <;> cases taken
  | starter runtime phase =>
    cases phase with
    | installing binding policy steps =>
      cases steps with
      | nil => exact ⟨runtime, binding, policy, rfl⟩
      | cons step steps => cases taken
    | waiting | locked | stated | bound | read | closing => cases taken

/-- Whenever a start is called, the kernel enforces the policy that is saved, which is the one of
the binding. -/
theorem start_under_saved_policy (setup : Setup)
    (compile : Policy → Assigned → Bool → Except String Ruleset)
    {config after : Config (Shared Ruleset) Process}
    (reached : Reachable Initial (Config.Steps (move setup compile)) config) {process : Nat}
    (started : config.Steps (move setup compile) (process, .start) after) :
    ∃ binding policy, Matches setup config.shared binding policy ∧
      Installed setup compile config.shared binding policy := by
  obtain ⟨shared, own, moved, rfl⟩ := Config.steps_iff.1 started
  obtain ⟨runtime, binding, policy, isReady⟩ := start_eq moved
  have holds := holds_of_reachable reached process
  rw [isReady] at holds
  obtain ⟨_, matched, leads⟩ := holds rfl
  exact ⟨binding, policy, matched, leads config.shared rfl⟩

/-- The binding of a container that may be started under `openPolicy`. -/
def openBinding : Binding where
  server := "open"
  container := String.ofList (List.replicate 64 '0')
  generation := "generation"
  runtime := "nsm"
  allocations := some []
  revision := openPolicy.revision
  policyHash := openPolicy.policyHash

def openConfig : Config (Shared Unit) Process where
  shared :=
    { disk := ⟨.owned, fun _ => .regular (openDocument ['0'])⟩
      binding := .stored openBinding }
  own _ := .idle

def openActions : List (Action Unit) := [.beginStart "nsm", .lock, .loadState (some
      { id := openBinding.container, pid := 2, created := true,
        server := "open", generation := "generation" }),
    .loadBinding none, .loadPolicy {}, .findInterfaces true] ++
    (installs openPolicy).map fun _ => .install none

def openStart : List (Nat × Action Unit) := openActions.map fun action => (0, action)

theorem open_policy_started : ∃ config after,
      Config.Steps (move openSetup fun _ _ _ => .ok ()) config (0, .start) after ∧
      ∃ binding policy, Matches openSetup config.shared binding policy ∧
        Installed openSetup (fun _ _ _ => .ok ()) config.shared binding
          policy := by
  have ran : ((Transition.execute (Config.step (move openSetup fun _ _ _ => .ok ())) openConfig
      openStart).bind fun config => config.step
        (move openSetup fun _ _ _ => .ok ()) (0, .start)).isSome = true := by
    decide +kernel
  obtain ⟨after, ran⟩ := Option.isSome_iff_exists.1 ran
  obtain ⟨config, executed, started⟩ := Option.bind_eq_some_iff.1 ran
  have initial : Initial openConfig := ⟨rfl, fun _ => rfl⟩
  exact ⟨config, after, started, start_under_saved_policy openSetup
    (fun _ _ _ => .ok ()) (.execute (.start initial) openStart executed) started⟩

end Wings.NetworkPolicy.Envelope.Runtime
