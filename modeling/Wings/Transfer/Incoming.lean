import Wings.Library.Transition

/-!
# Receiving transfers of a server

A request enters the server in the manager and the transfer in the registry, and extracts the
archive; a request that failed takes its entries back and then removes the data directory. A step is
one section under a lock or one operation on the directory.
-/

namespace Wings.Transfer.Incoming

open Processes

variable {Path Content : Type}

/-- An instance of the server: one that a request has created, or one that was
there before. -/
abbrev Instance := Option Nat

structure Node (Path Content : Type) where
  /-- The transfer in the registry `Incoming()`. -/
  transfer : Option Nat
  /-- The instances in the server manager. -/
  servers : List Instance
  directory : Path → Option Content

/-- How far a request is.  From `completing` on it runs
`completeIncomingTransfer`. -/
inductive Phase where
  | started
  | lookedUp
  | missing
  | created
  | managed
  | refused
  | receiving
  | completing (successful : Bool)
  | unregistered (successful : Bool)
  | unmanaged
  | destroyed
  | cleaned
  | completed (successful : Bool)
  | aborted

structure Request (Path Content : Type) where
  phase : Phase
  extracted : Path → Option Content

/-- A step of a request, with its outcome. `removeAll` may leave paths. -/
inductive Action (Path Content : Type) where
  | getIncoming
  | getServer
  | newInstaller (ok : Bool)
  | addIfMissing
  | addIncoming
  | removeRefused
  | extract (path : Path) (content : Content)
  | finish (successful : Bool)
  | removeIncoming
  | removeServer
  | destroy
  | removeAll (left : Path → Bool)
  | setTransferStatus

namespace Node

variable (node : Node Path Content)

/-- `AddIfMissing`: the instance of a request is added unless there is one. -/
def addIfMissing (request : Nat) : Node Path Content × Bool :=
  if node.servers = [] then ({ node with servers := [some request] }, true)
  else (node, false)

def removeServer (request : Nat) : Node Path Content :=
  { node with
    servers := node.servers.filter fun server => server ≠ some request }

def addIncoming (request : Nat) : Node Path Content × Bool :=
  match node.transfer with
  | some _ => (node, false)
  | none => ({ node with transfer := some request }, true)

/-- `Incoming().Remove` leaves the transfer of another request. -/
def removeIncoming (request : Nat) : Node Path Content :=
  if node.transfer = some request then { node with transfer := none }
  else node

def write [DecidableEq Path] (path : Path) (content : Content) : Node Path Content :=
  { node with directory := Function.update node.directory path (some content) }

/-- `os.RemoveAll` of the data directory, which may leave files when it fails. -/
def removeAll (left : Path → Bool) : Node Path Content :=
  { node with
    directory := fun path => if left path then node.directory path else none }

end Node

namespace Request

def enter (request : Request Path Content) (phase : Phase) : Request Path Content :=
  { request with phase := phase }

def note [DecidableEq Path] (request : Request Path Content) (path : Path)
    (content : Content) : Request Path Content :=
  { request with
    extracted := Function.update request.extracted path (some content) }

end Request

/-- The steps of `postTransfers` and `completeIncomingTransfer`. -/
def move [DecidableEq Path] (id : Nat) (action : Action Path Content)
    (node : Node Path Content) (request : Request Path Content) :
    Option (Node Path Content × Request Path Content) :=
  match action, request.phase with
  | .getIncoming, .started =>
    some (node, request.enter (if node.transfer = none then .lookedUp else .aborted))
  | .getServer, .lookedUp =>
    some (node, request.enter (if node.servers = [] then .missing else .aborted))
  | .newInstaller ok, .missing =>
    some (node, request.enter (if ok then .created else .aborted))
  | .addIfMissing, .created =>
    some ((node.addIfMissing id).1, request.enter
      (if (node.addIfMissing id).2 then .managed else .aborted))
  | .addIncoming, .managed =>
    some ((node.addIncoming id).1, request.enter
      (if (node.addIncoming id).2 then .receiving else .refused))
  | .removeRefused, .refused =>
    some (node.removeServer id, request.enter .aborted)
  | .extract path content, .receiving =>
    some (node.write path content, request.note path content)
  | .finish successful, .receiving =>
    some (node, request.enter (.completing successful))
  | .removeIncoming, .completing successful =>
    some (node.removeIncoming id, request.enter (.unregistered successful))
  | .removeServer, .unregistered false =>
    some (node.removeServer id, request.enter .unmanaged)
  | .destroy, .unmanaged => some (node, request.enter .destroyed)
  | .removeAll left, .destroyed =>
    some (node.removeAll left, request.enter .cleaned)
  | .setTransferStatus, .cleaned =>
    some (node, request.enter (.completed false))
  | .setTransferStatus, .unregistered true =>
    some (node, request.enter (.completed true))
  | _, _ => none

abbrev Nodes (Path Content : Type) := Config (Node Path Content) (Request Path Content)

/-- No transfer is registered, and a server in the manager was there before. -/
structure Initial (config : Nodes Path Content) : Prop where
  transfer : config.shared.transfer = none
  servers : ∀ server ∈ config.shared.servers, server = none
  requests : ∀ request, config.own request = ⟨.started, fun _ => none⟩

open Processes Transition
open Request (enter note)

namespace Phase

def isRegistered : Phase → Bool
  | .receiving | .completing _ => true
  | _ => false

def isManaged : Phase → Bool
  | .managed | .refused | .receiving | .completing _ | .unregistered _
  | .completed true => true
  | _ => false

/-- The request has left the manager and has still to remove the data directory. -/
def isCleaning : Phase → Bool
  | .unmanaged | .destroyed => true
  | _ => false

def isWaiting : Phase → Bool
  | .started | .lookedUp | .missing | .created => true
  | _ => false

/-- Going on to a phase changes no entry and nothing that is still to be done. -/
def Continues (phase next : Phase) : Prop :=
  next.isRegistered = phase.isRegistered ∧ (next.isManaged = true → phase.isManaged = true) ∧
    (next.isCleaning = true → phase.isCleaning = true) ∧
    (next.isWaiting = true → phase.isWaiting = true)

instance (phase next : Phase) : Decidable (phase.Continues next) :=
  inferInstanceAs (Decidable (_ ∧ _))

end Phase

/-- A request enters the manager only while no failed one has still to remove the directory. -/
def Undisturbed (config : Nodes Path Content) (label : Nat × Action Path Content) : Prop :=
  label.2 = .addIfMissing → ∀ request, (config.own request).phase.isCleaning = false

variable [DecidableEq Path]

inductive Effect (id : Nat) (action : Action Path Content)
    (node : Node Path Content) (request : Request Path Content) :
    Node Path Content → Request Path Content → Prop
  | goesOn (phase : Phase) :
      request.phase.Continues phase → Effect id action node request node (request.enter phase)
  | enters :
      action = .addIfMissing → node.servers = [] →
      request.phase = .created → Effect id action node request { node with servers := [some id] }
        (request.enter .managed)
  | registers :
      node.transfer = none → request.phase = .managed →
      Effect id action node request { node with transfer := some id } (request.enter .receiving)
  | writes (path : Path) (content : Content) :
      request.phase = .receiving → Effect id action node request (node.write path content)
        (request.note path content)
  | unregisters (successful : Bool) :
      request.phase = .completing successful →
      Effect id action node request (node.removeIncoming id)
        (request.enter (.unregistered successful))
  | leaves (phase : Phase) : request.phase = .refused ∧ phase = .aborted ∨
        request.phase = .unregistered false ∧ phase = .unmanaged →
      Effect id action node request (node.removeServer id) (request.enter phase)
  | removes (left : Path → Bool) :
      request.phase = .destroyed → Effect id action node request (node.removeAll left)
        (request.enter .cleaned)

variable {id : Nat} {action : Action Path Content}

theorem Effect.of_continues (isPhase : request.phase = phase) (continues : phase.Continues next) :
    Effect id action node request node (request.enter next) := by
  apply Effect.goesOn
  rw [isPhase]
  exact continues

theorem effect_of_move (taken : move id action node request = some (after, moved)) :
    Effect id action node request after moved := by
  unfold move at taken
  split at taken
  case h_15 => simp at taken
  all_goals
    rename_i phase
    cases taken
  case h_4 =>
    by_cases empty : node.servers = []
    · simp only [Node.addIfMissing, if_pos empty, if_true]
      exact .enters rfl empty phase
    · simp only [Node.addIfMissing, if_neg empty, Bool.false_eq_true, if_false]
      exact .of_continues phase (by decide)
  case h_5 =>
    cases registered : node.transfer with
    | none =>
      simp only [Node.addIncoming, registered, if_true]
      exact .registers registered phase
    | some other =>
      simp only [Node.addIncoming, registered, Bool.false_eq_true, if_false]
      exact .of_continues phase (by decide)
  case h_6 => exact .leaves _ (.inl ⟨phase, rfl⟩)
  case h_7 => exact .writes _ _ phase
  case h_8 successful =>
    apply Effect.of_continues phase
    cases successful <;> decide
  case h_9 => exact .unregisters _ phase
  case h_10 => exact .leaves _ (.inr ⟨phase, rfl⟩)
  case h_12 => exact .removes _ phase
  all_goals
    apply Effect.of_continues phase
    try split_ifs
    all_goals decide

def Enrolled (id : Nat) (node : Node Path Content) (request : Request Path Content) : Prop :=
  request.phase.isRegistered = true ↔ node.transfer = some id

theorem Enrolled.mover (enrolled : Enrolled id node request)
    (effect : Effect id action node request after moved) : Enrolled id after moved := by
  unfold Enrolled at enrolled ⊢
  cases effect with
  | goesOn phase continues =>
    rw [enter, continues.1]
    exact enrolled
  | enters _ _ phase | removes _ phase =>
    rw [phase] at enrolled
    exact enrolled
  | registers _ _ => simp [enter, Phase.isRegistered]
  | writes path content phase => exact enrolled
  | unregisters successful phase =>
    rw [phase] at enrolled
    rw [Node.removeIncoming, if_pos (enrolled.mp rfl)]
    simp [enter, Phase.isRegistered]
  | leaves phase ends =>
    rcases ends with ⟨before, rfl⟩ | ⟨before, rfl⟩
    all_goals
      rw [before] at enrolled
      exact enrolled

theorem Enrolled.bystander {bystander : Request Path Content}
    (distinct : other ≠ id) (mover : Enrolled id node request)
    (enrolled : Enrolled other node bystander)
    (effect : Effect id action node request after moved) : Enrolled other after bystander := by
  unfold Enrolled at mover enrolled ⊢
  cases effect with
  | goesOn _ _ | enters _ _ _ | writes _ _ _ | leaves _ _ | removes _ _ => exact enrolled
  | registers free _ =>
    rw [enrolled, free]
    simp [distinct.symm]
  | unregisters successful phase =>
    rw [phase] at mover
    have registered := mover.mp rfl
    rw [Node.removeIncoming, if_pos registered, enrolled, registered]
    simp [distinct.symm]

structure Keeps (id : Nat) (node : Node Path Content) (request : Request Path Content) : Prop where
  managed : request.phase.isManaged = true → node.servers = [some id]
  cleaning : request.phase.isCleaning = true → node.servers = []
  present : request.phase.isManaged = true → ∀ path content,
    request.extracted path = some content → node.directory path = some content
  waiting : request.phase.isWaiting = true → ∀ path, request.extracted path = none

theorem Keeps.mover (keeps : Keeps id node request)
    (effect : Effect id action node request after moved) : Keeps id after moved := by
  cases effect with
  | goesOn phase continues =>
    obtain ⟨_, managed, cleaning, waiting⟩ := continues
    exact ⟨fun holds => keeps.managed (managed holds), fun holds => keeps.cleaning (cleaning holds),
      fun holds => keeps.present (managed holds), fun holds => keeps.waiting (waiting holds)⟩
  | enters isEntry empty phase =>
    have waiting := keeps.waiting
    rw [phase] at waiting
    refine ⟨fun _ => rfl, ?_, ?_, ?_⟩
    · simp [enter, Phase.isCleaning]
    · intro _ path content extracted
      have none := waiting rfl path
      rw [enter, none] at extracted
      cases extracted
    · simp [enter, Phase.isWaiting]
  | registers free phase =>
    have managed := keeps.managed
    have present := keeps.present
    rw [phase] at managed present
    refine ⟨managed, ?_, present, ?_⟩
    · simp [enter, Phase.isCleaning]
    · simp [enter, Phase.isWaiting]
  | writes path content phase =>
    refine ⟨keeps.managed, keeps.cleaning, ?_, ?_⟩
    · intro holds other found extracted
      simp only [Node.write, note] at extracted ⊢
      by_cases same : other = path
      · subst same
        rw [Function.update_self] at extracted ⊢
        exact extracted
      · rw [Function.update_of_ne same] at extracted ⊢
        exact keeps.present holds other found extracted
    · simp [note, phase, Phase.isWaiting]
  | unregisters successful phase =>
    have managed := keeps.managed
    have present := keeps.present
    rw [phase] at managed present
    unfold Node.removeIncoming
    refine ⟨fun _ => ?_, ?_, fun _ => ?_, ?_⟩
    · split_ifs <;> exact managed rfl
    · simp [enter, Phase.isCleaning]
    · split_ifs <;> exact present rfl
    · simp [enter, Phase.isWaiting]
  | leaves phase ends =>
    have managed := keeps.managed
    rcases ends with ⟨_, rfl⟩ | ⟨before, rfl⟩
    · refine ⟨?_, ?_, ?_, ?_⟩ <;>
        simp [enter, Phase.isManaged, Phase.isCleaning, Phase.isWaiting]
    · rw [before] at managed
      refine ⟨?_, ?_, ?_, ?_⟩
      · simp [enter, Phase.isManaged]
      · simp [Node.removeServer, managed rfl]
      · simp [enter, Phase.isManaged]
      · simp [enter, Phase.isWaiting]
  | removes left phase =>
    refine ⟨?_, ?_, ?_, ?_⟩ <;>
      simp [enter, Phase.isManaged, Phase.isCleaning, Phase.isWaiting]

theorem Keeps.bystander {bystander : Request Path Content}
    (distinct : other ≠ id) (mover : Keeps id node request) (keeps : Keeps other node bystander)
    (undisturbed : action = .addIfMissing → bystander.phase.isCleaning = false)
    (effect : Effect id action node request after moved) : Keeps other after bystander := by
  have apart : node.servers = [some id] → bystander.phase.isManaged = true → False := by
    intro managed holds
    have same := keeps.managed holds
    rw [managed] at same
    simp only [List.cons.injEq, Option.some.injEq, and_true] at same
    exact distinct same.symm
  cases effect with
  | goesOn _ _ => exact keeps
  | registers _ _ =>
    exact { keeps with }
  | unregisters _ _ =>
    unfold Node.removeIncoming
    split_ifs
    · exact { keeps with }
    · exact keeps
  | enters isEntry empty phase =>
    refine ⟨?_, ?_, keeps.present, keeps.waiting⟩
    · intro holds
      have managed := keeps.managed holds
      rw [empty] at managed
      cases managed
    · intro holds
      rw [undisturbed isEntry] at holds
      cases holds
  | writes path content phase =>
    have managed := mover.managed (by rw [phase]; rfl)
    exact { keeps with present := fun holds => (apart managed holds).elim }
  | leaves phase ends =>
    have managed : node.servers = [some id] := by
      apply mover.managed
      rcases ends with ⟨before, _⟩ | ⟨before, _⟩ <;> rw [before] <;> rfl
    refine ⟨fun holds => (apart managed holds).elim, ?_,
      fun holds => (apart managed holds).elim, keeps.waiting⟩
    intro holds
    have empty := keeps.cleaning holds
    rw [managed] at empty
    cases empty
  | removes left phase =>
    have empty := mover.cleaning (by rw [phase]; rfl)
    refine { keeps with present := ?_ }
    intro holds
    have managed := keeps.managed holds
    rw [empty] at managed
    cases managed

variable {config : Nodes Path Content}

theorem enrolled_of_reachable (reached : Reachable Initial (Config.Steps move) config) :
    config.Each Enrolled := by
  refine reached.invariant ?_ ?_
  · intro start initial request
    simp [Enrolled, initial.requests request, initial.transfer, Phase.isRegistered]
  · intro before label after each taken
    refine each.step taken ?_ ?_
    · intro node moved isMove
      exact (each label.1).mover (effect_of_move isMove)
    · intro node moved isMove other distinct enrolled
      exact .bystander distinct (each label.1) enrolled (effect_of_move isMove)

theorem keeps_of_undisturbed (reached : Reachable Initial
    (Guarded Undisturbed (Config.Steps move)) config) : config.Each Keeps := by
  refine reached.invariant ?_ ?_
  · intro start initial request
    rw [initial.requests request]
    refine ⟨?_, ?_, ?_, fun _ _ => rfl⟩ <;>
      simp [Phase.isManaged, Phase.isCleaning]
  · rintro before label after each ⟨undisturbed, taken⟩
    refine each.step taken ?_ ?_
    · intro node moved isMove
      exact (each label.1).mover (effect_of_move isMove)
    · intro node moved isMove other distinct keeps
      exact .bystander distinct (each label.1) keeps
        (fun isEntry => undisturbed isEntry other) (effect_of_move isMove)

/-- At most one transfer is registered. The files of every request that succeeds are there, if no
request enters the manager while a failed one has still to remove the directory. -/
theorem received_files_kept (Path Content : Type) [DecidableEq Path] :
    (∀ config : Nodes Path Content,
      Reachable Initial (Config.Steps move) config → ∀ first second,
        (config.own first).phase.isRegistered = true →
        (config.own second).phase.isRegistered = true → first = second) ∧
    ∀ config : Nodes Path Content,
      Reachable Initial (Guarded Undisturbed (Config.Steps move)) config →
      ∀ request, (config.own request).phase = .completed true → ∀ path content,
          (config.own request).extracted path = some content →
          config.shared.directory path = some content := by
  constructor
  · intro config reached first second one other
    have enrolled := enrolled_of_reachable reached
    have same := (enrolled first).mp one
    rw [(enrolled second).mp other] at same
    exact (Option.some.inj same).symm
  · intro config reached request completed
    have keeps := keeps_of_undisturbed reached request
    exact keeps.present (by rw [completed]; rfl)

def emptyNode : Nodes Unit Unit where
  shared := ⟨none, [], fun _ => none⟩
  own _ := ⟨.started, fun _ => none⟩

theorem emptyNode_initial : Initial emptyNode := ⟨rfl, by simp [emptyNode], fun _ => rfl⟩

def registering (request : Nat) : List (Nat × Action Unit Unit) :=
  [(request, .getIncoming), (request, .getServer),
    (request, .newInstaller true), (request, .addIfMissing), (request, .addIncoming)]

theorem received_file_of_one_request : ∃ config : Nodes Unit Unit,
      Reachable Initial (Guarded Undisturbed (Config.Steps move)) config ∧
      (config.own 0).phase = .completed true ∧ (config.own 0).extracted () = some () ∧
      config.shared.directory () = some () := by
  have start : Reachable Initial (Guarded Undisturbed (Config.Steps move)) emptyNode :=
    .start emptyNode_initial
  have created := start.executeGuarded [(0, .getIncoming), (0, .getServer), (0, .newInstaller true)]
    (by simp [Undisturbed]) rfl
  have managed := created.next (0, .addIfMissing) ⟨by
    rintro - request
    cases request <;> rfl, rfl⟩
  have completed := managed.executeGuarded
    [(0, .addIncoming), (0, .extract () ()), (0, .finish true),
      (0, .removeIncoming), (0, .setTransferStatus)] (by simp [Undisturbed]) rfl
  exact ⟨_, completed, rfl, rfl, (received_files_kept Unit Unit).2 _ completed 0 rfl () () rfl⟩

/-- A second request receives its file before a failed one removes the data directory. -/
theorem received_file_lost : ∃ config : Nodes Unit Unit,
      Reachable Initial (Config.Steps move) config ∧ (config.own 1).phase = .completed true ∧
      (config.own 1).extracted () = some () ∧ config.shared.directory () = none := by
  refine ⟨_, Reachable.execute (.start emptyNode_initial) (registering 0 ++
      [(0, .finish false), (0, .removeIncoming), (0, .removeServer)] ++
      registering 1 ++ [(1, .extract () ()), (0, .destroy),
        (0, .removeAll fun _ => false), (1, .finish true),
        (1, .removeIncoming), (1, .setTransferStatus)]) rfl, rfl, rfl, rfl⟩

end Wings.Transfer.Incoming
