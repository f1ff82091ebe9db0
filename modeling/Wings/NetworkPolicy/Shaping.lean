import Wings.NetworkPolicy.Validation

/-!
# Shaping

A token bucket at the root of a device and a fair queue below it limit its bandwidth. A command is
refused and changes nothing, or it has its documented effect; the numbers that the kernel reports
for its options are a parameter, with laws.
-/

namespace Wings.NetworkPolicy.Shaping

open FallibleProgram
open Envelope (idPattern validRate)

def shapingHandle : String := "4e53:"

def fairQueueHandle : String := "4e54:"

def shapingParent : String := "4e53:1"

/-- What the two queueing disciplines of a rate look like. -/
structure ShapingProfile where
  rate : Nat
  burst : Nat
  limit : Nat
  packets : Nat
  memory : Nat
  quantum : Nat
  deriving DecidableEq

def profileOf (rate frame : Nat) : ShapingProfile :=
  let burst := min (max (rate / 800) (2 * frame)) (1 <<< 20)
  let queue := min (max (rate / 160) (2 * frame)) (2 <<< 20)
  { rate := rate
    burst := burst
    limit := burst + queue
    packets := min (max ((queue + frame - 1) / frame) 32) 2048
    memory := min (max (queue * 2) (64 <<< 10)) (4 <<< 20)
    quantum := frame + 14 }

def newShapingProfile (device : String) (rate : Int64)
    (mtu : Int) : Except String ShapingProfile := do
  require (idPattern device ∧ device.utf8ByteSize ≤ 15 ∧ validRate rate)
    "invalid shaping device or rate"
  if rate = 0 then .ok ⟨0, 0, 0, 0, 0, 0⟩
  else do
    require (rate % 8 = 0) ("TBF can enforce only whole-byte rates; bandwidth must be divisible " ++
        "by 8 bits per second")
    require (576 ≤ mtu ∧ mtu ≤ 65536) ("unsupported shaping MTU " ++ toString mtu)
    let profile := profileOf rate.toNatClampNeg mtu.toNat
    require (profile.burst ≤ profile.rate / 8 * 60)
      ("bandwidth " ++ toString rate ++ " is too low for MTU " ++
        toString mtu ++ ": a two-packet burst must fit within 60 seconds")
    .ok profile

structure TbfState where
  rate : UInt64
  buffer : UInt32
  limit : UInt32
  unsupported : Bool

structure FairQueueState where
  limit : UInt32
  flows : UInt32
  quantum : UInt32
  target : UInt32
  interval : UInt32
  memory : UInt32
  ecn : UInt32

structure Qdisc where
  kind : String
  handle : String
  parent : String
  root : Bool
  tbf : Option TbfState
  fair : Option FairQueueState

/-- A queueing discipline of incoming packets, beside the tree of the root. -/
def Qdisc.ingress (qdisc : Qdisc) : Bool := qdisc.kind = "clsact" || qdisc.kind = "ingress"

def ownedRoot (active : Bool) : List Qdisc → Option Qdisc → Except String (Option Qdisc)
  | [], root => .ok root
  | qdisc :: rest, root =>
    if qdisc.root then
      if qdisc.handle = shapingHandle then
        if qdisc.kind ≠ "tbf" ∨ root.isSome then
          .error "refusing unexpected or duplicate NSM root qdisc"
        else ownedRoot active rest (some qdisc)
      else if active ∧ (qdisc.kind ≠ "noqueue" ∨ qdisc.handle ≠ "0:") then
        .error "refusing administrator or duplicate root qdisc"
      else ownedRoot active rest root
    else ownedRoot active rest root

def ownedLeaf : List Qdisc → Option Qdisc → Except String (Option Qdisc)
  | [], leaf => .ok leaf
  | qdisc :: rest, leaf =>
    if qdisc.root ∨ qdisc.ingress then ownedLeaf rest leaf
    else if qdisc.parent = shapingParent ∧ qdisc.handle = fairQueueHandle ∧
        qdisc.kind = "fq_codel" ∧ leaf = none then
      ownedLeaf rest (some qdisc)
    else .error "refusing administrator or unexpected child qdisc"

/-- The two queueing disciplines of this program, if there are no others below them. -/
def ownedShapers (qdiscs : List Qdisc)
    (active : Bool) : Except String (Option Qdisc × Option Qdisc) := do
  match ← ownedRoot active qdiscs none with
  | none => .ok (none, none)
  | some root => do
    let leaf ← ownedLeaf qdiscs none
    .ok (some root, leaf)

def burstTicks (rate burst : UInt64) : UInt32 :=
  if rate = 0 then 0
  else ((burst * 1000000000 / rate) >>> 6).toUInt32

namespace ShapingProfile

def matchesRoot (profile : ShapingProfile) : Option Qdisc → Bool
  | none => false
  | some qdisc =>
    match qdisc.tbf with
    | none => false
    | some state =>
      let want := burstTicks (UInt64.ofNat (profile.rate / 8)) (UInt64.ofNat profile.burst)
      !state.unsupported && (state.rate = UInt64.ofNat (profile.rate / 8) &&
          state.limit = UInt32.ofNat profile.limit && 0 < state.buffer && state.buffer ≤ want &&
          want - state.buffer ≤ 16)

def matchesLeaf (profile : ShapingProfile) : Option Qdisc → Bool
  | none => false
  | some qdisc =>
    match qdisc.fair with
    | none => false
    | some state =>
      state.limit = UInt32.ofNat profile.packets && state.flows = 1024 &&
        state.quantum = UInt32.ofNat profile.quantum &&
        4999 ≤ state.target && state.target ≤ 5000 &&
        99999 ≤ state.interval && state.interval ≤ 100000 &&
        state.memory = UInt32.ofNat profile.memory && state.ecn = 1

def verify (profile : ShapingProfile) (qdiscs : List Qdisc)
    (device : String) : Except String Unit := do
  let (root, leaf) ← (ownedShapers qdiscs (profile.rate ≠ 0)).mapError
    fun error => "shaping " ++ device ++ ": " ++ error
  if profile.rate = 0 then
    require (root = none) ("NSM shaping remains on " ++ device ++ " after clearing the cap")
  else do
    require (root ≠ none) ("NSM shaping is missing on " ++ device)
    require (profile.matchesRoot root) ("NSM shaping drift on " ++ device ++
        ": rate, burst or queue limit changed")
    require (profile.matchesLeaf leaf) ("NSM fair queue drift on " ++ device ++
        ": fq_codel is missing or its settings changed")

end ShapingProfile

def rootHandle : UInt32 := 0x4e530000

def leafHandle : UInt32 := 0x4e540000

def rootParent : UInt32 := 0xffffffff

def leafParent : UInt32 := 0x4e530001

def hexadecimal (number : UInt32) : String := String.ofList (Nat.toDigits 16 number.toNat)

def handleString (handle : UInt32) : String :=
  if handle &&& 0xffff = 0 then hexadecimal (handle >>> 16) ++ ":"
  else hexadecimal (handle >>> 16) ++ ":" ++ hexadecimal (handle &&& 0xffff)

/-- The attributes of a token bucket. The first three stand in one block. -/
structure TbfOptions where
  rate : UInt32
  limit : UInt32
  buffer : UInt32
  rate64 : UInt64
  burst : UInt32

/-- The attributes of a fair queue. The flows are set when it is created. -/
structure FairOptions where
  target : UInt32
  limit : UInt32
  interval : UInt32
  ecn : UInt32
  quantum : UInt32
  memory : UInt32
  flows : Option UInt32

def ShapingProfile.tbfOptions (profile : ShapingProfile) : TbfOptions :=
  let rate := UInt64.ofNat (profile.rate / 8)
  { rate := (min rate 0xffffffff).toUInt32
    limit := UInt32.ofNat profile.limit
    buffer := burstTicks rate (UInt64.ofNat profile.burst)
    rate64 := rate
    burst := UInt32.ofNat profile.burst }

def ShapingProfile.fairOptions (profile : ShapingProfile) (create : Bool) : FairOptions where
  target := 5000
  limit := UInt32.ofNat profile.packets
  interval := 100000
  ecn := 1
  quantum := UInt32.ofNat profile.quantum
  memory := UInt32.ofNat profile.memory
  flows := if create then some 1024 else none

inductive Options where
  | tbf (options : TbfOptions)
  | fair (options : FairOptions)

/-- A command on the device. The flag says that the queueing discipline must be new. -/
inductive Command where
  | deleteQdisc (handle parent : UInt32)
  | newQdisc (create : Bool) (handle parent : UInt32) (kind : String) (options : Options)

/-- The numbers that the kernel reports, which may be a little less than it was told. -/
structure Kernel where
  /-- The error of a command that is refused. -/
  refusal : String
  /-- What is reported of a token bucket with the given options. -/
  tbf : TbfOptions → TbfState
  /-- What is reported of a fair queue after the options were set. -/
  fair : Option FairQueueState → FairOptions → FairQueueState
  tbf_rate : ∀ options, (tbf options).rate = options.rate64
  tbf_limit : ∀ options, (tbf options).limit = options.limit
  tbf_supported : ∀ options, (tbf options).unsupported = false
  /-- The buffer is reported with a precision of sixteen ticks. -/
  tbf_buffer : ∀ options, options.buffer = burstTicks options.rate64 options.burst.toUInt64 →
      (tbf options).buffer ≤ options.buffer ∧ options.buffer.toNat ≤ (tbf options).buffer.toNat + 16
  fair_limit : ∀ before options, 1 ≤ options.limit → (fair before options).limit = options.limit
  fair_quantum : ∀ before options, 256 ≤ options.quantum →
    options.quantum ≤ 0x100000 → (fair before options).quantum = options.quantum
  fair_memory : ∀ before options, options.memory ≤ 0x80000000 →
    (fair before options).memory = options.memory
  fair_ecn : ∀ before options, options.ecn ≤ 1 → (fair before options).ecn = options.ecn
  /-- Times are reported with a precision of a microsecond. -/
  fair_target : ∀ before options, 0 < options.target →
    options.target ≤ 1000000 → options.target - 1 ≤ (fair before options).target ∧
        (fair before options).target ≤ options.target
  fair_interval : ∀ before options, 0 < options.interval →
    options.interval ≤ 1000000 → options.interval - 1 ≤ (fair before options).interval ∧
        (fair before options).interval ≤ options.interval
  /-- The number of flows stays as it was created. -/
  fair_flows : ∀ options flows, options.flows = some flows → (fair none options).flows = flows
  fair_flows_kept : ∀ state options, options.flows = none →
    (fair (some state) options).flows = state.flows

namespace Kernel

variable (kernel : Kernel)

def configure (qdisc : Qdisc) : Options → Qdisc
  | .tbf options => { qdisc with tbf := some (kernel.tbf options) }
  | .fair options => { qdisc with fair := some (kernel.fair qdisc.fair options) }

def defaultQdisc : Qdisc := ⟨"noqueue", "0:", handleString rootParent, true, none, none⟩

def isAt (handle parent : UInt32) (qdisc : Qdisc) : Bool := qdisc.handle = handleString handle &&
    if parent = rootParent then qdisc.root
    else !qdisc.root && qdisc.parent = handleString parent

def occupied (qdiscs : List Qdisc) : Bool :=
  qdiscs.any fun qdisc => qdisc.root && qdisc.handle ≠ "0:"

def vacant (handle parent : UInt32) (qdiscs : List Qdisc) : Bool :=
  (qdiscs.any fun qdisc => qdisc.handle = handleString (parent &&& 0xffff0000)) &&
    !qdiscs.any fun qdisc => qdisc.handle = handleString handle ||
      qdisc.parent = handleString parent

def created (handle parent : UInt32) (kind : String) (options : Options) : Qdisc := kernel.configure
    ⟨kind, handleString handle, handleString parent, parent = rootParent, none, none⟩ options

/-- The queueing disciplines after a command that is not refused. A new root replaces the tree, and
deleting the root deletes it. -/
def apply (qdiscs : List Qdisc) : Command → Option (List Qdisc)
  | .deleteQdisc handle parent =>
    if qdiscs.any (isAt handle parent) then
      if parent = rootParent then
        some (qdiscs.filter Qdisc.ingress ++ [defaultQdisc])
      else some (qdiscs.filter fun qdisc => !isAt handle parent qdisc)
    else none
  | .newQdisc true handle parent kind options =>
    if parent = rootParent then
      if occupied qdiscs then none
      else some (qdiscs.filter Qdisc.ingress ++ [kernel.created handle parent kind options])
    else if vacant handle parent qdiscs then
      some (qdiscs ++ [kernel.created handle parent kind options])
    else none
  | .newQdisc false handle parent kind options =>
    if qdiscs.any fun qdisc => isAt handle parent qdisc &&
        qdisc.kind = kind then
      some (qdiscs.map fun qdisc =>
        if isAt handle parent qdisc then kernel.configure qdisc options
        else qdisc)
    else none

end Kernel

/-- The queueing disciplines, the calls that could have failed, and the commands issued. -/
structure Wire where
  qdiscs : List Qdisc
  attempts : Nat
  issued : List (Command × List Qdisc)

section Shape

variable (kernel : Kernel) (faults : Nat → Option String)

def attempt : Program String Wire Unit := do
  let wire ← get
  modify fun wire => { wire with attempts := wire.attempts + 1 }
  match faults wire.attempts with
  | none => pure ()
  | some error => throw error

def answer (wire : Wire) (command : Command) : Except String (List Qdisc) := do
  match faults wire.attempts with
  | some error => .error error
  | none => orError (kernel.apply wire.qdiscs command) kernel.refusal

def Wire.issue (wire : Wire) (command : Command) (qdiscs : List Qdisc) : Wire :=
  ⟨qdiscs, wire.attempts + 1, wire.issued ++ [(command, qdiscs)]⟩

def changeRouteShaper (command : Command) : Program String Wire Unit := do
  attempt faults
  let wire ← get
  match answer kernel faults wire command with
  | .error error => do
    modify fun wire => wire.issue command wire.qdiscs
    throw error
  | .ok qdiscs => modify fun wire => wire.issue command qdiscs

def wrapped (context : String) (program : Program String Wire Unit) : Program String Wire Unit :=
  ExceptT.adapt (fun error => context ++ ": " ++ error) program

def outdated (changed : Bool) (leaf : Option Qdisc) : Bool := leaf.any fun leaf => changed ||
    leaf.fair.all fun state => decide (state.flows ≠ 1024)

section

variable (device : String)

def removeOutdated (changed : Bool) (leaf : Option Qdisc) : Program String Wire (Option Qdisc) :=
  if outdated changed leaf then do
    wrapped ("remove outdated fair queue on " ++ device)
      (changeRouteShaper kernel faults (.deleteQdisc leafHandle leafParent))
    pure none
  else pure leaf

def configureRoot (profile : ShapingProfile) (changed : Bool)
    (root : Option Qdisc) : Program String Wire Unit :=
  if changed then
    wrapped ("configure rate limiter on " ++ device)
      (changeRouteShaper kernel faults (.newQdisc root.isNone rootHandle
        rootParent "tbf" (.tbf profile.tbfOptions)))
  else pure ()

def configureLeaf (profile : ShapingProfile) (leaf : Option Qdisc) : Program String Wire Unit :=
  if profile.matchesLeaf leaf then pure ()
  else
    wrapped ("configure fair queue on " ++ device)
      (changeRouteShaper kernel faults (.newQdisc leaf.isNone leafHandle
        leafParent "fq_codel" (.fair (profile.fairOptions leaf.isNone))))

/-- What is left to do once the queueing disciplines of this program are
known. -/
def shapeOwned (rate : Int64) (profile : ShapingProfile)
    (root leaf : Option Qdisc) : Program String Wire Unit :=
  if rate = 0 then
    if root = none then pure ()
    else changeRouteShaper kernel faults (.deleteQdisc rootHandle rootParent)
  else do
    let changed := !profile.matchesRoot root
    let leaf ← removeOutdated kernel faults device changed leaf
    configureRoot kernel faults device profile changed root
    configureLeaf kernel faults device profile leaf

/-- Make the queueing disciplines match the profile of a rate. -/
def shape (rate : Int64) (mtu : Int) : Program String Wire Unit := do
  let profile ← liftExcept (newShapingProfile device rate mtu)
  attempt faults
  attempt faults
  attempt faults
  let wire ← get
  let (root, leaf) ← liftExcept ((ownedShapers wire.qdiscs (rate ≠ 0)).mapError
    fun error => "shaping " ++ device ++ ": " ++ error)
  shapeOwned kernel faults device rate profile root leaf

end

end Shape

end Wings.NetworkPolicy.Shaping
