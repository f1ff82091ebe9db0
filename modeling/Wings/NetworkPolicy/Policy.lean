import Mathlib.Data.List.Basic

/-!
# Network policies

The part of a policy that the firewall is compiled from.  A field that holds
one of a few words is an optional enumeration: `none` stands for every other
text, which a validated policy does not have.
-/

namespace Wings.NetworkPolicy

inductive Family where
  | ip
  | ip6
  deriving DecidableEq

def Family.width : Family → Nat
  | .ip => 32
  | .ip6 => 128

structure Addr where
  family : Family
  bits : BitVec family.width
  deriving DecidableEq

def Addr.is4In6 (address : Addr) : Bool :=
  address.family = .ip6 && address.bits.toNat >>> 32 = 0xffff

structure Prefix where
  addr : Addr
  bits : Nat
  deriving DecidableEq

namespace Prefix

def masked (network : Prefix) : Prefix :=
  { network with
    addr := ⟨network.addr.family,
      network.addr.bits >>> (network.addr.family.width - network.bits) <<<
        (network.addr.family.width - network.bits)⟩ }

def contains (network : Prefix) (address : Addr) : Bool := network.addr.family = address.family &&
    network.addr.bits.toNat >>> (network.addr.family.width - network.bits) =
      address.bits.toNat >>> (network.addr.family.width - network.bits)

end Prefix

/-- The functions on texts that the compiler takes from its libraries. -/
structure Netip where
  /-- The canonical text of a UUID. -/
  parseUUID : String → Option String
  parseAddr : String → Option (Addr × String)
  parsePrefix : String → Option (Prefix × String)
  /-- The text of an address. -/
  string : Addr → String

section Parsing

variable (netip : Netip)

def parseIP (value : String) : Except String Addr :=
  match netip.parseAddr value with
  | some (address, zone) =>
    if zone ≠ "" ∨ address.is4In6 then
      .error "address must be an IPv4 or IPv6 address without a zone"
    else .ok address
  | none => .error "address must be an IPv4 or IPv6 address without a zone"

def peer (value : String) : Except String Prefix :=
  match parseIP netip value with
  | .ok address => .ok ⟨address, address.family.width⟩
  | .error _ =>
    match netip.parsePrefix value with
    | some (network, zone) =>
      if zone ≠ "" ∨ network.addr.is4In6 then
        .error ("CIDR must be an IPv4/IPv6 address or " ++ "prefix without a zone")
      else .ok network.masked
    | none =>
      .error ("CIDR must be an IPv4/IPv6 address or " ++ "prefix without a zone")

end Parsing

inductive Direction where
  | outbound
  | inbound
  deriving DecidableEq

def opposite : Direction → Direction
  | .inbound => .outbound
  | .outbound => .inbound

inductive Action where
  | allow
  | drop
  deriving DecidableEq

inductive Transport where
  | tcp
  | udp
  deriving DecidableEq

inductive Protocol where
  | only (transport : Transport)
  | both
  deriving DecidableEq

structure Allocation where
  ip : String
  port : Int
  deriving DecidableEq

structure ResolvedGroup where
  id : String
  protocol : Option Protocol
  allocations : List Allocation
  deriving DecidableEq

structure Chain where
  id : String
  enabled : Bool
  deriving DecidableEq

structure Rule where
  id : String
  enabled : Bool
  chainID : Option String
  direction : Option Direction
  action : Option Action
  protocol : Option Protocol
  groupID : Option String
  cidr : Option String
  deriving DecidableEq

structure Firewall where
  enabled : Bool
  defaultInbound : Option Action
  defaultOutbound : Option Action
  chains : List Chain
  rules : List Rule
  deriving DecidableEq

structure Policy where
  resolvedGroups : List ResolvedGroup
  firewall : Firewall
  deriving DecidableEq

abbrev Assigned := List (String × List Int)

/-- The protocol named is `both` or the given one. -/
def covers (protocol : Option Protocol) (transport : Transport) : Bool :=
  protocol = some .both || protocol = some (.only transport)

namespace Policy

def orderedRules (policy : Policy) : List Rule :=
  (policy.firewall.chains.filter fun chain => chain.enabled).flatMap
      (fun chain => policy.firewall.rules.filter fun rule =>
        rule.enabled && rule.chainID = some chain.id) ++
    policy.firewall.rules.filter fun rule =>
      rule.enabled && rule.chainID = none

def fallback (policy : Policy) : Direction → Option Action
  | .outbound => policy.firewall.defaultOutbound
  | .inbound => policy.firewall.defaultInbound

end Policy

section Allocations

variable (netip : Netip)

def allocationKey (value : String) (port : Int) : Except String (Addr × Int) :=
  (parseIP netip value).map fun address => (address, port % 65536)

def hasAllocation (assigned : Assigned) (allocation : Allocation) : Bool :=
  match allocationKey netip allocation.ip allocation.port with
  | .error _ => false
  | .ok wanted => assigned.any fun (host, ports) =>
    ports.contains allocation.port &&
      match allocationKey netip host allocation.port with
      | .error _ => false
      | .ok key => key = wanted

def Owns (assigned : Assigned) (address : Addr) (port : Int) : Prop :=
  ∃ entry ∈ assigned, parseIP netip entry.1 = .ok address ∧ port ∈ entry.2

end Allocations

theorem allocationKey_eq_ok_iff : allocationKey netip value port = .ok key ↔
    parseIP netip value = .ok key.1 ∧ port % 65536 = key.2 := by
  obtain ⟨address, reduced⟩ := key
  cases parsed : parseIP netip value with
  | error message | ok parsedAddress => simp [allocationKey, parsed, Except.map]

theorem hasAllocation_iff : hasAllocation netip assigned allocation = true ↔
    ∃ address, parseIP netip allocation.ip = .ok address ∧
    Owns netip assigned address allocation.port := by
  cases parsed : parseIP netip allocation.ip with
  | error message =>
    simp [hasAllocation, allocationKey, parsed, Except.map]
  | ok address =>
    have key : allocationKey netip allocation.ip allocation.port =
        .ok (address, allocation.port % 65536) := allocationKey_eq_ok_iff.2 ⟨parsed, rfl⟩
    simp only [hasAllocation, key, List.any_eq_true, Bool.and_eq_true,
      List.contains_iff_mem, Except.ok.injEq, exists_eq_left', Owns]
    refine exists_congr fun entry => and_congr_right fun _ => ?_
    rw [and_comm]
    refine and_congr_left fun _ => ?_
    cases host : parseIP netip entry.1 with
    | error message | ok hostAddress => simp [allocationKey, host, Except.map]

end Wings.NetworkPolicy
