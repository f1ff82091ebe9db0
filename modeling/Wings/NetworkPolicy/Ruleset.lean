import Mathlib.Data.List.Dedup
import Mathlib.Data.List.Sort
import Wings.Library.PacketFilter
import Wings.NetworkPolicy.Policy

/-!
# Compiling a policy to a ruleset

When a packet does not have the field that a match loads, the match fails whatever its operator. A
rule is compiled twice: into the chain of its direction, and into the origin chain for the packets
whose connection began in it. What the policy says is told from a sight of the packet: from what it
shows, or from what its connection-tracking entry shows of the packet that began the connection.
-/

namespace Wings.NetworkPolicy

open PacketFilter

inductive IcmpType where
  | destinationUnreachable
  | timeExceeded
  | parameterProblem
  | other (number : Nat)
  deriving DecidableEq

inductive Icmpv6Type where
  | destinationUnreachable
  | packetTooBig
  | timeExceeded
  | parameterProblem
  | ndNeighborSolicit
  | ndNeighborAdvert
  | other (number : Nat)
  deriving DecidableEq

inductive L4Protocol where
  | transport (transport : Transport)
  | icmp
  | ipv6Icmp
  | other (number : Nat)
  deriving DecidableEq

inductive Layer4 where
  | ports (transport : Transport) (sport dport : Nat)
  | icmp (type : IcmpType)
  | icmpv6 (type : Icmpv6Type)
  | other (number : Nat)
  deriving DecidableEq

def Layer4.protocol : Layer4 → L4Protocol
  | .ports transport _ _ => .transport transport
  | .icmp _ => .icmp
  | .icmpv6 _ => .ipv6Icmp
  | .other number => .other number

/-- An IP packet with its fragment offset or header, and the hop limit of IPv6 packets. -/
structure Header (family : Family) where
  saddr : BitVec family.width
  daddr : BitVec family.width
  fragOff : Nat
  fragHeader : Bool
  hoplimit : Nat
  layer4 : Layer4
  deriving DecidableEq

inductive CtState where
  | new
  | established
  | related
  | invalid
  deriving DecidableEq

inductive CtDirection where
  | original
  | reply
  deriving DecidableEq

structure Conntrack (family : Family) where
  state : CtState
  direction : CtDirection
  status : Nat
  protocol : L4Protocol
  saddr : BitVec family.width
  daddr : BitVec family.width
  protoSrc : Nat
  protoDst : Nat
  deriving DecidableEq

inductive Frame where
  | arp
  | ip (family : Family) (header : Header family) (ct : Conntrack family)
  | other (number : Nat)
  deriving DecidableEq

structure Packet where
  ibrname : String
  obrname : String
  frame : Frame
  deriving DecidableEq

inductive EtherType where
  | arp
  | ip (family : Family)
  | other (number : Nat)
  deriving DecidableEq

inductive Side where
  | source
  | destination
  deriving DecidableEq

inductive StatusFlag where
  | confirmed
  | dnat
  deriving DecidableEq

def StatusFlag.mask : StatusFlag → Nat
  | .confirmed => 8
  | .dnat => 32

inductive Field where
  | ibrname
  | obrname
  | l4proto
  | etherType
  | fragOff
  | fragHeader
  | hoplimit
  | icmpType
  | icmpv6Type
  | port (transport : Transport) (side : Side)
  | address (family : Family) (side : Side)
  | ctState
  | ctDirection
  | ctStatus
  | ctProtocol
  | ctAddress (family : Family) (side : Side)
  | ctPort (side : Side)
  deriving DecidableEq

inductive Value where
  | text (text : String)
  | protocol (protocol : L4Protocol)
  | etherType (type : EtherType)
  | number (number : Int)
  | flag (flag : Bool)
  | icmpType (type : IcmpType)
  | icmpv6Type (type : Icmpv6Type)
  | address (address : Addr)
  | ctState (state : CtState)
  | ctDirection (direction : CtDirection)
  | concat (left right : Value)
  deriving DecidableEq

inductive Expression where
  | field (field : Field)
  | masked (field : Field) (mask : Nat)
  | concat (left right : Expression)
  deriving DecidableEq

inductive Operand where
  | value (value : Value)
  | set (values : List Value)
  | network (network : Prefix)
  deriving DecidableEq

inductive Operator where
  | eq
  | ne
  deriving DecidableEq

structure Match where
  left : Expression
  operator : Operator
  right : Operand
  deriving DecidableEq

def Frame.etherType : Frame → EtherType
  | .arp => .arp
  | .ip family _ _ => .ip family
  | .other number => .other number

def Header.side (header : Header family) : Side → Addr
  | .source => ⟨family, header.saddr⟩
  | .destination => ⟨family, header.daddr⟩

def Conntrack.side (ct : Conntrack family) : Side → Addr
  | .source => ⟨family, ct.saddr⟩
  | .destination => ⟨family, ct.daddr⟩

def Conntrack.port (ct : Conntrack family) : Side → Nat
  | .source => ct.protoSrc
  | .destination => ct.protoDst

def Layer4.port (transport : Transport) (side : Side) : Layer4 → Option Nat
  | .ports actual sport dport =>
    if actual = transport then
      match side with
      | .source => some sport
      | .destination => some dport
    else none
  | _ => none

def Field.ipValue (family : Family) (header : Header family)
    (ct : Conntrack family) : Field → Option Value
  | .l4proto => some (.protocol header.layer4.protocol)
  | .fragOff =>
    match family with
    | .ip => some (.number header.fragOff)
    | .ip6 => none
  | .fragHeader =>
    match family with
    | .ip => none
    | .ip6 => some (.flag header.fragHeader)
  | .hoplimit =>
    match family with
    | .ip => none
    | .ip6 => some (.number header.hoplimit)
  | .icmpType =>
    match header.layer4 with
    | .icmp type => some (.icmpType type)
    | _ => none
  | .icmpv6Type =>
    match header.layer4 with
    | .icmpv6 type => some (.icmpv6Type type)
    | _ => none
  | .port transport side =>
    (header.layer4.port transport side).map fun port => .number port
  | .address wanted side =>
    if wanted = family then some (.address (header.side side)) else none
  | .ctState => some (.ctState ct.state)
  | .ctDirection => some (.ctDirection ct.direction)
  | .ctStatus => some (.number ct.status)
  | .ctProtocol => some (.protocol ct.protocol)
  | .ctAddress wanted side =>
    if wanted = family then some (.address (ct.side side)) else none
  | .ctPort side => some (.number (ct.port side))
  | _ => none

def Field.value (packet : Packet) : Field → Option Value
  | .ibrname => some (.text packet.ibrname)
  | .obrname => some (.text packet.obrname)
  | .etherType => some (.etherType packet.frame.etherType)
  | field =>
    match packet.frame with
    | .ip family header ct => field.ipValue family header ct
    | _ => none

def Expression.value (packet : Packet) : Expression → Option Value
  | .field selected => selected.value packet
  | .masked selected mask =>
    match selected.value packet with
    | some (.number number) =>
      some (.number ((number.toNat &&& mask : Nat) : Int))
    | _ => none
  | .concat left right =>
    match left.value packet, right.value packet with
    | some leftValue, some rightValue =>
      some (.concat leftValue rightValue)
    | _, _ => none

def Operand.accepts (value : Value) : Operand → Bool
  | .value expected => value = expected
  | .set values => values.contains value
  | .network subnet =>
    match value with
    | .address address => subnet.contains address
    | _ => false

def Match.holds (packet : Packet) (condition : Match) : Bool :=
  match condition.left.value packet with
  | none => false
  | some value =>
    match condition.operator with
    | .eq => condition.right.accepts value
    | .ne => !condition.right.accepts value

def matchValue (field : Field) (value : Value) : Match := ⟨.field field, .eq, .value value⟩

def matchSet (field : Field) (values : List Value) : Match := ⟨.field field, .eq, .set values⟩

def matchCTStatus (flag : StatusFlag) (operator : Operator) : Match :=
  ⟨.masked .ctStatus flag.mask, operator, .value (.number flag.mask)⟩

def intSet : List Int → Operand
  | [value] => .value (.number value)
  | values => .set (values.map .number)

def prefixOperand (network : Prefix) : Operand :=
  if network.bits = network.addr.family.width then
    .value (.address network.addr)
  else .network network

/-- `outbound_fragments` and three chains for each direction. -/
inductive ChainName where
  | outboundFragments
  | origin (direction : Direction)
  | policy (direction : Direction)
  | hook (direction : Direction)
  deriving DecidableEq

def ChainName.all : List ChainName :=
  [.outboundFragments, .origin .outbound, .origin .inbound, .policy .outbound,
    .policy .inbound, .hook .outbound, .hook .inbound]

inductive HookPoint where
  | prerouting
  | postrouting
  deriving DecidableEq

/-- Where a base chain is attached, and its priority. -/
structure Hook where
  point : HookPoint
  prio : Int
  deriving DecidableEq

inductive Command where
  | table (name comment : String)
  | chain (table : String) (name : ChainName) (hook : Option Hook)
  | rule (table : String) (chain : ChainName) (rule : FilterRule ChainName Match)
  deriving DecidableEq

structure Document where
  commands : List Command
  deriving DecidableEq

namespace Document

def add (doc : Document) (command : Command) : Document := ⟨doc.commands ++ [command]⟩

def addRule (doc : Document) (table : String) (chain : ChainName)
    (conditions : List Match) (statement : Statement ChainName) : Document :=
  doc.add (.rule table chain ⟨conditions, statement⟩)

def ruleOf (chain : ChainName) : Command → Option (FilterRule ChainName Match)
  | .rule _ target rule => if target = chain then some rule else none
  | _ => none

def rulesOf (doc : Document) (chain : ChainName) : List (FilterRule ChainName Match) :=
  doc.commands.filterMap (ruleOf chain)

/-- What the table decides on a packet that enters a chain; no chain is followed twice. -/
def evaluate (doc : Document) (packet : Packet) (chain : ChainName) : Outcome :=
  run (Match.holds packet) doc.rulesOf ChainName.all.length chain

end Document

structure AllocationTuple where
  address : Addr
  port : Int
  deriving DecidableEq

/-- The allocations of a group in a family, or the scope of a rule without a group. -/
structure AllocationMatch where
  family : Option Family
  ports : List Int
  allocations : List AllocationTuple
  deriving DecidableEq

/-- By address translation, without it, or as the reply to a translated packet. -/
inductive Path where
  | dnat
  | direct
  | reply
  deriving DecidableEq

structure PolicyAllocationMatch where
  variant : AllocationMatch
  path : Option Path
  drop : Bool
  deriving DecidableEq

section Allocations

variable (netip : Netip)

def ownedTuples (assigned : Assigned) : List Allocation → Except String (List AllocationTuple)
  | [] => .ok []
  | allocation :: rest =>
    if hasAllocation netip assigned allocation then do
      let address ← parseIP netip allocation.ip
      let tuples ← ownedTuples assigned rest
      .ok (⟨address, allocation.port⟩ :: tuples)
    else ownedTuples assigned rest

def tupleLE (first second : AllocationTuple) : Bool :=
  if netip.string first.address = netip.string second.address then
    first.port ≤ second.port
  else netip.string first.address ≤ netip.string second.address

def familyMatch (tuples : List AllocationTuple) (family : Family) : Option AllocationMatch :=
  let selected := tuples.filter fun tuple => tuple.address.family = family
  if selected = [] then none
  else some ⟨some family, ((selected.map fun tuple => tuple.port).dedup).insertionSort (· ≤ ·),
    selected.dedup.insertionSort fun first second =>
      tupleLE netip first second⟩

def resolvedMatches (policy : Policy) (groupID : String) (proto : Transport)
    (assigned : Assigned) : Except String (List AllocationMatch) :=
  match policy.resolvedGroups.find? (fun group =>
    group.id = groupID && covers group.protocol proto) with
  | none => .ok []
  | some group => do
    let tuples ← ownedTuples netip assigned group.allocations
    .ok ([Family.ip, Family.ip6].filterMap (familyMatch netip tuples))

def sharedPorts (variant : AllocationMatch) : Assigned → Except String (List Int)
  | [] => .ok []
  | (host, assignedPorts) :: rest => do
    let address ← parseIP netip host
    let shared ← sharedPorts variant rest
    if some address.family ≠ variant.family then .ok shared
    else .ok (assignedPorts.filter (fun port =>
      variant.ports.contains port && !variant.allocations.contains ⟨address, port⟩) ++ shared)

def directAllocationPorts (variant : AllocationMatch)
    (assigned : Assigned) : Except String (List Int × List Int) := do
  let shared ← sharedPorts netip variant assigned
  .ok (variant.ports.filter fun port => !shared.contains port,
    variant.ports.filter fun port => shared.contains port)

def ensurePortScope (assigned : Assigned) (variant : AllocationMatch) : Except String Unit := do
  let (_, ambiguous) ← directAllocationPorts netip variant assigned
  if ambiguous ≠ [] then
    .error ("cannot preserve outbound allocation IP scope; the selected " ++
      "source port is also assigned on another IP of the same family")
  else .ok ()

def pathMatches (variant : AllocationMatch) (ports ambiguous : List Int)
    (path : Path) : List PolicyAllocationMatch :=
  (if ports ≠ [] then
    [⟨{ variant with ports := ports }, some path, false⟩] else []) ++
  (if ambiguous ≠ [] then
    [⟨{ variant with ports := ambiguous }, some path, true⟩] else [])

def variantMatches (direction : Direction) (rule : Rule) (assigned : Assigned)
    (original : Bool) (variant : AllocationMatch) : Except String (List PolicyAllocationMatch) :=
  if direction ≠ .inbound ∨ rule.groupID = none ∧ (rule.cidr = none ∨ original) then
    .ok [⟨variant, none, false⟩]
  else if rule.groupID = none then
    .ok [⟨variant, some .dnat, false⟩, ⟨variant, some .direct, false⟩,
      ⟨variant, some .reply, false⟩]
  else do
    let (ports, ambiguous) ← directAllocationPorts netip variant assigned
    let paths := if original then [Path.direct] else [.direct, .reply]
    .ok (⟨variant, some .dnat, false⟩ :: paths.flatMap (pathMatches variant ports ambiguous))

def policyAllocationMatches (direction : Direction) (rule : Rule)
    (variants : List AllocationMatch) (assigned : Assigned)
    (original : Bool) : Except String (List PolicyAllocationMatch) :=
  variants.foldlM (fun found variant => do
    let more ← variantMatches netip direction rule assigned original variant
    .ok (found ++ more)) []

end Allocations

def maxCompiledAllocationMatches : Nat := 16 * 1024

def serverSide : Direction → Side
  | .outbound => .source
  | .inbound => .destination

def peerSide : Direction → Side
  | .outbound => .destination
  | .inbound => .source

def pathConditions (original : Bool) : Option Path → List Match
  | none => []
  | some .direct => [matchCTStatus .dnat .ne]
  | some path =>
    matchCTStatus .dnat .eq ::
      if original then []
      else [matchValue .ctDirection (.ctDirection (if path = .reply then .reply else .original))]

def tupleSet (allocations : List AllocationTuple) : Operand :=
  .set (allocations.map fun allocation =>
    .concat (.address allocation.address) (.number allocation.port))

def scopeConditions (direction : Direction) (proto : Transport)
    (original : Bool) (found : PolicyAllocationMatch) : List Match :=
  match found.variant.family with
  | none => []
  | some family =>
    [matchValue .etherType (.etherType (.ip family)),
      ⟨.field (if original then .ctPort (serverSide direction)
        else .port proto (serverSide direction)), .eq,
        intSet found.variant.ports⟩] ++
    if direction = .inbound ∧ found.path = some .dnat then
      [⟨.concat (.field (.ctAddress family .destination)) (.field (.ctPort .destination)), .eq,
        tupleSet found.variant.allocations⟩]
    else []

def cidrConditions (direction : Direction) (original : Bool)
    (found : PolicyAllocationMatch) (network : Prefix) : Option (List Match) :=
  let family := network.addr.family
  if found.variant.family ≠ none ∧ found.variant.family ≠ some family then
    none
  else
    some ((if found.variant.family = none then
        [matchValue .etherType (.etherType (.ip family))] else []) ++
      [⟨.field (if original ∨ direction = .inbound ∧ found.path = some .dnat then
          .ctAddress family (peerSide direction)
        else .address family (peerSide direction)), .eq,
        prefixOperand network⟩])

def ruleConditions (netip : Netip) (direction : Direction) (rule : Rule)
    (proto : Transport) (original : Bool)
    (found : PolicyAllocationMatch) : Except String (Option (List Match)) :=
  let conditions := matchValue (if original then .ctProtocol else .l4proto)
      (.protocol (.transport proto)) :: (pathConditions original found.path ++
      scopeConditions direction proto original found)
  match rule.cidr with
  | none => .ok (some conditions)
  | some cidr => do
    let network ← peer netip cidr
    .ok ((cidrConditions direction original found network).map fun more => conditions ++ more)

def targetChain (direction : Direction) (original : Bool) : ChainName :=
  if original then .origin direction else .policy direction

def ruleStatement (rule : Rule) (found : PolicyAllocationMatch) : Statement ChainName :=
  if rule.action = some .allow ∧ found.drop = false then .returns else .drop

def ruleError (rule : Rule) (message : String) : String :=
  "rule " ++ rule.id.quote ++ ": " ++ message

section PolicyRules

variable (netip : Netip) (table : String) (policy : Policy)
  (assigned : Assigned) (direction : Direction) (rule : Rule) (original : Bool)

def addMatch (proto : Transport) (doc : Document)
    (found : PolicyAllocationMatch) : Except String Document := do
  match ← ruleConditions netip direction rule proto original found with
  | none => .ok doc
  | some conditions =>
    .ok (doc.addRule table (targetChain direction original) conditions (ruleStatement rule found))

def addMatches (proto : Transport) (variants : List AllocationMatch)
    (doc : Document) : Except String Document := do
  let found ← (policyAllocationMatches netip direction rule variants assigned
    original).mapError (ruleError rule)
  found.foldlM (addMatch netip table direction rule original proto) doc

def charge (budget : Nat) (variant : AllocationMatch) : Except String Nat :=
  if budget + variant.allocations.length > maxCompiledAllocationMatches then
    .error ("compiled allocation matches exceed the " ++
      toString maxCompiledAllocationMatches ++ "-entry backend limit")
  else .ok (budget + variant.allocations.length)

def addTransport (state : Document × Nat) (proto : Transport) : Except String (Document × Nat) :=
  if covers rule.protocol proto = false then .ok state
  else
    match rule.groupID with
    | none => do
      let doc ← addMatches netip table assigned direction rule original
        proto [⟨none, [], []⟩] state.1
      .ok (doc, state.2)
    | some groupID => do
      let variants ← (resolvedMatches netip policy groupID proto assigned).mapError (ruleError rule)
      if variants = [] then .ok state
      else do
        let budget ← variants.foldlM charge state.2
        if direction = .outbound then
          variants.forM fun variant =>
            (ensurePortScope netip assigned variant).mapError (ruleError rule)
        let doc ← addMatches netip table assigned direction rule original proto variants state.1
        .ok (doc, budget)

def addPolicyRule (state : Document × Nat) : Except String (Document × Nat) :=
  [Transport.tcp, .udp].foldlM
    (addTransport netip table policy assigned direction rule original) state

end PolicyRules

def establishedConditions : List Match :=
  [matchSet .etherType [.etherType (.ip .ip), .etherType (.ip .ip6)],
    matchSet .l4proto [.protocol (.transport .tcp), .protocol (.transport .udp)],
    matchValue .ctState (.ctState .established), matchValue .ctDirection (.ctDirection .reply),
    matchCTStatus .confirmed .eq]

def relatedConditions (direction : CtDirection) : Family → List Match
  | .ip =>
    [matchValue .etherType (.etherType (.ip .ip)), matchValue .l4proto (.protocol .icmp),
      matchSet .icmpType [.icmpType .destinationUnreachable,
        .icmpType .timeExceeded, .icmpType .parameterProblem],
      matchValue .ctState (.ctState .related), matchValue .ctDirection (.ctDirection direction)]
  | .ip6 =>
    [matchValue .etherType (.etherType (.ip .ip6)), matchValue .l4proto (.protocol .ipv6Icmp),
      matchSet .icmpv6Type [.icmpv6Type .destinationUnreachable,
        .icmpv6Type .packetTooBig, .icmpv6Type .timeExceeded, .icmpv6Type .parameterProblem],
      matchValue .ctState (.ctState .related), matchValue .ctDirection (.ctDirection direction)]

def fragmentConditions : Family → List Match
  | .ip =>
    [matchValue .etherType (.etherType (.ip .ip)),
      ⟨.masked .fragOff 0x3fff, .ne, .value (.number 0)⟩]
  | .ip6 =>
    [matchValue .etherType (.etherType (.ip .ip6)), matchValue .fragHeader (.flag true)]

def neighbourConditions : List Match := [matchValue .etherType (.etherType (.ip .ip6)),
    matchValue .l4proto (.protocol .ipv6Icmp), matchValue .hoplimit (.number 255),
    matchSet .icmpv6Type [.icmpv6Type .ndNeighborSolicit, .icmpv6Type .ndNeighborAdvert]]

section Ruleset

variable (table : String)

def addEstablishedReplies (direction : Direction) (doc : Document) : Document :=
  doc.addRule table (.policy direction) establishedConditions (.goto (.origin (opposite direction)))

def addRelatedICMP (chain : Direction) (doc : Document) (direction : CtDirection) : Document :=
  let origin := if direction = .reply then opposite chain else chain
  (doc.addRule table (.policy chain) (relatedConditions direction .ip)
    (.goto (.origin origin))).addRule table (.policy chain)
      (relatedConditions direction .ip6) (.goto (.origin origin))

def addRelatedICMPRules (chain : Direction) (doc : Document) : Document :=
  [CtDirection.original, .reply].foldl (addRelatedICMP table chain) doc

def addControlRules (direction : Direction) (doc : Document) : Document :=
  let doc := doc.addRule table (.policy direction)
    [matchValue .etherType (.etherType .arp)] .returns
  let doc := doc.addRule table (.policy direction) (fragmentConditions .ip) .drop
  let doc := doc.addRule table (.policy direction) (fragmentConditions .ip6) .drop
  doc.addRule table (.policy direction) neighbourConditions .returns

def addFallback (fallback : Option Action) (doc : Document) (chain : ChainName) : Document :=
  let doc := if fallback = some .allow then
      doc.addRule table chain [matchSet .etherType [.etherType (.ip .ip), .etherType (.ip .ip6)]]
        .returns
    else doc
  doc.addRule table chain [] .drop

end Ruleset

def names (netip : Netip) (id : String) : Except String (String × String × String) :=
  if netip.parseUUID id ≠ some id then .error "invalid server UUID"
  else
    let hex := id.toList.filter fun char => char ≠ '-'
    .ok ("wings-nsm-" ++ id, "nsm" ++ String.ofList (hex.take 12),
      "wings_nsm_" ++ String.ofList hex)

def ownerPrefix : String := "wings-networkstats:"

def bridgeMeta : Direction → Field
  | .outbound => .ibrname
  | .inbound => .obrname

def hookPoint : Direction → HookPoint
  | .outbound => .prerouting
  | .inbound => .postrouting

section Compile

variable (netip : Netip) (bridge table : String) (policy : Policy) (assigned : Assigned)

def addOrderedRule (direction : Direction) (state : Document × Nat)
    (rule : Rule) : Except String (Document × Nat) :=
  if rule.direction ≠ some direction then .ok state
  else do
    let state ← addPolicyRule netip table policy assigned direction rule false state
    addPolicyRule netip table policy assigned direction rule true state

def addHook (direction : Direction) (doc : Document) : Document :=
  ((doc.add (.chain table (.policy direction) none)).add (.chain table (.hook direction)
      (some ⟨hookPoint direction, -199⟩))).addRule table (.hook direction)
    [matchValue (bridgeMeta direction) (.text bridge)] (.jump (.policy direction))

def addDirection (rules : List Rule) (gate : Bool) (state : Document × Nat)
    (direction : Direction) : Except String (Document × Nat) :=
  let doc := addHook bridge table direction state.1
  if gate then .ok (doc.addRule table (.policy direction) [] .drop, state.2)
  else if policy.firewall.enabled = false then
    .ok (doc.addRule table (.policy direction) [] .returns, state.2)
  else do
    let (doc, budget) ← rules.foldlM (addOrderedRule netip table policy assigned direction)
      (addControlRules table direction doc, state.2)
    let doc := addEstablishedReplies table direction doc
    let doc := addRelatedICMPRules table direction doc
    .ok ([ChainName.policy direction, .origin direction].foldl
      (addFallback table (policy.fallback direction)) doc, budget)

def addStatefulChains (doc : Document) : Document :=
  let doc := doc.add (.chain table .outboundFragments (some ⟨.prerouting, -201⟩))
  let doc := doc.addRule table .outboundFragments
    (matchValue .ibrname (.text bridge) :: fragmentConditions .ip) .drop
  let doc := doc.addRule table .outboundFragments
    (matchValue .ibrname (.text bridge) :: fragmentConditions .ip6) .drop
  (doc.add (.chain table (.origin .outbound) none)).add (.chain table (.origin .inbound) none)

end Compile

def compileRuleset (netip : Netip) (id : String) (policy : Policy)
    (assigned : Assigned) (gate : Bool) : Except String Document := do
  let (_, bridge, table) ← names netip id
  let active := !gate && policy.firewall.enabled
  let rules := if active then policy.orderedRules else []
  let doc : Document := ⟨[.table table (ownerPrefix ++ id)]⟩
  let doc := if active then addStatefulChains bridge table doc else doc
  let (doc, _) ← [Direction.outbound, .inbound].foldlM
    (addDirection netip bridge table policy assigned rules gate) (doc, 0)
  .ok doc

structure Sight where
  transport : Option Transport
  family : Family
  path : Path
  /-- The port on the side of the server. -/
  port : Option Int
  /-- The destination before address translation. -/
  destination : AllocationTuple
  peer : Addr
  destination_family : destination.address.family = family

def L4Protocol.transport? : L4Protocol → Option Transport
  | .transport carried => some carried
  | _ => none

namespace Conntrack

section

variable (ct : Conntrack family)

def has (flag : StatusFlag) : Bool := ct.status &&& flag.mask = flag.mask

def originalDestination : AllocationTuple := ⟨ct.side .destination, ct.protoDst⟩

def path : Path :=
  if ct.has .dnat then
    match ct.direction with
    | .original => .dnat
    | .reply => .reply
  else .direct

def originalPath : Path := if ct.has .dnat then .dnat else .direct

end

end Conntrack

/-- What a packet shows in a direction. The peer is the one before translation. -/
def currentSight (direction : Direction) (header : Header family)
    (ct : Conntrack family) : Sight where
  transport := header.layer4.protocol.transport?
  family := family
  path := ct.path
  port := header.layer4.protocol.transport?.bind fun transport =>
    (header.layer4.port transport (serverSide direction)).map fun port => port
  destination := ct.originalDestination
  peer := if direction = .inbound ∧ ct.path = .dnat then
      ct.side (peerSide direction)
    else header.side (peerSide direction)
  destination_family := rfl

def originalSight (direction : Direction) (ct : Conntrack family) : Sight where
  transport := ct.protocol.transport?
  family := family
  path := ct.originalPath
  port := some (ct.port (serverSide direction))
  destination := ct.originalDestination
  peer := ct.side (peerSide direction)
  destination_family := rfl

section Rules

variable (netip : Netip) (policy : Policy) (assigned : Assigned)

def Policy.groupFor (policy : Policy) (groupID : String)
    (proto : Transport) : Option ResolvedGroup :=
  policy.resolvedGroups.find? fun group =>
    group.id = groupID && covers group.protocol proto

def InGroup (groupID : String) (proto : Transport) (tuple : AllocationTuple) : Prop :=
  ∃ group, policy.groupFor groupID proto = some group ∧ (∃ allocation ∈ group.allocations,
      parseIP netip allocation.ip = .ok tuple.address ∧ allocation.port = tuple.port) ∧
      Owns netip assigned tuple.address tuple.port

def PortInGroup (groupID : String) (proto : Transport) (family : Family) (port : Int) : Prop :=
  ∃ address : Addr, address.family = family ∧
    InGroup netip policy assigned groupID proto ⟨address, port⟩

def PortShared (groupID : String) (proto : Transport) (family : Family) (port : Int) : Prop :=
  ∃ address : Addr, address.family = family ∧ Owns netip assigned address port ∧
      ¬InGroup netip policy assigned groupID proto ⟨address, port⟩

def InScope (direction : Direction) (rule : Rule) (proto : Transport) (sight : Sight) : Prop :=
  ∀ groupID, rule.groupID = some groupID → (∃ port, sight.port = some port ∧
      PortInGroup netip policy assigned groupID proto sight.family port) ∧
    (direction = .inbound → sight.path = .dnat →
      InGroup netip policy assigned groupID proto sight.destination)

/-- The packet does not tell which of several allocations it belongs to. -/
def Ambiguous (direction : Direction) (rule : Rule) (proto : Transport) (sight : Sight) : Prop :=
  direction = .inbound ∧ sight.path ≠ .dnat ∧ ∃ groupID, rule.groupID = some groupID ∧
      ∃ port, sight.port = some port ∧
        PortShared netip policy assigned groupID proto sight.family port

def PeerInNetwork (rule : Rule) (sight : Sight) : Prop :=
  ∀ cidr, rule.cidr = some cidr → ∃ network, peer netip cidr = .ok network ∧
      network.contains sight.peer = true

open Classical in
noncomputable def ruleVerdict (direction : Direction) (sight : Sight)
    (rule : Rule) : Option Verdict :=
  match sight.transport with
  | none => none
  | some proto =>
    if covers rule.protocol proto ∧ PeerInNetwork netip rule sight ∧
        InScope netip policy assigned direction rule proto sight then
      if rule.action = some .allow ∧
          ¬Ambiguous netip policy assigned direction rule proto sight then
        some .accept
      else some .drop
    else none

noncomputable def rulesVerdict (direction : Direction) (sight : Sight) : Option Verdict :=
  (policy.orderedRules.filter fun rule =>
    rule.direction = some direction).findSome? (ruleVerdict netip policy assigned direction sight)

def defaultVerdict (direction : Direction) : Verdict :=
  if policy.fallback direction = some .allow then .accept else .drop

/-- What the policy says about the packet that began the connection. -/
noncomputable def originVerdict (direction : Direction) (ct : Conntrack family) : Verdict :=
  (rulesVerdict netip policy assigned direction
    (originalSight direction ct)).getD (defaultVerdict policy direction)

end Rules

namespace Header

def isFragment : {family : Family} → Header family → Bool
  | .ip, header => header.fragOff &&& 0x3fff ≠ 0
  | .ip6, header => header.fragHeader

def isNeighbourDiscovery : {family : Family} → Header family → Bool
  | .ip, _ => false
  | .ip6, header =>
    header.hoplimit = 255 && (header.layer4 = .icmpv6 .ndNeighborSolicit ||
        header.layer4 = .icmpv6 .ndNeighborAdvert)

def isError : {family : Family} → Header family → Bool
  | .ip, header =>
    header.layer4 = .icmp .destinationUnreachable || header.layer4 = .icmp .timeExceeded ||
        header.layer4 = .icmp .parameterProblem
  | .ip6, header =>
    header.layer4 = .icmpv6 .destinationUnreachable || header.layer4 = .icmpv6 .packetTooBig ||
        header.layer4 = .icmpv6 .timeExceeded || header.layer4 = .icmpv6 .parameterProblem

end Header

def originDirection (direction : Direction) (header : Header family)
    (ct : Conntrack family) : Option Direction :=
  if header.layer4.protocol.transport?.isSome ∧ ct.state = .established ∧
      ct.direction = .reply ∧ ct.has .confirmed then
    some (opposite direction)
  else if header.isError ∧ ct.state = .related then
    some (if ct.direction = .reply then opposite direction else direction)
  else none

noncomputable def policyVerdict (netip : Netip) (policy : Policy)
    (assigned : Assigned) (direction : Direction) : Frame → Verdict
  | .arp => .accept
  | .other _ => .drop
  | .ip _ header ct =>
    if header.isFragment then .drop
    else if header.isNeighbourDiscovery then .accept
    else
      (rulesVerdict netip policy assigned direction (currentSight direction header ct)).getD
        (match originDirection direction header ct with
        | some origin => originVerdict netip policy assigned origin ct
        | none => defaultVerdict policy direction)

open FallibleProgram

theorem mem_ownedTuples (owned : ownedTuples netip assigned allocations = .ok tuples)
    (tuple : AllocationTuple) :
    tuple ∈ tuples ↔ (∃ allocation ∈ allocations, parseIP netip allocation.ip = .ok tuple.address ∧
    allocation.port = tuple.port) ∧ Owns netip assigned tuple.address tuple.port := by
  induction allocations generalizing tuples with
  | nil =>
    cases owned
    simp
  | cons allocation rest ih =>
    simp only [ownedTuples] at owned
    split_ifs at owned with assignedHere
    · obtain ⟨address, parsed, owns⟩ := hasAllocation_iff.1 assignedHere
      rw [parsed, ok_bind] at owned
      obtain ⟨others, later, same⟩ := bind_eq_ok_iff.1 owned
      cases same
      rw [List.mem_cons, ih later]
      constructor
      · rintro (rfl | ⟨⟨other, member, same⟩, ownsOther⟩)
        · exact ⟨⟨allocation, by simp, parsed, rfl⟩, owns⟩
        · exact ⟨⟨other, by simp [member], same⟩, ownsOther⟩
      · rintro ⟨⟨other, member, parsedOther, samePort⟩, ownsOther⟩
        rcases List.mem_cons.1 member with rfl | member
        · rw [parsed] at parsedOther
          cases parsedOther
          exact .inl (by rw [samePort])
        · exact .inr ⟨⟨other, member, parsedOther, samePort⟩, ownsOther⟩
    · rw [ih owned]
      refine and_congr_left fun owns => ?_
      constructor
      · rintro ⟨other, member, same⟩
        exact ⟨other, by simp [member], same⟩
      · rintro ⟨other, member, parsedOther, samePort⟩
        rcases List.mem_cons.1 member with rfl | member
        · refine absurd (hasAllocation_iff.2 ⟨_, parsedOther, ?_⟩)
            assignedHere
          rwa [samePort]
        · exact ⟨other, member, parsedOther, samePort⟩

theorem mem_sharedPorts (found : sharedPorts netip variant assigned = .ok shared) (port : Int) :
    port ∈ shared ↔ port ∈ variant.ports ∧ ∃ address : Addr, some address.family = variant.family ∧
    Owns netip assigned address port ∧ ⟨address, port⟩ ∉ variant.allocations := by
  induction assigned generalizing shared with
  | nil =>
    cases found
    simp [Owns]
  | cons entry rest ih =>
    obtain ⟨host, assignedPorts⟩ := entry
    simp only [sharedPorts] at found
    obtain ⟨hostAddress, parsed, found⟩ := bind_eq_ok_iff.1 found
    obtain ⟨others, later, found⟩ := bind_eq_ok_iff.1 found
    have owns : ∀ address, Owns netip ((host, assignedPorts) :: rest)
        address port ↔ (hostAddress = address ∧
          port ∈ assignedPorts) ∨ Owns netip rest address port := by
      intro address
      simp [Owns, parsed]
    split_ifs at found with otherFamily <;>
      cases found
    · rw [ih later]
      grind
    · rw [List.mem_append, ih later]
      grind

structure Covers (netip : Netip) (policy : Policy) (assigned : Assigned)
    (groupID : String) (proto : Transport) (family : Family)
    (variant : AllocationMatch) : Prop where
  family_eq : variant.family = some family
  mem_ports : ∀ port, port ∈ variant.ports ↔
    PortInGroup netip policy assigned groupID proto family port
  mem_allocations : ∀ tuple, tuple ∈ variant.allocations ↔ tuple.address.family = family ∧
      InGroup netip policy assigned groupID proto tuple

theorem Covers.mem_sharedPorts_iff (covers :
    Covers netip policy assigned groupID proto family variant)
    (found : sharedPorts netip variant assigned = .ok shared) (inGroup : port ∈ variant.ports) :
    port ∈ shared ↔ PortShared netip policy assigned groupID proto family port := by
  rw [mem_sharedPorts found, and_iff_right inGroup, PortShared]
  refine exists_congr fun address => ?_
  rw [covers.family_eq, Option.some.injEq, covers.mem_allocations]
  refine and_congr_right fun sameFamily => and_congr_right fun _ => ?_
  rw [and_iff_right sameFamily]

section FamilyMatch

theorem familyMatch_eq_none (none_ : familyMatch netip tuples family = none) :
    ∀ tuple ∈ tuples, tuple.address.family ≠ family := by
  intro tuple member sameFamily
  simp only [familyMatch] at none_
  split_ifs at none_ with empty
  have selected : tuple ∈ tuples.filter fun tuple =>
      tuple.address.family = family := by
    simp [member, sameFamily]
  rw [empty] at selected
  exact absurd selected List.not_mem_nil

theorem familyMatch_eq_some (some_ : familyMatch netip tuples family = some variant) :
    variant.family = some family ∧ (∀ port, port ∈ variant.ports ↔ ∃ address : Addr,
    address.family = family ∧ ⟨address, port⟩ ∈ tuples) ∧
    ∀ tuple, tuple ∈ variant.allocations ↔ tuple.address.family = family ∧ tuple ∈ tuples := by
  simp only [familyMatch] at some_
  split_ifs at some_
  obtain rfl := Option.some.inj some_
  refine ⟨rfl, fun port => ?_, fun tuple => ?_⟩
  · rw [List.mem_insertionSort, List.mem_dedup, List.mem_map]
    constructor
    · rintro ⟨tuple, selected, rfl⟩
      obtain ⟨member, sameFamily⟩ := List.mem_filter.1 selected
      exact ⟨tuple.address, by simpa using sameFamily, member⟩
    · rintro ⟨address, sameFamily, member⟩
      exact ⟨_, List.mem_filter.2 ⟨member, by simpa using sameFamily⟩, rfl⟩
  · rw [List.mem_insertionSort, List.mem_dedup, List.mem_filter, and_comm]
    simp

end FamilyMatch

theorem resolvedMatches_eq_ok (resolved : resolvedMatches netip policy groupID proto assigned =
    .ok variants) : ∃ select : Family → Option AllocationMatch,
    variants = [Family.ip, Family.ip6].filterMap select ∧ ∀ family,
    (∀ variant, select family = some variant →
    Covers netip policy assigned groupID proto family variant) ∧ (select family = none → ∀ port,
    ¬PortInGroup netip policy assigned groupID proto family port) := by
  simp only [resolvedMatches] at resolved
  split at resolved
  · rename_i absent
    cases resolved
    refine ⟨fun _ => none, rfl, fun family => ⟨by simp, ?_⟩⟩
    rintro - port ⟨address, -, group, present, -⟩
    rw [Policy.groupFor, absent] at present
    simp at present
  · rename_i group present
    obtain ⟨tuples, owned, resolved⟩ := bind_eq_ok_iff.1 resolved
    simp only [Except.ok.injEq] at resolved
    have inGroup : ∀ tuple, tuple ∈ tuples ↔
        InGroup netip policy assigned groupID proto tuple := by
      intro tuple
      rw [mem_ownedTuples owned, InGroup, Policy.groupFor, present]
      simp
    refine ⟨familyMatch netip tuples, resolved.symm, fun family => ?_⟩
    constructor
    · intro variant selected
      obtain ⟨family_eq, ports, allocations⟩ := familyMatch_eq_some selected
      refine ⟨family_eq, fun port => ?_, fun tuple => ?_⟩
      · rw [ports, PortInGroup]
        simp only [inGroup]
      · rw [allocations, inGroup]
    · rintro missing port ⟨address, sameFamily, selected⟩
      exact familyMatch_eq_none missing _ ((inGroup _).2 selected) sameFamily

end Wings.NetworkPolicy
