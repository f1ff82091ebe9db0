import Wings.NetworkPolicy.Ruleset

/-!
# A compiled rule says what the rule says

A rule of the policy is compiled into several rules of a chain, one for each protocol, family and
path, which test the protocol, the path, the scope and the peer. Together they decide on a packet
what the rule says about it.
-/

namespace Wings.NetworkPolicy

open FallibleProgram PacketFilter
open Operand (accepts)
open Match (holds)

section Matches

theorem matchValue_holds :
    (matchValue field value).holds packet = true ↔ field.value packet = some value := by
  cases loaded : field.value packet with
  | none => simp [matchValue, holds, Expression.value, loaded]
  | some actual =>
    simp [matchValue, holds, Expression.value, loaded, accepts]

theorem matchSet_holds : (matchSet field values).holds packet = true ↔
    ∃ value ∈ values, field.value packet = some value := by
  cases loaded : field.value packet with
  | none => simp [matchSet, holds, Expression.value, loaded]
  | some actual =>
    simp [matchSet, holds, Expression.value, loaded, accepts, eq_comm]

theorem intSet_accepts :
    (intSet ports).accepts value = true ↔ ∃ port ∈ ports, value = .number port := by
  unfold intSet
  split
  · simp [accepts]
  · simp [accepts, eq_comm]

theorem tupleSet_accepts : (tupleSet allocations).accepts
    (.concat (.address address) (.number port)) = true ↔ ⟨address, port⟩ ∈ allocations := by
  simp only [tupleSet, accepts, List.contains_eq_mem,
    decide_eq_true_iff, List.mem_map, Value.concat.injEq,
    Value.address.injEq, Value.number.injEq]
  constructor
  · rintro ⟨allocation, member, rfl, rfl⟩
    exact member
  · intro member
    exact ⟨_, member, rfl, rfl⟩

theorem prefixOperand_accepts :
    (prefixOperand network).accepts (.address address) = network.contains address := by
  unfold prefixOperand
  split_ifs with full
  · obtain ⟨⟨family, bits⟩, length⟩ := network
    simp only at full
    subst full
    rw [Bool.eq_iff_iff]
    simp only [accepts, Prefix.contains, decide_eq_true_iff,
      Bool.and_eq_true, Nat.sub_self, Nat.shiftRight_zero, Value.address.injEq]
    constructor
    · rintro ⟨⟩
      exact ⟨rfl, rfl⟩
    · rintro ⟨rfl, sameBits⟩
      rw [BitVec.eq_of_toNat_eq sameBits]
  · rfl

end Matches

section Conditions

variable {header : Header family}

def sightOf (original : Bool) (direction : Direction) (header : Header family)
    (ct : Conntrack family) : Sight :=
  if original then originalSight direction ct
  else currentSight direction header ct

theorem matchCTStatus_eq_holds :
    (matchCTStatus flag .eq).holds ⟨ibrname, obrname, .ip family header ct⟩ = ct.has flag := by
  simp [matchCTStatus, holds, Expression.value, Field.value,
    Field.ipValue, accepts, Conntrack.has, Int.natCast_inj]

theorem matchCTStatus_ne_holds :
    (matchCTStatus flag .ne).holds ⟨ibrname, obrname, .ip family header ct⟩ = !ct.has flag := by
  simp [matchCTStatus, holds, Expression.value, Field.value,
    Field.ipValue, accepts, Conntrack.has, Int.natCast_inj]

theorem protocol_holds :
    (matchValue (if original then .ctProtocol else .l4proto) (.protocol (.transport proto))).holds
          ⟨ibrname, obrname, .ip family header ct⟩ = true ↔
      (sightOf original direction header ct).transport = some proto := by
  rw [matchValue_holds]
  cases original with
  | true =>
    simp only [if_true, Field.value, Field.ipValue, sightOf, originalSight]
    cases ct.protocol <;> simp [L4Protocol.transport?]
  | false =>
    simp only [Bool.false_eq_true, if_false, Field.value, Field.ipValue, sightOf, currentSight]
    cases header.layer4.protocol <;> simp [L4Protocol.transport?]

/-- A reply is not in its direction's own entry, and the peer of an inbound packet depends on its
path. -/
structure Routed (direction : Direction) (rule : Rule) (original : Bool)
    (found : PolicyAllocationMatch) : Prop where
  not_reply : original = true → found.path ≠ some .reply
  path_known : direction = .inbound → original = false → rule.cidr ≠ none → found.path ≠ none

theorem pathConditions_hold (direction : Direction)
    (not_reply : original = true → path ≠ some .reply) : (pathConditions original path).all
    (holds ⟨ibrname, obrname, .ip family header ct⟩) = true ↔ ∀ expected, path = some expected →
    (sightOf original direction header ct).path = expected := by
  cases path with
  | none => simp [pathConditions]
  | some expected =>
    cases original with
    | true =>
      cases expected with
      | dnat =>
        simp [pathConditions, matchCTStatus_eq_holds, sightOf,
          originalSight, Conntrack.originalPath]
      | direct =>
        simp [pathConditions, matchCTStatus_ne_holds, sightOf,
          originalSight, Conntrack.originalPath]
      | reply => exact absurd rfl (not_reply rfl)
    | false =>
      cases flag : ct.has .dnat <;> cases turn : ct.direction <;>
        cases expected <;>
          simp [pathConditions, matchCTStatus_eq_holds,
            matchCTStatus_ne_holds, matchValue_holds, Field.value,
            Field.ipValue, sightOf, currentSight, Conntrack.path, flag, turn]

theorem serverPort_value (transport : (sightOf original direction header ct).transport = some proto)
    (ibrname obrname : String) : (if original then Field.ctPort (serverSide direction)
        else .port proto (serverSide direction)).value ⟨ibrname, obrname, .ip family header ct⟩ =
      (sightOf original direction header ct).port.map .number := by
  cases original with
  | true => rfl
  | false =>
    have carried : header.layer4.protocol.transport? = some proto := transport
    simp only [Bool.false_eq_true, if_false, Field.value, Field.ipValue,
      sightOf, currentSight, carried, Option.bind_some, Option.map_map]
    rfl

theorem field_in_intSet_holds (value : field.value packet = loaded.map .number) (ports : List Int) :
    holds packet ⟨.field field, .eq, intSet ports⟩ = true ↔
    ∃ port, loaded = some port ∧ port ∈ ports := by
  cases loaded with
  | none => simp [holds, Expression.value, value]
  | some port =>
    simp [holds, Expression.value, value, intSet_accepts]

theorem originalDestination_holds : holds ⟨ibrname, obrname, .ip family header ct⟩
    ⟨.concat (.field (.ctAddress family .destination))
    (.field (.ctPort .destination)), .eq, tupleSet allocations⟩ = true ↔
    ct.originalDestination ∈ allocations := by
  simp only [holds, Expression.value, Field.value, Field.ipValue, if_true]
  exact tupleSet_accepts

theorem sightOf_family : (sightOf original direction header ct).family = family := by
  cases original <;> rfl

theorem sightOf_destination : (sightOf original direction header ct).destination =
    ct.originalDestination := by
  cases original <;> rfl

def InVariant (direction : Direction) (found : PolicyAllocationMatch) (sight : Sight) : Prop :=
  ∀ family, found.variant.family = some family → family = sight.family ∧
      (∃ port, sight.port = some port ∧ port ∈ found.variant.ports) ∧
        (direction = .inbound → found.path = some .dnat →
          sight.destination ∈ found.variant.allocations)

theorem scopeConditions_hold (transport : (sightOf original direction header ct).transport =
    some proto) (found : PolicyAllocationMatch) :
    (scopeConditions direction proto original found).all
    (holds ⟨ibrname, obrname, .ip family header ct⟩) = true ↔
    InVariant direction found (sightOf original direction header ct) := by
  unfold scopeConditions InVariant
  cases found.variant.family with
  | none => simp
  | some wanted =>
    have etherType : (matchValue .etherType (.etherType (.ip wanted))).holds
          ⟨ibrname, obrname, .ip family header ct⟩ = true ↔ wanted = family := by
      rw [matchValue_holds]
      simp [Field.value, Frame.etherType, eq_comm]
    have port := field_in_intSet_holds
      (serverPort_value transport ibrname obrname) found.variant.ports
    simp only [Option.some.injEq, forall_eq', List.all_append,
      List.all_cons, List.all_nil, Bool.and_true, Bool.and_eq_true,
      etherType, port, sightOf_family, sightOf_destination]
    rw [and_assoc]
    refine and_congr_right ?_
    rintro rfl
    refine and_congr_right fun _ => ?_
    split_ifs with translated
    · rw [List.all_cons, List.all_nil, Bool.and_true, originalDestination_holds]
      exact ⟨fun member _ _ => member, fun member => member translated.1 translated.2⟩
    · simp only [List.all_nil, true_iff]
      exact fun inbound path => absurd ⟨inbound, path⟩ translated

theorem sightOf_peer_family : (sightOf original direction header ct).peer.family = family := by
  cases original with
  | true => cases direction <;> rfl
  | false =>
    simp only [sightOf, Bool.false_eq_true, if_false, currentSight]
    split_ifs <;> cases direction <;> rfl

variable {found : PolicyAllocationMatch}

theorem peer_value (path_known : direction = .inbound → original = false → found.path ≠ none)
    (path : ∀ expected, found.path = some expected →
      (sightOf original direction header ct).path = expected) (wanted : Family)
    (ibrname obrname : String) :
    (if original ∨ direction = .inbound ∧ found.path = some .dnat then
        Field.ctAddress wanted (peerSide direction)
      else .address wanted (peerSide direction)).value ⟨ibrname, obrname, .ip family header ct⟩ =
      if wanted = family then
        some (.address (sightOf original direction header ct).peer)
      else none := by
  cases original with
  | true => rfl
  | false =>
    have translated : direction = .inbound → (found.path = some .dnat ↔ ct.path = .dnat) := by
      intro inbound
      cases known : found.path with
      | none => exact absurd known (path_known inbound rfl)
      | some expected =>
        rw [Option.some.injEq, ← path expected known]
        rfl
    have condition : (direction = .inbound ∧ found.path = some .dnat) ↔
        (direction = .inbound ∧ ct.path = .dnat) := and_congr_right translated
    simp only [Bool.false_eq_true, false_or, if_false, sightOf, currentSight, condition]
    split_ifs <;> simp_all [Field.value, Field.ipValue]

theorem cidrConditions_hold
    (path_known : direction = .inbound → original = false → found.path ≠ none)
    (path : ∀ expected, found.path = some expected →
    (sightOf original direction header ct).path = expected)
    (sameFamily : ∀ wanted, found.variant.family = some wanted → wanted = family)
    (network : Prefix) : (∃ more, cidrConditions direction original found network = some more ∧
    more.all (holds ⟨ibrname, obrname, .ip family header ct⟩) =
    true) ↔ network.contains (sightOf original direction header ct).peer = true := by
  have address : holds ⟨ibrname, obrname, .ip family header ct⟩ ⟨.field (
        if original ∨ direction = .inbound ∧ found.path = some .dnat then
          .ctAddress network.addr.family (peerSide direction)
        else .address network.addr.family (peerSide direction)), .eq,
        prefixOperand network⟩ = true ↔
      network.contains (sightOf original direction header ct).peer = true := by
    simp only [holds, Expression.value,
      peer_value path_known path network.addr.family ibrname obrname]
    split_ifs with same
    · simp only [prefixOperand_accepts]
    · simp [Prefix.contains, sightOf_peer_family, same]
  have inFamily : network.contains
      (sightOf original direction header ct).peer = true → network.addr.family = family := by
    intro contained
    simp only [Prefix.contains, sightOf_peer_family, Bool.and_eq_true,
      decide_eq_true_iff] at contained
    exact contained.1
  unfold cidrConditions
  cases scope : found.variant.family with
  | none =>
    simp only [ne_eq, not_true_eq_false, false_and, if_false, if_true,
      Option.some.injEq, exists_eq_left', List.all_append, List.all_cons,
      List.all_nil, Bool.and_true, Bool.and_eq_true, address, matchValue_holds]
    refine and_iff_right_of_imp fun contained => ?_
    rw [inFamily contained]
    rfl
  | some wanted =>
    obtain rfl := sameFamily wanted scope
    by_cases same : wanted = network.addr.family
    · simp only [ne_eq, reduceCtorEq, not_false_eq_true, same,
        not_true_eq_false, and_false, if_false, Option.some.injEq,
        List.nil_append, exists_eq_left', List.all_cons, List.all_nil, Bool.and_true, address]
    · simp only [ne_eq, reduceCtorEq, not_false_eq_true, Option.some.injEq,
        same, and_self, if_true, false_and, exists_false, false_iff]
      exact fun contained => same (inFamily contained).symm

structure Admits (netip : Netip) (direction : Direction) (rule : Rule)
    (proto : Transport) (found : PolicyAllocationMatch)
    (sight : Sight) : Prop where
  transport : sight.transport = some proto
  path : ∀ expected, found.path = some expected → sight.path = expected
  scope : InVariant direction found sight
  peer : PeerInNetwork netip rule sight

theorem baseConditions_hold (ibrname obrname : String) (header : Header family)
    (ct : Conntrack family) (direction : Direction) (proto : Transport)
    (not_reply : original = true → found.path ≠ some .reply) :
    (matchValue (if original then .ctProtocol else .l4proto) (.protocol (.transport proto)) ::
      (pathConditions original found.path ++ scopeConditions direction proto original found)).all
        (holds ⟨ibrname, obrname, .ip family header ct⟩) = true ↔
      (sightOf original direction header ct).transport = some proto ∧
        (∀ expected, found.path = some expected →
          (sightOf original direction header ct).path = expected) ∧
        InVariant direction found (sightOf original direction header ct) := by
  rw [List.all_cons, Bool.and_eq_true, protocol_holds, List.all_append,
    Bool.and_eq_true, pathConditions_hold direction not_reply]
  refine and_congr_right fun transport => and_congr_right fun _ => ?_
  exact scopeConditions_hold transport found

theorem ruleConditions_hold (routed : Routed direction rule original found)
    (compiled : ruleConditions netip direction rule proto original found = .ok conditions) :
    (∃ list, conditions = some list ∧ list.all (holds ⟨ibrname, obrname, .ip family header ct⟩) =
    true) ↔ Admits netip direction rule proto found (sightOf original direction header ct) := by
  have base := baseConditions_hold ibrname obrname header ct direction proto routed.not_reply
  unfold ruleConditions at compiled
  cases given : rule.cidr with
  | none =>
    simp only [given] at compiled
    cases compiled
    simp only [Option.some.injEq, exists_eq_left', base]
    constructor
    · rintro ⟨transport, path, scope⟩
      exact ⟨transport, path, scope, by simp [PeerInNetwork, given]⟩
    · intro admits
      exact ⟨admits.transport, admits.path, admits.scope⟩
  | some cidr =>
    simp only [given] at compiled
    obtain ⟨network, parsed, compiled⟩ := bind_eq_ok_iff.1 compiled
    cases compiled
    have inNetwork : PeerInNetwork netip rule
        (sightOf original direction header ct) ↔ network.contains
            (sightOf original direction header ct).peer = true := by
      simp [PeerInNetwork, given, parsed]
    have path_known : direction = .inbound → original = false → found.path ≠ none := by
      intro inbound current
      exact routed.path_known inbound current (by simp [given])
    have more : ∀ path : (∀ expected, found.path = some expected →
        (sightOf original direction header ct).path = expected), InVariant direction found
          (sightOf original direction header ct) →
        ((∃ more, cidrConditions direction original found network = some more ∧ more.all (holds
              ⟨ibrname, obrname, .ip family header ct⟩) = true) ↔ PeerInNetwork netip rule
            (sightOf original direction header ct)) := by
      intro path scope
      rw [inNetwork]
      refine cidrConditions_hold path_known path ?_ network
      intro wanted isWanted
      rw [(scope wanted isWanted).1, sightOf_family]
    constructor
    · rintro ⟨list, isList, hold⟩
      obtain ⟨added, isAdded, rfl⟩ := Option.map_eq_some_iff.1 isList
      rw [List.all_append, Bool.and_eq_true, base] at hold
      obtain ⟨⟨transport, path, scope⟩, holdAdded⟩ := hold
      exact ⟨transport, path, scope, (more path scope).1 ⟨added, isAdded, holdAdded⟩⟩
    · intro admits
      obtain ⟨added, isAdded, holdAdded⟩ := (more admits.path admits.scope).2 admits.peer
      refine ⟨_, by rw [isAdded]; rfl, ?_⟩
      rw [List.all_append, Bool.and_eq_true, base]
      exact ⟨⟨admits.transport, admits.path, admits.scope⟩, holdAdded⟩

end Conditions

open FallibleProgram PacketFilter Classical

noncomputable def ruleOutcome (netip : Netip) (policy : Policy)
    (assigned : Assigned) (direction : Direction) (rule : Rule) (sight : Sight)
    (proto : Transport) : Option Outcome :=
  if sight.transport = some proto ∧ PeerInNetwork netip rule sight ∧
      InScope netip policy assigned direction rule proto sight then
    if rule.action = some .allow ∧ ¬Ambiguous netip policy assigned direction rule proto sight then
      some .returned
    else some .dropped
  else none

noncomputable def matchOutcome (netip : Netip) (direction : Direction)
    (rule : Rule) (sight : Sight) (proto : Transport)
    (found : PolicyAllocationMatch) : Option Outcome :=
  if Admits netip direction rule proto found sight then
    if rule.action = some .allow ∧ found.drop = false then some .returned
    else some .dropped
  else none

theorem findSome?_ruleOutcome :
    [Transport.tcp, .udp].findSome? (fun proto =>
        if covers rule.protocol proto then
          ruleOutcome netip policy assigned direction rule sight proto
        else none) =
      (ruleVerdict netip policy assigned direction sight rule).map
        Verdict.outcome := by
  unfold ruleVerdict ruleOutcome
  cases sight.transport with
  | none => simp
  | some carried =>
    cases carried <;> simp only [List.findSome?_cons, List.findSome?_nil,
      Option.some.injEq, reduceCtorEq, false_and, true_and, if_false,
      ite_self] <;> split_ifs <;> simp_all [Verdict.outcome]

theorem variantMatches_eq_ok
    (found : variantMatches netip direction rule assigned original variant = .ok list) :
    (list = [⟨variant, none, false⟩] ∧ (direction ≠ .inbound ∨
        rule.groupID = none ∧ (rule.cidr = none ∨ original = true))) ∨
    (list = [⟨variant, some .dnat, false⟩, ⟨variant, some .direct, false⟩,
        ⟨variant, some .reply, false⟩] ∧ rule.groupID = none ∧ original = false) ∨
    (direction = .inbound ∧ rule.groupID ≠ none ∧
      ∃ shared, sharedPorts netip variant assigned = .ok shared ∧
        list = ⟨variant, some .dnat, false⟩ ::
          (if original then [Path.direct] else [.direct, .reply]).flatMap (pathMatches variant
              (variant.ports.filter fun port => !shared.contains port)
              (variant.ports.filter fun port => shared.contains port))) := by
  unfold variantMatches at found
  by_cases single : direction ≠ .inbound ∨
      rule.groupID = none ∧ (rule.cidr = none ∨ original = true)
  · rw [if_pos single] at found
    exact .inl ⟨(Except.ok.inj found).symm, single⟩
  rw [if_neg single] at found
  by_cases noGroup : rule.groupID = none
  · rw [if_pos noGroup] at found
    refine .inr (.inl ⟨(Except.ok.inj found).symm, noGroup, ?_⟩)
    rw [← Bool.not_eq_true]
    exact fun isOriginal => single (.inr ⟨noGroup, .inr isOriginal⟩)
  · rw [if_neg noGroup] at found
    obtain ⟨ports, isDirect, found⟩ := bind_eq_ok_iff.1 found
    obtain ⟨shared, isShared, same⟩ := bind_eq_ok_iff.1 isDirect
    cases same
    refine .inr (.inr ⟨?_, noGroup, shared, isShared, (Except.ok.inj found).symm⟩)
    by_contra outbound
    exact single (.inl outbound)

theorem path_of_mem_pathMatches (member : item ∈ pathMatches variant ports ambiguous path) :
    item.path = some path := by
  simp only [pathMatches, List.mem_append] at member
  rcases member with member | member <;> split_ifs at member <;>
    simp only [List.mem_singleton, List.not_mem_nil] at member <;>
      rw [member]

theorem routed_of_mem_variantMatches
    (found : variantMatches netip direction rule assigned original variant =
    .ok list) : ∀ item ∈ list, Routed direction rule original item := by
  intro item member
  rcases variantMatches_eq_ok found with
    ⟨rfl, single⟩ | ⟨rfl, -, rfl⟩ | ⟨-, -, shared, -, rfl⟩
  · rw [List.mem_singleton.1 member]
    refine ⟨by simp, ?_⟩
    intro inbound current given
    rcases single with outbound | ⟨-, absent | isOriginal⟩
    · exact absurd inbound outbound
    · exact absurd absent given
    · exact absurd isOriginal (by simp [current])
  · simp only [List.mem_cons, List.not_mem_nil, or_false] at member
    rcases member with rfl | rfl | rfl <;> exact ⟨by simp, by simp⟩
  · rcases List.mem_cons.1 member with rfl | member
    · exact ⟨by simp, by simp⟩
    · obtain ⟨path, isPath, inBlock⟩ := List.mem_flatMap.1 member
      have item_path := path_of_mem_pathMatches inBlock
      refine ⟨?_, by simp [item_path]⟩
      rintro rfl
      simp only [if_true, List.mem_singleton] at isPath
      simp [item_path, isPath]

theorem matchOutcome_of_path_ne (isPath : found.path = some path) (differs : sight.path ≠ path) :
    matchOutcome netip direction rule sight proto found = none := by
  refine if_neg fun admits => differs ?_
  exact admits.path path isPath

theorem findSome?_variantMatches_of_no_group (noGroup : rule.groupID = none)
    (found : variantMatches netip direction rule assigned original ⟨none, [], []⟩ = .ok list) :
    list.findSome? (matchOutcome netip direction rule sight proto) =
    ruleOutcome netip policy assigned direction rule sight proto := by
  have inScope : InScope netip policy assigned direction rule proto sight := by
    simp [InScope, noGroup]
  have clear : ¬Ambiguous netip policy assigned direction rule proto sight := by
    simp [Ambiguous, noGroup]
  have admits : ∀ path, (∀ expected, path = some expected →
      sight.path = expected) → matchOutcome netip direction rule sight proto
          ⟨⟨none, [], []⟩, path, false⟩ =
        ruleOutcome netip policy assigned direction rule sight proto := by
    intro path isPath
    have same : Admits netip direction rule proto ⟨⟨none, [], []⟩, path, false⟩
        sight ↔ sight.transport = some proto ∧ PeerInNetwork netip rule sight ∧
            InScope netip policy assigned direction rule proto sight :=
      ⟨fun admits => ⟨admits.transport, admits.peer, inScope⟩, fun ⟨transport, peer, _⟩ =>
          ⟨transport, isPath, by simp [InVariant], peer⟩⟩
    simp only [matchOutcome, ruleOutcome, same, clear, not_false_eq_true]
  rcases variantMatches_eq_ok found with
    ⟨rfl, -⟩ | ⟨rfl, -, -⟩ | ⟨-, group, -⟩
  · simp [findSome?_cons_or, admits none (by simp)]
  · have other : ∀ path, sight.path ≠ path → matchOutcome netip direction rule sight proto
          ⟨⟨none, [], []⟩, some path, false⟩ = none := by
      intro path differs
      exact matchOutcome_of_path_ne rfl differs
    have same := admits (some sight.path) (by simp)
    cases isPath : sight.path <;> rw [isPath] at same <;>
      simp [findSome?_cons_or, other, isPath, same]
  · exact absurd noGroup group

section Group

theorem admits_iff (family_eq : found.variant.family = some family) :
    Admits netip direction rule proto found sight ↔
    (∀ expected, found.path = some expected → sight.path = expected) ∧
    family = sight.family ∧ sight.transport = some proto ∧ PeerInNetwork netip rule sight ∧
    (∃ port, sight.port = some port ∧ port ∈ found.variant.ports) ∧
    (direction = .inbound → found.path = some .dnat →
    sight.destination ∈ found.variant.allocations) := by
  constructor
  · intro admits
    obtain ⟨sameFamily, port, destination⟩ := admits.scope family family_eq
    exact ⟨admits.path, sameFamily, admits.transport, admits.peer, port, destination⟩
  · rintro ⟨path, sameFamily, transport, peer, port, destination⟩
    refine ⟨transport, path, ?_, peer⟩
    intro wanted isWanted
    obtain rfl := Option.some.inj (family_eq.symm.trans isWanted)
    exact ⟨sameFamily, port, destination⟩

theorem Covers.inScope_iff (covers : Covers netip policy assigned groupID proto family variant)
    (isGroup : rule.groupID = some groupID) (sameFamily : family = sight.family)
    (direction : Direction) : InScope netip policy assigned direction rule proto sight ↔
    (∃ port, sight.port = some port ∧ port ∈ variant.ports) ∧
    (direction = .inbound → sight.path = .dnat → sight.destination ∈ variant.allocations) := by
  subst sameFamily
  simp only [InScope, isGroup, Option.some.injEq, forall_eq',
    covers.mem_ports, covers.mem_allocations, sight.destination_family, true_and]

theorem findSome?_pathMatches (covers : Covers netip policy assigned groupID proto family variant)
    (isGroup : rule.groupID = some groupID) (sameFamily : family = sight.family)
    (inbound : direction = .inbound) (untranslated : sight.path ≠ .dnat)
    (found : sharedPorts netip variant assigned = .ok shared) : (pathMatches variant
    (variant.ports.filter fun port => !shared.contains port)
    (variant.ports.filter fun port => shared.contains port) sight.path).findSome?
    (matchOutcome netip direction rule sight proto) =
    ruleOutcome netip policy assigned direction rule sight proto := by
  have outcome : ∀ ports drop, (if ports ≠ [] then
        [(⟨{ variant with ports := ports }, some sight.path, drop⟩ :
          PolicyAllocationMatch)] else []).findSome?
          (matchOutcome netip direction rule sight proto) =
        if sight.transport = some proto ∧ PeerInNetwork netip rule sight ∧
            ∃ port, sight.port = some port ∧ port ∈ ports then
          if rule.action = some .allow ∧ drop = false then some .returned
          else some .dropped
        else none := by
    intro ports drop
    have admits : Admits netip direction rule proto
        ⟨{ variant with ports := ports }, some sight.path, drop⟩ sight ↔
          sight.transport = some proto ∧ PeerInNetwork netip rule sight ∧
            ∃ port, sight.port = some port ∧ port ∈ ports := by
      rw [admits_iff covers.family_eq]
      simp [sameFamily, untranslated]
    by_cases empty : ports = []
    · simp [empty]
    · simp [empty, findSome?_cons_or, matchOutcome, admits]
  have inScope := covers.inScope_iff isGroup sameFamily direction
  rw [pathMatches, List.findSome?_append, outcome, outcome, ruleOutcome, inScope]
  simp only [untranslated, false_implies, implies_true, and_true]
  by_cases inGroup : ∃ port, sight.port = some port ∧ port ∈ variant.ports
  · obtain ⟨port, isPort, member⟩ := inGroup
    have ambiguous : Ambiguous netip policy assigned direction rule proto
        sight ↔ port ∈ shared := by
      rw [covers.mem_sharedPorts_iff found member]
      simp [Ambiguous, inbound, untranslated, isGroup, isPort, sameFamily]
    by_cases isShared : port ∈ shared
    · simp [isPort, member, isShared, ambiguous]
    · simp [isPort, member, isShared, ambiguous]
  · have outside : ∀ keep : Int → Bool, ¬∃ port, sight.port = some port ∧
        port ∈ variant.ports.filter keep := by
      rintro keep ⟨port, isPort, member⟩
      exact inGroup ⟨port, isPort, (List.mem_filter.1 member).1⟩
    simp only [outside, inGroup, and_false, if_false, Option.or_none]

theorem family_of_mem_variantMatches (family_eq : variant.family = some family)
    (found : variantMatches netip direction rule assigned original variant =
    .ok list) : ∀ item ∈ list, item.variant.family = some family := by
  intro item member
  rcases variantMatches_eq_ok found with
    ⟨rfl, -⟩ | ⟨rfl, -, -⟩ | ⟨-, -, shared, -, rfl⟩
  · rw [List.mem_singleton.1 member]
    exact family_eq
  · simp only [List.mem_cons, List.not_mem_nil, or_false] at member
    rcases member with rfl | rfl | rfl <;> exact family_eq
  · rcases List.mem_cons.1 member with rfl | member
    · exact family_eq
    · obtain ⟨path, -, inBlock⟩ := List.mem_flatMap.1 member
      simp only [pathMatches, List.mem_append] at inBlock
      rcases inBlock with inBlock | inBlock <;> split_ifs at inBlock <;>
        simp only [List.mem_singleton, List.not_mem_nil] at inBlock <;>
          rw [inBlock] <;> exact family_eq

section

variable (covers : Covers netip policy assigned groupID proto family variant)
include covers

theorem Covers.matchOutcome_eq
    (isGroup : rule.groupID = some groupID) (sameFamily : family = sight.family)
    {path : Option Path} (isPath : ∀ expected, path = some expected → sight.path = expected)
    (known : direction = .inbound → path = some sight.path)
    (translated : direction = .inbound → sight.path = .dnat) :
    matchOutcome netip direction rule sight proto ⟨variant, path, false⟩ =
    ruleOutcome netip policy assigned direction rule sight proto := by
  have clear : ¬Ambiguous netip policy assigned direction rule proto
      sight := by
    rintro ⟨inbound, untranslated, -⟩
    exact untranslated (translated inbound)
  have destination : (direction = .inbound → path = some .dnat →
      sight.destination ∈ variant.allocations) ↔
      (direction = .inbound → sight.path = .dnat → sight.destination ∈ variant.allocations) := by
    refine forall_congr' fun inbound => ?_
    rw [known inbound, Option.some.injEq]
  have admits : Admits netip direction rule proto ⟨variant, path, false⟩
      sight ↔ sight.transport = some proto ∧ PeerInNetwork netip rule sight ∧
          InScope netip policy assigned direction rule proto sight := by
    rw [admits_iff covers.family_eq, covers.inScope_iff isGroup sameFamily direction, destination,
      and_iff_right isPath, and_iff_right sameFamily]
  simp only [matchOutcome, ruleOutcome, admits, clear, not_false_eq_true]

theorem Covers.findSome?_paths
    (isGroup : rule.groupID = some groupID) (sameFamily : family = sight.family)
    (inbound : direction = .inbound) (found : sharedPorts netip variant assigned = .ok shared)
    {paths : List Path} (complete : sight.path ≠ .dnat ↔ sight.path ∈ paths) :
    (⟨variant, some .dnat, false⟩ :: paths.flatMap (pathMatches variant
    (variant.ports.filter fun port => !shared.contains port)
    (variant.ports.filter fun port => shared.contains port))).findSome?
    (matchOutcome netip direction rule sight proto) =
    ruleOutcome netip policy assigned direction rule sight proto := by
  rw [findSome?_cons_or]
  by_cases translated : sight.path = .dnat
  · have nothing : (paths.flatMap (pathMatches variant
        (variant.ports.filter fun port => !shared.contains port)
        (variant.ports.filter fun port => shared.contains port))).findSome?
          (matchOutcome netip direction rule sight proto) = none := by
      rw [List.findSome?_eq_none_iff]
      intro item member
      obtain ⟨path, isPath, inBlock⟩ := List.mem_flatMap.1 member
      refine matchOutcome_of_path_ne (path_of_mem_pathMatches inBlock) ?_
      rintro rfl
      exact complete.2 isPath translated
    rw [nothing, Option.or_none]
    exact covers.matchOutcome_eq isGroup sameFamily (by simp [translated])
      (fun _ => by rw [translated]) (fun _ => translated)
  · rw [matchOutcome_of_path_ne rfl translated, Option.none_or,
      findSome?_flatMap_of_unique, if_pos (complete.1 translated)]
    intro path
    split_ifs with isPath
    · subst isPath
      exact findSome?_pathMatches covers isGroup sameFamily inbound
        translated found
    · rw [List.findSome?_eq_none_iff]
      intro item member
      exact matchOutcome_of_path_ne (path_of_mem_pathMatches member) (Ne.symm isPath)

theorem Covers.findSome?_variantMatches
    (isGroup : rule.groupID = some groupID) (not_reply : original = true → sight.path ≠ .reply)
    (found : variantMatches netip direction rule assigned original variant = .ok list) :
    list.findSome? (matchOutcome netip direction rule sight proto) = if family = sight.family then
        ruleOutcome netip policy assigned direction rule sight proto
      else none := by
  split_ifs with sameFamily
  · rcases variantMatches_eq_ok found with
      ⟨rfl, single⟩ | ⟨-, noGroup, -⟩ | ⟨inbound, -, shared, isShared, rfl⟩
    · have outbound : direction ≠ .inbound := by
        rcases single with outbound | ⟨noGroup, -⟩
        · exact outbound
        · simp [noGroup] at isGroup
      rw [findSome?_cons_or, List.findSome?_nil, Option.or_none]
      exact covers.matchOutcome_eq isGroup sameFamily (by simp)
        (fun inbound => absurd inbound outbound) (fun inbound => absurd inbound outbound)
    · simp [noGroup] at isGroup
    · refine covers.findSome?_paths isGroup sameFamily inbound isShared ?_
      cases original with
      | true =>
        cases isPath : sight.path <;> simp_all
      | false => cases sight.path <;> simp
  · rw [List.findSome?_eq_none_iff]
    intro item member
    refine if_neg fun admits => sameFamily ?_
    exact (admits.scope family (family_of_mem_variantMatches covers.family_eq found item member)).1

end

end Group

def Scoped (netip : Netip) (policy : Policy) (assigned : Assigned) (rule : Rule)
    (proto : Transport) (variant : AllocationMatch) : Prop :=
  rule.groupID = none ∧ variant = ⟨none, [], []⟩ ∨ ∃ groupID family, rule.groupID = some groupID ∧
      Covers netip policy assigned groupID proto family variant

noncomputable def variantOutcome (netip : Netip) (policy : Policy)
    (assigned : Assigned) (direction : Direction) (rule : Rule) (sight : Sight)
    (proto : Transport) (variant : AllocationMatch) : Option Outcome :=
  if variant.family = none ∨ variant.family = some sight.family then
    ruleOutcome netip policy assigned direction rule sight proto
  else none

theorem Scoped.findSome?_variantMatches (scope : Scoped netip policy assigned rule proto variant)
    (not_reply : original = true → sight.path ≠ .reply)
    (found : variantMatches netip direction rule assigned original variant = .ok list) :
    list.findSome? (matchOutcome netip direction rule sight proto) =
    variantOutcome netip policy assigned direction rule sight proto variant := by
  rcases scope with ⟨noGroup, rfl⟩ | ⟨groupID, family, isGroup, covers⟩
  · rw [findSome?_variantMatches_of_no_group noGroup found, variantOutcome, if_pos (.inl rfl)]
  · rw [covers.findSome?_variantMatches isGroup not_reply found, variantOutcome, covers.family_eq]
    simp

theorem findSome?_policyAllocationMatches (scope : ∀ variant ∈ variants,
    Scoped netip policy assigned rule proto variant)
    (not_reply : original = true → sight.path ≠ .reply)
    (found : policyAllocationMatches netip direction rule variants assigned original = .ok list) :
    list.findSome? (matchOutcome netip direction rule sight proto) =
    variants.findSome? (variantOutcome netip policy assigned direction rule sight proto) := by
  have each : ∀ variant ∈ variants, ∀ before after,
      (do
        let more ← variantMatches netip direction rule assigned original variant
        .ok (before ++ more)) = Except.ok after →
      after.findSome? (matchOutcome netip direction rule sight proto) =
        (before.findSome? (matchOutcome netip direction rule sight proto)).or
          (variantOutcome netip policy assigned direction rule sight proto variant) := by
    intro variant member before after stepped
    obtain ⟨added, more, stepped⟩ := bind_eq_ok_iff.1 stepped
    cases stepped
    rw [List.findSome?_append, (scope variant member).findSome?_variantMatches not_reply more]
  exact foldlM_or (List.findSome? (matchOutcome netip direction rule sight proto)) variants
    each found

theorem routed_of_mem_policyAllocationMatches
    (found : policyAllocationMatches netip direction rule variants assigned original = .ok list) :
    ∀ item ∈ list, Routed direction rule original item := by
  refine foldlM_sees (fun _ list => ∀ item ∈ list, Routed direction rule original item)
    (by simp) ?_ found
  intro _ before variant after routed stepped
  obtain ⟨added, more, stepped⟩ := bind_eq_ok_iff.1 stepped
  cases stepped
  intro item isItem
  rcases List.mem_append.1 isItem with isItem | isItem
  · exact routed item isItem
  · exact routed_of_mem_variantMatches more item isItem

theorem scoped_of_mem_resolvedMatches (isGroup : rule.groupID = some groupID)
    (resolved : resolvedMatches netip policy groupID proto assigned = .ok variants) :
    ∀ variant ∈ variants, Scoped netip policy assigned rule proto variant := by
  obtain ⟨select, rfl, families⟩ := resolvedMatches_eq_ok resolved
  intro variant member
  obtain ⟨family, -, selected⟩ := List.mem_filterMap.1 member
  exact .inr ⟨groupID, family, isGroup, (families family).1 _ selected⟩

theorem findSome?_resolvedMatches (isGroup : rule.groupID = some groupID)
    (resolved : resolvedMatches netip policy groupID proto assigned = .ok variants)
    (direction : Direction) (sight : Sight) :
    variants.findSome? (variantOutcome netip policy assigned direction rule sight proto) =
    ruleOutcome netip policy assigned direction rule sight proto := by
  obtain ⟨select, rfl, families⟩ := resolvedMatches_eq_ok resolved
  have outcome : ∀ family, (select family).toList.findSome? (variantOutcome netip policy assigned
        direction rule sight proto) =
        if family = sight.family then
          ruleOutcome netip policy assigned direction rule sight proto
        else none := by
    intro family
    cases selected : select family with
    | some variant =>
      have covers := (families family).1 variant selected
      simp [findSome?_cons_or, variantOutcome, covers.family_eq]
    | none =>
      have outside := (families family).2 selected
      split_ifs with sameFamily
      · refine (if_neg ?_).symm
        rintro ⟨-, -, inScope⟩
        obtain ⟨⟨port, -, inGroup⟩, -⟩ := inScope groupID isGroup
        exact outside port (sameFamily ▸ inGroup)
      · rfl
  have split : [Family.ip, Family.ip6].filterMap select =
      [Family.ip, Family.ip6].flatMap fun family =>
        (select family).toList := by
    cases first : select .ip <;> cases second : select .ip6 <;>
      simp [first, second]
  rw [split, findSome?_flatMap_of_unique outcome]
  cases sight.family <;> simp

end Wings.NetworkPolicy
