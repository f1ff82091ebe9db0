import Wings.NetworkPolicy.RuleRefinement

/-!
# The compiled ruleset means what the policy says

What the rules of a chain decide on a packet so far is followed through the loops of the compiler. A
reply or an error is decided as the packet that began the connection, if that agrees with the
original tuple.
-/

namespace Wings.NetworkPolicy

open FallibleProgram PacketFilter Classical
open Field (value ipValue)
open Match (holds)

namespace Document

def decided (doc : Document) (packet : Packet) (enter : ChainName → Outcome)
    (chain : ChainName) : Option Outcome := decision (holds packet) enter (doc.rulesOf chain)

theorem rulesOf_add (doc : Document) (command : Command) : (doc.add command).rulesOf chain =
    doc.rulesOf chain ++ (ruleOf chain command).toList := by
  rw [rulesOf, add, List.filterMap_append, rulesOf]
  cases added : ruleOf chain command <;> simp [added]

@[simp] theorem decided_add_chain (doc : Document) (table : String)
    (name : ChainName) (hook : Option Hook) :
    (doc.add (.chain table name hook)).decided packet enter chain =
      doc.decided packet enter chain := by
  simp [decided, rulesOf_add, ruleOf]

@[simp] theorem decided_addRule (doc : Document) (table : String)
    (target : ChainName) (conditions : List Match) (statement : Statement ChainName) :
    (doc.addRule table target conditions statement).decided packet enter chain =
      (doc.decided packet enter chain).or
        (if target = chain then
          FilterRule.outcome (holds packet) enter ⟨conditions, statement⟩
        else none) := by
  rw [decided, addRule, rulesOf_add, decision_append, ruleOf]
  split_ifs <;> simp [decided]

end Document

/-- What a rule is compared with; only IP packets are. -/
def Frame.sight (original : Bool) (direction : Direction) : Frame → Option Sight
  | .ip _ header ct => some (sightOf original direction header ct)
  | _ => none

theorem not_reply_of_original (isOriginal : original = true) :
    (sightOf original direction header ct).path ≠ .reply := by
  subst isOriginal
  simp only [sightOf, if_true, originalSight, Conntrack.originalPath]
  split_ifs <;> simp

section PolicyRules

theorem ruleConditions_head (compiled : ruleConditions netip direction rule proto original found =
    .ok (some list)) :
    matchValue (if original then .ctProtocol else .l4proto)
      (.protocol (.transport proto)) ∈ list := by
  unfold ruleConditions at compiled
  cases given : rule.cidr with
  | none =>
    simp only [given, Except.ok.injEq, Option.some.injEq] at compiled
    simp [← compiled]
  | some cidr =>
    simp only [given] at compiled
    obtain ⟨network, parsed, compiled⟩ := bind_eq_ok_iff.1 compiled
    simp only [Except.ok.injEq, Option.map_eq_some_iff] at compiled
    obtain ⟨more, -, rfl⟩ := compiled
    simp

theorem compiled_outcome (routed : Routed direction rule original found)
    (compiled : ruleConditions netip direction rule proto original found = .ok conditions)
    (enter : ChainName → Outcome) :
    ((packet.frame.sight original direction).bind fun sight =>
        matchOutcome netip direction rule sight proto found) =
      if ∃ list, conditions = some list ∧ list.all (holds packet) = true then
        (ruleStatement rule found).outcome enter
      else none := by
  obtain ⟨ibrname, obrname, frame⟩ := packet
  have notIP : (if original = true then Field.ctProtocol
      else .l4proto).value ⟨ibrname, obrname, frame⟩ = none →
      ¬∃ list, conditions = some list ∧
        list.all (holds ⟨ibrname, obrname, frame⟩) = true := by
    rintro missing ⟨list, rfl, hold⟩
    have protocol := List.all_eq_true.1 hold _ (ruleConditions_head compiled)
    rw [matchValue_holds, missing] at protocol
    simp at protocol
  cases frame with
  | arp | other number =>
    rw [if_neg (notIP (by cases original <;> rfl))]
    rfl
  | ip family header ct =>
    simp only [Frame.sight, Option.bind_some, matchOutcome, ruleConditions_hold routed compiled]
    unfold ruleStatement
    split_ifs <;> rfl

theorem addMatch_decided (routed : Routed direction rule original found)
    (added : addMatch netip table direction rule original proto doc found = .ok after) :
    after.decided packet enter chain = (doc.decided packet enter chain).or
        (if targetChain direction original = chain then
          (packet.frame.sight original direction).bind fun sight =>
            matchOutcome netip direction rule sight proto found
        else none) := by
  unfold addMatch at added
  obtain ⟨conditions, compiled, added⟩ := bind_eq_ok_iff.1 added
  rw [compiled_outcome routed compiled enter]
  cases conditions with
  | none =>
    cases added
    simp
  | some list =>
    cases added
    simp [FilterRule.outcome]

theorem addMatches_decided (scope : ∀ variant ∈ variants,
      Scoped netip policy assigned rule proto variant)
    (added : addMatches netip table assigned direction rule original proto
      variants doc = .ok after) : after.decided packet enter chain =
      (doc.decided packet enter chain).or
        (if targetChain direction original = chain then
          (packet.frame.sight original direction).bind fun sight =>
            variants.findSome? (variantOutcome netip policy assigned direction rule sight proto)
        else none) := by
  unfold addMatches at added
  obtain ⟨list, found, added⟩ := bind_eq_ok_iff.1 added
  rw [mapError_eq_ok_iff] at found
  have routed := routed_of_mem_policyAllocationMatches found
  rw [foldlM_or (fun doc => doc.decided packet enter chain) list
    (fun item member before later stepped =>
    addMatch_decided (routed item member) stepped) added]
  congr 1
  split_ifs with here
  · cases seen : packet.frame.sight original direction with
    | none => simp
    | some sight =>
      have not_reply : original = true → sight.path ≠ .reply := by
        intro isOriginal
        cases isFrame : packet.frame with
        | arp | other number => simp [isFrame, Frame.sight] at seen
        | ip family header ct =>
          rw [isFrame] at seen
          cases seen
          exact not_reply_of_original isOriginal
      exact findSome?_policyAllocationMatches scope not_reply found
  · simp

theorem addTransport_decided (added :
    addTransport netip table policy assigned direction rule original
      state proto = .ok result) : result.1.decided packet enter chain =
      (state.1.decided packet enter chain).or
        (if targetChain direction original = chain then
          (packet.frame.sight original direction).bind fun sight =>
            if covers rule.protocol proto then
              ruleOutcome netip policy assigned direction rule sight proto
            else none
        else none) := by
  unfold addTransport at added
  by_cases isCovered : covers rule.protocol proto = false
  · rw [if_pos isCovered] at added
    cases added
    simp [isCovered]
  rw [if_neg isCovered] at added
  simp only [isCovered, if_true]
  cases isGroup : rule.groupID with
  | none =>
    simp only [isGroup] at added
    obtain ⟨doc, matched, added⟩ := bind_eq_ok_iff.1 added
    cases added
    have scope : ∀ variant ∈ [(⟨none, [], []⟩ : AllocationMatch)],
        Scoped netip policy assigned rule proto variant := by
      intro variant member
      exact .inl ⟨isGroup, List.mem_singleton.1 member⟩
    rw [addMatches_decided scope matched]
    simp [findSome?_cons_or, variantOutcome]
  | some groupID =>
    simp only [isGroup] at added
    obtain ⟨variants, resolved, added⟩ := bind_eq_ok_iff.1 added
    rw [mapError_eq_ok_iff] at resolved
    have scope := scoped_of_mem_resolvedMatches isGroup resolved
    have outcome := findSome?_resolvedMatches isGroup resolved direction
    by_cases empty : variants = []
    · rw [if_pos empty] at added
      cases added
      simp [← outcome, empty]
    · rw [if_neg empty] at added
      have matched : addMatches netip table assigned direction rule
          original proto variants state.1 = .ok result.1 := by
        obtain ⟨budget, -, added⟩ := bind_eq_ok_iff.1 added
        split_ifs at added
        · obtain ⟨_, -, added⟩ := bind_eq_ok_iff.1 added
          obtain ⟨doc, matched, same⟩ := bind_eq_ok_iff.1 added
          cases same
          exact matched
        · obtain ⟨doc, matched, same⟩ := bind_eq_ok_iff.1 added
          cases same
          exact matched
      rw [addMatches_decided scope matched]
      simp only [outcome]

theorem addPolicyRule_decided (added :
    addPolicyRule netip table policy assigned direction rule original state = .ok result) :
    result.1.decided packet enter chain = (state.1.decided packet enter chain).or
        (if targetChain direction original = chain then
          (packet.frame.sight original direction).bind fun sight =>
            (ruleVerdict netip policy assigned direction sight rule).map Verdict.outcome
        else none) := by
  have followed := foldlM_or (fun state : Document × Nat => state.1.decided packet enter chain) _
    (fun proto _ before later stepped => addTransport_decided stepped) added
  rw [followed]
  congr 1
  split_ifs
  · cases packet.frame.sight original direction with
    | none => simp
    | some sight => exact findSome?_ruleOutcome
  · simp

end PolicyRules

theorem targetChain_inj : targetChain first original = targetChain second other ↔
    first = second ∧ original = other := by
  cases original <;> cases other <;> simp [targetChain]

section Directions

variable {policy : Policy} {packet : Packet}

noncomputable def rulesOutcome (netip : Netip) (policy : Policy)
    (assigned : Assigned) (packet : Packet) (direction : Direction)
    (original : Bool) : Option Outcome :=
  (packet.frame.sight original direction).bind fun sight =>
    (rulesVerdict netip policy assigned direction sight).map Verdict.outcome

theorem addOrderedRule_decided (added :
    addOrderedRule netip table policy assigned direction state rule = .ok result) :
    result.1.decided packet enter (targetChain chainDirection original) =
      (state.1.decided packet enter (targetChain chainDirection original)).or
        (if rule.direction = some direction ∧ direction = chainDirection then
          (packet.frame.sight original chainDirection).bind fun sight =>
            (ruleVerdict netip policy assigned chainDirection sight rule).map Verdict.outcome
        else none) := by
  unfold addOrderedRule at added
  by_cases isDirection : rule.direction = some direction
  · rw [if_neg (not_not.2 isDirection)] at added
    obtain ⟨middle, first, added⟩ := bind_eq_ok_iff.1 added
    rw [addPolicyRule_decided added, addPolicyRule_decided first]
    by_cases here : direction = chainDirection
    · subst here
      cases original <;> simp [targetChain_inj, isDirection]
    · simp [targetChain_inj, here]
  · rw [if_pos isDirection] at added
    cases added
    simp [isDirection]

theorem orderedRules_decided (added : policy.orderedRules.foldlM
      (addOrderedRule netip table policy assigned direction) state = .ok result) :
    result.1.decided packet enter (targetChain chainDirection original) =
      (state.1.decided packet enter (targetChain chainDirection original)).or
        (if direction = chainDirection then
          rulesOutcome netip policy assigned packet chainDirection original
        else none) := by
  have followed := foldlM_or
    (fun state : Document × Nat =>
      state.1.decided packet enter (targetChain chainDirection original)) _
    (fun proto _ before later stepped => addOrderedRule_decided stepped) added
  rw [followed]
  congr 1
  split_ifs with here
  · subst here
    unfold rulesOutcome rulesVerdict
    cases packet.frame.sight original direction with
    | none => simp
    | some sight =>
      simp only [and_true, Option.bind_some]
      induction policy.orderedRules with
      | nil => rfl
      | cons rule rest ih =>
        rw [findSome?_cons_or, ih, List.filter_cons]
        by_cases isDirection : rule.direction = some direction
        · simp only [isDirection, if_true, decide_true, findSome?_cons_or]
          cases ruleVerdict netip policy assigned direction sight rule <;>
            rfl
        · simp [isDirection]
  · simp [here]

def controlOutcome : Frame → Option Outcome
  | .arp => some .returned
  | .other _ => none
  | .ip _ header _ =>
    if header.isFragment then some .dropped
    else if header.isNeighbourDiscovery then some .returned
    else none

/-- What is decided about the replies and errors of tracked connections. -/
def statefulOutcome (enter : ChainName → Outcome) (direction : Direction) : Frame → Option Outcome
  | .ip _ header ct =>
    (originDirection direction header ct).map fun origin =>
      enter (.origin origin)
  | _ => none

def fallbackOutcome (policy : Policy) (direction : Direction) : Frame → Outcome
  | .ip _ _ _ => (defaultVerdict policy direction).outcome
  | _ => .dropped

section Tracked

theorem fragOff_holds {header : Header .ip} {ct : Conntrack .ip} :
    holds ⟨ibrname, obrname, .ip .ip header ct⟩ ⟨.masked .fragOff 0x3fff, .ne, .value (.number 0)⟩ =
    header.isFragment := by
  simp [holds, Expression.value, value, ipValue, Operand.accepts, Header.isFragment]

theorem fragmentConditions_hold (wanted : Family) : (fragmentConditions wanted).all
    (holds ⟨ibrname, obrname, .ip family header ct⟩) = true ↔
    wanted = family ∧ header.isFragment = true := by
  cases wanted <;> cases family <;>
    simp [fragmentConditions, matchValue_holds, fragOff_holds, value,
      ipValue, Frame.etherType, Header.isFragment]

theorem neighbourConditions_hold : neighbourConditions.all
    (holds ⟨ibrname, obrname, .ip family header ct⟩) = true ↔
    header.isNeighbourDiscovery = true := by
  unfold neighbourConditions
  cases family with
  | ip => simp [matchValue_holds, value, Frame.etherType, Header.isNeighbourDiscovery]
  | ip6 =>
    have hops : (header.hoplimit : Int) = 255 ↔ header.hoplimit = 255 := by
      omega
    cases kind : header.layer4 <;>
      simp [matchValue_holds, matchSet_holds, value, ipValue,
        Frame.etherType, Header.isNeighbourDiscovery, Layer4.protocol, kind, hops]

theorem establishedConditions_hold : establishedConditions.all
    (holds ⟨ibrname, obrname, .ip family header ct⟩) = true ↔
    header.layer4.protocol.transport?.isSome ∧ ct.state = .established ∧
    ct.direction = .reply ∧ ct.has .confirmed := by
  have isIP : (matchSet .etherType [.etherType (.ip .ip), .etherType (.ip .ip6)]).holds
        ⟨ibrname, obrname, .ip family header ct⟩ = true := by
    cases family <;> rfl
  have transport : (matchSet .l4proto [.protocol (.transport .tcp),
      .protocol (.transport .udp)]).holds
        ⟨ibrname, obrname, .ip family header ct⟩ = true ↔
      header.layer4.protocol.transport?.isSome := by
    rw [matchSet_holds]
    cases kind : header.layer4 with
    | ports carried sport dport =>
      cases carried <;> simp [value, ipValue, Layer4.protocol, L4Protocol.transport?, kind]
    | _ => simp [value, ipValue, Layer4.protocol, L4Protocol.transport?, kind]
  simp [establishedConditions, isIP, transport, matchValue_holds,
    matchCTStatus_eq_holds, value, ipValue]

theorem relatedConditions_hold (turn : CtDirection) (wanted : Family) :
    (relatedConditions turn wanted).all (holds ⟨ibrname, obrname, .ip family header ct⟩) = true ↔
    wanted = family ∧ header.isError = true ∧ ct.state = .related ∧ ct.direction = turn := by
  cases wanted <;> cases family <;> cases kind : header.layer4 <;>
    simp [relatedConditions, matchValue_holds, matchSet_holds, value,
      ipValue, Frame.etherType, Header.isError, Layer4.protocol, kind, or_assoc]

end Tracked

theorem addStatefulRules_decided (doc : Document) (chain : ChainName) :
    (addRelatedICMPRules table direction
        (addEstablishedReplies table direction doc)).decided packet enter chain =
      (doc.decided packet enter chain).or
        (if .policy direction = chain then
          statefulOutcome enter direction packet.frame
        else none) := by
  simp only [addRelatedICMPRules, addRelatedICMP, addEstablishedReplies,
    List.foldl_cons, List.foldl_nil, Document.decided_addRule, Option.or_assoc]
  congr 1
  by_cases here : ChainName.policy direction = chain
  · simp only [here, if_true, reduceCtorEq, if_false]
    obtain ⟨ibrname, obrname, frame⟩ := packet
    cases frame with
    | arp | other number => rfl
    | ip family header ct =>
      simp only [FilterRule.outcome, establishedConditions_hold,
        relatedConditions_hold, statefulOutcome, originDirection, Statement.outcome]
      split_ifs with established related <;> cases family <;>
        cases turn : ct.direction <;> simp_all
  · simp [here]

theorem addFallback_decided (doc : Document) (target chain : ChainName) :
    (addFallback table (policy.fallback direction) doc target).decided packet enter chain =
      (doc.decided packet enter chain).or
        (if target = chain then
          some (fallbackOutcome policy direction packet.frame)
        else none) := by
  have isIP : (matchSet .etherType [.etherType (.ip .ip),
      .etherType (.ip .ip6)]).holds packet = true ↔
        ∃ family header ct, packet.frame = .ip family header ct := by
    obtain ⟨ibrname, obrname, frame⟩ := packet
    rw [matchSet_holds]
    cases frame with
    | arp | other number => simp [value, Frame.etherType]
    | ip family header ct =>
      cases family <;> simp [value, Frame.etherType]
  unfold addFallback
  by_cases here : target = chain
  · by_cases allowed : policy.fallback direction = some .allow
    · cases isFrame : packet.frame <;>
        simp [here, allowed, isFrame, isIP, FilterRule.outcome,
          Statement.outcome, fallbackOutcome, defaultVerdict, Verdict.outcome]
    · cases isFrame : packet.frame <;>
        simp [here, allowed, FilterRule.outcome, Statement.outcome,
          fallbackOutcome, defaultVerdict, Verdict.outcome]
  · by_cases allowed : policy.fallback direction = some .allow <;>
      simp [here, allowed]

theorem addControlRules_decided (doc : Document) (chain : ChainName) :
    (addControlRules table direction doc).decided packet enter chain =
      (doc.decided packet enter chain).or
        (if .policy direction = chain then controlOutcome packet.frame
        else none) := by
  simp only [addControlRules, Document.decided_addRule, Option.or_assoc]
  congr 1
  split_ifs
  · obtain ⟨ibrname, obrname, frame⟩ := packet
    cases frame with
    | arp | other number => rfl
    | ip family header ct =>
      simp only [FilterRule.outcome, fragmentConditions_hold, neighbourConditions_hold]
      cases family <;> simp [controlOutcome, matchValue_holds, value,
        Frame.etherType, Statement.outcome] <;> split_ifs <;> rfl
  · rfl

noncomputable def directionOutcome (netip : Netip) (policy : Policy)
    (assigned : Assigned) (packet : Packet) (enter : ChainName → Outcome)
    (direction : Direction) (original : Bool) : Option Outcome :=
  (if original then none else controlOutcome packet.frame).or
    ((rulesOutcome netip policy assigned packet direction original).or ((if original then none
        else statefulOutcome enter direction packet.frame).or
        (some (fallbackOutcome policy direction packet.frame))))

theorem addHook_decided (doc : Document) : (addHook bridge table direction doc).decided packet enter
    (targetChain chainDirection original) =
    doc.decided packet enter (targetChain chainDirection original) := by
  cases original <;> simp [addHook, targetChain]

theorem addDirection_decided (enabled : policy.firewall.enabled = true)
    (added : addDirection netip bridge table policy assigned
      policy.orderedRules false state direction = .ok result) :
    result.1.decided packet enter (targetChain chainDirection original) =
      (state.1.decided packet enter (targetChain chainDirection original)).or
        (if direction = chainDirection then
          directionOutcome netip policy assigned packet enter chainDirection original
        else none) := by
  unfold addDirection at added
  simp only [Bool.false_eq_true, if_false, enabled, reduceCtorEq] at added
  obtain ⟨middle, looped, added⟩ := bind_eq_ok_iff.1 added
  cases added
  simp only [List.foldl_cons, List.foldl_nil]
  rw [addFallback_decided, addFallback_decided, addStatefulRules_decided,
    orderedRules_decided looped, addControlRules_decided, addHook_decided]
  by_cases here : direction = chainDirection
  · subst here
    cases original <;>
      simp [targetChain, directionOutcome, Option.or_assoc]
  · cases original <;> simp [targetChain, here]

variable {id : String}

section

variable (enabled : policy.firewall.enabled = true)
  (compiled : compileRuleset netip id policy assigned false = .ok doc)
include enabled compiled

theorem compileRuleset_decided
    (packet : Packet) (enter : ChainName → Outcome) (direction : Direction) (original : Bool) :
    doc.decided packet enter (targetChain direction original) =
    directionOutcome netip policy assigned packet enter direction original := by
  unfold compileRuleset at compiled
  obtain ⟨⟨network, bridge, table⟩, named, compiled⟩ := bind_eq_ok_iff.1 compiled
  simp only [enabled, Bool.not_false, Bool.and_self, if_true] at compiled
  obtain ⟨final, looped, compiled⟩ := bind_eq_ok_iff.1 compiled
  cases compiled
  have followed := foldlM_or (fun state : Document × Nat =>
      state.1.decided packet enter (targetChain direction original)) _
    (fun _ _ _ _ stepped => addDirection_decided enabled stepped) looped
  rw [followed]
  have initially : (addStatefulChains bridge table
      ⟨[.table table (ownerPrefix ++ id)]⟩).decided packet enter
        (targetChain direction original) = none := by
    cases original <;> simp [addStatefulChains, targetChain] <;> rfl
  rw [initially, Option.none_or]
  cases direction <;> simp [findSome?_cons_or]

theorem run_targetChain (packet : Packet) (direction : Direction) (original : Bool) (fuel : Nat) :
    run (holds packet) doc.rulesOf (fuel + 1) (targetChain direction original) =
    (directionOutcome netip policy assigned packet
    (run (holds packet) doc.rulesOf fuel) direction original).getD .returned := by
  rw [← compileRuleset_decided enabled compiled]
  rfl

theorem run_origin
    (isFrame : packet.frame = .ip family header ct) (direction : Direction) (fuel : Nat) :
    run (holds packet) doc.rulesOf (fuel + 1) (.origin direction) =
    (originVerdict netip policy assigned direction ct).outcome := by
  have followed := run_targetChain enabled compiled packet direction true fuel
  simp only [targetChain, if_true] at followed
  rw [followed]
  simp only [directionOutcome, if_true, Option.none_or, rulesOutcome, isFrame,
    Frame.sight, sightOf, Option.bind_some, fallbackOutcome, originVerdict]
  cases rulesVerdict netip policy assigned direction (originalSight direction ct) <;> rfl

theorem run_policy (packet : Packet) (direction : Direction) (fuel : Nat) :
    run (holds packet) doc.rulesOf (fuel + 2) (.policy direction) =
    (policyVerdict netip policy assigned direction packet.frame).outcome := by
  refine (run_targetChain enabled compiled packet direction false (fuel + 1)).trans ?_
  simp only [directionOutcome, Bool.false_eq_true, if_false, rulesOutcome]
  cases isFrame : packet.frame with
  | arp | other number => rfl
  | ip family header ct =>
    simp only [controlOutcome, policyVerdict]
    split_ifs
    · rfl
    · rfl
    · have origin := fun source =>
        run_origin enabled compiled isFrame source fuel
      simp only [Frame.sight, sightOf, Bool.false_eq_true, if_false,
        Option.bind_some, Option.none_or, statefulOutcome, fallbackOutcome, origin]
      cases rulesVerdict netip policy assigned direction
          (currentSight direction header ct) with
      | some verdict => rfl
      | none => cases originDirection direction header ct <;> rfl

end

end Directions

/-- The compiled chain of a direction decides what the policy says. -/
theorem compiled_verdict_eq_policyVerdict {netip : Netip} {id : String}
    {policy : Policy} {assigned : Assigned} {doc : Document}
    (enabled : policy.firewall.enabled = true)
    (compiled : compileRuleset netip id policy assigned false = .ok doc)
    (direction : Direction) (packet : Packet) : (doc.evaluate packet (.policy direction)).verdict =
      some (policyVerdict netip policy assigned direction packet.frame) := by
  rw [← Verdict.verdict_outcome]
  congr 1
  exact run_policy enabled compiled packet direction 5

def sampleNetip : Netip where
  parseUUID text := some text
  parseAddr _ := some (⟨.ip, 0x0a000001⟩, "")
  parsePrefix _ := none
  string _ := "10.0.0.1"

def sampleAssigned : Assigned := [("10.0.0.1", [80])]

def sampleRule : Rule where
  id := "allow"
  enabled := true
  chainID := none
  direction := some .inbound
  action := some .allow
  protocol := some (.only .tcp)
  groupID := some "web"
  cidr := none

def samplePolicy : Policy where
  resolvedGroups := [⟨"web", some .both, [⟨"10.0.0.1", 80⟩]⟩]
  firewall := ⟨true, some .drop, some .drop, [], [sampleRule]⟩

def sampleFrame (dport : Nat) : Frame :=
  .ip .ip ⟨0x0a000002, 0xac120002, 0, false, 64, .ports .tcp 40000 dport⟩
    ⟨.new, .original, 32, .transport .tcp, 0x0a000002, 0x0a000001, 40000, 80⟩

def fragmentedSolicitation : Frame := .ip .ip6 ⟨0, 0, 0, true, 255, .icmpv6 .ndNeighborSolicit⟩
    ⟨.new, .original, 0, .ipv6Icmp, 0, 0, 0, 0⟩

theorem policyVerdict_of_translated_connection :
    ∃ doc, compileRuleset sampleNetip "server" samplePolicy sampleAssigned false = .ok doc ∧
      (doc.evaluate ⟨"", "", sampleFrame 80⟩ (.policy .inbound)).verdict = some .accept ∧
      policyVerdict sampleNetip samplePolicy sampleAssigned .inbound
        (sampleFrame 80) = .accept := by
  obtain ⟨doc, compiled, accepted⟩ : ∃ doc,
      compileRuleset sampleNetip "server" samplePolicy sampleAssigned false = .ok doc ∧
      (doc.evaluate ⟨"", "", sampleFrame 80⟩ (.policy .inbound)).verdict =
        some .accept := ⟨_, rfl, rfl⟩
  refine ⟨doc, compiled, accepted, ?_⟩
  rw [compiled_verdict_eq_policyVerdict rfl compiled] at accepted
  exact Option.some.inj accepted

/-- An allowed connection that is translated to another port, and a neighbour solicitation that is a
fragment. -/
theorem translated_port_and_fragmented_solicitation_dropped :
    ∃ doc, compileRuleset sampleNetip "server" samplePolicy sampleAssigned false = .ok doc ∧
      samplePolicy.orderedRules = [sampleRule] ∧
      InGroup sampleNetip samplePolicy sampleAssigned "web" .tcp ⟨⟨.ip, 0x0a000001⟩, 80⟩ ∧
      ((sampleFrame 8080).sight false .inbound).map (fun sight =>
        (sight.transport, sight.path, sight.destination)) =
          some (some .tcp, .dnat, ⟨⟨.ip, 0x0a000001⟩, 80⟩) ∧
      (doc.evaluate ⟨"", "", sampleFrame 8080⟩ (.policy .inbound)).verdict = some .drop ∧
      (doc.evaluate ⟨"", "", fragmentedSolicitation⟩ (.policy .inbound)).verdict = some .drop := by
  refine ⟨_, rfl, rfl, ?_, rfl, rfl, rfl⟩
  exact ⟨_, rfl, ⟨_, List.mem_singleton_self _, rfl, rfl⟩, _,
    List.mem_singleton_self _, rfl, List.mem_singleton_self _⟩

open PacketFilter

variable {netip : Netip} {policy : Policy} {assigned : Assigned} {family : Family}

/-- The explicit rules of a direction, then its default. -/
noncomputable def explicitVerdict (netip : Netip) (policy : Policy)
    (assigned : Assigned) (direction : Direction) (header : Header family)
    (ct : Conntrack family) : Verdict := (rulesVerdict netip policy assigned direction
    (currentSight direction header ct)).getD (defaultVerdict policy direction)

/-- A packet in the original direction of its connection that agrees with the original tuple. A
translated inbound packet goes to the server's own address. -/
structure Original (direction : Direction) (header : Header family)
    (ct : Conntrack family) : Prop where
  isOriginal : ct.direction = .original
  ports : ∃ transport, ct.protocol = .transport transport ∧
    header.layer4 = .ports transport ct.protoSrc ct.protoDst
  saddr : header.saddr = ct.saddr
  daddr : direction = .inbound ∧ ct.has .dnat = true ∨ header.daddr = ct.daddr

/-- The entries are of one connection, which began in the direction. -/
structure SameFlow (direction : Direction) (ct later : Conntrack family) : Prop where
  protocol : later.protocol = ct.protocol
  saddr : later.saddr = ct.saddr
  daddr : later.daddr = ct.daddr
  protoSrc : later.protoSrc = ct.protoSrc
  protoDst : later.protoDst = ct.protoDst
  dnat : direction = .inbound → later.has .dnat = ct.has .dnat

/-- A confirmed reply, or an error about a packet of the connection. -/
inductive Follows (direction travels : Direction) (header : Header family)
    (ct : Conntrack family) : Prop
  | reply :
      travels = opposite direction →
      header.layer4.protocol.transport?.isSome = true →
      ct.state = .established → ct.direction = .reply →
      ct.has .confirmed = true → Follows direction travels header ct
  | error :
      header.isError = true → ct.state = .related →
      travels = (if ct.direction = .reply then opposite direction
        else direction) →
      Follows direction travels header ct

theorem opposite_opposite (direction : Direction) : opposite (opposite direction) = direction := by
  cases direction <;> rfl

variable {header : Header family}

theorem Header.transport?_of_isError (isError : header.isError = true) :
    header.layer4.protocol.transport? = none := by
  cases family <;>
    simp only [Header.isError, Bool.or_eq_true, decide_eq_true_eq] at isError
  · rcases isError with (kind | kind) | kind <;> rw [kind] <;> rfl
  · rcases isError with ((kind | kind) | kind) | kind <;> rw [kind] <;> rfl

theorem Follows.originDirection_eq (follows : Follows direction travels header ct) :
    originDirection travels header ct = some direction := by
  cases follows with
  | reply isOpposite carries established isReply confirmed =>
    rw [originDirection, if_pos ⟨carries, established, isReply, confirmed⟩,
      isOpposite, opposite_opposite]
  | error isError related travelled =>
    have carries := Header.transport?_of_isError isError
    rw [originDirection, carries, if_neg (by simp), if_pos ⟨isError, related⟩, travelled]
    split_ifs
    · rw [opposite_opposite]
    · rfl

theorem Follows.not_isNeighbourDiscovery (follows : Follows direction travels header ct) :
    header.isNeighbourDiscovery = false := by
  by_contra discovery
  rw [Bool.not_eq_false] at discovery
  cases family with
  | ip => cases discovery
  | ip6 =>
    simp only [Header.isNeighbourDiscovery, Bool.and_eq_true, Bool.or_eq_true,
      decide_eq_true_eq] at discovery
    cases follows with
    | reply _ carries _ _ _ =>
      rcases discovery.2 with kind | kind <;> rw [kind] at carries <;>
        cases carries
    | error isError _ _ =>
      rcases discovery.2 with kind | kind <;>
        simp [Header.isError, kind] at isError

/-- The sights show the same to the rules of a direction. -/
structure Sight.Agrees (direction : Direction) (first second : Sight) : Prop where
  transport : first.transport = second.transport
  family : first.family = second.family
  path : direction = .inbound → first.path = second.path
  port : first.port = second.port
  destination : first.destination = second.destination
  peer : first.peer = second.peer

section Agreement

variable {first second : Sight} (agrees : first.Agrees direction second)

include agrees

theorem Sight.Agrees.peerInNetwork_iff (rule : Rule) :
    PeerInNetwork netip rule first ↔ PeerInNetwork netip rule second := by
  unfold PeerInNetwork
  rw [agrees.peer]

theorem Sight.Agrees.inScope_iff (rule : Rule) (proto : Transport) :
    InScope netip policy assigned direction rule proto first ↔
    InScope netip policy assigned direction rule proto second := by
  unfold InScope
  rw [agrees.port, agrees.family, agrees.destination]
  cases direction with
  | inbound => rw [agrees.path rfl]
  | outbound => simp only [reduceCtorEq, false_implies]

theorem Sight.Agrees.ambiguous_iff (rule : Rule) (proto : Transport) :
    Ambiguous netip policy assigned direction rule proto first ↔
    Ambiguous netip policy assigned direction rule proto second := by
  unfold Ambiguous
  rw [agrees.port, agrees.family]
  cases direction with
  | inbound => rw [agrees.path rfl]
  | outbound => simp only [reduceCtorEq, false_and]

theorem Sight.Agrees.ruleVerdict_eq : ruleVerdict netip policy assigned direction first =
    ruleVerdict netip policy assigned direction second := by
  funext rule
  unfold ruleVerdict
  rw [agrees.transport]
  cases second.transport with
  | none => rfl
  | some proto =>
    dsimp only
    rw [agrees.peerInNetwork_iff, agrees.inScope_iff, agrees.ambiguous_iff]

theorem Sight.Agrees.rulesVerdict_eq : rulesVerdict netip policy assigned direction first =
    rulesVerdict netip policy assigned direction second := by
  unfold rulesVerdict
  rw [agrees.ruleVerdict_eq]

end Agreement

section Flow

theorem SameFlow.side_eq (sameFlow : SameFlow direction ct laterCt)
    (side : Side) : laterCt.side side = ct.side side := by
  cases side with
  | source => simp only [Conntrack.side, sameFlow.saddr]
  | destination => simp only [Conntrack.side, sameFlow.daddr]

theorem SameFlow.port_eq (sameFlow : SameFlow direction ct laterCt)
    (side : Side) : laterCt.port side = ct.port side := by
  cases side with
  | source => exact sameFlow.protoSrc
  | destination => exact sameFlow.protoDst

theorem Original.path_eq (original : Original direction header ct) : ct.path = ct.originalPath := by
  unfold Conntrack.path Conntrack.originalPath
  rw [original.isOriginal]

theorem Original.protocol_eq (original : Original direction header ct) :
    header.layer4.protocol = ct.protocol := by
  obtain ⟨transport, protocol, layer4⟩ := original.ports
  rw [layer4, protocol]
  rfl

theorem Original.port_eq (original : Original direction header ct) (side : Side) :
    (header.layer4.protocol.transport?.bind fun transport =>
    (header.layer4.port transport side).map fun port => (port : Int)) =
    some (ct.port side : Int) := by
  obtain ⟨transport, protocol, layer4⟩ := original.ports
  rw [layer4]
  cases side <;>
    simp [Layer4.protocol, L4Protocol.transport?, Layer4.port, Conntrack.port]

theorem Original.peer_eq (original : Original direction header ct) :
    (currentSight direction header ct).peer = ct.side (peerSide direction) := by
  unfold currentSight
  split_ifs
  · rfl
  · cases direction with
    | inbound =>
      simp only [Header.side, Conntrack.side, peerSide, original.saddr]
    | outbound =>
      have daddr : header.daddr = ct.daddr := by
        simpa using original.daddr
      simp only [Header.side, Conntrack.side, peerSide, daddr]

theorem Original.sight_agrees (original : Original direction header ct)
    (sameFlow : SameFlow direction ct laterCt) : (currentSight direction header ct).Agrees direction
      (originalSight direction laterCt) where
  transport := by
    simp only [currentSight, originalSight, original.protocol_eq, sameFlow.protocol]
  family := rfl
  path := by
    intro isInbound
    simp only [currentSight, originalSight, original.path_eq,
      Conntrack.originalPath, sameFlow.dnat isInbound]
  port := by
    simp only [currentSight, originalSight, original.port_eq, sameFlow.port_eq]
  destination := by
    simp only [currentSight, originalSight, Conntrack.originalDestination,
      sameFlow.side_eq, sameFlow.protoDst]
  peer := by
    rw [original.peer_eq]
    exact (sameFlow.side_eq _).symm

theorem Original.explicitVerdict_eq (original : Original direction header ct)
    (sameFlow : SameFlow direction ct laterCt) :
    explicitVerdict netip policy assigned direction header ct =
    originVerdict netip policy assigned direction laterCt := by
  unfold explicitVerdict originVerdict
  rw [(original.sight_agrees sameFlow).rulesVerdict_eq]

theorem Original.originDirection_eq (original : Original direction header ct) :
    originDirection direction header ct = none := by
  have notError : header.isError ≠ true := by
    intro isError
    obtain ⟨transport, -, layer4⟩ := original.ports
    have carries := Header.transport?_of_isError isError
    rw [layer4] at carries
    cases carries
  rw [originDirection, original.isOriginal, if_neg (by simp),
    if_neg (fun error => notError error.1)]

theorem Original.not_isNeighbourDiscovery (original : Original direction header ct) :
    header.isNeighbourDiscovery = false := by
  obtain ⟨transport, -, layer4⟩ := original.ports
  cases family <;> simp [Header.isNeighbourDiscovery, layer4]

end Flow

/-- The origin chain decides a reply or an error as the rules decide the packet that began the
connection, and so does the chain of its direction when no rule of that direction matches. -/
theorem later_verdict_eq_original_verdict {id : String} {doc : Document}
    (enabled : policy.firewall.enabled = true)
    (compiled : compileRuleset netip id policy assigned false = .ok doc)
    {travels : Direction} {header later : Header family}
    {ct laterCt : Conntrack family} (original : Original direction header ct)
    (sameFlow : SameFlow direction ct laterCt) (follows : Follows direction travels later laterCt)
    (ibrname obrname : String) : (doc.evaluate ⟨ibrname, obrname, .ip family later laterCt⟩
        (.origin direction)).verdict =
      some (explicitVerdict netip policy assigned direction header ct) ∧
    (later.isFragment = false → rulesVerdict netip policy assigned travels
        (currentSight travels later laterCt) = none →
      (doc.evaluate ⟨ibrname, obrname, .ip family later laterCt⟩ (.policy travels)).verdict =
        some (explicitVerdict netip policy assigned direction header ct)) ∧
    (header.isFragment = false → (doc.evaluate ⟨ibrname, obrname, .ip family header ct⟩
          (.policy direction)).verdict =
        some (explicitVerdict netip policy assigned direction header ct)) := by
  have same := @Original.explicitVerdict_eq netip policy assigned _ _ _ _ _ original sameFlow
  refine ⟨?_, ?_, ?_⟩
  · rw [← Verdict.verdict_outcome, same]
    exact congrArg _ (run_origin enabled compiled rfl direction 6)
  · intro whole unmatched
    rw [← Verdict.verdict_outcome, same]
    refine congrArg _ ((run_policy enabled compiled _ travels 5).trans ?_)
    simp only [policyVerdict, whole, follows.not_isNeighbourDiscovery,
      unmatched, follows.originDirection_eq, Bool.false_eq_true, if_false, Option.getD_none]
  · intro whole
    rw [← Verdict.verdict_outcome]
    refine congrArg _ ((run_policy enabled compiled _ direction 5).trans ?_)
    simp only [policyVerdict, whole, original.not_isNeighbourDiscovery,
      original.originDirection_eq, explicitVerdict, Bool.false_eq_true, if_false]

def sampleRequest : Header .ip := ⟨0x0a000002, 0xac120002, 0, false, 64, .ports .tcp 40000 80⟩

def sampleRequestEntry : Conntrack .ip :=
  ⟨.new, .original, 32, .transport .tcp, 0x0a000002, 0x0a000001, 40000, 80⟩

def sampleReply : Header .ip := ⟨0xac120002, 0x0a000002, 0, false, 64, .ports .tcp 80 40000⟩

def sampleReplyEntry : Conntrack .ip :=
  ⟨.established, .reply, 40, .transport .tcp, 0x0a000002, 0x0a000001, 40000, 80⟩

theorem sample_reply_accepted :
    ∃ doc, compileRuleset sampleNetip "server" samplePolicy sampleAssigned false = .ok doc ∧
      defaultVerdict samplePolicy .outbound = .drop ∧
      explicitVerdict sampleNetip samplePolicy sampleAssigned .inbound
        sampleRequest sampleRequestEntry = .accept ∧
      (doc.evaluate ⟨"", "", .ip .ip sampleReply sampleReplyEntry⟩
        (.origin .inbound)).verdict = some .accept ∧
      (doc.evaluate ⟨"", "", .ip .ip sampleReply sampleReplyEntry⟩
        (.policy .outbound)).verdict = some .accept := by
  obtain ⟨doc, compiled, accepted⟩ : ∃ doc,
      compileRuleset sampleNetip "server" samplePolicy sampleAssigned false = .ok doc ∧
      (doc.evaluate ⟨"", "", .ip .ip sampleRequest sampleRequestEntry⟩
        (.policy .inbound)).verdict = some .accept := ⟨_, rfl, rfl⟩
  have original : Original .inbound sampleRequest sampleRequestEntry :=
    ⟨rfl, ⟨.tcp, rfl, rfl⟩, rfl, .inl ⟨rfl, rfl⟩⟩
  have sameFlow : SameFlow .inbound sampleRequestEntry sampleReplyEntry :=
    ⟨rfl, rfl, rfl, rfl, rfl, fun _ => rfl⟩
  have follows : Follows .inbound .outbound sampleReply sampleReplyEntry :=
    .reply rfl rfl rfl rfl rfl
  have followed := later_verdict_eq_original_verdict rfl compiled original sameFlow follows "" ""
  have verdict := Option.some.inj ((followed.2.2 rfl).symm.trans accepted)
  rw [verdict] at followed
  exact ⟨doc, compiled, rfl, verdict, followed.1, followed.2.1 rfl rfl⟩

end Wings.NetworkPolicy
