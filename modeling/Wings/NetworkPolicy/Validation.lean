import Wings.NetworkPolicy.Envelope

/-!
# Validation of policies

`validateStatic` checks a policy by itself, `validate` binds it to the
allocations of a server. Maps of the source are lists of what they hold, in the
order in which it was put there.
-/

namespace Wings.NetworkPolicy.Envelope

open FallibleProgram

def validProtocol (value : String) : Bool := value = "tcp" || value = "udp" || value = "both"

def validAction (value : String) : Bool := value = "allow" || value = "drop"

def maxRate : Int64 := 1000000000000

def validRate (rate : Int64) : Bool := 0 ≤ rate && rate ≤ maxRate

def validateBandwidth (rate ceiling : Int64) : Except String Unit := do
  require (validRate rate ∧ validRate ceiling)
    ("bandwidth must be an integer from 0 through 1000000000000 bits per " ++ "second")
  require (¬(0 < ceiling ∧ ceiling < rate)) "bandwidth exceeds administrator ceiling"

def validName (value : String) : Bool := value ≠ "" && value.toList.length ≤ 80

def isIdentifier (character : Char) : Bool :=
  character.isAlphanum || character = '_' || character = '-'

def idPattern (value : String) : Bool := 1 ≤ value.toList.length && value.toList.length ≤ 64 &&
    value.toList.all isIdentifier

def hashPattern (value : String) : Bool := value.toList.length = 64 &&
    value.toList.all fun digit =>
      digit.isDigit || 'a' ≤ digit && digit ≤ 'f'

section Checks

variable (go : Libraries)

structure Known where
  allocations : List Allocation
  tuples : List ((Addr × Int) × Int64)

def addAllocation (known : Known) (allocation : Allocation) : Except String Known := do
  require (0 < allocation.id ∧ 1 ≤ allocation.port ∧ allocation.port ≤ 65535)
    ("allocation IDs and ports must be positive and ports must not exceed " ++ "65535")
  require (allocation.id ∉ known.allocations.map Allocation.id)
    ("duplicate allocation ID " ++ toString allocation.id)
  let key ← allocationKey go.netip allocation.ip allocation.port.toInt
  require (key ∉ known.tuples.map Prod.fst)
    ("allocation IDs " ++ toString ((known.tuples.lookup key).getD 0) ++ " and " ++
      toString allocation.id ++ " ambiguously identify the same address and port")
  return ⟨known.allocations ++ [allocation], known.tuples ++ [(key, allocation.id)]⟩

def checkGroupIP (group : Group) : Except String Unit :=
  match group.ip with
  | none => .ok ()
  | some ip =>
    match parseIP go.netip ip with
    | .ok _ => .ok ()
    | .error message =>
      .error ("invalid IP for group " ++ go.quote group.id ++ ": " ++ message)

def addGroup (groups : List Group) (group : Group) : Except String (List Group) := do
  require (idPattern group.id) ("invalid group ID " ++ go.quote group.id)
  require (group.id ∉ groups.map Group.id) ("duplicate group ID " ++ go.quote group.id)
  require (validName group.name) ("invalid group name for " ++ go.quote group.id)
  require (group.mode = "allocations" ∨ group.mode = "range")
    ("invalid group mode for " ++ go.quote group.id)
  require (validProtocol group.protocol) ("invalid group protocol for " ++ go.quote group.id)
  require (group.allocationIDs ≠ none ∧ group.allocationIDs.items.length ≤ 1000)
    ("group " ++ go.quote group.id ++ " allocation_ids must be an array with at most 1000 entries")
  require (1 ≤ group.portStart ∧ group.portEnd ≤ 65535 ∧ group.portStart ≤ group.portEnd)
    ("invalid port range for group " ++ go.quote group.id)
  checkGroupIP go group
  forM group.allocationIDs.items fun id =>
    require (0 < id) ("group " ++ go.quote group.id ++ " contains an invalid allocation ID")
  return groups ++ [group]

def addId (selected : List Int64) (id : Int64) : List Int64 :=
  if id ∈ selected then selected else selected ++ [id]

def selectInRange (group : Group) (matchIP : Option Addr)
    (selected : List Int64) (allocation : Allocation) : Except String (List Int64) :=
  if allocation.port < group.portStart ∨ group.portEnd < allocation.port then
    .ok selected
  else
    match matchIP with
    | none => .ok (addId selected allocation.id)
    | some address => do
      let ip ← parseIP go.netip allocation.ip
      return if ip = address then addId selected allocation.id else selected

def groupAddress (group : Group) : Except String (Option Addr) :=
  match group.ip with
  | none => .ok none
  | some text => (parseIP go.netip text).map some

def selectedAllocations (group : Group) (allocations : List Allocation) :
    Except String (List Int64) :=
  if group.mode = "allocations" then
    .ok ((group.allocationIDs.items.filter fun id =>
      id ∈ allocations.map Allocation.id).foldl addId [])
  else do
    let matchIP ← groupAddress go group
    allocations.foldlM (selectInRange go group matchIP) []

def crossOff (resolved : ResolvedGroup) (allocations : List Allocation)
    (expected : List Int64) (allocation : Allocation) :
    Except String (List Int64) := do
  require ((allocations.find? fun known => known.id = allocation.id) =
      some allocation ∧ allocation.id ∈ expected) ("resolved group " ++ go.quote resolved.id ++
      " contains an allocation outside its selection")
  return expected.erase allocation.id

def checkResolved (policy : Policy) (groups : List Group)
    (allocations : List Allocation) (seen : List String) (resolved : ResolvedGroup) :
    Except String (List String) := do
  let group ← orError (if resolved.id ∈ seen then none
      else groups.find? fun group => group.id = resolved.id)
    ("unknown or duplicate resolved group " ++ go.quote resolved.id)
  require (resolved.protocol = group.protocol) ("resolved group " ++ go.quote resolved.id ++
      " protocol does not match its group")
  require (resolved.allocations ≠ none) ("resolved group " ++ go.quote resolved.id ++
      " allocations must be an array")
  let expected ← selectedAllocations go group policy.allocations.items
  require (resolved.allocations.items.length = expected.length)
    ("resolved group " ++ go.quote resolved.id ++
      " does not contain the exact selected allocation set")
  let left ← resolved.allocations.items.foldlM (crossOff go resolved allocations) expected
  require (left = []) ("resolved group " ++ go.quote resolved.id ++ " omits a selected allocation")
  return seen ++ [resolved.id]

def validateResolvedGroups (policy : Policy) (groups : List Group) (allocations : List Allocation) :
    Except String Unit := do
  require (policy.resolvedGroups.items.length = groups.length)
    "resolved_groups must contain exactly one entry for every group"
  let _ ← policy.resolvedGroups.items.foldlM (checkResolved go policy groups allocations) []

def addChain (chains : List String) (chain : Chain) : Except String (List String) := do
  require (idPattern chain.id ∧ validName chain.name) "invalid chain ID or name"
  require (chain.id ∉ chains) ("duplicate chain ID " ++ go.quote chain.id)
  return chains ++ [chain.id]

def checkRuleGroup (groups : List Group) (rule : Rule) : Except String Unit :=
  match rule.groupID with
  | none => .ok ()
  | some id => do
    let group ← orError (groups.find? fun group => group.id = id)
      ("rule " ++ go.quote rule.id ++ " references unknown group " ++ go.quote id)
    require (rule.protocol = "both" ∨ group.protocol = "both" ∨ rule.protocol = group.protocol)
      ("rule " ++ go.quote rule.id ++ " and group " ++ go.quote group.id ++
        " protocols do not overlap")

def checkRuleCIDR (rule : Rule) : Except String Unit :=
  match rule.cidr with
  | none => .ok ()
  | some cidr =>
    match peer go.netip cidr with
    | .ok _ => .ok ()
    | .error message =>
      .error ("invalid CIDR for rule " ++ go.quote rule.id ++ ": " ++ message)

def addRule (groups : List Group) (chains rules : List String) (rule : Rule) :
    Except String (List String) := do
  require (idPattern rule.id ∧ validName rule.name) "invalid rule ID or name"
  require (rule.id ∉ rules) ("duplicate rule ID " ++ go.quote rule.id)
  require (rule.direction = "inbound" ∨ rule.direction = "outbound")
    ("invalid direction for rule " ++ go.quote rule.id)
  require (validAction rule.action ∧ validProtocol rule.protocol)
    ("invalid action or protocol for rule " ++ go.quote rule.id)
  require (∀ chain ∈ rule.chainID, chain ∈ chains)
    ("rule " ++ go.quote rule.id ++ " references unknown chain " ++ go.quote (rule.chainID.getD ""))
  checkRuleGroup go groups rule
  checkRuleCIDR go rule
  return rules ++ [rule.id]

def validateFirewall (policy : Policy) (groups : List Group) : Except String Unit := do
  let firewall := policy.body.firewall
  require (validAction firewall.defaultInbound ∧ validAction firewall.defaultOutbound)
    "firewall defaults must be allow or drop"
  let chains ← firewall.chains.items.foldlM (addChain go) []
  let _ ← firewall.rules.items.foldlM (addRule go groups chains) []

def validateStatic (policy : Policy) : Except String Unit := do
  require (policy.apiVersion = 1) "api_version must be 1"
  require (policy.revision ≠ 0) "revision must be a positive integer"
  require (hashPattern policy.policyHash) "policy_hash must be 64 lowercase hexadecimal characters"
  require (policy.allocations ≠ none ∧ policy.resolvedGroups ≠ none ∧
      policy.body.groups ≠ none ∧ policy.body.firewall.chains ≠ none ∧
      policy.body.firewall.rules ≠ none) "policy arrays must not be null"
  require (policy.body.groups.items.length ≤ 50) "maximum 50 groups"
  require (policy.body.firewall.chains.items.length ≤ 25) "maximum 25 chains"
  require (policy.body.firewall.rules.items.length ≤ 100) "maximum 100 rules"
  let known ← policy.allocations.items.foldlM (addAllocation go) ⟨[], []⟩
  let groups ← policy.body.groups.items.foldlM (addGroup go) []
  validateResolvedGroups go policy groups known.allocations
  validateFirewall go policy groups
  validateBandwidth policy.body.bandwidth.upload 0
  validateBandwidth policy.body.bandwidth.download 0
  let hash ← calculatedHash go policy
  require (policy.policyHash = hash) "policy_hash does not match the complete policy envelope"

def addAssigned (host : String) (owned : List (Addr × Int)) (port : Int) :
    Except String (List (Addr × Int)) := do
  require (1 ≤ port ∧ port ≤ 65535) ("server configuration contains invalid assigned port " ++
      toString port)
  let key ← (allocationKey go.netip host port).mapError fun message =>
    "server configuration contains invalid assigned IP " ++ go.quote host ++ ": " ++ message
  require (key ∉ owned) ("server configuration contains ambiguous duplicate allocation " ++
      host ++ ":" ++ toString port)
  return owned ++ [key]

def assignedAllocations (assigned : Assigned) : Except String (List (Addr × Int)) := assigned.foldlM
    (fun owned entry => entry.2.foldlM (addAssigned go entry.1) owned) []

def validate (policy : Option Policy) (assigned : Assigned)
    (ceiling : Bandwidth) : Except String Unit :=
  match policy with
  | none => .error "network policy is null"
  | some policy =>
    if policy = empty then do
      validateBandwidth 0 ceiling.upload
      validateBandwidth 0 ceiling.download
    else do
      validateStatic go policy
      validateBandwidth policy.body.bandwidth.upload ceiling.upload
      validateBandwidth policy.body.bandwidth.download ceiling.download
      let owned ← assignedAllocations go assigned
      require (owned.length = policy.allocations.items.length)
        ("policy allocations do not exactly match the server's " ++ "assigned allocations")
      forM policy.allocations.items fun allocation => do
        let key ← allocationKey go.netip allocation.ip allocation.port.toInt
        require (key ∈ owned) ("allocation " ++ allocation.ip ++ ":" ++
            toString allocation.port ++ " is not assigned to this server")

end Checks

def Selects (go : Libraries) (group : Group) (allocation : Allocation) : Prop :=
  if group.mode = "allocations" then
    allocation.id ∈ group.allocationIDs.items
  else
    group.portStart ≤ allocation.port ∧ allocation.port ≤ group.portEnd ∧
      ∀ text ∈ group.ip, ∃ address, parseIP go.netip text = .ok address ∧
          parseIP go.netip allocation.ip = .ok address

def HasPair (go : Libraries) (allocation : Allocation) (pair : Addr × Int) : Prop :=
  parseIP go.netip allocation.ip = .ok pair.1 ∧ allocation.port.toInt = pair.2

def Allocation.Fits (allocation : Allocation) : Prop :=
  0 < allocation.id ∧ 1 ≤ allocation.port ∧ allocation.port ≤ 65535

variable {allocation : Allocation}

theorem Allocation.Fits.port_mod (fits : allocation.Fits) :
    allocation.port.toInt % 65536 = allocation.port.toInt := by
  have lower := Int64.le_iff_toInt_le.1 fits.2.1
  have upper := Int64.le_iff_toInt_le.1 fits.2.2
  have one : (1 : Int64).toInt = 1 := by decide
  have bound : (65535 : Int64).toInt = 65535 := by decide
  omega

/-- The allocations have different identifiers, addresses and ports. -/
structure Separate (go : Libraries) (allocations : List Allocation) : Prop where
  fit : ∀ allocation ∈ allocations, allocation.Fits
  ids : (allocations.map Allocation.id).Nodup
  pairs : ∃ pairs : List (Addr × Int), List.Forall₂ (HasPair go) allocations pairs ∧ pairs.Nodup

theorem addAllocation_eq_ok_iff : addAllocation go known allocation = .ok next ↔ allocation.Fits ∧
    allocation.id ∉ known.allocations.map Allocation.id ∧
    ∃ key, allocationKey go.netip allocation.ip allocation.port.toInt = .ok key ∧
    key ∉ known.tuples.map Prod.fst ∧
    next = ⟨known.allocations ++ [allocation], known.tuples ++ [(key, allocation.id)]⟩ := by
  simp only [addAllocation, bind_eq_ok_iff, require_eq_ok_iff, Allocation.Fits, pure_eq_ok_iff]
  constructor
  · rintro ⟨_, fits, _, fresh, key, parsed, _, other, rfl⟩
    exact ⟨fits, fresh, key, parsed, other, rfl⟩
  · rintro ⟨fits, fresh, key, parsed, other, rfl⟩
    exact ⟨(), fits, (), fresh, key, parsed, (), other, rfl⟩

structure Known.Lists (go : Libraries) (seen : List Allocation) (known : Known) : Prop where
  allocations : known.allocations = seen
  fit : ∀ allocation ∈ seen, allocation.Fits
  ids : (seen.map Allocation.id).Nodup
  pairs : List.Forall₂ (HasPair go) seen (known.tuples.map Prod.fst)
  distinct : (known.tuples.map Prod.fst).Nodup

variable {values : List α}

theorem nodup_concat (nodup : values.Nodup)
    (fresh : value ∉ values) : (values ++ [value]).Nodup := (List.nodup_cons.2 ⟨fresh, nodup⟩).perm
    (List.perm_append_singleton value values).symm

theorem Known.Lists.add (lists : Known.Lists go seen known)
    (added : addAllocation go known allocation = .ok next) :
    Known.Lists go (seen ++ [allocation]) next := by
  obtain ⟨fits, fresh, key, parsed, other, rfl⟩ := addAllocation_eq_ok_iff.1 added
  obtain ⟨address, port⟩ := allocationKey_eq_ok_iff.1 parsed
  rw [fits.port_mod] at port
  rw [lists.allocations] at fresh
  refine ⟨by rw [lists.allocations], ?_, ?_, ?_, ?_⟩
  · exact List.forall_mem_append.2 ⟨lists.fit, List.forall_mem_singleton.2 fits⟩
  · rw [List.map_append]
    exact nodup_concat lists.ids fresh
  · rw [List.map_append]
    exact List.rel_append lists.pairs (.cons ⟨address, port⟩ .nil)
  · rw [List.map_append]
    exact nodup_concat lists.distinct other

variable {allocations : List Allocation}

theorem separate_of_addAllocation
    (added : allocations.foldlM (addAllocation go) ⟨[], []⟩ = .ok known) :
    known.allocations = allocations ∧ Separate go allocations := by
  have initially : Known.Lists go [] ⟨[], []⟩ := ⟨rfl, nofun, List.nodup_nil, .nil, List.nodup_nil⟩
  have lists := foldlM_sees (Known.Lists go) initially
    (fun _ _ _ _ lists added => lists.add added) added
  exact ⟨lists.allocations, lists.fit, lists.ids, _, lists.pairs, lists.distinct⟩

structure Group.Fits (group : Group) : Prop where
  present : group.allocationIDs ≠ none
  portStart : 1 ≤ group.portStart
  portEnd : group.portStart ≤ group.portEnd
  ids : ∀ id ∈ group.allocationIDs.items, 0 < id

theorem addGroup_eq_ok {next : List Group} (added : addGroup go groups group = .ok next) :
    group.id ∉ groups.map Group.id ∧ group.Fits ∧ next = groups ++ [group] := by
  simp only [addGroup, bind_eq_ok_iff, require_eq_ok_iff, forM_eq_ok_iff, pure_eq_ok_iff] at added
  obtain ⟨_, _, _, fresh, _, _, _, _, _, _, _, present, _, ports, _, _, _, ids, rfl⟩ := added
  exact ⟨fresh, ⟨present.1, ports.1, ports.2.2, ids⟩, rfl⟩

structure Groups (groups : List Group) : Prop where
  fit : ∀ group ∈ groups, group.Fits
  ids : (groups.map Group.id).Nodup

theorem groups_of_addGroup {known : List Group}
    (added : groups.foldlM (addGroup go) [] = .ok known) : known = groups ∧ Groups groups := by
  apply foldlM_sees (fun seen known => known = seen ∧ Groups seen)
    ⟨rfl, nofun, List.nodup_nil⟩ _ added
  rintro seen _ group next ⟨rfl, kept⟩ added
  obtain ⟨fresh, fits, rfl⟩ := addGroup_eq_ok added
  refine ⟨rfl, ?_, ?_⟩
  · exact List.forall_mem_append.2 ⟨kept.fit, List.forall_mem_singleton.2 fits⟩
  · rw [List.map_append]
    exact nodup_concat kept.ids fresh

theorem mem_addId {id other : Int64} :
    other ∈ addId selected id ↔ other ∈ selected ∨ other = id := by
  rw [addId]
  by_cases known : id ∈ selected
  · rw [if_pos known]
    constructor
    · exact .inl
    · rintro (member | rfl)
      · exact member
      · exact known
  · rw [if_neg known, List.mem_append, List.mem_singleton]

theorem nodup_addId (nodup : selected.Nodup) (id : Int64) : (addId selected id).Nodup := by
  rw [addId]
  by_cases known : id ∈ selected
  · rwa [if_pos known]
  · rw [if_neg known]
    exact nodup_concat nodup known

theorem foldl_addId (ids selected : List Int64) (nodup : selected.Nodup) :
    (ids.foldl addId selected).Nodup ∧
    ∀ id, id ∈ ids.foldl addId selected ↔ id ∈ selected ∨ id ∈ ids := by
  induction ids generalizing selected with
  | nil => simp [nodup]
  | cons first ids ih =>
    obtain ⟨distinct, members⟩ := ih (addId selected first) (nodup_addId nodup first)
    refine ⟨distinct, ?_⟩
    intro id
    rw [List.foldl_cons, members, mem_addId, List.mem_cons, or_assoc]

structure Selection (go : Libraries) (group : Group)
    (allocations : List Allocation) (selected : List Int64) : Prop where
  nodup : selected.Nodup
  mem_iff : ∀ id, id ∈ selected ↔ ∃ allocation ∈ allocations,
      allocation.id = id ∧ Selects go group allocation

theorem selection_of_ids (mode : group.mode = "allocations") (allocations : List Allocation) :
    Selection go group allocations ((group.allocationIDs.items.filter fun id =>
    id ∈ allocations.map Allocation.id).foldl addId []) := by
  obtain ⟨distinct, members⟩ := foldl_addId
    (group.allocationIDs.items.filter fun id =>
      id ∈ allocations.map Allocation.id) [] List.nodup_nil
  refine ⟨distinct, ?_⟩
  intro id
  rw [members]
  simp only [List.not_mem_nil, false_or, List.mem_filter,
    decide_eq_true_eq, List.mem_map, Selects, if_pos mode]
  constructor
  · rintro ⟨listed, allocation, member, rfl⟩
    exact ⟨allocation, member, rfl, listed⟩
  · rintro ⟨allocation, member, rfl, listed⟩
    exact ⟨listed, allocation, member, rfl⟩

theorem selects_iff_of_groupAddress (mode : group.mode ≠ "allocations")
    (parsed : groupAddress go group = .ok matchIP) (allocation : Allocation) :
    Selects go group allocation ↔ (group.portStart ≤ allocation.port ∧
    allocation.port ≤ group.portEnd) ∧
    ∀ address ∈ matchIP, parseIP go.netip allocation.ip = .ok address := by
  rw [Selects, if_neg mode, and_assoc]
  refine and_congr_right fun _ => and_congr_right fun _ => ?_
  rw [groupAddress] at parsed
  cases ip : group.ip with
  | none =>
    rw [ip] at parsed
    cases parsed
    exact ⟨fun _ => nofun, fun _ => nofun⟩
  | some text =>
    rw [ip] at parsed
    dsimp only at parsed
    cases known : parseIP go.netip text with
    | error message =>
      rw [known] at parsed
      cases parsed
    | ok address =>
      rw [known] at parsed
      cases parsed
      simp [known]

theorem selectInRange_eq_ok (mode : group.mode ≠ "allocations")
    (parsed : groupAddress go group = .ok matchIP) {next : List Int64}
    (done : selectInRange go group matchIP selected allocation = .ok next) :
    (Selects go group allocation ∧ next = addId selected allocation.id) ∨
    (¬Selects go group allocation ∧ next = selected) := by
  rw [selects_iff_of_groupAddress mode parsed]
  unfold selectInRange at done
  by_cases outside : allocation.port < group.portStart ∨ group.portEnd < allocation.port
  · rw [if_pos outside] at done
    cases done
    refine .inr ⟨fun inside => ?_, rfl⟩
    rcases outside with below | above
    · exact Int64.not_le.2 below inside.1.1
    · exact Int64.not_le.2 above inside.1.2
  · rw [if_neg outside] at done
    rw [not_or, Int64.not_lt, Int64.not_lt] at outside
    cases matchIP with
    | none =>
      cases done
      exact .inl ⟨⟨outside, nofun⟩, rfl⟩
    | some address =>
      obtain ⟨ip, known, done⟩ := bind_eq_ok_iff.1 done
      cases done
      by_cases same : ip = address
      · rw [if_pos same]
        refine .inl ⟨⟨outside, ?_⟩, rfl⟩
        rintro _ ⟨⟩
        rw [known, same]
      · rw [if_neg same]
        refine .inr ⟨fun inside => same ?_, rfl⟩
        have equal := inside.2 address rfl
        rw [known] at equal
        exact Except.ok.inj equal

theorem selects_concat {id : Int64} :
    (∃ known ∈ seen ++ [allocation], known.id = id ∧ Selects go group known) ↔
    (∃ known ∈ seen, known.id = id ∧ Selects go group known) ∨
    allocation.id = id ∧ Selects go group allocation := by
  simp only [List.mem_append, List.mem_singleton, or_and_right, exists_or, exists_eq_left]

theorem selection_of_selectedAllocations
    (found : selectedAllocations go group allocations = .ok selected) :
    Selection go group allocations selected := by
  rw [selectedAllocations] at found
  by_cases mode : group.mode = "allocations"
  · rw [if_pos mode] at found
    cases found
    exact selection_of_ids mode allocations
  · rw [if_neg mode] at found
    obtain ⟨matchIP, parsed, found⟩ := bind_eq_ok_iff.1 found
    apply foldlM_sees (Selection go group) ⟨List.nodup_nil, by simp⟩ _ found
    intro seen before allocation after kept done
    rcases selectInRange_eq_ok mode parsed done with
      ⟨selects, rfl⟩ | ⟨other, rfl⟩
    · refine ⟨nodup_addId kept.nodup _, fun id => ?_⟩
      rw [mem_addId, kept.mem_iff, selects_concat]
      simp only [selects, and_true, eq_comm (a := id)]
    · refine ⟨kept.nodup, fun id => ?_⟩
      rw [kept.mem_iff, selects_concat]
      simp only [other, and_false, or_false]

structure Resolves (go : Libraries) (group : Group)
    (allocations : List Allocation) (resolved : ResolvedGroup) : Prop where
  id : resolved.id = group.id
  protocol : resolved.protocol = group.protocol
  present : resolved.allocations ≠ none
  nodup : resolved.allocations.items.Nodup
  mem_iff : ∀ allocation, allocation ∈ resolved.allocations.items ↔
    allocation ∈ allocations ∧ Selects go group allocation

structure CrossedOff (allocations : List Allocation) (expected : List Int64)
    (seen : List Allocation) (left : List Int64) : Prop where
  known : ∀ allocation ∈ seen, allocation ∈ allocations
  ids : (seen.map Allocation.id).Nodup
  nodup : left.Nodup
  mem_iff : ∀ id, id ∈ left ↔ id ∈ expected ∧ id ∉ seen.map Allocation.id
  expected : ∀ allocation ∈ seen, allocation.id ∈ expected

variable {expected : List Int64}

theorem CrossedOff.step {left next : List Int64}
    (crossed : CrossedOff allocations expected seen left)
    (done : crossOff go resolved allocations left allocation = .ok next) :
    CrossedOff allocations expected (seen ++ [allocation]) next := by
  simp only [crossOff, bind_eq_ok_iff, require_eq_ok_iff, pure_eq_ok_iff] at done
  obtain ⟨_, ⟨found, member⟩, rfl⟩ := done
  obtain ⟨listed, fresh⟩ := (crossed.mem_iff _).1 member
  refine ⟨?_, ?_, crossed.nodup.erase _, ?_, ?_⟩
  · exact List.forall_mem_append.2
      ⟨crossed.known, List.forall_mem_singleton.2 (List.mem_of_find?_eq_some found)⟩
  · rw [List.map_append]
    exact nodup_concat crossed.ids fresh
  · intro id
    rw [crossed.nodup.mem_erase_iff, crossed.mem_iff, List.map_append,
      List.mem_append, List.map_singleton, List.mem_singleton]
    tauto
  · exact List.forall_mem_append.2 ⟨crossed.expected, List.forall_mem_singleton.2 listed⟩

theorem CrossedOff.mem_iff_selects (crossed : CrossedOff allocations expected seen [])
    (ids : (allocations.map Allocation.id).Nodup)
    (selection : Selection go group allocations expected) (allocation : Allocation) :
    allocation ∈ seen ↔ allocation ∈ allocations ∧ Selects go group allocation := by
  constructor
  · intro member
    have known := crossed.known allocation member
    obtain ⟨other, there, equal, selects⟩ :=
      (selection.mem_iff _).1 (crossed.expected allocation member)
    rw [List.inj_on_of_nodup_map ids there known equal] at selects
    exact ⟨known, selects⟩
  · rintro ⟨known, selects⟩
    have listed := (selection.mem_iff allocation.id).2 ⟨allocation, known, rfl, selects⟩
    have seenId : allocation.id ∈ seen.map Allocation.id := by
      by_contra missing
      exact List.not_mem_nil ((crossed.mem_iff _).2 ⟨listed, missing⟩)
    obtain ⟨other, member, equal⟩ := List.mem_map.1 seenId
    rw [← List.inj_on_of_nodup_map ids (crossed.known other member) known equal]
    exact member

theorem checkResolved_eq_ok {seen next : List String}
    (ids : (policy.allocations.items.map Allocation.id).Nodup)
    (checked : checkResolved go policy groups policy.allocations.items seen resolved = .ok next) :
    resolved.id ∉ seen ∧ next = seen ++ [resolved.id] ∧ ∃ group ∈ groups,
    Resolves go group policy.allocations.items resolved := by
  simp only [checkResolved, bind_eq_ok_iff, require_eq_ok_iff, pure_eq_ok_iff] at checked
  obtain ⟨group, found, _, protocol, _, present, expected, selected, _, _,
    left, crossed, _, rfl, rfl⟩ := checked
  have fresh : resolved.id ∉ seen := by
    intro member
    rw [if_pos member] at found
    cases found
  rw [if_neg fresh, orError_eq_ok_iff] at found
  have same := List.find?_some found
  have selection := selection_of_selectedAllocations selected
  have finished := foldlM_sees (CrossedOff policy.allocations.items expected)
    ⟨nofun, List.nodup_nil, selection.nodup, by simp, nofun⟩
    (fun _ _ _ _ kept done => kept.step done) crossed
  refine ⟨fresh, rfl, group, List.mem_of_find?_eq_some found,
    (of_decide_eq_true same).symm, protocol, present, ?_, ?_⟩
  · exact List.Nodup.of_map Allocation.id finished.ids
  · exact finished.mem_iff_selects ids selection

structure Resolved (go : Libraries) (groups : List Group)
    (allocations : List Allocation) (resolved : List ResolvedGroup) : Prop where
  each : ∀ entry ∈ resolved, ∃ group ∈ groups, Resolves go group allocations entry
  ids : (resolved.map ResolvedGroup.id).Nodup

theorem resolved_of_validateResolvedGroups
    (ids : (policy.allocations.items.map Allocation.id).Nodup)
    (validated : validateResolvedGroups go policy groups policy.allocations.items = .ok ()) :
    policy.resolvedGroups.items.length = groups.length ∧ Resolved go groups policy.allocations.items
    policy.resolvedGroups.items := by
  simp only [validateResolvedGroups, bind_eq_ok_iff, require_eq_ok_iff] at validated
  obtain ⟨_, length, seen, checked, _⟩ := validated
  refine ⟨length, ?_⟩
  have kept := foldlM_sees (fun entries seen => seen = entries.map ResolvedGroup.id ∧
      Resolved go groups policy.allocations.items entries) ⟨rfl, nofun, List.nodup_nil⟩ ?_ checked
  · exact kept.2
  · rintro entries _ entry next ⟨rfl, kept⟩ done
    obtain ⟨fresh, rfl, resolves⟩ := checkResolved_eq_ok ids done
    refine ⟨by simp, ?_, ?_⟩
    · exact List.forall_mem_append.2 ⟨kept.each, List.forall_mem_singleton.2 resolves⟩
    · rw [List.map_append]
      exact nodup_concat kept.ids fresh

structure Static (go : Libraries) (policy : Policy) : Prop where
  apiVersion : policy.apiVersion = 1
  revision : policy.revision ≠ 0
  allocations : policy.allocations ≠ none
  resolvedGroups : policy.resolvedGroups ≠ none
  groups : policy.body.groups ≠ none
  chains : policy.body.firewall.chains ≠ none
  rules : policy.body.firewall.rules ≠ none
  separate : Separate go policy.allocations.items
  grouped : Groups policy.body.groups.items
  count : policy.resolvedGroups.items.length = policy.body.groups.items.length
  resolved : Resolved go policy.body.groups.items policy.allocations.items
    policy.resolvedGroups.items
  hash : calculatedHash go policy = .ok policy.policyHash

theorem static_of_validateStatic
    (validated : validateStatic go policy = .ok ()) : Static go policy := by
  simp only [validateStatic, bind_eq_ok_iff, require_eq_ok_iff] at validated
  obtain ⟨_, version, _, revision, _, _, _, present, _, _, _, _, _, _, known,
    added, groups, grouped, _, resolved, _, _, _, _, _, _, hash, calculated, equal⟩ := validated
  obtain ⟨listed, separate⟩ := separate_of_addAllocation added
  obtain ⟨rfl, kept⟩ := groups_of_addGroup grouped
  rw [listed] at resolved
  obtain ⟨count, resolves⟩ := resolved_of_validateResolvedGroups separate.ids resolved
  exact ⟨version, revision, present.1, present.2.1, present.2.2.1,
    present.2.2.2.1, present.2.2.2.2, separate, kept, count, resolves, equal ▸ calculated⟩

structure Assigns (go : Libraries) (assigned : Assigned) (owned : List (Addr × Int)) : Prop where
  nodup : owned.Nodup
  mem_iff : ∀ pair, pair ∈ owned ↔ Owns go.netip assigned pair.1 pair.2

theorem addAssigned_eq_ok {next : List (Addr × Int)} {port : Int}
    (added : addAssigned go host owned port = .ok next) :
    ∃ address, parseIP go.netip host = .ok address ∧
    (address, port) ∉ owned ∧ next = owned ++ [(address, port)] := by
  simp only [addAssigned, bind_eq_ok_iff, require_eq_ok_iff,
    mapError_eq_ok_iff, pure_eq_ok_iff] at added
  obtain ⟨_, range, key, parsed, _, fresh, rfl⟩ := added
  obtain ⟨address, reduced⟩ := allocationKey_eq_ok_iff.1 parsed
  rw [Int.emod_eq_of_lt (by omega) (by omega)] at reduced
  refine ⟨key.1, address, ?_, ?_⟩
  · rw [reduced]
    exact fresh
  · rw [reduced]

theorem owns_concat :
    Owns netip (assigned ++ [(host, ports)]) address port ↔ Owns netip assigned address port ∨
    parseIP netip host = .ok address ∧ port ∈ ports := by
  simp only [Owns, List.mem_append, List.mem_singleton, or_and_right, exists_or, exists_eq_left]

theorem assigns_of_addAssigned (assigns : Assigns go assigned before)
    (added : ports.foldlM (addAssigned go host) before = .ok after) :
    Assigns go (assigned ++ [(host, ports)]) after := by
  apply foldlM_sees (fun seen owned => Assigns go (assigned ++ [(host, seen)]) owned) _ _ added
  · refine ⟨assigns.nodup, ?_⟩
    intro pair
    rw [assigns.mem_iff, owns_concat]
    simp
  · intro seen owned port next kept done
    obtain ⟨address, parsed, fresh, rfl⟩ := addAssigned_eq_ok done
    refine ⟨nodup_concat kept.nodup fresh, ?_⟩
    rintro ⟨other, number⟩
    rw [List.mem_append, kept.mem_iff, List.mem_singleton, owns_concat,
      owns_concat, List.mem_append, List.mem_singleton, Prod.mk.injEq, parsed, Except.ok.injEq]
    tauto

theorem assigns_of_assignedAllocations (collected : assignedAllocations go assigned = .ok owned) :
    Assigns go assigned owned := by
  apply foldlM_sees (Assigns go) _ _ collected
  · exact ⟨List.nodup_nil, by simp [Owns]⟩
  · rintro seen before ⟨host, ports⟩ after kept done
    exact assigns_of_addAssigned kept done

/-- The allocations of the policy are in bijection with the assigned pairs of address and port, and
each group lists exactly what it selects, once each. -/
structure Tied (go : Libraries) (policy : Policy) (assigned : Assigned) : Prop where
  allocations : policy.allocations.items.Nodup ∧ ∃ pairOf : Allocation → Addr × Int,
      (∀ allocation ∈ policy.allocations.items, HasPair go allocation (pairOf allocation)) ∧
      Set.BijOn pairOf {allocation | allocation ∈ policy.allocations.items}
        {pair | Owns go.netip assigned pair.1 pair.2}
  groups : (policy.resolvedGroups.items.map ResolvedGroup.id).Perm
    (policy.body.groups.items.map Group.id)
  resolved : ∀ resolved ∈ policy.resolvedGroups.items, ∃ group ∈ policy.body.groups.items,
      Resolves go group policy.allocations.items resolved

theorem perm_of_subset (nodup : values.Nodup)
    (subset : values ⊆ others) (length : others.length ≤ values.length) : values.Perm others :=
  (List.subperm_of_subset nodup subset).perm_of_length_le length

def pairOf (go : Libraries) (allocation : Allocation) : Addr × Int :=
  match parseIP go.netip allocation.ip with
  | .ok address => (address, allocation.port.toInt)
  | .error _ => (⟨.ip, 0⟩, 0)

theorem HasPair.eq_pairOf (hasPair : HasPair go allocation pair) : pair = pairOf go allocation := by
  rw [pairOf, hasPair.1]
  exact Prod.ext rfl hasPair.2.symm

theorem Separate.exists_pairs (separate : Separate go allocations) : (∀ allocation ∈ allocations,
    HasPair go allocation (pairOf go allocation)) ∧ (allocations.map (pairOf go)).Nodup := by
  obtain ⟨pairs, each, nodup⟩ := separate.pairs
  have mapped : pairs = allocations.map (pairOf go) := by
    rw [← List.forall₂_eq_eq_eq, List.forall₂_map_right_iff]
    exact each.flip.imp fun _ _ hasPair => HasPair.eq_pairOf hasPair
  rw [mapped] at each nodup
  rw [List.forall₂_map_right_iff, List.forall₂_same] at each
  exact ⟨each, nodup⟩

theorem Separate.bijOn (separate : Separate go allocations) (assigns : Assigns go assigned owned)
    (length : owned.length = allocations.length)
    (members : ∀ allocation ∈ allocations, pairOf go allocation ∈ owned) : Set.BijOn (pairOf go)
    {allocation | allocation ∈ allocations} {pair | Owns go.netip assigned pair.1 pair.2} := by
  obtain ⟨_, nodup⟩ := separate.exists_pairs
  have perm : (allocations.map (pairOf go)).Perm owned := by
    apply perm_of_subset nodup
    · exact List.forall_mem_map.2 members
    · rw [List.length_map, length]
  refine ⟨?_, ?_, ?_⟩
  · intro allocation member
    exact (assigns.mem_iff _).1 (members allocation member)
  · intro allocation member other otherMember equal
    exact List.inj_on_of_nodup_map nodup member otherMember equal
  · intro pair owns
    have there := perm.mem_iff.2 ((assigns.mem_iff pair).2 owns)
    exact List.mem_map.1 there

theorem Static.groups_perm (static : Static go policy) :
    (policy.resolvedGroups.items.map ResolvedGroup.id).Perm
    (policy.body.groups.items.map Group.id) := by
  apply perm_of_subset static.resolved.ids
  · intro id member
    obtain ⟨resolved, there, rfl⟩ := List.mem_map.1 member
    obtain ⟨group, known, resolves⟩ := static.resolved.each resolved there
    rw [resolves.id]
    exact List.mem_map_of_mem known
  · rw [List.length_map, List.length_map, static.count]

theorem validate_eq_ok (nonempty : policy ≠ empty)
    (validated : validate go (some policy) assigned ceiling = .ok ()) :
    Tied go policy assigned := by
  simp only [validate, if_neg nonempty, bind_eq_ok_iff, require_eq_ok_iff,
    forM_eq_ok_iff] at validated
  obtain ⟨_, static, _, _, _, _, owned, collected, _, length, each⟩ := validated
  have static := static_of_validateStatic static
  obtain ⟨pairs, _⟩ := static.separate.exists_pairs
  refine ⟨⟨?_, pairOf go, pairs, ?_⟩, static.groups_perm, static.resolved.each⟩
  · exact List.Nodup.of_map Allocation.id static.separate.ids
  · apply static.separate.bijOn (assigns_of_assignedAllocations collected) length
    intro allocation member
    obtain ⟨key, parsed, there⟩ := each allocation member
    obtain ⟨address, port⟩ := allocationKey_eq_ok_iff.1 parsed
    rw [(static.separate.fit allocation member).port_mod] at port
    have equal : key = pairOf go allocation := HasPair.eq_pairOf ⟨address, port⟩
    rw [← equal]
    exact there

/-- A policy is accepted only if it is tied to the allocations of the server. -/
theorem validate_ties_policy (policy : Policy) (nonempty : policy ≠ empty)
    (assigned : Assigned) (ceiling : Bandwidth) :
    (validate go (some policy) assigned ceiling = .ok () → Tied go policy assigned) ∧
    (¬Tied go policy assigned → ∃ message, validate go (some policy) assigned ceiling =
        .error message) := by
  refine ⟨validate_eq_ok nonempty, ?_⟩
  intro loose
  cases validated : validate go (some policy) assigned ceiling with
  | error message => exact ⟨message, rfl⟩
  | ok =>
    exact absurd (validate_eq_ok nonempty validated) loose

def sampleLibraries : Libraries where
  netip :=
    { parseUUID := some
      parseAddr := fun text =>
        if text = "10.0.0.1" then some (⟨.ip, 0x0a000001⟩, "") else none
      parsePrefix := fun _ => none
      string := fun _ => "10.0.0.1" }
  quote text := text
  sha256 _ := String.ofList (List.replicate 64 '0')

def sampleAllocation : Allocation := { id := 1, ip := "10.0.0.1", port := 80 }

def samplePolicy : Policy where
  apiVersion := 1
  revision := 1
  policyHash := String.ofList (List.replicate 64 '0')
  allocations := some [sampleAllocation]
  resolvedGroups := some
    [{ id := "web", protocol := "tcp", allocations := some [sampleAllocation] }]
  body :=
    { groups := some
        [{ id := "web", name := "Web", mode := "range", protocol := "tcp",
           allocationIDs := some [], portStart := 80, portEnd := 80,
           ip := some "10.0.0.1" }]
      firewall :=
        { defaultInbound := "drop", defaultOutbound := "allow",
          chains := some [], rules := some [] } }

theorem sample_policy_tied : Tied sampleLibraries samplePolicy [("10.0.0.1", [80])] :=
  (validate_ties_policy samplePolicy (by decide +kernel)
    [("10.0.0.1", [80])] {}).1 (by decide +kernel)

end Wings.NetworkPolicy.Envelope
