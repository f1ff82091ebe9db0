import Wings.NetworkPolicy.Canonical
import Wings.NetworkPolicy.Policy

/-!
# Policy envelopes

The policy as it is sent and stored. A slice is an optional list, since a null array is not an empty
one. The hash of a policy is taken of its canonical text without the member `policy_hash`.
-/

namespace Wings.NetworkPolicy.Envelope

open Json Canonical FallibleProgram

structure Libraries where
  netip : Netip
  /-- A quoted text in an error message. -/
  quote : String → String
  /-- The hexadecimal SHA-256 hash of the UTF-8 bytes of a text. -/
  sha256 : Text → String

abbrev Slice (α : Type) := Option (List α)

def Slice.items (slice : Slice α) : List α := slice.getD []

structure Allocation where
  id : Int64 := 0
  ip : String := ""
  port : Int64 := 0
  deriving DecidableEq

structure ResolvedGroup where
  id : String := ""
  protocol : String := ""
  allocations : Slice Allocation := none
  deriving DecidableEq

structure Group where
  id : String := ""
  name : String := ""
  mode : String := ""
  protocol : String := ""
  allocationIDs : Slice Int64 := none
  portStart : Int64 := 0
  portEnd : Int64 := 0
  ip : Option String := none
  deriving DecidableEq

structure Chain where
  id : String := ""
  name : String := ""
  enabled : Bool := false
  deriving DecidableEq

structure Rule where
  id : String := ""
  name : String := ""
  enabled : Bool := false
  chainID : Option String := none
  direction : String := ""
  action : String := ""
  protocol : String := ""
  groupID : Option String := none
  cidr : Option String := none
  deriving DecidableEq

structure Firewall where
  enabled : Bool := false
  defaultInbound : String := ""
  defaultOutbound : String := ""
  chains : Slice Chain := none
  rules : Slice Rule := none
  deriving DecidableEq

structure Bandwidth where
  upload : Int64 := 0
  download : Int64 := 0
  deriving DecidableEq

structure Rules where
  groups : Slice Group := none
  firewall : Firewall := {}
  bandwidth : Bandwidth := {}
  deriving DecidableEq

structure Policy where
  apiVersion : Int64 := 0
  revision : UInt64 := 0
  policyHash : String := ""
  allocations : Slice Allocation := none
  resolvedGroups : Slice ResolvedGroup := none
  body : Rules := {}
  deriving DecidableEq

def empty : Policy := {}

def keys (fields : List String) : List Text := fields.map String.toList

def encodeInt (number : Int64) : Json.Value := .number (intText number.toInt)

def encodeUint (number : UInt64) : Json.Value := .number (natText number.toNat)

def encodeString (text : String) : Json.Value := .string text.toList

def encodePointer (encode : α → Json.Value) : Option α → Json.Value
  | none => .null
  | some value => encode value

def encodeSlice (encode : α → Json.Value) (slice : Slice α) : Json.Value :=
  encodePointer (fun items => .array (items.map encode)) slice

def encodeRecord (fields : List String) (values : List Json.Value) : Json.Value :=
  .object ((keys fields).zip values)

def allocationFields : List String := ["id", "ip", "port"]

def encodeAllocation (allocation : Allocation) : Json.Value := encodeRecord allocationFields
    [encodeInt allocation.id, encodeString allocation.ip, encodeInt allocation.port]

def resolvedFields : List String := ["id", "protocol", "allocations"]

def encodeResolved (resolved : ResolvedGroup) : Json.Value := encodeRecord resolvedFields
    [encodeString resolved.id, encodeString resolved.protocol,
      encodeSlice encodeAllocation resolved.allocations]

def groupFields : List String := ["id", "name", "mode", "protocol", "allocation_ids", "port_start",
    "port_end", "ip"]

def encodeGroup (group : Group) : Json.Value := encodeRecord groupFields
    [encodeString group.id, encodeString group.name, encodeString group.mode,
      encodeString group.protocol, encodeSlice encodeInt group.allocationIDs,
      encodeInt group.portStart, encodeInt group.portEnd, encodePointer encodeString group.ip]

def chainFields : List String := ["id", "name", "enabled"]

def encodeChain (chain : Chain) : Json.Value := encodeRecord chainFields
    [encodeString chain.id, encodeString chain.name, .bool chain.enabled]

def ruleFields : List String :=
  ["id", "name", "enabled", "chain_id", "direction", "action", "protocol", "group_id", "cidr"]

def encodeRule (rule : Rule) : Json.Value := encodeRecord ruleFields
    [encodeString rule.id, encodeString rule.name, .bool rule.enabled,
      encodePointer encodeString rule.chainID, encodeString rule.direction,
      encodeString rule.action, encodeString rule.protocol, encodePointer encodeString rule.groupID,
      encodePointer encodeString rule.cidr]

def firewallFields : List String :=
  ["enabled", "default_inbound", "default_outbound", "chains", "rules"]

def encodeFirewall (firewall : Firewall) : Json.Value := encodeRecord firewallFields
    [.bool firewall.enabled, encodeString firewall.defaultInbound,
      encodeString firewall.defaultOutbound, encodeSlice encodeChain firewall.chains,
      encodeSlice encodeRule firewall.rules]

def bandwidthFields : List String := ["upload_bps", "download_bps"]

def encodeBandwidth (bandwidth : Bandwidth) : Json.Value := encodeRecord bandwidthFields
    [encodeInt bandwidth.upload, encodeInt bandwidth.download]

def rulesFields : List String := ["groups", "firewall", "bandwidth"]

def encodeRules (rules : Rules) : Json.Value := encodeRecord rulesFields
    [encodeSlice encodeGroup rules.groups, encodeFirewall rules.firewall,
      encodeBandwidth rules.bandwidth]

def policyFields : List String := ["api_version", "revision", "policy_hash", "allocations",
    "resolved_groups", "policy"]

def encodePolicy (policy : Policy) : Json.Value := encodeRecord policyFields
    [encodeInt policy.apiVersion, encodeUint policy.revision, encodeString policy.policyHash,
      encodeSlice encodeAllocation policy.allocations,
      encodeSlice encodeResolved policy.resolvedGroups, encodeRules policy.body]

/-- The escape of a character, also for what is special in HTML and JavaScript. -/
def marshalRune (rune : Char) : Text :=
  if rune ∈ ['<', '>', '&', Char.ofNat 0x2028, Char.ofNat 0x2029] then
    '\\' :: 'u' :: hexDigits rune.toNat
  else escapeRune rune

def marshal (policy : Policy) : Text := print marshalRune (encodePolicy policy)

def byteLength : Text → Nat
  | [] => 0
  | character :: text => character.utf8Size + byteLength text

def maxBody : Nat := 1048576

/-- The map of raw messages of a document. A null document has no entries. -/
def unmarshalMap (data : Text) : Option (List (Text × Text)) :=
  if trim data = ['n', 'u', 'l', 'l'] then some []
  else (rawMembers (trim data)).map toMap

def hashKey : Text := "policy_hash".toList

def canonicalEnvelope (data : Text) : Except String Text := do
  let object ← orError (unmarshalMap data) "policy envelope must be a JSON object"
  if hashKey ∉ object.map Prod.fst then
    throw "policy envelope is missing policy_hash"
  (appendCanonicalObject (appendCanonical data.length) []
    (object.filter fun entry => entry.1 ≠ hashKey)).mapError Failure.message

def hashCanonicalObject (go : Libraries) (data : Text) : Except String String := do
  let canonical ← canonicalEnvelope data
  return go.sha256 canonical

def calculatedHash (go : Libraries) (policy : Policy) : Except String String := do
  let data := marshal policy
  if maxBody < byteLength data then throw "policy exceeds 1 MiB"
  hashCanonicalObject go data

theorem canonicalEnvelope_eq (denotes : denote data = some (.object members))
    (distinct : (Json.Value.object members).Distinct) (hashed : hashKey ∈ members.map Prod.fst) :
    canonicalEnvelope data = .ok (print escapeRune (Json.Value.object
    (members.filter fun member => member.1 ≠ hashKey)).sorted) := by
  rcases denoteWithin_succ_eq_some denotes with
    ⟨head, raws, others, split, each, equal⟩ | ⟨_, _, _, _, _, equal⟩ |
    ⟨_, _, _, equal⟩ | ⟨_, scalar⟩
  · cases equal
    rw [Json.Value.distinct_object] at distinct
    have named := keys_eq each
    have notNull : trim data ≠ ['n', 'u', 'l', 'l'] := by
      intro null
      rw [null] at head
      cases head
    have kept := filter_forall₂ (fun _ _ known => known.1) (fun key => key ≠ hashKey) each
    have plain : (Json.Value.object (members.filter fun member =>
        member.1 ≠ hashKey)).Distinct := by
      rw [Json.Value.distinct_object]
      refine ⟨distinct.1.sublist (List.filter_sublist.map _), ?_⟩
      intro member known
      exact distinct.2 member (List.mem_filter.1 known).1
    rw [canonicalEnvelope, unmarshalMap, if_neg notNull, split,
      Option.map_some, toMap_of_nodup (named ▸ distinct.1), orError, ok_bind,
      named, if_neg (not_not_intro hashed)]
    rw [appendMembers_eq (fun denotes distinct out =>
      appendCanonical_eq denotes distinct out) kept plain]
    rfl
  · cases equal
  · cases equal
  · have form := (whole_readScalar escapeRune scalar).1
    cases form

theorem keys_zip (length : values.length = fields.length) :
    ((keys fields).zip values).map Prod.fst = keys fields := by
  rw [List.map_fst_zip]
  rw [keys, List.length_map, length]

/-- A value with number literals for numbers, no repeated keys and bounded
nesting. -/
structure Tidy (bound : Nat) (value : Json.Value) : Prop where
  valid : value.Valid
  distinct : value.Distinct
  depth : value.depth ≤ bound

namespace Tidy

theorem int (number : Int64) : Tidy bound (encodeInt number) :=
  ⟨isNumber_intText _, trivial, Nat.zero_le _⟩

theorem uint (number : UInt64) : Tidy bound (encodeUint number) :=
  ⟨isNumber_intText number.toNat, trivial, Nat.zero_le _⟩

theorem string (text : String) : Tidy bound (encodeString text) := ⟨trivial, trivial, Nat.zero_le _⟩

theorem bool (flag : Bool) : Tidy bound (.bool flag) := ⟨trivial, trivial, Nat.zero_le _⟩

theorem pointer (value : Option String) : Tidy bound (encodePointer encodeString value) := by
  cases value with
  | none => exact ⟨trivial, trivial, Nat.zero_le _⟩
  | some text => exact string text

theorem slice {encode : α → Json.Value}
    (each : ∀ element, Tidy bound (encode element)) (slice : Slice α) :
    Tidy (bound + 1) (encodeSlice encode slice) := by
  cases slice with
  | none => exact ⟨trivial, trivial, Nat.zero_le _⟩
  | some items =>
    rw [encodeSlice, encodePointer]
    refine ⟨?_, ?_, ?_⟩
    · rw [Json.Value.valid_array, List.forall_mem_map]
      exact fun element _ => (each element).valid
    · rw [Json.Value.distinct_array, List.forall_mem_map]
      exact fun element _ => (each element).distinct
    · rw [Json.Value.depth_array_le_iff, List.forall_mem_map]
      exact fun element _ => (each element).depth

theorem record (nodup : (keys fields).Nodup) (length : values.length = fields.length)
    (each : ∀ value ∈ values, Tidy bound value) :
    Tidy (bound + 1) (encodeRecord fields values) := by
  have inside : ∀ entry ∈ (keys fields).zip values, Tidy bound entry.2 :=
    fun entry member => each entry.2 (List.of_mem_zip member).2
  rw [encodeRecord]
  refine ⟨?_, ?_, ?_⟩
  · rw [Json.Value.valid_object]
    exact fun entry member => (inside entry member).valid
  · rw [Json.Value.distinct_object, keys_zip length]
    exact ⟨nodup, fun entry member => (inside entry member).distinct⟩
  · rw [Json.Value.depth_object_le_iff]
    exact fun entry member => (inside entry member).depth

theorem allocation (allocation : Allocation) : Tidy (bound + 1) (encodeAllocation allocation) := by
  apply record (by decide) rfl
  simp only [List.forall_mem_cons]
  exact ⟨int _, string _, int _, nofun⟩

theorem resolved (resolved : ResolvedGroup) : Tidy (bound + 3) (encodeResolved resolved) := by
  apply record (by decide) rfl
  simp only [List.forall_mem_cons]
  exact ⟨string _, string _, slice allocation _, nofun⟩

theorem group (group : Group) : Tidy (bound + 2) (encodeGroup group) := by
  apply record (by decide) rfl
  simp only [List.forall_mem_cons]
  exact ⟨string _, string _, string _, string _, slice int _, int _, int _, pointer _, nofun⟩

theorem chain (chain : Chain) : Tidy (bound + 1) (encodeChain chain) := by
  apply record (by decide) rfl
  simp only [List.forall_mem_cons]
  exact ⟨string _, string _, bool _, nofun⟩

theorem rule (rule : Rule) : Tidy (bound + 1) (encodeRule rule) := by
  apply record (by decide) rfl
  simp only [List.forall_mem_cons]
  exact ⟨string _, string _, bool _, pointer _, string _, string _, string _,
    pointer _, pointer _, nofun⟩

theorem firewall (firewall : Firewall) : Tidy (bound + 3) (encodeFirewall firewall) := by
  apply record (by decide) rfl
  simp only [List.forall_mem_cons]
  exact ⟨bool _, string _, string _, slice chain _, slice rule _, nofun⟩

theorem bandwidth (bandwidth : Bandwidth) : Tidy (bound + 1) (encodeBandwidth bandwidth) := by
  apply record (by decide) rfl
  simp only [List.forall_mem_cons]
  exact ⟨int _, int _, nofun⟩

theorem rules (rules : Rules) : Tidy (bound + 4) (encodeRules rules) := by
  apply record (by decide) rfl
  simp only [List.forall_mem_cons]
  exact ⟨slice group _, firewall _, bandwidth _, nofun⟩

theorem policy (policy : Policy) : Tidy 5 (encodePolicy policy) := by
  apply record (by decide) rfl
  simp only [List.forall_mem_cons]
  exact ⟨int _, uint _, string _, slice allocation _, slice resolved _, rules _, nofun⟩

end Tidy

theorem written_marshalRune (rune : Char) : Written rune (marshalRune rune) := by
  rw [marshalRune]
  by_cases special : rune ∈ ['<', '>', '&', Char.ofNat 0x2028, Char.ofNat 0x2029]
  · rw [if_pos special]
    apply Written.unit
    simp only [List.mem_cons, List.not_mem_nil, or_false] at special
    rcases special with rfl | rfl | rfl | rfl | rfl <;> decide
  · rw [if_neg special]
    exact written_escapeRune rune

theorem escaping_marshalRune : Escaping marshalRune := .of_written written_marshalRune

theorem denote_marshal (policy : Policy) : denote (marshal policy) = some (encodePolicy policy) :=
  denote_print escaping_marshalRune (Tidy.policy policy).valid

end Wings.NetworkPolicy.Envelope
