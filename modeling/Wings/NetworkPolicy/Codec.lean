import Wings.NetworkPolicy.Validation

/-!
# Decoding of policies

A policy is decoded as raw messages, which must have exactly the known members, and then into its
fields. A member that is missing or null leaves a field at its zero value.
-/

namespace Wings.NetworkPolicy.Envelope

open Json Canonical FallibleProgram

def mismatch : String := "json: cannot unmarshal value into Go value"

def decodeInt : Json.Value → Except String Int64
  | .null => .ok 0
  | .number literal => do
    let number ← orError (readInt literal) mismatch
    require (Int64.minValue.toInt ≤ number ∧ number ≤ Int64.maxValue.toInt) mismatch
    return Int64.ofInt number
  | _ => .error mismatch

def decodeUint : Json.Value → Except String UInt64
  | .null => .ok 0
  | .number literal => do
    let number ← orError (readNat literal) mismatch
    require (number < UInt64.size) mismatch
    return UInt64.ofNat number
  | _ => .error mismatch

def decodeString : Json.Value → Except String String
  | .null => .ok ""
  | .string text => .ok (String.ofList text)
  | _ => .error mismatch

def decodeBool : Json.Value → Except String Bool
  | .null => .ok false
  | .bool value => .ok value
  | _ => .error mismatch

def decodePointer (decode : Json.Value → Except String α) : Json.Value → Except String (Option α)
  | .null => .ok none
  | value => do return some (← decode value)

def decodeSlice (decode : Json.Value → Except String α) : Json.Value → Except String (Slice α)
  | .null => .ok none
  | .array items => do return some (← items.mapM decode)
  | _ => .error mismatch

def get (object : List (Text × Json.Value)) (field : String) : Json.Value :=
  (object.lookup field.toList).getD .null

def decodeRecord (zero : α) (fill : (String → Json.Value) → Except String α) :
    Json.Value → Except String α
  | .null => .ok zero
  | .object members => fill (get (toMap members))
  | _ => .error mismatch

def decodeAllocation : Json.Value → Except String Allocation :=
  decodeRecord {} fun field => do
    let id ← decodeInt (field "id")
    let ip ← decodeString (field "ip")
    let port ← decodeInt (field "port")
    return { id, ip, port }

def decodeResolved : Json.Value → Except String ResolvedGroup :=
  decodeRecord {} fun field => do
    let id ← decodeString (field "id")
    let protocol ← decodeString (field "protocol")
    let allocations ← decodeSlice decodeAllocation (field "allocations")
    return { id, protocol, allocations }

def decodeGroup : Json.Value → Except String Group :=
  decodeRecord {} fun field => do
    let id ← decodeString (field "id")
    let name ← decodeString (field "name")
    let mode ← decodeString (field "mode")
    let protocol ← decodeString (field "protocol")
    let allocationIDs ← decodeSlice decodeInt (field "allocation_ids")
    let portStart ← decodeInt (field "port_start")
    let portEnd ← decodeInt (field "port_end")
    let ip ← decodePointer decodeString (field "ip")
    return { id, name, mode, protocol, allocationIDs, portStart, portEnd, ip }

def decodeChain : Json.Value → Except String Chain :=
  decodeRecord {} fun field => do
    let id ← decodeString (field "id")
    let name ← decodeString (field "name")
    let enabled ← decodeBool (field "enabled")
    return { id, name, enabled }

def decodeRule : Json.Value → Except String Rule :=
  decodeRecord {} fun field => do
    let id ← decodeString (field "id")
    let name ← decodeString (field "name")
    let enabled ← decodeBool (field "enabled")
    let chainID ← decodePointer decodeString (field "chain_id")
    let direction ← decodeString (field "direction")
    let action ← decodeString (field "action")
    let protocol ← decodeString (field "protocol")
    let groupID ← decodePointer decodeString (field "group_id")
    let cidr ← decodePointer decodeString (field "cidr")
    return { id, name, enabled, chainID, direction, action, protocol, groupID, cidr }

def decodeFirewall : Json.Value → Except String Firewall :=
  decodeRecord {} fun field => do
    let enabled ← decodeBool (field "enabled")
    let defaultInbound ← decodeString (field "default_inbound")
    let defaultOutbound ← decodeString (field "default_outbound")
    let chains ← decodeSlice decodeChain (field "chains")
    let rules ← decodeSlice decodeRule (field "rules")
    return { enabled, defaultInbound, defaultOutbound, chains, rules }

def decodeBandwidth : Json.Value → Except String Bandwidth :=
  decodeRecord {} fun field => do
    let upload ← decodeInt (field "upload_bps")
    let download ← decodeInt (field "download_bps")
    return { upload, download }

def decodeRules : Json.Value → Except String Rules :=
  decodeRecord {} fun field => do
    let groups ← decodeSlice decodeGroup (field "groups")
    let firewall ← decodeFirewall (field "firewall")
    let bandwidth ← decodeBandwidth (field "bandwidth")
    return { groups, firewall, bandwidth }

def decodePolicy : Json.Value → Except String Policy :=
  decodeRecord {} fun field => do
    let apiVersion ← decodeInt (field "api_version")
    let revision ← decodeUint (field "revision")
    let policyHash ← decodeString (field "policy_hash")
    let allocations ← decodeSlice decodeAllocation (field "allocations")
    let resolvedGroups ← decodeSlice decodeResolved (field "resolved_groups")
    let body ← decodeRules (field "policy")
    return { apiVersion, revision, policyHash, allocations, resolvedGroups, body }

section Checks

variable (go : Libraries)

def checkDepth (depth : Nat) : Except String Unit :=
  require (depth ≤ 100) "JSON nesting exceeds 100 levels"

def consumeMember (depth : Nat) (seen : List Text) (member : Text × (Nat → Except String Unit)) :
    Except String (List Text) := do
  require (seen.contains member.1 = false)
    ("duplicate JSON field " ++ go.quote (String.ofList member.1))
  member.2 depth
  return seen ++ [member.1]

def consumeJSON : Json.Value → Nat → Except String Unit :=
  Json.Value.fold {
    null := checkDepth
    bool := fun _ => checkDepth
    number := fun _ => checkDepth
    string := fun _ => checkDepth
    array := fun items depth => do
      checkDepth depth
      forM items fun item => item (depth + 1)
    object := fun members depth => do
      checkDepth depth
      let _ ← members.foldlM (consumeMember go (depth + 1)) [] }

def validateUniqueJSON (data : Text) : Except String Json.Value := do
  let value ← orError (denote data) "invalid JSON"
  consumeJSON go value 0
  return value

def exactObject (value : Json.Value) (fields : List String) :
    Except String (List (Text × Json.Value)) :=
  match value with
  | .object members => do
    let object := toMap members
    forM fields fun field =>
      require ((object.map Prod.fst).contains field.toList = true)
        ("missing required field " ++ go.quote field)
    forM object fun entry =>
      require ((keys fields).contains entry.1 = true)
        ("unknown field " ++ go.quote (String.ofList entry.1))
    return object
  | _ => .error "expected a JSON object"

def isNull : Json.Value → Bool
  | .null => true
  | _ => false

def requireNonNull (object : List (Text × Json.Value)) (fields : List String) :
    Except String Unit :=
  forM fields fun field =>
    require (isNull (get object field) = false) ("field " ++ go.quote field ++ " must not be null")

def arrayItems : Json.Value → Except String (List Json.Value)
  | .array items => .ok items
  | _ => .error "expected a JSON array"

def inPart (part : String) (outcome : Except String α) : Except String α :=
  outcome.mapError fun message => part ++ ": " ++ message

section

variable (raw : Json.Value)

def validateAllocationJSON : Except String Unit := do
  let object ← inPart "allocation" (exactObject go raw allocationFields)
  requireNonNull go object allocationFields

def validateResolvedJSON : Except String Unit := do
  let object ← inPart "resolved_groups" (exactObject go raw resolvedFields)
  requireNonNull go object resolvedFields
  let items ← inPart "resolved group allocations" (arrayItems (get object "allocations"))
  forM items (validateAllocationJSON go)

def validateGroupJSON : Except String Unit := do
  let group ← inPart "group" (exactObject go raw groupFields)
  requireNonNull go group ["id", "name", "mode", "protocol", "allocation_ids", "port_start",
      "port_end"]
  let _ ← inPart "allocation_ids" (arrayItems (get group "allocation_ids"))

def validateChainJSON : Except String Unit := do
  let chain ← inPart "chain" (exactObject go raw chainFields)
  requireNonNull go chain chainFields

def validateRuleJSON : Except String Unit := do
  let rule ← inPart "rule" (exactObject go raw ruleFields)
  requireNonNull go rule ["id", "name", "enabled", "direction", "action", "protocol"]

def validateRulesJSON : Except String Unit := do
  let body ← inPart "policy" (exactObject go raw rulesFields)
  requireNonNull go body rulesFields
  let groups ← inPart "groups" (arrayItems (get body "groups"))
  forM groups (validateGroupJSON go)
  let firewall ← inPart "firewall" (exactObject go (get body "firewall") firewallFields)
  requireNonNull go firewall firewallFields
  let chains ← inPart "chains" (arrayItems (get firewall "chains"))
  forM chains (validateChainJSON go)
  let rules ← inPart "rules" (arrayItems (get firewall "rules"))
  forM rules (validateRuleJSON go)
  let bandwidth ← inPart "bandwidth"
    (exactObject go (get body "bandwidth") ["download_bps", "upload_bps"])
  requireNonNull go bandwidth ["download_bps", "upload_bps"]

end

def validatePolicyJSON (value : Json.Value) : Except String Unit := do
  let top ← exactObject go value policyFields
  requireNonNull go top policyFields
  let allocations ← inPart "allocations" (arrayItems (get top "allocations"))
  forM allocations (validateAllocationJSON go)
  let resolved ← inPart "resolved_groups" (arrayItems (get top "resolved_groups"))
  forM resolved (validateResolvedJSON go)
  validateRulesJSON go (get top "policy")

def canonicalHash (data : Text) : Except String String := do
  require (byteLength data ≤ maxBody) "policy exceeds 1 MiB"
  let _ ← validateUniqueJSON go data
  hashCanonicalObject go data

def unmarshalJSON (data : Text) : Except String Policy := do
  require (byteLength data ≤ maxBody) "policy exceeds 1 MiB"
  let value ← validateUniqueJSON go data
  validatePolicyJSON go value
  let policy ← decodePolicy value
  validateStatic go policy
  return policy

end Checks

theorem encodeRecord_sorted (fields : List String) (values : List Json.Value) :
    (encodeRecord fields values).sorted = .object (sortByKey
    ((keys fields).zip (values.map Json.Value.sorted))) := by
  rw [encodeRecord, Json.Value.sorted_object, List.zip_map_right]
  rfl

variable {names : List Text}

theorem mem_zip_getElem {index : Nat} (bound : index < names.length)
    (otherBound : index < values.length) : (names[index], values[index]) ∈ names.zip values := by
  have both : index < (names.zip values).length := by
    rw [List.length_zip]
    omega
  rw [← List.getElem_zip (h := both)]
  exact List.getElem_mem both

theorem zip_perm_iff (nodup : names.Nodup) {others : List α} (length : values.length = names.length)
    (otherLength : others.length = names.length) :
    (names.zip values).Perm (names.zip others) ↔ values = others := by
  constructor
  · intro perm
    apply List.ext_getElem (length.trans otherLength.symm)
    intro index bound otherBound
    have first := perm.mem_iff.1 (mem_zip_getElem (length ▸ bound) bound)
    have second := mem_zip_getElem (otherLength ▸ otherBound) otherBound
    have distinct : ((names.zip others).map Prod.fst).Nodup := by
      rw [List.map_fst_zip otherLength.ge]
      exact nodup
    exact congrArg Prod.snd (eq_of_nodup_keys distinct first second rfl)
  · rintro rfl
    exact List.Perm.refl _

theorem encodeRecord_sorted_eq_iff (nodup : (keys fields).Nodup)
    {values : List Json.Value} (length : values.length = fields.length)
    (otherLength : others.length = fields.length) : (encodeRecord fields values).sorted =
    (encodeRecord fields others).sorted ↔
    values.map Json.Value.sorted = others.map Json.Value.sorted := by
  have count : (keys fields).length = fields.length := List.length_map _
  rw [encodeRecord_sorted, encodeRecord_sorted, Json.Value.object.injEq,
    sortByKey_eq_iff_perm, zip_perm_iff nodup]
  · rw [List.length_map, length, count]
  · rw [List.length_map, otherLength, count]
  · rw [keys_zip]
    · exact nodup
    · rw [List.length_map, length]

variable {object : List (Text × Json.Value)}

theorem exactObject_eq_ok (distinct : value.Distinct)
    (exact : exactObject go value fields = .ok object) : value = .object object ∧
    (∀ field ∈ fields, field.toList ∈ object.map Prod.fst) ∧
    ∀ entry ∈ object, entry.1 ∈ keys fields := by
  cases value with
  | object members =>
    have nodup := ((Json.Value.distinct_object members).1 distinct).1
    simp only [exactObject, toMap_of_nodup nodup, bind_eq_ok_iff,
      forM_eq_ok_iff, require_eq_ok_iff, List.contains_iff_mem, pure_eq_ok_iff] at exact
    obtain ⟨_, present, _, known, rfl⟩ := exact
    exact ⟨rfl, present, known⟩
  | null | bool | number | string | array => cases exact

theorem perm_fields (nodup : (object.map Prod.fst).Nodup) (distinct : (keys fields).Nodup)
    (present : ∀ field ∈ fields, field.toList ∈ object.map Prod.fst)
    (known : ∀ entry ∈ object, entry.1 ∈ keys fields) :
    object.Perm ((keys fields).zip (fields.map (get object))) := by
  have shape : (keys fields).zip (fields.map (get object)) =
      fields.map fun field => (field.toList, get object field) := by
    rw [keys, List.zip_map']
  have value : ∀ key value, (key, value) ∈ object →
      ∀ field, key = field.toList → get object field = value := by
    rintro key value member field rfl
    rw [get, (lookup_eq_some_iff nodup).2 member]
    rfl
  rw [shape, List.perm_ext_iff_of_nodup (List.Nodup.of_map Prod.fst nodup)]
  · rintro ⟨key, content⟩
    constructor
    · intro member
      obtain ⟨field, listed, rfl⟩ := List.mem_map.1 (known _ member)
      refine List.mem_map.2 ⟨field, listed, ?_⟩
      rw [value _ _ member field rfl]
    · intro member
      obtain ⟨field, listed, equal⟩ := List.mem_map.1 member
      cases equal
      obtain ⟨⟨key, content⟩, there, same⟩ := List.mem_map.1 (present field listed)
      cases same
      rw [value _ _ there field rfl]
      exact there
  · apply List.Nodup.of_map Prod.fst
    rw [List.map_map]
    exact distinct

theorem sorted_eq_record_iff (distinct : value.Distinct) (nodup : (keys fields).Nodup)
    (exact : exactObject go value fields = .ok object) (length : others.length = fields.length) :
    value.sorted = (encodeRecord fields others).sorted ↔
    (fields.map (get object)).map Json.Value.sorted = others.map Json.Value.sorted := by
  obtain ⟨rfl, present, known⟩ := exactObject_eq_ok distinct exact
  have single := ((Json.Value.distinct_object object).1 distinct).1
  have perm := perm_fields single nodup present known
  have same : (Json.Value.object object).sorted =
      (encodeRecord fields (fields.map (get object))).sorted := by
    rw [encodeRecord, Json.Value.sorted_object, Json.Value.sorted_object,
      Json.Value.object.injEq, sortByKey_eq_iff_perm]
    · exact perm.map _
    · rw [Json.Value.map_fst_map_value]
      exact single
  rw [same, encodeRecord_sorted_eq_iff nodup (List.length_map _) length]

theorem inPart_eq_ok_iff {part : String} {outcome : Except String α}
    {result : α} : inPart part outcome = .ok result ↔ outcome = .ok result := mapError_eq_ok_iff

theorem arrayItems_eq_ok_iff {items : List Json.Value} :
    arrayItems value = .ok items ↔ value = .array items := by
  cases value <;> simp [arrayItems]

theorem requireNonNull_eq_ok_iff {result : Unit} : requireNonNull go object fields = .ok result ↔
    ∀ field ∈ fields, isNull (get object field) = false := by
  rw [requireNonNull, forM_eq_ok_iff]
  simp only [require_eq_ok_iff]

def Sound (value : Json.Value) : Prop := value.Valid ∧ value.Distinct

theorem get_sound (sound : Sound (.object object)) (field : String) : Sound (get object field) := by
  obtain ⟨valid, distinct⟩ := sound
  rw [Json.Value.valid_object] at valid
  rw [Json.Value.distinct_object] at distinct
  rw [get]
  cases found : object.lookup field.toList with
  | none => exact ⟨trivial, trivial⟩
  | some value =>
    have member := (lookup_eq_some_iff distinct.1).1 found
    exact ⟨valid _ member, distinct.2 _ member⟩

theorem fill_of_decodeRecord (distinct : (Json.Value.object object).Distinct)
    (decoded : decodeRecord zero fill (.object object) = .ok result) :
    fill (get object) = .ok result := by
  rw [Json.Value.distinct_object] at distinct
  rw [decodeRecord, toMap_of_nodup distinct.1] at decoded
  exact decoded

variable {number : Int64}

theorem decodeInt_eq_ok (valid : value.Valid) (decoded : decodeInt value = .ok number) :
    value = encodeInt number ∨ number = 0 ∧ (value = .null ∨ value = .number ['-', '0']) := by
  cases value with
  | null =>
    cases decoded
    exact .inr ⟨rfl, .inl rfl⟩
  | number literal =>
    simp only [decodeInt, bind_eq_ok_iff, orError_eq_ok_iff, require_eq_ok_iff,
      pure_eq_ok_iff] at decoded
    obtain ⟨integer, read, _, range, rfl⟩ := decoded
    rcases eq_intText_of_readInt valid read with rfl | ⟨rfl, rfl⟩
    · left
      rw [encodeInt, Int64.toInt_ofInt_of_le range.1 (Int.lt_of_le_of_lt range.2 (by decide))]
    · exact .inr ⟨rfl, .inr rfl⟩
  | bool | string | array | object => cases decoded

theorem eq_encodeInt (valid : value.Valid)
    (decoded : decodeInt value = .ok number) (nonzero : number ≠ 0) : value = encodeInt number := by
  rcases decodeInt_eq_ok valid decoded with equal | ⟨zero, _⟩
  · exact equal
  · exact absurd zero nonzero

theorem eq_encodeUint {number : UInt64} (valid : value.Valid)
    (decoded : decodeUint value = .ok number) (nonzero : number ≠ 0) :
    value = encodeUint number := by
  cases value with
  | null =>
    cases decoded
    exact absurd rfl nonzero
  | number literal =>
    simp only [decodeUint, bind_eq_ok_iff, orError_eq_ok_iff, require_eq_ok_iff,
      pure_eq_ok_iff] at decoded
    obtain ⟨natural, read, _, range, rfl⟩ := decoded
    rw [eq_natText_of_isNumber valid read, encodeUint, UInt64.toNat_ofNat', Nat.mod_eq_of_lt range]
  | bool | string | array | object => cases decoded

theorem eq_encodeString {text : String}
    (decoded : decodeString value = .ok text) (present : isNull value = false) :
    value = encodeString text := by
  cases value with
  | null => cases present
  | string content =>
    cases decoded
    rw [encodeString, String.toList_ofList]
  | bool | number | array | object => cases decoded

theorem eq_bool {flag : Bool} (decoded : decodeBool value = .ok flag)
    (present : isNull value = false) : value = .bool flag := by
  cases value with
  | null => cases present
  | bool flag =>
    cases decoded
    rfl
  | string | number | array | object => cases decoded

theorem eq_encodePointer {pointer : Option String}
    (decoded : decodePointer decodeString value = .ok pointer) :
    value = encodePointer encodeString pointer := by
  cases value with
  | null =>
    cases decoded
    rfl
  | string content =>
    cases decoded
    rw [encodePointer, encodeString, String.toList_ofList]
  | bool | number | array | object => cases decoded

theorem decodeSlice_eq_ok (decoded : decodeSlice decode (.array items) = .ok slice) :
    slice = some slice.items ∧ List.Forall₂ (fun item element => decode item = .ok element)
    items slice.items := by
  simp only [decodeSlice, bind_eq_ok_iff, mapM_eq_ok_iff, pure_eq_ok_iff] at decoded
  obtain ⟨elements, each, rfl⟩ := decoded
  exact ⟨rfl, each⟩

theorem slice_sorted {encode : α → Json.Value} (sound : Sound value)
    (isArray : value = .array items) (decoded : decodeSlice decode value = .ok slice)
    (each : ∀ item ∈ items, Sound item → ∀ element ∈ slice.items,
    decode item = .ok element → item.sorted = (encode element).sorted) :
    value.sorted = (encodeSlice encode slice).sorted := by
  subst isArray
  obtain ⟨valid, distinct⟩ := sound
  rw [Json.Value.valid_array] at valid
  rw [Json.Value.distinct_array] at distinct
  obtain ⟨present, pairs⟩ := decodeSlice_eq_ok decoded
  rw [present, encodeSlice, encodePointer, Json.Value.sorted_array,
    Json.Value.sorted_array, Json.Value.array.injEq, List.map_map,
    ← List.forall₂_eq_eq_eq, List.forall₂_map_left_iff, List.forall₂_map_right_iff]
  have members := (List.forall₂_and_left _ _).2
    ⟨fun _ => id, forall₂_and_right pairs fun _ known => known⟩
  refine members.imp fun item element both => ?_
  obtain ⟨listed, known, read⟩ := both
  exact each item listed ⟨valid item listed, distinct item listed⟩ element known read

theorem Int64.ne_zero_of_pos (positive : 0 < number) : number ≠ 0 := by
  rintro rfl
  exact Int64.lt_irrefl positive

theorem eq_object_of_decoded (sound : Sound value)
    (exact : exactObject go value fields = .ok object)
    (decoded : decodeRecord zero fill value = .ok result) :
    fill (get object) = .ok result ∧ ∀ field, Sound (get object field) := by
  obtain ⟨rfl, _, _⟩ := exactObject_eq_ok sound.2 exact
  exact ⟨fill_of_decodeRecord sound.2 decoded, get_sound sound⟩

theorem allocation_sorted {allocation : Allocation} (isSound : Sound value)
    (checked : validateAllocationJSON go value = .ok ())
    (decoded : decodeAllocation value = .ok allocation) (fits : allocation.Fits) :
    value.sorted = (encodeAllocation allocation).sorted := by
  simp only [validateAllocationJSON, bind_eq_ok_iff, inPart_eq_ok_iff,
    requireNonNull_eq_ok_iff] at checked
  obtain ⟨object, exact, present⟩ := checked
  obtain ⟨filled, sound⟩ := eq_object_of_decoded isSound exact decoded
  simp only [bind_eq_ok_iff, pure_eq_ok_iff] at filled
  obtain ⟨id, isId, ip, isIp, port, isPort, rfl⟩ := filled
  have sameId := eq_encodeInt (sound "id").1 isId (Int64.ne_zero_of_pos fits.1)
  have sameIp := eq_encodeString isIp (present "ip" (by decide))
  have samePort := eq_encodeInt (sound "port").1 isPort
    (Int64.ne_zero_of_pos (Int64.lt_of_lt_of_le (by decide) fits.2.1))
  rw [encodeAllocation, sorted_eq_record_iff isSound.2 (by decide) exact rfl]
  simp only [allocationFields, List.map_cons, List.map_nil, sameId, sameIp, samePort]

theorem allocations_sorted {allocations : Slice Allocation}
    (sound : Sound value) (isArray : value = .array items)
    (checked : ∀ item ∈ items, validateAllocationJSON go item = .ok ())
    (decoded : decodeSlice decodeAllocation value = .ok allocations)
    (fit : ∀ allocation ∈ allocations.items, allocation.Fits) :
    value.sorted = (encodeSlice encodeAllocation allocations).sorted :=
  slice_sorted sound isArray decoded fun item member sound element known read =>
    allocation_sorted sound (checked item member) read (fit element known)

section

variable (isSound : Sound value)
include isSound

theorem resolved_sorted {resolved : ResolvedGroup}
    (checked : validateResolvedJSON go value = .ok ())
    (decoded : decodeResolved value = .ok resolved)
    (fit : ∀ allocation ∈ resolved.allocations.items, allocation.Fits) :
    value.sorted = (encodeResolved resolved).sorted := by
  simp only [validateResolvedJSON, bind_eq_ok_iff, inPart_eq_ok_iff,
    requireNonNull_eq_ok_iff, arrayItems_eq_ok_iff, forM_eq_ok_iff] at checked
  obtain ⟨object, exact, _, present, items, isArray, each⟩ := checked
  obtain ⟨filled, sound⟩ := eq_object_of_decoded isSound exact decoded
  simp only [bind_eq_ok_iff, pure_eq_ok_iff] at filled
  obtain ⟨id, isId, protocol, isProtocol, allocations, isList, rfl⟩ := filled
  have sameId := eq_encodeString isId (present "id" (by decide))
  have sameProtocol := eq_encodeString isProtocol (present "protocol" (by decide))
  have sameList := allocations_sorted (sound _) isArray each isList fit
  rw [encodeResolved, sorted_eq_record_iff isSound.2 (by decide) exact rfl]
  simp only [resolvedFields, List.map_cons, List.map_nil, sameId, sameProtocol, sameList]

theorem group_sorted {group : Group} (checked : validateGroupJSON go value = .ok ())
    (decoded : decodeGroup value = .ok group) (fits : group.Fits) :
    value.sorted = (encodeGroup group).sorted := by
  simp only [validateGroupJSON, bind_eq_ok_iff, inPart_eq_ok_iff,
    requireNonNull_eq_ok_iff, arrayItems_eq_ok_iff] at checked
  obtain ⟨object, exact, _, present, items, isArray, _⟩ := checked
  obtain ⟨filled, sound⟩ := eq_object_of_decoded isSound exact decoded
  simp only [bind_eq_ok_iff, pure_eq_ok_iff] at filled
  obtain ⟨id, isId, name, isName, mode, isMode, protocol, isProtocol, ids,
    isList, portStart, isStart, portEnd, isEnd, ip, isIp, rfl⟩ := filled
  have sameId := eq_encodeString isId (present "id" (by decide))
  have sameName := eq_encodeString isName (present "name" (by decide))
  have sameMode := eq_encodeString isMode (present "mode" (by decide))
  have sameProtocol := eq_encodeString isProtocol (present "protocol" (by decide))
  have starts : 0 < portStart := Int64.lt_of_lt_of_le (by decide) fits.portStart
  have sameStart := eq_encodeInt (sound "port_start").1 isStart (Int64.ne_zero_of_pos starts)
  have sameEnd := eq_encodeInt (sound "port_end").1 isEnd
    (Int64.ne_zero_of_pos (Int64.lt_of_lt_of_le starts fits.portEnd))
  have sameIp := eq_encodePointer isIp
  have sameList : (get object "allocation_ids").sorted = (encodeSlice encodeInt ids).sorted := by
    apply slice_sorted (sound _) isArray isList
    intro item _ sound number known read
    rw [eq_encodeInt sound.1 read (Int64.ne_zero_of_pos (fits.ids number known))]
  rw [encodeGroup, sorted_eq_record_iff isSound.2 (by decide) exact rfl]
  simp only [groupFields, List.map_cons, List.map_nil, sameId, sameName,
    sameMode, sameProtocol, sameList, sameStart, sameEnd, sameIp]

theorem chain_sorted {chain : Chain}
    (checked : validateChainJSON go value = .ok ()) (decoded : decodeChain value = .ok chain) :
    value.sorted = (encodeChain chain).sorted := by
  simp only [validateChainJSON, bind_eq_ok_iff, inPart_eq_ok_iff,
    requireNonNull_eq_ok_iff] at checked
  obtain ⟨object, exact, present⟩ := checked
  obtain ⟨filled, _⟩ := eq_object_of_decoded isSound exact decoded
  simp only [bind_eq_ok_iff, pure_eq_ok_iff] at filled
  obtain ⟨id, isId, name, isName, enabled, isEnabled, rfl⟩ := filled
  have sameId := eq_encodeString isId (present "id" (by decide))
  have sameName := eq_encodeString isName (present "name" (by decide))
  have sameEnabled := eq_bool isEnabled (present "enabled" (by decide))
  rw [encodeChain, sorted_eq_record_iff isSound.2 (by decide) exact rfl]
  simp only [chainFields, List.map_cons, List.map_nil, sameId, sameName, sameEnabled]

theorem rule_sorted {rule : Rule}
    (checked : validateRuleJSON go value = .ok ()) (decoded : decodeRule value = .ok rule) :
    value.sorted = (encodeRule rule).sorted := by
  simp only [validateRuleJSON, bind_eq_ok_iff, inPart_eq_ok_iff,
    requireNonNull_eq_ok_iff] at checked
  obtain ⟨object, exact, present⟩ := checked
  obtain ⟨filled, _⟩ := eq_object_of_decoded isSound exact decoded
  simp only [bind_eq_ok_iff, pure_eq_ok_iff] at filled
  obtain ⟨id, isId, name, isName, enabled, isEnabled, chainID, isChain,
    direction, isDirection, action, isAction, protocol, isProtocol, groupID,
    isGroup, cidr, isCidr, rfl⟩ := filled
  have sameId := eq_encodeString isId (present "id" (by decide))
  have sameName := eq_encodeString isName (present "name" (by decide))
  have sameEnabled := eq_bool isEnabled (present "enabled" (by decide))
  have sameChain := eq_encodePointer isChain
  have sameDirection := eq_encodeString isDirection (present "direction" (by decide))
  have sameAction := eq_encodeString isAction (present "action" (by decide))
  have sameProtocol := eq_encodeString isProtocol (present "protocol" (by decide))
  have sameGroup := eq_encodePointer isGroup
  have sameCidr := eq_encodePointer isCidr
  rw [encodeRule, sorted_eq_record_iff isSound.2 (by decide) exact rfl]
  simp only [ruleFields, List.map_cons, List.map_nil, sameId, sameName,
    sameEnabled, sameChain, sameDirection, sameAction, sameProtocol, sameGroup, sameCidr]

end

def member : Json.Value → String → Json.Value
  | .object members, field => get (toMap members) field
  | _, _ => .null

theorem member_of_exact (distinct : value.Distinct)
    (exact : exactObject go value fields = .ok object) : member value = get object := by
  obtain ⟨rfl, _, _⟩ := exactObject_eq_ok distinct exact
  funext field
  rw [member, toMap_of_nodup ((Json.Value.distinct_object object).1 distinct).1]

/-- The number literal that is read as zero without being written so. -/
def negativeZero : Json.Value := .number ['-', '0']

theorem encodeInt_sorted_iff (valid : value.Valid)
    (decoded : decodeInt value = .ok number) (present : isNull value = false) :
    value.sorted = (encodeInt number).sorted ↔ value ≠ negativeZero := by
  rcases decodeInt_eq_ok valid decoded with rfl | ⟨rfl, rfl | rfl⟩
  · refine ⟨fun _ equal => ?_, fun _ => rfl⟩
    exact intText_ne_negativeZero _ (Json.Value.number.inj equal)
  · cases present
  · refine ⟨fun equal => ?_, fun other => absurd rfl other⟩
    exact absurd (Json.Value.number.inj equal) (by decide)

theorem bandwidth_sorted_iff {bandwidth : Bandwidth} (isSound : Sound value)
    (exact : exactObject go value ["download_bps", "upload_bps"] = .ok object)
    (present : ∀ field ∈ ["download_bps", "upload_bps"], isNull (get object field) = false)
    (decoded : decodeBandwidth value = .ok bandwidth) :
    value.sorted = (encodeBandwidth bandwidth).sorted ↔
    ∀ field ∈ bandwidthFields, member value field ≠ negativeZero := by
  obtain ⟨filled, sound⟩ := eq_object_of_decoded isSound exact decoded
  simp only [bind_eq_ok_iff, pure_eq_ok_iff] at filled
  obtain ⟨upload, isUpload, download, isDownload, rfl⟩ := filled
  have swapped : (encodeBandwidth ⟨upload, download⟩).sorted =
      (encodeRecord ["download_bps", "upload_bps"]
        [encodeInt download, encodeInt upload]).sorted := by
    rw [encodeBandwidth, encodeRecord_sorted, encodeRecord_sorted,
      Json.Value.object.injEq, sortByKey_eq_iff_perm]
    · exact List.Perm.swap _ _ _
    · rw [keys_zip]
      · decide
      · rfl
  rw [swapped, sorted_eq_record_iff isSound.2 (by decide) exact rfl,
    member_of_exact isSound.2 exact]
  simp only [bandwidthFields, List.map_cons, List.map_nil, List.cons.injEq,
    and_true, List.forall_mem_cons,
    encodeInt_sorted_iff (sound _).1 isUpload (present _ (by decide)),
    encodeInt_sorted_iff (sound _).1 isDownload (present _ (by decide))]
  simp [and_comm]

theorem firewall_sorted {firewall : Firewall} (isSound : Sound value)
    (exact : exactObject go value firewallFields = .ok object)
    (present : ∀ field ∈ firewallFields, isNull (get object field) = false)
    {chains rules : List Json.Value} (isChains : get object "chains" = .array chains)
    (chainsChecked : ∀ chain ∈ chains, validateChainJSON go chain = .ok ())
    (isRules : get object "rules" = .array rules)
    (rulesChecked : ∀ rule ∈ rules, validateRuleJSON go rule = .ok ())
    (decoded : decodeFirewall value = .ok firewall) :
    value.sorted = (encodeFirewall firewall).sorted := by
  obtain ⟨filled, sound⟩ := eq_object_of_decoded isSound exact decoded
  simp only [bind_eq_ok_iff, pure_eq_ok_iff] at filled
  obtain ⟨enabled, isEnabled, inbound, isInbound, outbound, isOutbound,
    chainList, isChainList, ruleList, isRuleList, rfl⟩ := filled
  have sameEnabled := eq_bool isEnabled (present "enabled" (by decide))
  have sameInbound := eq_encodeString isInbound (present "default_inbound" (by decide))
  have sameOutbound := eq_encodeString isOutbound (present "default_outbound" (by decide))
  have sameChains := slice_sorted (sound _) isChains isChainList
    fun item known sound _ _ read =>
      chain_sorted sound (chainsChecked item known) read
  have sameRules := slice_sorted (sound _) isRules isRuleList
    fun item known sound _ _ read =>
      rule_sorted sound (rulesChecked item known) read
  rw [encodeFirewall, sorted_eq_record_iff isSound.2 (by decide) exact rfl]
  simp only [firewallFields, List.map_cons, List.map_nil, sameEnabled,
    sameInbound, sameOutbound, sameChains, sameRules]

theorem rules_sorted_iff {rules : Rules} (isSound : Sound value)
    (checked : validateRulesJSON go value = .ok ()) (decoded : decodeRules value = .ok rules)
    (fit : ∀ group ∈ rules.groups.items, group.Fits) :
    value.sorted = (encodeRules rules).sorted ↔ ∀ field ∈ bandwidthFields,
    member (member value "bandwidth") field ≠ negativeZero := by
  simp only [validateRulesJSON, bind_eq_ok_iff, inPart_eq_ok_iff,
    requireNonNull_eq_ok_iff, arrayItems_eq_ok_iff, forM_eq_ok_iff] at checked
  obtain ⟨object, exact, _, present, groups, isGroups, _, groupsChecked,
    firewall, exactFirewall, _, presentFirewall, chains, isChains, _,
    chainsChecked, rulesItems, isRules, _, rulesChecked, bandwidth,
    exactBandwidth, presentBandwidth⟩ := checked
  obtain ⟨filled, sound⟩ := eq_object_of_decoded isSound exact decoded
  simp only [bind_eq_ok_iff, pure_eq_ok_iff] at filled
  obtain ⟨groupList, isGroupList, firewallValue, isFirewall, bandwidthValue,
    isBandwidth, rfl⟩ := filled
  have sameGroups := slice_sorted (sound _) isGroups isGroupList
    fun item known sound group member read =>
      group_sorted sound (groupsChecked item known) read (fit group member)
  have sameFirewall := firewall_sorted (sound _) exactFirewall presentFirewall
    isChains chainsChecked isRules rulesChecked isFirewall
  have sameBandwidth := bandwidth_sorted_iff (sound _) exactBandwidth presentBandwidth isBandwidth
  rw [encodeRules, sorted_eq_record_iff isSound.2 (by decide) exact rfl,
    member_of_exact isSound.2 exact, ← sameBandwidth]
  simp only [rulesFields, List.map_cons, List.map_nil, sameGroups,
    sameFirewall, List.cons.injEq, and_true, true_and]

theorem consumeJSON_array (items : List Json.Value) (depth : Nat) :
    consumeJSON go (.array items) depth = (do
      checkDepth depth
      forM items fun item => consumeJSON go item (depth + 1)) := by
  rw [consumeJSON, Json.Value.fold_array]
  dsimp only
  rw [List.forM_map]

theorem consumeJSON_object (members : List (Text × Json.Value)) (depth : Nat) :
    consumeJSON go (.object members) depth = (do
      checkDepth depth
      let _ ← (members.map fun member =>
        (member.1, consumeJSON go member.2)).foldlM (consumeMember go (depth + 1)) []) := by
  rw [consumeJSON, Json.Value.fold_object]

theorem consumeMember_eq_ok_iff {seen next : List Text}
    {member : Text × (Nat → Except String Unit)} :
    consumeMember go depth seen member = .ok next ↔ member.1 ∉ seen ∧ member.2 depth = .ok () ∧
    next = seen ++ [member.1] := by
  simp only [consumeMember, bind_eq_ok_iff, require_eq_ok_iff,
    List.contains_eq_mem, decide_eq_false_iff_not, pure_eq_ok_iff]
  constructor
  · rintro ⟨_, fresh, _, done, rfl⟩
    exact ⟨fresh, done, rfl⟩
  · rintro ⟨fresh, done, rfl⟩
    exact ⟨(), fresh, (), done, rfl⟩

theorem consumeMembers_eq_ok_iff {members : List (Text × (Nat → Except String Unit))} :
    (∃ seen, members.foldlM (consumeMember go depth) [] = .ok seen) ↔ (members.map Prod.fst).Nodup ∧
    ∀ member ∈ members, member.2 depth = .ok () := by
  constructor
  · rintro ⟨seen, consumed⟩
    have kept := foldlM_sees
      (fun (members : List (Text × (Nat → Except String Unit))) seen =>
        seen = members.map Prod.fst ∧ (members.map Prod.fst).Nodup ∧
        ∀ member ∈ members, member.2 depth = .ok ())
      ⟨rfl, List.nodup_nil, nofun⟩ ?_ consumed
    · exact kept.2
    · rintro members _ member next ⟨rfl, nodup, each⟩ done
      obtain ⟨fresh, read, rfl⟩ := consumeMember_eq_ok_iff.1 done
      rw [List.map_append]
      refine ⟨rfl, nodup_concat nodup fresh, ?_⟩
      exact List.forall_mem_append.2 ⟨each, List.forall_mem_singleton.2 read⟩
  · rintro ⟨nodup, each⟩
    have general : ∀ seen, (seen ++ members.map Prod.fst).Nodup →
        ∃ after, members.foldlM (consumeMember go depth) seen = .ok after := by
      clear nodup
      induction members with
      | nil => exact fun seen _ => ⟨seen, rfl⟩
      | cons member members ih =>
        intro seen nodup
        rw [List.forall_mem_cons] at each
        have fresh : member.1 ∉ seen := fun known =>
          (List.nodup_append.1 nodup).2.2 _ known _ List.mem_cons_self rfl
        obtain ⟨after, rest⟩ := ih each.2 (seen ++ [member.1]) (by rwa [List.append_assoc])
        refine ⟨after, ?_⟩
        rw [List.foldlM_cons, bind_eq_ok_iff]
        exact ⟨_, consumeMember_eq_ok_iff.2 ⟨fresh, each.1, rfl⟩, rest⟩
    exact general [] nodup

theorem distinct_of_consumeJSON
    (consumed : consumeJSON go value depth = .ok ()) : value.Distinct := by
  induction value generalizing depth with
  | null | bool | number | string => exact trivial
  | array items ih =>
    rw [consumeJSON_array, bind_eq_ok_iff] at consumed
    obtain ⟨_, _, each⟩ := consumed
    rw [forM_eq_ok_iff] at each
    rw [Json.Value.distinct_array]
    intro item member
    exact ih item member (each item member)
  | object members ih =>
    rw [consumeJSON_object, bind_eq_ok_iff] at consumed
    obtain ⟨_, _, each⟩ := consumed
    obtain ⟨seen, each, _⟩ := bind_eq_ok_iff.1 each
    obtain ⟨nodup, each⟩ := consumeMembers_eq_ok_iff.1 ⟨seen, each⟩
    rw [List.forall_mem_map] at each
    rw [Json.Value.distinct_object]
    rw [Json.Value.map_fst_map_value] at nodup
    exact ⟨nodup, fun member known =>
      ih member known (each member known)⟩

theorem consumeJSON_of_distinct (distinct : value.Distinct) (bound : depth + value.depth ≤ 100) :
    consumeJSON go value depth = .ok () := by
  have shallow : checkDepth depth = .ok () := require_eq_ok_iff.2 (by omega)
  induction value generalizing depth with
  | null | bool | number | string => exact shallow
  | array items ih =>
    rw [Json.Value.distinct_array] at distinct
    rw [consumeJSON_array, bind_eq_ok_iff]
    refine ⟨(), shallow, forM_eq_ok_iff.2 ?_⟩
    intro item member
    have deeper := Json.Value.depth_lt_array member
    exact ih item member (distinct item member) (by omega) (require_eq_ok_iff.2 (by omega))
  | object members ih =>
    rw [Json.Value.distinct_object] at distinct
    rw [consumeJSON_object, bind_eq_ok_iff]
    refine ⟨(), shallow, bind_eq_ok_iff.2 ?_⟩
    have read : ∀ member ∈ members.map fun member =>
        (member.1, consumeJSON go member.2), member.2 (depth + 1) = .ok () := by
      rw [List.forall_mem_map]
      intro member known
      have deeper := Json.Value.depth_lt_object known
      exact ih member known (distinct.2 member known) (by omega) (require_eq_ok_iff.2 (by omega))
    obtain ⟨seen, done⟩ := consumeMembers_eq_ok_iff.2
      ⟨by rw [Json.Value.map_fst_map_value]; exact distinct.1, read⟩
    exact ⟨seen, done, rfl⟩

def hashedFields : List String :=
  ["api_version", "revision", "allocations", "resolved_groups", "policy"]

def hashedValues (policy : Policy) : List Json.Value :=
  [encodeInt policy.apiVersion, encodeUint policy.revision,
    encodeSlice encodeAllocation policy.allocations,
    encodeSlice encodeResolved policy.resolvedGroups, encodeRules policy.body]

theorem tidy_hashedValues (policy : Policy) :
    Tidy 5 (encodeRecord hashedFields (hashedValues policy)) := by
  apply Tidy.record (by decide) rfl
  simp only [hashedValues, List.forall_mem_cons]
  exact ⟨.int _, .uint _, .slice .allocation _, .slice .resolved _, .rules _, nofun⟩

theorem filter_zip_policyFields (version revision hash allocations resolved body : Json.Value) :
    ((keys policyFields).zip [version, revision, hash, allocations, resolved, body]).filter
    (fun member => member.1 ≠ hashKey) = (keys hashedFields).zip
    [version, revision, allocations, resolved, body] := by
  rfl

theorem canonicalEnvelope_exact (denotes : denote data = some value) (distinct : value.Distinct)
    (exact : exactObject go value policyFields = .ok object) : canonicalEnvelope data =
    .ok (print escapeRune (encodeRecord hashedFields (hashedFields.map (get object))).sorted) := by
  obtain ⟨rfl, present, known⟩ := exactObject_eq_ok distinct exact
  have single := ((Json.Value.distinct_object object).1 distinct).1
  have perm := (perm_fields single (by decide) present known).filter
    (fun member => member.1 ≠ hashKey)
  rw [canonicalEnvelope_eq denotes distinct (present "policy_hash" (by decide))]
  congr 2
  rw [encodeRecord, Json.Value.sorted_object, Json.Value.sorted_object,
    Json.Value.object.injEq, sortByKey_eq_iff_perm]
  · exact (perm.trans (List.Perm.of_eq (filter_zip_policyFields _ _ _ _ _ _))).map _
  · rw [Json.Value.map_fst_map_value]
    exact single.sublist (List.filter_sublist.map _)

theorem canonicalEnvelope_marshal (policy : Policy) : canonicalEnvelope (marshal policy) =
    .ok (print escapeRune (encodeRecord hashedFields (hashedValues policy)).sorted) := by
  have hashed : hashKey ∈ ((keys policyFields).zip
      [encodeInt policy.apiVersion, encodeUint policy.revision, encodeString policy.policyHash,
        encodeSlice encodeAllocation policy.allocations,
        encodeSlice encodeResolved policy.resolvedGroups,
        encodeRules policy.body]).map Prod.fst := by
    rw [keys_zip]
    · decide
    · rfl
  rw [canonicalEnvelope_eq (denote_marshal policy)
    (Tidy.policy policy).distinct hashed, filter_zip_policyFields]
  rfl

theorem validateUniqueJSON_eq_ok_iff {value : Json.Value} : validateUniqueJSON go data = .ok value ↔
    denote data = some value ∧ consumeJSON go value 0 = .ok () := by
  simp only [validateUniqueJSON, bind_eq_ok_iff, orError_eq_ok_iff, pure_eq_ok_iff]
  constructor
  · rintro ⟨_, denotes, _, consumed, rfl⟩
    exact ⟨denotes, consumed⟩
  · rintro ⟨denotes, consumed⟩
    exact ⟨value, denotes, (), consumed, rfl⟩

theorem unmarshalJSON_eq_ok_iff {policy : Policy} :
    unmarshalJSON go data = .ok policy ↔ byteLength data ≤ maxBody ∧
    ∃ value, denote data = some value ∧ consumeJSON go value 0 = .ok () ∧
    validatePolicyJSON go value = .ok () ∧ decodePolicy value = .ok policy ∧
    validateStatic go policy = .ok () := by
  simp only [unmarshalJSON, validateUniqueJSON_eq_ok_iff, bind_eq_ok_iff,
    require_eq_ok_iff, pure_eq_ok_iff]
  constructor
  · rintro ⟨_, small, value, ⟨denotes, consumed⟩, _, checked, _, decoded, _, static, rfl⟩
    exact ⟨small, value, denotes, consumed, checked, decoded, static⟩
  · rintro ⟨small, value, denotes, consumed, checked, decoded, static⟩
    exact ⟨(), small, value, ⟨denotes, consumed⟩, (), checked, policy, decoded, (), static, rfl⟩

/-- One of the bandwidth limits of the document is written `-0`. -/
def NegativeZero (data : Text) : Prop := ∃ value, denote data = some value ∧
    ∃ field ∈ bandwidthFields, member (member (member value "policy") "bandwidth") field =
        negativeZero

theorem hashedFields_eq_iff {policy : Policy} (isSound : Sound value)
    (checked : validatePolicyJSON go value = .ok ())
    (decoded : decodePolicy value = .ok policy) (static : Static go policy) :
    ∃ object, exactObject go value policyFields = .ok object ∧ (∀ field, (get object field).Valid) ∧
    ((hashedFields.map (get object)).map Json.Value.sorted =
    (hashedValues policy).map Json.Value.sorted ↔ ∀ field ∈ bandwidthFields,
    member (member (member value "policy") "bandwidth") field ≠ negativeZero) := by
  simp only [validatePolicyJSON, bind_eq_ok_iff, inPart_eq_ok_iff,
    requireNonNull_eq_ok_iff, arrayItems_eq_ok_iff, forM_eq_ok_iff] at checked
  obtain ⟨object, exact, _, present, allocations, isAllocations, _,
    allocationsChecked, resolved, isResolved, _, resolvedChecked, rulesChecked⟩ := checked
  obtain ⟨filled, sound⟩ := eq_object_of_decoded isSound exact decoded
  simp only [bind_eq_ok_iff, pure_eq_ok_iff] at filled
  obtain ⟨version, isVersion, revision, isRevision, hash, _, allocationList,
    isAllocationList, resolvedList, isResolvedList, body, isBody, rfl⟩ := filled
  refine ⟨object, exact, fun field => (sound field).1, ?_⟩
  have isOne : version = 1 := static.apiVersion
  have sameVersion := eq_encodeInt (sound "api_version").1 isVersion (by rw [isOne]; decide)
  have sameRevision := eq_encodeUint (sound "revision").1 isRevision static.revision
  have sameAllocations := allocations_sorted (sound _) isAllocations
    allocationsChecked isAllocationList static.separate.fit
  have sameResolved : (get object "resolved_groups").sorted =
      (encodeSlice encodeResolved resolvedList).sorted := by
    apply slice_sorted (sound _) isResolved isResolvedList
    intro item known sound entry there read
    refine resolved_sorted sound (resolvedChecked item known) read ?_
    intro allocation listed
    obtain ⟨group, _, resolves⟩ := static.resolved.each entry there
    exact static.separate.fit allocation ((resolves.mem_iff allocation).1 listed).1
  have sameBody := rules_sorted_iff (sound _) rulesChecked isBody static.grouped.fit
  rw [member_of_exact isSound.2 exact, ← sameBody]
  simp only [hashedFields, hashedValues, List.map_cons, List.map_nil,
    sameVersion, sameRevision, sameAllocations, sameResolved, List.cons.injEq, and_true, true_and]

theorem valid_record {values : List Json.Value} (each : ∀ value ∈ values, value.Valid) :
    (encodeRecord fields values).Valid := by
  rw [encodeRecord, Json.Value.valid_object]
  intro entry known
  exact each entry.2 (List.of_mem_zip known).2

/-- The text hashed for a received document is the one hashed for the decoded policy, unless a
bandwidth limit is written `-0`. -/
theorem received_text_eq_iff {data : Text} {policy : Policy}
    (accepted : unmarshalJSON go data = .ok policy) : ∃ received decoded : Text,
      canonicalEnvelope data = .ok received ∧ canonicalHash go data = .ok (go.sha256 received) ∧
      canonicalEnvelope (marshal policy) = .ok decoded ∧
      calculatedHash go policy = .ok (go.sha256 decoded) ∧
      (received = decoded ↔ ¬NegativeZero data) := by
  obtain ⟨small, value, denotes, consumed, checked, read, validated⟩ :=
    unmarshalJSON_eq_ok_iff.1 accepted
  have distinct := distinct_of_consumeJSON consumed
  have static := static_of_validateStatic validated
  obtain ⟨object, exact, valid, same⟩ := hashedFields_eq_iff
    ⟨valid_of_denoteWithin denotes, distinct⟩ checked read static
  have received := canonicalEnvelope_exact denotes distinct exact
  have decoded := canonicalEnvelope_marshal policy
  refine ⟨_, _, received, ?_, decoded, ?_, ?_⟩
  · rw [canonicalHash, bind_eq_ok_iff]
    refine ⟨(), require_eq_ok_iff.2 small, bind_eq_ok_iff.2 ⟨value, ?_, ?_⟩⟩
    · exact validateUniqueJSON_eq_ok_iff.2 ⟨denotes, consumed⟩
    · rw [hashCanonicalObject, received]
      rfl
  · have hashed := static.hash
    rw [calculatedHash] at hashed ⊢
    split
    · rename_i large
      rw [if_pos large] at hashed
      cases hashed
    · rw [hashCanonicalObject, decoded]
      rfl
  · rw [print_inj escaping_escapeRune (Json.Value.Valid.sorted (valid_record (by
        rw [List.forall_mem_map]
        exact fun field _ => valid field)))
      (tidy_hashedValues policy).valid.sorted,
      encodeRecord_sorted_eq_iff (by decide) rfl rfl, same, NegativeZero]
    constructor
    · rintro none ⟨other, otherDenotes, field, known, negative⟩
      rw [denotes] at otherDenotes
      cases otherDenotes
      exact none field known negative
    · intro none field known negative
      exact none ⟨value, denotes, field, known, negative⟩

def openPolicy : Policy where
  apiVersion := 1
  revision := 1
  policyHash := "f9190f1bd6304f6f89b33cbdcda5c84628da11973d4086b8878d51f974734761"
  allocations := some []
  resolvedGroups := some []
  body :=
    { groups := some []
      firewall :=
        { defaultInbound := "allow", defaultOutbound := "allow",
          chains := some [], rules := some [] } }

/-- Libraries with the SHA-256 hash of the canonical text of `openPolicy`. -/
def openLibraries : Libraries := { sampleLibraries with sha256 := fun _ => openPolicy.policyHash }

def openDocument (upload : Text) : Text :=
  "\x7b\"api_version\":1,\"revision\":1,\"policy_hash\":\"".toList ++
  openPolicy.policyHash.toList ++
  "\",\"allocations\":[],\"resolved_groups\":[],\"policy\":".toList ++
  "\x7b\"groups\":[],\"firewall\":\x7b\"enabled\":false,".toList ++
  "\"default_inbound\":\"allow\",\"default_outbound\":\"allow\",".toList ++
  "\"chains\":[],\"rules\":[]\x7d,\"bandwidth\":".toList ++
  "\x7b\"upload_bps\":".toList ++ upload ++
  ",\"download_bps\":0\x7d\x7d\x7d".toList

theorem open_document_texts : ∃ received decoded : Text,
      canonicalEnvelope (openDocument ['0']) = .ok received ∧
      canonicalHash openLibraries (openDocument ['0']) = .ok (openLibraries.sha256 received) ∧
      canonicalEnvelope (marshal openPolicy) = .ok decoded ∧
      calculatedHash openLibraries openPolicy = .ok (openLibraries.sha256 decoded) ∧
      (received = decoded ↔ ¬NegativeZero (openDocument ['0'])) :=
  received_text_eq_iff (by decide +kernel)

/-- A document with the upload limit `-0` is accepted as `openPolicy`. -/
theorem negative_zero_texts_differ :
    unmarshalJSON openLibraries (openDocument ['-', '0']) = .ok openPolicy ∧
    canonicalEnvelope (openDocument ['-', '0']) ≠ canonicalEnvelope (marshal openPolicy) := by
  decide +kernel

end Wings.NetworkPolicy.Envelope
