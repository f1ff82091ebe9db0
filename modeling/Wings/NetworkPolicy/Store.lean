import Wings.NetworkPolicy.Codec

/-!
# Stored policies

The text of a policy that passes the static checks is read back as the same policy. It is written to
a temporary file that then takes the place of the old one. A call to the operating system may fail
with any message, except that a file is reported as missing only if it is.
-/

namespace Wings.NetworkPolicy.Envelope

open Json Canonical FallibleProgram

theorem decodeInt_encodeInt (number : Int64) : decodeInt (encodeInt number) = .ok number := by
  have range : Int64.minValue.toInt ≤ number.toInt ∧ number.toInt ≤ Int64.maxValue.toInt :=
    ⟨number.minValue_le_toInt, number.toInt_le⟩
  simp only [decodeInt, encodeInt, bind_eq_ok_iff, orError_eq_ok_iff,
    require_eq_ok_iff, pure_eq_ok_iff]
  exact ⟨number.toInt, readInt_intText _, (), range, Int64.ofInt_toInt number⟩

theorem decodeUint_encodeUint (number : UInt64) : decodeUint (encodeUint number) = .ok number := by
  simp only [decodeUint, encodeUint, bind_eq_ok_iff, orError_eq_ok_iff,
    require_eq_ok_iff, pure_eq_ok_iff]
  exact ⟨number.toNat, readNat_natText _, (), number.toNat_lt, UInt64.ofNat_toNat⟩

theorem decodeString_encodeString (text : String) :
    decodeString (encodeString text) = .ok text := by
  rw [encodeString, decodeString, String.ofList_toList]

theorem decodePointer_encodePointer (pointer : Option String) :
    decodePointer decodeString (encodePointer encodeString pointer) = .ok pointer := by
  cases pointer with
  | none => rfl
  | some text =>
    have read := decodeString_encodeString text
    rw [encodeString] at read
    rw [encodePointer, encodeString, decodePointer, read]
    · rfl
    · intro equal
      cases equal

variable {encode : α → Json.Value}

theorem decodeSlice_encodeSlice (each : ∀ element, decode (encode element) = .ok element)
    (slice : Slice α) : decodeSlice decode (encodeSlice encode slice) = .ok slice := by
  cases slice with
  | none => rfl
  | some elements =>
    have read : (elements.map encode).mapM decode = .ok elements := by
      rw [mapM_eq_ok_iff, List.forall₂_map_left_iff]
      exact List.forall₂_same.2 fun element _ => each element
    rw [encodeSlice, encodePointer, decodeSlice, read]
    rfl

theorem decodeRecord_encodeRecord (nodup : (keys fields).Nodup)
    (length : values.length = fields.length) (zero : α)
    (fill : (String → Json.Value) → Except String α) :
    decodeRecord zero fill (encodeRecord fields values) =
    fill (get ((keys fields).zip values)) := by
  rw [encodeRecord, decodeRecord, toMap_of_nodup]
  rw [keys_zip length]
  exact nodup

theorem decodeAllocation_encodeAllocation (allocation : Allocation) :
    decodeAllocation (encodeAllocation allocation) = .ok allocation := by
  rw [decodeAllocation, encodeAllocation, decodeRecord_encodeRecord (by decide) rfl]
  simp only [bind_eq_ok_iff]
  exact ⟨_, decodeInt_encodeInt _, _, decodeString_encodeString _, _, decodeInt_encodeInt _, rfl⟩

theorem decodeResolved_encodeResolved (resolved : ResolvedGroup) :
    decodeResolved (encodeResolved resolved) = .ok resolved := by
  rw [decodeResolved, encodeResolved, decodeRecord_encodeRecord (by decide) rfl]
  simp only [bind_eq_ok_iff]
  exact ⟨_, decodeString_encodeString _, _, decodeString_encodeString _, _,
    decodeSlice_encodeSlice decodeAllocation_encodeAllocation _, rfl⟩

theorem decodeGroup_encodeGroup (group : Group) : decodeGroup (encodeGroup group) = .ok group := by
  rw [decodeGroup, encodeGroup, decodeRecord_encodeRecord (by decide) rfl]
  simp only [bind_eq_ok_iff]
  exact ⟨_, decodeString_encodeString _, _, decodeString_encodeString _, _,
    decodeString_encodeString _, _, decodeString_encodeString _, _,
    decodeSlice_encodeSlice decodeInt_encodeInt _, _,
    decodeInt_encodeInt _, _, decodeInt_encodeInt _, _, decodePointer_encodePointer _, rfl⟩

theorem decodeChain_encodeChain (chain : Chain) : decodeChain (encodeChain chain) = .ok chain := by
  rw [decodeChain, encodeChain, decodeRecord_encodeRecord (by decide) rfl]
  simp only [bind_eq_ok_iff]
  exact ⟨_, decodeString_encodeString _, _, decodeString_encodeString _, _, rfl, rfl⟩

theorem decodeRule_encodeRule (rule : Rule) : decodeRule (encodeRule rule) = .ok rule := by
  rw [decodeRule, encodeRule, decodeRecord_encodeRecord (by decide) rfl]
  simp only [bind_eq_ok_iff]
  exact ⟨_, decodeString_encodeString _, _, decodeString_encodeString _, _,
    rfl, _, decodePointer_encodePointer _, _, decodeString_encodeString _, _,
    decodeString_encodeString _, _, decodeString_encodeString _, _,
    decodePointer_encodePointer _, _, decodePointer_encodePointer _, rfl⟩

theorem decodeFirewall_encodeFirewall (firewall : Firewall) :
    decodeFirewall (encodeFirewall firewall) = .ok firewall := by
  rw [decodeFirewall, encodeFirewall, decodeRecord_encodeRecord (by decide) rfl]
  simp only [bind_eq_ok_iff]
  exact ⟨_, rfl, _, decodeString_encodeString _, _, decodeString_encodeString _, _,
    decodeSlice_encodeSlice decodeChain_encodeChain _, _,
    decodeSlice_encodeSlice decodeRule_encodeRule _, rfl⟩

theorem decodeBandwidth_encodeBandwidth (bandwidth : Bandwidth) :
    decodeBandwidth (encodeBandwidth bandwidth) = .ok bandwidth := by
  rw [decodeBandwidth, encodeBandwidth, decodeRecord_encodeRecord (by decide) rfl]
  simp only [bind_eq_ok_iff]
  exact ⟨_, decodeInt_encodeInt _, _, decodeInt_encodeInt _, rfl⟩

theorem decodeRules_encodeRules (rules : Rules) : decodeRules (encodeRules rules) = .ok rules := by
  rw [decodeRules, encodeRules, decodeRecord_encodeRecord (by decide) rfl]
  simp only [bind_eq_ok_iff]
  exact ⟨_, decodeSlice_encodeSlice decodeGroup_encodeGroup _, _,
    decodeFirewall_encodeFirewall _, _, decodeBandwidth_encodeBandwidth _,
    rfl⟩

theorem decodePolicy_encodePolicy (policy : Policy) :
    decodePolicy (encodePolicy policy) = .ok policy := by
  rw [decodePolicy, encodePolicy, decodeRecord_encodeRecord (by decide) rfl]
  simp only [bind_eq_ok_iff]
  exact ⟨_, decodeInt_encodeInt _, _, decodeUint_encodeUint _, _, decodeString_encodeString _, _,
    decodeSlice_encodeSlice decodeAllocation_encodeAllocation _, _,
    decodeSlice_encodeSlice decodeResolved_encodeResolved _, _, decodeRules_encodeRules _, rfl⟩

theorem exactObject_encodeRecord (nodup : (keys fields).Nodup)
    (length : values.length = fields.length) : exactObject go (encodeRecord fields values) fields =
    .ok ((keys fields).zip values) := by
  have named := keys_zip length
  have single : (((keys fields).zip values).map Prod.fst).Nodup := by
    rw [named]
    exact nodup
  simp only [encodeRecord, exactObject, bind_eq_ok_iff, forM_eq_ok_iff,
    require_eq_ok_iff, List.contains_iff_mem, pure_eq_ok_iff]
  rw [toMap_of_nodup single, named]
  refine ⟨(), ?_, (), ?_, rfl⟩
  · intro field known
    exact List.mem_map_of_mem known
  · intro entry known
    exact (List.of_mem_zip known).1

variable {slice : Slice α}

theorem arrayItems_encodeSlice (present : slice ≠ none) :
    arrayItems (encodeSlice encode slice) = .ok (slice.items.map encode) := by
  cases slice with
  | none => exact absurd rfl present
  | some elements => rfl

theorem isNull_encodeSlice (present : slice ≠ none) :
    isNull (encodeSlice encode slice) = false := by
  cases slice with
  | none => exact absurd rfl present
  | some elements => rfl

theorem validateAllocationJSON_encode (allocation : Allocation) :
    validateAllocationJSON go (encodeAllocation allocation) = .ok () := by
  rw [validateAllocationJSON, encodeAllocation, bind_eq_ok_iff]
  refine ⟨_, inPart_eq_ok_iff.2 (exactObject_encodeRecord (by decide) rfl),
    requireNonNull_eq_ok_iff.2 ?_⟩
  simp only [allocationFields, List.forall_mem_cons]
  exact ⟨rfl, rfl, rfl, List.forall_mem_nil _⟩

theorem validateResolvedJSON_encode (present : resolved.allocations ≠ none) :
    validateResolvedJSON go (encodeResolved resolved) = .ok () := by
  simp only [validateResolvedJSON, encodeResolved, bind_eq_ok_iff,
    inPart_eq_ok_iff, requireNonNull_eq_ok_iff, forM_eq_ok_iff]
  refine ⟨_, exactObject_encodeRecord (by decide) rfl, (), ?_, _,
    arrayItems_encodeSlice present, ?_⟩
  · simp only [resolvedFields, List.forall_mem_cons]
    exact ⟨rfl, rfl, isNull_encodeSlice present, List.forall_mem_nil _⟩
  · rw [List.forall_mem_map]
    exact fun allocation _ => validateAllocationJSON_encode allocation

theorem validateGroupJSON_encode (present : group.allocationIDs ≠ none) :
    validateGroupJSON go (encodeGroup group) = .ok () := by
  simp only [validateGroupJSON, encodeGroup, bind_eq_ok_iff,
    inPart_eq_ok_iff, requireNonNull_eq_ok_iff]
  refine ⟨_, exactObject_encodeRecord (by decide) rfl, (), ?_, _,
    arrayItems_encodeSlice present, rfl⟩
  simp only [List.forall_mem_cons]
  exact ⟨rfl, rfl, rfl, rfl, isNull_encodeSlice present, rfl, rfl, List.forall_mem_nil _⟩

theorem validateChainJSON_encode (chain : Chain) :
    validateChainJSON go (encodeChain chain) = .ok () := by
  rw [validateChainJSON, encodeChain, bind_eq_ok_iff]
  refine ⟨_, inPart_eq_ok_iff.2 (exactObject_encodeRecord (by decide) rfl),
    requireNonNull_eq_ok_iff.2 ?_⟩
  simp only [chainFields, List.forall_mem_cons]
  exact ⟨rfl, rfl, rfl, List.forall_mem_nil _⟩

theorem validateRuleJSON_encode (rule : Rule) : validateRuleJSON go (encodeRule rule) = .ok () := by
  rw [validateRuleJSON, encodeRule, bind_eq_ok_iff]
  refine ⟨_, inPart_eq_ok_iff.2 (exactObject_encodeRecord (by decide) rfl),
    requireNonNull_eq_ok_iff.2 ?_⟩
  simp only [List.forall_mem_cons]
  exact ⟨rfl, rfl, rfl, rfl, rfl, rfl, List.forall_mem_nil _⟩

theorem validateRulesJSON_encode (static : Static go policy) :
    validateRulesJSON go (encodeRules policy.body) = .ok () := by
  simp only [validateRulesJSON, encodeRules, bind_eq_ok_iff,
    inPart_eq_ok_iff, requireNonNull_eq_ok_iff, forM_eq_ok_iff]
  refine ⟨_, exactObject_encodeRecord (by decide) rfl, (), ?_, _,
    arrayItems_encodeSlice static.groups, (), ?_, _,
    exactObject_encodeRecord (by decide) rfl, (), ?_, _,
    arrayItems_encodeSlice static.chains, (), ?_, _, arrayItems_encodeSlice static.rules, (), ?_, _,
    rfl, ?_⟩
  · simp only [rulesFields, List.forall_mem_cons]
    exact ⟨isNull_encodeSlice static.groups, rfl, rfl, List.forall_mem_nil _⟩
  · rw [List.forall_mem_map]
    intro group known
    exact validateGroupJSON_encode (static.grouped.fit group known).present
  · simp only [firewallFields, List.forall_mem_cons]
    exact ⟨rfl, rfl, rfl, isNull_encodeSlice static.chains,
      isNull_encodeSlice static.rules, List.forall_mem_nil _⟩
  · rw [List.forall_mem_map]
    exact fun chain _ => validateChainJSON_encode chain
  · rw [List.forall_mem_map]
    exact fun rule _ => validateRuleJSON_encode rule
  · simp only [List.forall_mem_cons]
    exact ⟨rfl, rfl, List.forall_mem_nil _⟩

theorem validatePolicyJSON_encode (static : Static go policy) :
    validatePolicyJSON go (encodePolicy policy) = .ok () := by
  simp only [validatePolicyJSON, encodePolicy, bind_eq_ok_iff,
    inPart_eq_ok_iff, requireNonNull_eq_ok_iff, forM_eq_ok_iff]
  refine ⟨_, exactObject_encodeRecord (by decide) rfl, (), ?_, _,
    arrayItems_encodeSlice static.allocations, (), ?_, _,
    arrayItems_encodeSlice static.resolvedGroups, (), ?_, validateRulesJSON_encode static⟩
  · simp only [policyFields, List.forall_mem_cons]
    exact ⟨rfl, rfl, rfl, isNull_encodeSlice static.allocations,
      isNull_encodeSlice static.resolvedGroups, rfl, List.forall_mem_nil _⟩
  · rw [List.forall_mem_map]
    exact fun allocation _ => validateAllocationJSON_encode allocation
  · rw [List.forall_mem_map]
    intro resolved known
    obtain ⟨_, _, resolves⟩ := static.resolved.each resolved known
    exact validateResolvedJSON_encode resolves.present

theorem byteLength_marshal_le {hash : String} (calculated : calculatedHash go policy = .ok hash) :
    byteLength (marshal policy) ≤ maxBody := by
  by_contra large
  rw [calculatedHash, if_pos (Nat.lt_of_not_le large)] at calculated
  cases calculated

theorem unmarshalJSON_marshal (validated : validateStatic go policy = .ok ()) :
    unmarshalJSON go (marshal policy) = .ok policy := by
  have static := static_of_validateStatic validated
  have tidy := Tidy.policy policy
  apply unmarshalJSON_eq_ok_iff.2
  refine ⟨byteLength_marshal_le static.hash, encodePolicy policy,
    denote_marshal policy, ?_, validatePolicyJSON_encode static,
    decodePolicy_encodePolicy policy, validated⟩
  apply consumeJSON_of_distinct tidy.distinct
  have shallow := tidy.depth
  omega

end Wings.NetworkPolicy.Envelope

namespace Wings.NetworkPolicy.Envelope

open Json FallibleProgram

inductive Directory where
  | missing
  | owned
  | foreign
  deriving DecidableEq

inductive Entry where
  | missing
  | regular (data : Text)
  | link
  | special

structure Disk where
  directory : Directory
  entry : String → Entry

def Disk.made (disk : Disk) : Disk :=
  if disk.directory = .missing then
    { directory := .owned, entry := fun _ => .missing }
  else disk

structure Faults where
  mkdirAll : Option String := none
  lstat : Option String := none
  openFile : Option String := none
  stat : Option String := none
  readAll : Option String := none
  createTemp : Option String := none
  write : Option String := none
  sync : Option String := none
  close : Option String := none
  rename : Option String := none
  openDirectory : Option String := none
  syncDirectory : Option String := none

def attempt : Option String → Except String Unit
  | none => .ok ()
  | some message => .error message

theorem attempt_eq_ok_iff : attempt fault = .ok result ↔ fault = none := by
  cases fault with
  | none | some message => simp [attempt]

section Files

variable (go : Libraries)

/-- The white space of Unicode, which is trimmed from both ends of a text. -/
def isUnicodeSpace (character : Char) : Bool :=
  let code := character.toNat
  (9 ≤ code && code ≤ 13) || code = 0x20 || code = 0x85 || code = 0xa0 ||
    code = 0x1680 || (0x2000 ≤ code && code ≤ 0x200a) || code = 0x2028 ||
    code = 0x2029 || code = 0x202f || code = 0x205f || code = 0x3000

def decodeFirst (data : Text) : Except String (Policy × Text) := do
  require (byteLength data ≤ maxBody ∧ (data.dropWhile isUnicodeSpace).head? = some '\x7b')
    "expected a JSON object of at most 1 MiB"
  let start := skipSpace data
  let read ← orError (readRaw (skipValue start.length) start) "invalid JSON"
  let policy ← unmarshalJSON go read.1
  return (policy, read.2)

def decode (data : Text) : Except String Policy := do
  let first ← decodeFirst go data
  require (first.2.all isSpace = true) "expected one JSON object"
  return first.1

def policyPath (id : String) : Except String Unit :=
  require (go.netip.parseUUID id = some id) "invalid server UUID"

inductive PathError where
  | notExist
  | other (message : String)

def PathError.message : PathError → String
  | .notExist => "no such file or directory"
  | .other message => message

section

variable (faults : Faults)

def privatePolicyDirectory (directory : Directory) : Except PathError Unit := do
  require (directory ≠ .missing) PathError.notExist
  (attempt faults.lstat).mapError .other
  require (directory = .owned) (PathError.other
    "policy directory must be private, owned by Wings, and not a symlink")

def readState (disk : Disk) (id : String) : Except String (Option Text) := do
  policyPath go id
  match privatePolicyDirectory faults disk.directory with
  | .error .notExist => return none
  | .error (.other message) => throw message
  | .ok () =>
    match disk.entry id with
    | .missing => return none
    | .link => throw "too many levels of symbolic links"
    | .special => do
      attempt faults.openFile
      attempt faults.stat
      throw "policy state must be a regular file"
    | .regular data => do
      attempt faults.openFile
      attempt faults.stat
      attempt faults.readAll
      return some data

def load (disk : Disk) (id : String) : Except String Policy := do
  match ← readState go faults disk id with
  | none => return empty
  | some data => decode go data

/-- The policy that is returned together with the error of `load`. -/
def loadedPolicy (disk : Disk) (id : String) : Policy :=
  match readState go faults disk id with
  | .ok (some data) => (decodeFirst go data).toOption.elim empty Prod.fst
  | _ => empty

def mkdirAll : Program String Disk Unit := do
  liftExcept (attempt faults.mkdirAll)
  modify Disk.made

end

/-- A file takes the place of what stood there. -/
def Disk.replace (disk : Disk) (id : String) (data : Text) : Disk :=
  { disk with entry := Function.update disk.entry id (.regular data) }

def writeState (faults : Faults) (id : String) (data : Text) : Program String Disk Unit := do
  liftExcept (attempt faults.createTemp)
  liftExcept (attempt (faults.write.or faults.sync))
  liftExcept (attempt faults.close)
  liftExcept (attempt faults.rename)
  modify fun disk => disk.replace id data
  liftExcept (attempt faults.openDirectory)
  liftExcept (attempt faults.syncDirectory)

def save (faults : Faults) (id : String) (policy : Policy) : Program String Disk Unit := do
  liftExcept (validateStatic go policy)
  liftExcept (policyPath go id)
  mkdirAll faults
  let disk ← MonadState.get
  liftExcept ((privatePolicyDirectory faults disk.directory).mapError PathError.message)
  let data := marshal policy
  liftExcept (require (byteLength data ≤ maxBody) "policy exceeds 1 MiB")
  writeState faults id data

end Files

theorem made_directory_iff {disk : Disk} :
    disk.made.directory = .owned ↔ disk.directory ≠ .foreign := by
  rw [Disk.made]
  cases present : disk.directory with
  | missing => simp
  | owned | foreign => simp [present]

theorem mkdirAll_eq_ok_iff :
    (mkdirAll faults).run before = (.ok result, after) ↔ faults.mkdirAll = none ∧
    after = before.made := by
  simp only [mkdirAll, run_bind_eq_ok_iff, run_liftExcept_eq_ok_iff,
    run_modify_eq_ok_iff, attempt_eq_ok_iff]
  constructor
  · rintro ⟨_, _, ⟨none, rfl⟩, rfl⟩
    exact ⟨none, rfl⟩
  · rintro ⟨none, rfl⟩
    exact ⟨(), before, ⟨none, rfl⟩, rfl⟩

theorem privatePolicyDirectory_eq_ok_iff : privatePolicyDirectory faults directory = .ok result ↔
    faults.lstat = none ∧ directory = .owned := by
  simp only [privatePolicyDirectory, bind_eq_ok_iff, require_eq_ok_iff,
    mapError_eq_ok_iff, attempt_eq_ok_iff]
  constructor
  · rintro ⟨_, _, _, none, owned⟩
    exact ⟨none, owned⟩
  · rintro ⟨none, rfl⟩
    exact ⟨(), by decide, (), none, rfl⟩

variable {id : String}

theorem writeState_eq_ok_iff : (writeState faults id data).run before = (.ok result, after) ↔
    faults.createTemp = none ∧ faults.write = none ∧ faults.sync = none ∧
    faults.close = none ∧ faults.rename = none ∧
    faults.openDirectory = none ∧ faults.syncDirectory = none ∧ after = before.replace id data := by
  simp only [writeState, run_bind_eq_ok_iff, run_liftExcept_eq_ok_iff,
    run_modify_eq_ok_iff, attempt_eq_ok_iff, Option.or_eq_none_iff]
  constructor
  · rintro ⟨_, _, ⟨temp, rfl⟩, _, _, ⟨written, rfl⟩, _, _, ⟨closed, rfl⟩, _,
      _, ⟨renamed, rfl⟩, _, _, rfl, _, _, ⟨opened, rfl⟩, synced, rfl⟩
    exact ⟨temp, written.1, written.2, closed, renamed, opened, synced, rfl⟩
  · rintro ⟨temp, written, flushed, closed, renamed, opened, synced, rfl⟩
    exact ⟨(), before, ⟨temp, rfl⟩, (), before, ⟨⟨written, flushed⟩, rfl⟩, (),
      before, ⟨closed, rfl⟩, (), before, ⟨renamed, rfl⟩, (), _, rfl, (), _,
      ⟨opened, rfl⟩, synced, rfl⟩

theorem save_eq_ok_iff {before after : Disk} :
    (save go faults id policy).run before = (.ok (), after) ↔ validateStatic go policy = .ok () ∧
    go.netip.parseUUID id = some id ∧ faults.mkdirAll = none ∧ faults.lstat = none ∧
    before.directory ≠ .foreign ∧ (writeState faults id (marshal policy)).run before.made =
    (.ok (), after) := by
  simp only [save, run_bind_eq_ok_iff, run_liftExcept_eq_ok_iff,
    run_get_eq_ok_iff, mkdirAll_eq_ok_iff, mapError_eq_ok_iff,
    privatePolicyDirectory_eq_ok_iff, policyPath, require_eq_ok_iff]
  constructor
  · rintro ⟨_, _, ⟨static, rfl⟩, _, _, ⟨named, rfl⟩, _, _, ⟨made, rfl⟩, _, _,
      ⟨rfl, rfl⟩, _, _, ⟨⟨stated, owned⟩, rfl⟩, _, _, ⟨_, rfl⟩, written⟩
    exact ⟨static, named, made, stated, made_directory_iff.1 owned, written⟩
  · rintro ⟨static, named, made, stated, usable, written⟩
    have owned := made_directory_iff.2 usable
    exact ⟨(), before, ⟨static, rfl⟩, (), before, ⟨named, rfl⟩, (), _,
      ⟨made, rfl⟩, _, _, ⟨rfl, rfl⟩, (), _, ⟨⟨stated, owned⟩, rfl⟩, (), _,
      ⟨byteLength_marshal_le (static_of_validateStatic static).hash, rfl⟩, written⟩

theorem decode_marshal (validated : validateStatic go policy = .ok ()) :
    decode go (marshal policy) = .ok policy := by
  have small := byteLength_marshal_le (static_of_validateStatic validated).hash
  have start : skipSpace (marshal policy) = marshal policy := by
    rfl
  have whole : skipValue (marshal policy).length (marshal policy ++ []) = some [] :=
    skipValue_print escaping_marshalRune (Tidy.policy policy).valid _ (Nat.le_refl _) [] .nil
  have read := readRaw_of_skip whole
  rw [List.append_nil] at read
  simp only [decode, decodeFirst, bind_eq_ok_iff, require_eq_ok_iff,
    orError_eq_ok_iff, pure_eq_ok_iff]
  rw [start, read]
  refine ⟨(policy, []), ⟨(), ⟨small, ?_⟩, _, rfl, policy,
    unmarshalJSON_marshal validated, rfl⟩, (), rfl, rfl⟩
  rfl

theorem validateStatic_of_decode (decoded : decode go data = .ok policy) :
    validateStatic go policy = .ok () := by
  simp only [decode, decodeFirst, bind_eq_ok_iff, pure_eq_ok_iff] at decoded
  obtain ⟨_, ⟨_, _, _, _, _, read, rfl⟩, _, _, rfl⟩ := decoded
  obtain ⟨_, _, _, _, _, _, validated⟩ := unmarshalJSON_eq_ok_iff.1 read
  exact validated

def Entry.Reads (entry : Entry) (faults : Faults) (text : Option Text) : Prop :=
  entry = .missing ∧ text = none ∨ ∃ data, entry = .regular data ∧ faults.openFile = none ∧
      faults.stat = none ∧ faults.readAll = none ∧ text = some data

theorem privatePolicyDirectory_missing (faults : Faults) :
    privatePolicyDirectory faults .missing = .error .notExist :=
  rfl

theorem privatePolicyDirectory_foreign (faults : Faults) : ∃ message,
    privatePolicyDirectory faults .foreign = .error (.other message) := by
  rw [privatePolicyDirectory]
  cases faults.lstat with
  | none | some message => exact ⟨_, rfl⟩

theorem privatePolicyDirectory_owned (faults : Faults) : privatePolicyDirectory faults .owned =
    (attempt faults.lstat).mapError .other := by
  rw [privatePolicyDirectory]
  cases faults.lstat with
  | none | some message => rfl

theorem readState_eq_ok_iff :
    readState go faults disk id = .ok text ↔ go.netip.parseUUID id = some id ∧
    (disk.directory = .missing ∧ text = none ∨ disk.directory = .owned ∧ faults.lstat = none ∧
    (disk.entry id).Reads faults text) := by
  rw [readState, bind_eq_ok_iff]
  simp only [policyPath, require_eq_ok_iff, exists_const]
  refine and_congr_right fun _ => ?_
  cases disk.directory with
  | missing =>
    rw [privatePolicyDirectory_missing]
    simp [pure, Except.pure, eq_comm]
  | foreign =>
    obtain ⟨message, refused⟩ := privatePolicyDirectory_foreign faults
    rw [refused]
    simp [throw, throwThe, MonadExceptOf.throw]
  | owned =>
    rw [privatePolicyDirectory_owned]
    cases faults.lstat with
    | some message =>
      simp [attempt, Except.mapError, throw, throwThe, MonadExceptOf.throw]
    | none =>
      rw [Entry.Reads]
      cases disk.entry id with
      | missing =>
        simp [attempt, Except.mapError, pure, Except.pure, eq_comm]
      | link =>
        simp [attempt, Except.mapError, throw, throwThe, MonadExceptOf.throw]
      | special =>
        simp [attempt, Except.mapError, bind_eq_ok_iff, throw, throwThe, MonadExceptOf.throw]
      | regular data =>
        change (do
          attempt faults.openFile
          attempt faults.stat
          attempt faults.readAll
          return some data) = Except.ok text ↔ _
        simp [bind_eq_ok_iff, attempt_eq_ok_iff, pure, Except.pure, eq_comm (b := text)]

theorem load_eq_ok_iff :
    load go faults disk id = .ok policy ↔ readState go faults disk id = .ok none ∧ policy = empty ∨
    ∃ data, readState go faults disk id = .ok (some data) ∧ decode go data = .ok policy := by
  rw [load, bind_eq_ok_iff]
  constructor
  · rintro ⟨_ | data, read, decoded⟩
    · cases decoded
      exact .inl ⟨read, rfl⟩
    · exact .inr ⟨data, read, decoded⟩
  · rintro (⟨read, rfl⟩ | ⟨data, read, decoded⟩)
    · exact ⟨none, read, rfl⟩
    · exact ⟨some data, read, decoded⟩

theorem load_regular (named : go.netip.parseUUID id = some id)
    (owned : disk.directory = .owned) (stored : disk.entry id = .regular data)
    (decoded : decode go data = .ok policy) : load go {} disk id = .ok policy := by
  refine load_eq_ok_iff.2 (.inr ⟨data, ?_, decoded⟩)
  exact readState_eq_ok_iff.2 ⟨named, .inr ⟨owned, rfl, .inr ⟨data, stored, rfl, rfl, rfl, rfl⟩⟩⟩

/-- A decoded policy is saved if the calls succeed, and once saved it is loaded as it was. -/
theorem load_after_save {data : Text} {policy : Policy}
    (decoded : decode go data = .ok policy) {id : String}
    (named : go.netip.parseUUID id = some id) (before : Disk) :
    (before.directory ≠ .foreign → ((save go {} id policy).run before).1 = .ok ()) ∧ ∀ faults after,
      (save go faults id policy).run before = (.ok (), after) →
      ∀ later : Disk, later.directory = after.directory →
        later.entry id = after.entry id → load go {} later id = .ok policy := by
  have validated := validateStatic_of_decode decoded
  constructor
  · intro usable
    have saved : (save go {} id policy).run before =
        (.ok (), before.made.replace id (marshal policy)) :=
      save_eq_ok_iff.2 ⟨validated, named, rfl, rfl, usable,
        writeState_eq_ok_iff.2 ⟨rfl, rfl, rfl, rfl, rfl, rfl, rfl, rfl⟩⟩
    rw [saved]
  · intro faults after saved later directory entry
    obtain ⟨_, _, _, _, usable, written⟩ := save_eq_ok_iff.1 saved
    obtain ⟨_, _, _, _, _, _, _, rfl⟩ := writeState_eq_ok_iff.1 written
    have owned : later.directory = .owned := directory.trans (made_directory_iff.2 usable)
    have stored : later.entry id = .regular (marshal policy) := by
      rw [entry]
      exact Function.update_self _ _ _
    exact load_regular named owned stored (decode_marshal validated)

theorem open_policy_reloaded :
    (Directory.missing ≠ .foreign → ((save openLibraries {} "open" openPolicy).run
        ⟨.missing, fun _ => .missing⟩).1 = .ok ()) ∧ ∀ faults after,
      (save openLibraries faults "open" openPolicy).run
        ⟨.missing, fun _ => .missing⟩ = (.ok (), after) →
      ∀ later : Disk, later.directory = after.directory →
        later.entry "open" = after.entry "open" →
        load openLibraries {} later "open" = .ok openPolicy := load_after_save (by decide +kernel :
    decode openLibraries (openDocument ['0']) = .ok openPolicy) rfl ⟨.missing, fun _ => .missing⟩

end Wings.NetworkPolicy.Envelope
