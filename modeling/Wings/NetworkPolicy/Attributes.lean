import Wings.NetworkPolicy.RouteReply
import Wings.NetworkPolicy.Shaped

/-!
# Queueing disciplines on the wire

The attributes of a message as the netlink library writes and reads them, in either order of bytes.
-/

namespace Wings.NetworkPolicy.Shaping

open FallibleProgram
open Route (Bytes aligned)

/-- The bytes of a number, the lowest first. -/
def bytesOf : Nat → Nat → Bytes
  | 0, _ => []
  | width + 1, number => UInt8.ofNat number :: bytesOf width (number / 256)

def valueOf : Bytes → Nat
  | [] => 0
  | byte :: rest => byte.toNat + 256 * valueOf rest

theorem valueOf_bytesOf (small : number < 256 ^ width) :
    valueOf (bytesOf width number) = number := by
  induction width generalizing number with
  | zero =>
    rw [bytesOf, valueOf]
    omega
  | succ width ih =>
    rw [bytesOf, valueOf, ih (by omega), UInt8.toNat_ofNat']
    omega

inductive ByteOrder where
  | little
  | big

namespace ByteOrder

def put (width number : Nat) : ByteOrder → Bytes
  | little => bytesOf width number
  | big => (bytesOf width number).reverse

def get (data : Bytes) : ByteOrder → Nat
  | little => valueOf data
  | big => valueOf data.reverse

variable (order : ByteOrder)

def field (data : Bytes) (start width : Nat) : Nat := order.get ((data.drop start).take width)

def uint32 (data : Bytes) (start : Nat) : UInt32 := UInt32.ofNat (order.field data start 4)

theorem get_put (width : Nat) (small : number < 256 ^ width) :
    order.get (order.put width number) = number := by
  cases order with
  | little => exact valueOf_bytesOf small
  | big => rw [put, get, List.reverse_reverse, valueOf_bytesOf small]

theorem put_two (number : Nat) : ∃ first second, order.put 2 number = [first, second] := by
  cases order <;> exact ⟨_, _, rfl⟩

end ByteOrder

structure Attribute where
  type : UInt16
  data : Bytes

/-- The type without its two flags. -/
def Attribute.kind (entry : Attribute) : UInt16 := entry.type % 0x4000

def invalidAttribute : String := "invalid attribute; length too short or too large"

variable (order : ByteOrder)

def routeAttributes : List Attribute → Except String Bytes
  | [] => .ok []
  | entry :: rest => do
    let length := UInt16.ofNat (4 + entry.data.length)
    require (4 ≤ length) invalidAttribute
    .ok (order.put 2 length.toNat ++ order.put 2 entry.type.toNat ++ (entry.data ++
      List.replicate (aligned entry.data.length - entry.data.length) 0 ++ (← routeAttributes rest)))

/-- What is read at each position of an attribute. -/
def newAttributeDecoder : Bytes → Except String (List (Option Attribute))
  | [] => .ok []
  | a :: b :: c :: d :: rest =>
    let length := order.get [a, b]
    (newAttributeDecoder (rest.drop (aligned (length - 4)))).map
      ((if rest.length + 4 < length ∨ 0 < length ∧ length < 4 then none
        else some ⟨UInt16.ofNat (order.get [c, d]), rest.take (length - 4)⟩) :: ·)
  | _ => .error invalidAttribute
termination_by data => data.length
decreasing_by
  simp only [List.length_drop, List.length_cons]
  omega

theorem newAttributeDecoder_routeAttributes {attributes : List Attribute}
    (small : attributes.all (·.data.length < 65532)) :
    ∃ data, routeAttributes order attributes = .ok data ∧
    newAttributeDecoder order data = .ok (attributes.map some) := by
  induction attributes with
  | nil => exact ⟨[], rfl, by rw [newAttributeDecoder]; rfl⟩
  | cons entry rest ih =>
    rw [List.all_cons, Bool.and_eq_true, decide_eq_true_iff] at small
    obtain ⟨data, routed, decoded⟩ := ih small.2
    have length : (UInt16.ofNat (4 + entry.data.length)).toNat = 4 + entry.data.length :=
      UInt16.toNat_ofNat_of_lt' (by simp only [UInt16.size]; omega)
    refine ⟨_, bind_eq_ok_iff.2 ⟨(), require_eq_ok_iff.2 ?_, by rw [routed]; rfl⟩, ?_⟩
    · rw [UInt16.le_iff_toNat_le, length]
      exact Nat.le_add_right 4 _
    · have size := order.get_put 2 (show 4 + entry.data.length < 65536 by omega)
      have type := order.get_put 2 entry.type.toNat_lt
      obtain ⟨a, b, sizeBytes⟩ := order.put_two (4 + entry.data.length)
      obtain ⟨c, d, typeBytes⟩ := order.put_two entry.type.toNat
      rw [sizeBytes] at size
      rw [typeBytes] at type
      rw [length, sizeBytes, typeBytes]
      generalize pad : List.replicate _ (0 : UInt8) = padding
      change newAttributeDecoder order (a :: b :: c :: d :: (entry.data ++ padding ++ data)) = _
      have padded : (entry.data ++ padding).length = aligned entry.data.length := by
        rw [List.length_append, ← pad, List.length_replicate, aligned]
        omega
      rw [newAttributeDecoder, size, Nat.add_sub_cancel_left, List.drop_left' padded, decoded, type,
        UInt16.ofNat_toNat, List.append_assoc, List.take_left, if_neg]
      · rfl
      · simp only [List.length_append]
        omega

/-- The loop over the attributes. The state comes with the error of the decoder. -/
def scan (body : Attribute → State → Except String (State × Option String)) :
    List (Option Attribute) → State → Except String (State × Option String)
  | [], state => .ok (state, none)
  | none :: _, state => .ok (state, some invalidAttribute)
  | some entry :: rest, state => do
    match ← body entry state with
    | (state, none) => scan body rest state
    | stopped => .ok stopped

def Attribute.uint (bits : Nat) (entry : Attribute) : Nat × Option String :=
  if entry.data.length = bits / 8 then (order.get entry.data, none)
  else (0, some ("netlink: attribute " ++ toString entry.kind ++ " is not a uint" ++
    toString bits ++ "; length: " ++ toString entry.data.length))

def Attribute.string (entry : Attribute) : String :=
  String.ofList ((entry.data.rdropWhile (· = 0)).map fun byte => Char.ofNat byte.toNat)

def tcaKind : UInt16 := 1
def tcaOptions : UInt16 := 2
def tbfParameters : UInt16 := 1
def tbfRate64 : UInt16 := 4
def tbfPeakRate64 : UInt16 := 5
def tbfBurst : UInt16 := 6
def fqTarget : UInt16 := 1
def fqLimit : UInt16 := 2
def fqInterval : UInt16 := 3
def fqECN : UInt16 := 4
def fqFlows : UInt16 := 5
def fqQuantum : UInt16 := 6
def fqMemory : UInt16 := 9

def routeU32 (type : UInt16) (value : UInt32) : Attribute := ⟨type, order.put 4 value.toNat⟩

def TbfOptions.parameters (options : TbfOptions) : Bytes :=
  [0, 1] ++ List.replicate 6 0 ++ order.put 4 options.rate.toNat ++ List.replicate 12 0 ++
    order.put 4 options.limit.toNat ++ order.put 4 options.buffer.toNat ++ List.replicate 4 0

def TbfOptions.attributes (options : TbfOptions) : List Attribute :=
  [⟨tbfParameters, options.parameters order⟩,
    ⟨tbfRate64, order.put 8 options.rate64.toNat⟩, routeU32 order tbfBurst options.burst]

def FairOptions.attributes (options : FairOptions) : List Attribute :=
  [routeU32 order fqTarget options.target, routeU32 order fqLimit options.limit,
    routeU32 order fqInterval options.interval, routeU32 order fqECN options.ecn,
    routeU32 order fqQuantum options.quantum, routeU32 order fqMemory options.memory] ++
  options.flows.toList.map (routeU32 order fqFlows)

def identify (entry : Attribute) (found : String × Bytes) :
    Except String ((String × Bytes) × Option String) :=
  if entry.kind = tcaKind then .ok ((entry.string, found.2), none)
  else if entry.kind = tcaOptions then .ok ((found.1, entry.data), none)
  else .ok (found, none)

structure TbfScan where
  state : TbfState
  rate64 : Option UInt64
  found : Bool

def scanTbf (entry : Attribute) (now : TbfScan) : Except String (TbfScan × Option String) :=
  if entry.kind = tbfParameters then do
    let parameters := entry.data
    require (parameters.length = 36) "invalid TBF parameters"
    let uint32 := order.uint32 parameters
    .ok (⟨⟨(uint32 8).toUInt64, uint32 28, uint32 24, now.state.unsupported ||
      1 < parameters.getD 1 0 || order.field parameters 2 2 ≠ 0 || order.field parameters 6 2 ≠ 0 ||
        uint32 20 ≠ 0 || uint32 32 ≠ 0⟩, now.rate64, true⟩, none)
  else
    let (value, error) := entry.uint order 64
    if entry.kind = tbfRate64 then .ok ({ now with rate64 := some (UInt64.ofNat value) }, error)
    else if entry.kind = tbfPeakRate64 then
      .ok ({ now with state.unsupported := now.state.unsupported || value ≠ 0 }, error)
    else .ok (now, none)

def scanFair (entry : Attribute) (state : FairQueueState) :
    Except String (FairQueueState × Option String) :=
  let (value, error) := entry.uint order 32
  let value := UInt32.ofNat value
  if entry.kind = fqTarget then .ok ({ state with target := value }, error)
  else if entry.kind = fqLimit then .ok ({ state with limit := value }, error)
  else if entry.kind = fqInterval then .ok ({ state with interval := value }, error)
  else if entry.kind = fqECN then .ok ({ state with ecn := value }, error)
  else if entry.kind = fqFlows then .ok ({ state with flows := value }, error)
  else if entry.kind = fqQuantum then .ok ({ state with quantum := value }, error)
  else if entry.kind = fqMemory then .ok ({ state with memory := value }, error)
  else .ok (state, none)

def report (error : Option String) : Except String Unit := error.elim (.ok ()) .error

def decodeOptions (qdisc : Qdisc) (options : Bytes) : Except String Qdisc := do
  let decoder ← newAttributeDecoder order options
  if qdisc.kind = "tbf" then do
    let (now, error) ← scan (scanTbf order) decoder ⟨⟨0, 0, 0, false⟩, none, false⟩
    require now.found "TBF parameters are missing"
    report error
    .ok { qdisc with tbf := some { now.state with rate := now.rate64.getD now.state.rate } }
  else do
    let (state, error) ← scan (scanFair order) decoder ⟨0, 0, 0, 0, 0, 0, 0⟩
    report error
    .ok { qdisc with fair := some state }

def qdiscOf (data : Bytes) (kind : String) : Qdisc :=
  let parent := order.uint32 data 12
  ⟨kind, handleString (order.uint32 data 8), handleString parent, parent = rootParent, none, none⟩

def decodeRouteShaper (data : Bytes) : Except String Qdisc := do
  require (20 ≤ data.length) "short qdisc message"
  let decoder ← newAttributeDecoder order (data.drop 20)
  let ((kind, options), error) ← scan identify decoder ("", [])
  report error
  require (kind ≠ "") "qdisc kind is missing"
  if kind ≠ "tbf" ∧ kind ≠ "fq_codel" then .ok (qdiscOf order data kind)
  else decodeOptions order (qdiscOf order data kind) options

theorem scan_identify {attributes : List Attribute} : scan identify (attributes.map some) found =
    .ok ((((attributes.filter (·.kind = tcaKind)).getLast?.map Attribute.string).getD found.1,
    ((attributes.filter (·.kind = tcaOptions)).getLast?.map Attribute.data).getD found.2),
    none) := by
  induction attributes generalizing found with
  | nil => rfl
  | cons entry rest ih =>
    have distinct : tcaKind ≠ tcaOptions := by decide
    rw [List.map_cons, scan, identify, List.filter_cons, List.filter_cons]
    split_ifs <;> simp_all [ok_bind, List.getLast?_cons]

/-- A message with its kind and its options among any attributes. -/
def Describes (kind : String) (options : List Attribute) (data : Bytes) : Prop :=
  20 ≤ data.length ∧ ∃ attributes nested,
    attributes.all (·.data.length < 65532) ∧
    routeAttributes order attributes = .ok (data.drop 20) ∧
    (attributes.filter (·.kind = tcaKind)).getLast?.map Attribute.string = some kind ∧
    (attributes.filter (·.kind = tcaOptions)).getLast?.map Attribute.data = some nested ∧
    routeAttributes order options = .ok nested

variable {order}

theorem decodeRouteShaper_of_describes (described : Describes order kind options data)
    (isShaper : kind = "tbf" ∨ kind = "fq_codel") (small : options.all (·.data.length < 65532)) :
    ∃ nested, newAttributeDecoder order nested = .ok (options.map some) ∧
    decodeRouteShaper order data = decodeOptions order (qdiscOf order data kind) nested := by
  obtain ⟨long, attributes, nested, bounded, routed, hasKind, hasOptions, encoded⟩ := described
  obtain ⟨_, sent, decoded⟩ := newAttributeDecoder_routeAttributes order bounded
  obtain rfl := Except.ok.inj (routed.symm.trans sent)
  obtain ⟨_, sent, nestedDecoded⟩ := newAttributeDecoder_routeAttributes order small
  obtain rfl := Except.ok.inj (encoded.symm.trans sent)
  refine ⟨nested, nestedDecoded, ?_⟩
  rw [decodeRouteShaper, require, if_pos long, decoded, ok_bind, ok_bind, scan_identify, hasKind,
    hasOptions]
  obtain rfl | rfl := isShaper <;> rfl

theorem uint32_eq (slice : (data.drop start).take 4 = order.put 4 value.toNat) :
    order.uint32 data start = value := by
  rw [ByteOrder.uint32, ByteOrder.field, slice, order.get_put 4 value.toNat_lt, UInt32.ofNat_toNat]

theorem decodeOptions_tbf {options : TbfOptions} (isTbf : qdisc.kind = "tbf")
    (decoded : newAttributeDecoder order nested = .ok ((options.attributes order).map some)) :
    decodeOptions order qdisc nested = .ok (exactKernel.configure qdisc (.tbf options)) := by
  have parameters : scanTbf order ⟨tbfParameters, options.parameters order⟩
      ⟨⟨0, 0, 0, false⟩, none, false⟩ = .ok
        (⟨⟨options.rate.toUInt64, options.buffer, options.limit, false⟩, none, true⟩, none) := by
    have rate : order.uint32 (options.parameters order) 8 = options.rate :=
      uint32_eq (by cases order <;> rfl)
    have buffer : order.uint32 (options.parameters order) 28 = options.buffer :=
      uint32_eq (by cases order <;> rfl)
    have limit : order.uint32 (options.parameters order) 24 = options.limit :=
      uint32_eq (by cases order <;> rfl)
    rw [← rate, ← buffer, ← limit]
    cases order <;> rfl
  have rate64 : Attribute.uint order 64 ⟨tbfRate64, order.put 8 options.rate64.toNat⟩ =
      (options.rate64.toNat, none) := by
    rw [Attribute.uint, if_pos (by cases order <;> rfl), order.get_put 8 options.rate64.toNat_lt]
  rw [decodeOptions, decoded, ok_bind, if_pos isTbf, TbfOptions.attributes, List.map_cons, scan,
    parameters, ok_bind]
  simp only [List.map_cons, scan, scanTbf, rate64, UInt64.ofNat_toNat]
  rfl

theorem uint_routeU32 : (routeU32 order type value).uint order 32 = (value.toNat, none) := by
  rw [Attribute.uint, if_pos (by cases order <;> rfl), routeU32, order.get_put 4 value.toNat_lt]

theorem decodeOptions_fair {profile : ShapingProfile} (isFair : qdisc.kind = "fq_codel")
    (fresh : qdisc.fair = none) (decoded : newAttributeDecoder order nested =
    .ok (((profile.fairOptions true).attributes order).map some)) :
    decodeOptions order qdisc nested =
    .ok (exactKernel.configure qdisc (.fair (profile.fairOptions true))) := by
  rw [decodeOptions, decoded, ok_bind, if_neg (by simp [isFair]), FairOptions.attributes,
    ShapingProfile.fairOptions, if_pos rfl, Kernel.configure, fresh]
  simp only [Option.toList, List.map_cons, List.cons_append, List.nil_append, scan, scanFair,
    uint_routeU32, UInt32.ofNat_toNat]
  rfl

theorem rate_eq_of_newShapingProfile (made : newShapingProfile device rate mtu = .ok profile) :
    profile.rate = 8 * (UInt64.ofNat (profile.rate / 8)).toNat := by
  have bounds : profile.rate ≤ 1000000000000 ∧ profile.rate % 8 = 0 := by
    by_cases zero : rate = 0
    · have unlimited := newShapingProfile_eq_ok made
      rw [if_pos zero] at unlimited
      omega
    · obtain ⟨rfl, ⟨_, bounds⟩, _⟩ := newShapingProfile_of_ne_zero made zero
      exact bounds
  rw [UInt64.toNat_ofNat_of_lt' (by simp only [UInt64.size]; omega)]
  omega

/-- What the kernel is told of a profile passes the checks of the profile, and of no profile of
another rate. -/
theorem shaper_round_trip {profile : ShapingProfile} (order : ByteOrder)
    (made : newShapingProfile device rate mtu = .ok profile) (positive : 0 < profile.rate) :
    (∀ data, Describes order "tbf" (profile.tbfOptions.attributes order) data →
      ∃ qdisc, decodeRouteShaper order data = .ok qdisc ∧ profile.matchesRoot (some qdisc) = true ∧
        ∀ device rate mtu other, newShapingProfile device rate mtu = .ok other →
          other.rate ≠ profile.rate → other.matchesRoot (some qdisc) = false) ∧
    ∀ data, Describes order "fq_codel" ((profile.fairOptions true).attributes order) data →
      ∃ qdisc, decodeRouteShaper order data = .ok qdisc ∧
        profile.matchesLeaf (some qdisc) = true := by
  have accepted := newShapingProfile_eq_ok made
  split_ifs at accepted
  · omega
  obtain ⟨_, fitting⟩ := accepted
  refine ⟨fun data described => ?_, fun data described => ?_⟩
  · obtain ⟨nested, decoded, ran⟩ :=
      decodeRouteShaper_of_describes described (.inl rfl) (by cases order <;> rfl)
    refine ⟨_, ran.trans (decodeOptions_tbf rfl decoded), matchesRoot_configure fitting _, ?_⟩
    intro _ _ _ other madeOther differs
    have rates : UInt64.ofNat (profile.rate / 8) ≠ UInt64.ofNat (other.rate / 8) := by
      intro equal
      rw [rate_eq_of_newShapingProfile madeOther, ← equal,
        ← rate_eq_of_newShapingProfile made] at differs
      exact differs rfl
    simp [ShapingProfile.matchesRoot, Kernel.configure, exactKernel, ShapingProfile.tbfOptions,
      rates]
  · obtain ⟨nested, decoded, ran⟩ :=
      decodeRouteShaper_of_describes described (.inr rfl) (by cases order <;> rfl)
    exact ⟨_, ran.trans (decodeOptions_fair rfl rfl decoded),
      matchesLeaf_configure fitting (qdiscOf order data "fq_codel") rfl⟩

section Fastest

def fastest : ShapingProfile := profileOf 1000000000000 1500

def sample (name : Bytes) (options : List Attribute) : List Attribute :=
  [⟨tcaKind, name⟩, ⟨tcaOptions, (routeAttributes .little options).toOption.getD []⟩]

def rootSample : List Attribute := sample [116, 98, 102, 0] (fastest.tbfOptions.attributes .little)

def leafSample : List Attribute :=
  sample [102, 113, 95, 99, 111, 100, 101, 108, 0] ((fastest.fairOptions true).attributes .little)

theorem shaper_round_trip_fastest : ∃ rootData root leafData leaf,
    newShapingProfile "eth0" 1000000000000 1500 = .ok fastest ∧ 2 ^ 32 ≤ fastest.rate / 8 ∧
      decodeRouteShaper .little rootData = .ok root ∧ fastest.matchesRoot (some root) = true ∧
      decodeRouteShaper .little leafData = .ok leaf ∧ fastest.matchesLeaf (some leaf) = true := by
  have made : newShapingProfile "eth0" 1000000000000 1500 = .ok fastest := by
    decide +kernel
  obtain ⟨isRoot, isLeaf⟩ := shaper_round_trip .little made (by decide)
  obtain ⟨_, rootDecoded, rootMatches, _⟩ := isRoot
    (List.replicate 20 0 ++ (routeAttributes .little rootSample).toOption.getD [])
    ⟨by decide +kernel, rootSample, _, by decide +kernel, by decide +kernel, by decide +kernel, rfl,
      by decide +kernel⟩
  obtain ⟨_, leafDecoded, leafMatches⟩ := isLeaf
    (List.replicate 20 0 ++ (routeAttributes .little leafSample).toOption.getD [])
    ⟨by decide +kernel, leafSample, _, by decide +kernel, by decide +kernel, by decide +kernel, rfl,
      by decide +kernel⟩
  exact ⟨_, _, _, _, made, by decide +kernel, rootDecoded, rootMatches, leafDecoded, leafMatches⟩

end Fastest

end Wings.NetworkPolicy.Shaping
