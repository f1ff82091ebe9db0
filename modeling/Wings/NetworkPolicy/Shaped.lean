import Mathlib.Algebra.Group.Nat.Defs
import Wings.NetworkPolicy.Shaping

/-!
# Shaping converges

What the ownership check finds after a command is said once for each command. Commands other than
the deletion of the root keep the root, also when they fail.
-/

namespace Wings.NetworkPolicy.Shaping

open FallibleProgram

def Qdisc.isShaper (qdisc : Qdisc) : Bool := qdisc.root && qdisc.handle = shapingHandle

def Qdisc.isChild (qdisc : Qdisc) : Bool := !qdisc.root && !qdisc.ingress

def Qdisc.IsFairQueue (qdisc : Qdisc) : Prop :=
  qdisc.parent = shapingParent ∧ qdisc.handle = fairQueueHandle ∧ qdisc.kind = "fq_codel"

def Qdisc.Tolerated (active : Bool) (qdisc : Qdisc) : Prop :=
  qdisc.root = true →
    if qdisc.handle = shapingHandle then qdisc.kind = "tbf"
    else active = true → qdisc.kind = "noqueue" ∧ qdisc.handle = "0:"

variable {qdiscs : List Qdisc}

theorem ownedRoot_eq_ok_iff :
    ownedRoot active qdiscs root = .ok found ↔ (∀ qdisc ∈ qdiscs, qdisc.Tolerated active) ∧
    root.toList ++ qdiscs.filter Qdisc.isShaper = found.toList := by
  induction qdiscs generalizing root with
  | nil => cases root <;> cases found <;> simp [ownedRoot]
  | cons qdisc rest ih =>
    rw [ownedRoot, List.forall_mem_cons, List.filter_cons, Qdisc.isShaper, Qdisc.Tolerated]
    by_cases isRoot : qdisc.root
    · by_cases ours : qdisc.handle = shapingHandle
      · by_cases kind : qdisc.kind = "tbf"
        · cases root with
          | none => simp [isRoot, ours, kind, ih]
          | some root =>
            cases found with
            | none | some found => simp [isRoot, ours, kind]
        · simp [isRoot, ours, kind]
      · by_cases foreign : active = true ∧ (qdisc.kind ≠ "noqueue" ∨ qdisc.handle ≠ "0:")
        · rw [if_pos isRoot, if_neg ours, if_pos foreign]
          grind
        · rw [if_pos isRoot, if_neg ours, if_neg foreign, ih]
          grind
    · simp [isRoot, ih]

theorem ownedLeaf_eq_ok_iff : ownedLeaf qdiscs leaf = .ok found ↔
    (∀ qdisc ∈ qdiscs, qdisc.isChild = true → qdisc.IsFairQueue) ∧
    leaf.toList ++ qdiscs.filter Qdisc.isChild = found.toList := by
  induction qdiscs generalizing leaf with
  | nil => cases leaf <;> cases found <;> simp [ownedLeaf]
  | cons qdisc rest ih =>
    rw [ownedLeaf, List.forall_mem_cons, List.filter_cons, Qdisc.isChild]
    by_cases skipped : qdisc.root = true ∨ qdisc.ingress = true
    · rw [if_pos skipped, ih]
      rcases skipped with isRoot | incoming
      · simp [isRoot]
      · simp [incoming]
    · rw [if_neg skipped]
      obtain ⟨notRoot, notIncoming⟩ := not_or.1 skipped
      by_cases fair : qdisc.IsFairQueue
      · cases leaf with
        | none =>
          rw [if_pos ⟨fair.1, fair.2.1, fair.2.2, rfl⟩, ih]
          simp [notRoot, notIncoming, fair]
        | some leaf =>
          cases found with
          | none | some found => simp [notRoot, notIncoming]
      · rw [if_neg fun all => fair ⟨all.1, all.2.1, all.2.2.1⟩]
        simp [notRoot, notIncoming, fair]

structure Owned (active : Bool) (qdiscs : List Qdisc) (root : Qdisc)
    (leaf : Option Qdisc) : Prop where
  tolerated : ∀ qdisc ∈ qdiscs, qdisc.Tolerated active
  shapers : qdiscs.filter Qdisc.isShaper = [root]
  fair : ∀ qdisc ∈ qdiscs, qdisc.isChild = true → qdisc.IsFairQueue
  children : qdiscs.filter Qdisc.isChild = leaf.toList

theorem ownedShapers_some_iff :
    ownedShapers qdiscs active = .ok (some root, leaf) ↔ Owned active qdiscs root leaf := by
  rw [ownedShapers, bind_eq_ok_iff]
  constructor
  · rintro ⟨found, searched, finished⟩
    cases found with
    | none => cases finished
    | some found =>
      obtain ⟨other, below, last⟩ := bind_eq_ok_iff.1 finished
      cases last
      obtain ⟨tolerated, shapers⟩ := ownedRoot_eq_ok_iff.1 searched
      obtain ⟨fair, children⟩ := ownedLeaf_eq_ok_iff.1 below
      exact ⟨tolerated, shapers, fair, children⟩
  · intro owned
    refine ⟨some root, ownedRoot_eq_ok_iff.2 ⟨owned.tolerated, owned.shapers⟩, ?_⟩
    exact bind_eq_ok_iff.2 ⟨leaf, ownedLeaf_eq_ok_iff.2 ⟨owned.fair, owned.children⟩, rfl⟩

theorem ownedShapers_none_iff :
    ownedShapers qdiscs active = .ok (none, leaf) ↔ (∀ qdisc ∈ qdiscs, qdisc.Tolerated active) ∧
    qdiscs.filter Qdisc.isShaper = [] ∧ leaf = none := by
  rw [ownedShapers, bind_eq_ok_iff]
  constructor
  · rintro ⟨found, searched, finished⟩
    cases found with
    | none =>
      cases finished
      obtain ⟨tolerated, shapers⟩ := ownedRoot_eq_ok_iff.1 searched
      exact ⟨tolerated, shapers, rfl⟩
    | some found =>
      obtain ⟨other, below, last⟩ := bind_eq_ok_iff.1 finished
      cases last
  · rintro ⟨tolerated, shapers, rfl⟩
    exact ⟨none, ownedRoot_eq_ok_iff.2 ⟨tolerated, shapers⟩, rfl⟩

theorem handleString_rootHandle : handleString rootHandle = shapingHandle := by
  decide +kernel

theorem handleString_leafHandle : handleString leafHandle = fairQueueHandle := by
  decide +kernel

theorem handleString_leafParent : handleString leafParent = shapingParent := by
  decide +kernel

theorem isAt_root (qdisc : Qdisc) : Kernel.isAt rootHandle rootParent qdisc = qdisc.isShaper := by
  rw [Kernel.isAt, handleString_rootHandle, if_pos rfl, Qdisc.isShaper, Bool.and_comm]

theorem isAt_leaf (qdisc : Qdisc) : Kernel.isAt leafHandle leafParent qdisc =
    (qdisc.handle = fairQueueHandle && (!qdisc.root && qdisc.parent = shapingParent) : Bool) := by
  rw [Kernel.isAt, handleString_leafHandle, handleString_leafParent, if_neg (by decide)]

namespace Owned

variable {kernel : Kernel}

theorem isAt_of_isChild (owned : Owned active qdiscs root found) (member : qdisc ∈ qdiscs)
    (child : qdisc.isChild = true) : Kernel.isAt leafHandle leafParent qdisc = true := by
  obtain ⟨parent, handle, _⟩ := owned.fair qdisc member child
  rw [Qdisc.isChild, Bool.and_eq_true] at child
  rw [isAt_leaf, handle, parent, child.1]
  decide

theorem deleteLeaf (owned : Owned active qdiscs root found)
    (applied : kernel.apply qdiscs (.deleteQdisc leafHandle leafParent) =
    some after) : Owned active after root none := by
  rw [Kernel.apply] at applied
  split at applied
  · rw [if_neg (by decide)] at applied
    cases applied
    have kept : ∀ {qdisc}, qdisc ∈ qdiscs.filter (fun qdisc =>
        !Kernel.isAt leafHandle leafParent qdisc) → qdisc ∈ qdiscs :=
      fun member => List.mem_of_mem_filter member
    refine ⟨fun qdisc member => owned.tolerated qdisc (kept member), ?_,
      fun qdisc member => owned.fair qdisc (kept member), ?_⟩
    · rw [← owned.shapers, List.filter_filter]
      refine List.filter_congr fun qdisc _ => ?_
      rw [isAt_leaf, Qdisc.isShaper]
      cases qdisc.root <;> simp
    · rw [List.filter_filter, Option.toList_none, List.filter_eq_nil_iff]
      intro qdisc member both
      rw [Bool.and_eq_true] at both
      rw [owned.isAt_of_isChild member both.1] at both
      exact Bool.noConfusion both.2
  · cases applied

theorem map_filter_of_kept (same : ∀ qdisc, keep (change qdisc) = keep qdisc) :
    (qdiscs.map change).filter keep = (qdiscs.filter keep).map change := by
  rw [List.filter_map]
  congr 1
  exact List.filter_congr fun qdisc _ => same qdisc

section

variable (owned : Owned active qdiscs root found)
include owned

theorem map (kinds : ∀ qdisc, (change qdisc).kind = qdisc.kind)
    (handles : ∀ qdisc, (change qdisc).handle = qdisc.handle)
    (parents : ∀ qdisc, (change qdisc).parent = qdisc.parent)
    (roots : ∀ qdisc, (change qdisc).root = qdisc.root) :
    Owned active (qdiscs.map change) (change root) (found.map change) where
  tolerated := by
    rw [List.forall_mem_map]
    intro qdisc member
    rw [Qdisc.Tolerated, kinds, handles, roots]
    exact owned.tolerated qdisc member
  shapers := by
    rw [map_filter_of_kept, owned.shapers, List.map_singleton]
    intro qdisc
    rw [Qdisc.isShaper, handles, roots, Qdisc.isShaper]
  fair := by
    rw [List.forall_mem_map]
    intro qdisc member
    rw [Qdisc.isChild, Qdisc.ingress, Qdisc.IsFairQueue, kinds, handles, parents, roots]
    exact owned.fair qdisc member
  children := by
    rw [map_filter_of_kept, owned.children]
    · cases found <;> rfl
    · intro qdisc
      rw [Qdisc.isChild, Qdisc.ingress, kinds, roots, Qdisc.isChild, Qdisc.ingress]

theorem configure
    (applied : kernel.apply qdiscs (.newQdisc false handle parent kind options) = some after) :
    Owned active after (if Kernel.isAt handle parent root then kernel.configure root options
        else root)
      (found.map fun leaf =>
        if Kernel.isAt handle parent leaf then kernel.configure leaf options
        else leaf) := by
  rw [Kernel.apply] at applied
  split at applied
  · cases applied
    refine owned.map ?_ ?_ ?_ ?_ <;> intro qdisc <;> split <;>
      cases options <;> rfl
  · cases applied

theorem root_isShaper : root ∈ qdiscs ∧ root.isShaper = true := by
  have member : root ∈ qdiscs.filter Qdisc.isShaper := by
    rw [owned.shapers]
    exact List.mem_singleton_self root
  exact List.mem_filter.1 member

end

theorem leaf_isChild (owned : Owned active qdiscs root (some leaf)) :
    leaf ∈ qdiscs ∧ leaf.isChild = true := by
  have member : leaf ∈ qdiscs.filter Qdisc.isChild := by
    rw [owned.children]
    exact List.mem_singleton_self leaf
  exact List.mem_filter.1 member

theorem configureRoot (owned : Owned active qdiscs root found) (applied : kernel.apply qdiscs
    (.newQdisc false rootHandle rootParent kind options) = some after) :
    Owned active after (kernel.configure root options) found := by
  have configured := owned.configure applied
  rw [isAt_root, if_pos owned.root_isShaper.2] at configured
  cases found with
  | none => exact configured
  | some leaf =>
    have child := owned.leaf_isChild.2
    rw [Qdisc.isChild, Bool.and_eq_true, Bool.not_eq_true'] at child
    rw [Option.map_some, isAt_root, Qdisc.isShaper, child.1] at configured
    exact configured

theorem configureLeaf (owned : Owned active qdiscs root (some leaf)) (applied : kernel.apply qdiscs
    (.newQdisc false leafHandle leafParent kind options) = some after) :
    Owned active after root (some (kernel.configure leaf options)) := by
  have configured := owned.configure applied
  obtain ⟨member, child⟩ := owned.leaf_isChild
  have isRoot := owned.root_isShaper.2
  rw [Qdisc.isShaper, Bool.and_eq_true] at isRoot
  rw [Option.map_some, if_pos (owned.isAt_of_isChild member child), isAt_leaf,
    isRoot.1, Bool.not_true, Bool.false_and, Bool.and_false] at configured
  exact configured

theorem createLeaf {options : FairOptions} (owned : Owned active qdiscs root none)
    (applied : kernel.apply qdiscs
    (.newQdisc true leafHandle leafParent "fq_codel" (.fair options)) = some after) :
    Owned active after root (some (kernel.created leafHandle leafParent
    "fq_codel" (.fair options))) := by
  rw [Kernel.apply, if_neg (by decide)] at applied
  split at applied
  · cases applied
    refine ⟨?_, ?_, ?_, ?_⟩
    · rw [List.forall_mem_append, List.forall_mem_singleton]
      refine ⟨owned.tolerated, fun isRoot => ?_⟩
      cases isRoot
    · rw [List.filter_append, owned.shapers]
      rfl
    · rw [List.forall_mem_append, List.forall_mem_singleton]
      exact ⟨owned.fair, fun _ => ⟨handleString_leafParent, handleString_leafHandle, rfl⟩⟩
    · rw [List.filter_append, owned.children]
      rfl
  · cases applied

theorem createRoot {options : TbfOptions} (tolerated : ∀ qdisc ∈ qdiscs, qdisc.Tolerated active)
    (shapers : qdiscs.filter Qdisc.isShaper = []) (applied : kernel.apply qdiscs
    (.newQdisc true rootHandle rootParent "tbf" (.tbf options)) = some after) :
    Owned active after (kernel.created rootHandle rootParent "tbf" (.tbf options)) none := by
  rw [Kernel.apply, if_pos rfl] at applied
  split at applied
  · cases applied
  · cases applied
    have handle := handleString_rootHandle
    have incoming : ∀ qdisc ∈ qdiscs.filter Qdisc.ingress, qdisc.isChild = false := by
      intro qdisc member
      rw [Qdisc.isChild, (List.mem_filter.1 member).2, Bool.not_true, Bool.and_false]
    refine ⟨?_, ?_, ?_, ?_⟩
    · rw [List.forall_mem_append, List.forall_mem_singleton]
      refine ⟨fun qdisc member => tolerated qdisc (List.mem_of_mem_filter member), fun _ => ?_⟩
      rfl
    · rw [List.filter_append, List.filter_filter]
      have none : qdiscs.filter (fun qdisc => qdisc.isShaper && qdisc.ingress) = [] := by
        rw [← List.filter_filter, List.filter_eq_nil_iff]
        intro qdisc member isShaper
        have listed := List.mem_filter.2 ⟨List.mem_of_mem_filter member, isShaper⟩
        rw [shapers] at listed
        cases listed
      rw [none]
      simp [Qdisc.isShaper, Kernel.created, Kernel.configure, handle]
    · rw [List.forall_mem_append, List.forall_mem_singleton]
      refine ⟨fun qdisc member child => ?_, fun child => ?_⟩
      · rw [incoming qdisc member] at child
        cases child
      · cases child
    · rw [List.filter_append, List.filter_eq_nil_iff.2]
      · rfl
      · intro qdisc member
        rw [incoming qdisc member]
        decide
end Owned

variable {kernel : Kernel}

theorem ownedShapers_deleteRoot (owned : Owned false qdiscs root leaf)
    (applied : kernel.apply qdiscs (.deleteQdisc rootHandle rootParent) =
    some after) : ownedShapers after false = .ok (none, none) := by
  rw [Kernel.apply] at applied
  split at applied
  · rw [if_pos rfl] at applied
    cases applied
    refine ownedShapers_none_iff.2 ⟨?_, ?_, rfl⟩
    · rw [List.forall_mem_append, List.forall_mem_singleton]
      refine ⟨fun qdisc member => owned.tolerated qdisc
        (List.mem_of_mem_filter member), fun _ => ?_⟩
      exact fun impossible => Bool.noConfusion impossible
    · rw [List.filter_append, List.filter_eq_nil_iff.2, List.nil_append]
      · decide +kernel
      · intro qdisc member isShaper
        obtain ⟨listed, incoming⟩ := List.mem_filter.1 member
        rw [Qdisc.isShaper, Bool.and_eq_true, decide_eq_true_iff] at isShaper
        have kind := owned.tolerated qdisc listed isShaper.1
        rw [if_pos isShaper.2] at kind
        rw [Qdisc.ingress, kind] at incoming
        revert incoming
        decide
  · cases applied

structure Fitting (profile : ShapingProfile) : Prop where
  ticks : 17 ≤ (burstTicks (UInt64.ofNat (profile.rate / 8)) (UInt64.ofNat profile.burst)).toNat
  burst : profile.burst < 4294967296
  packets : 1 ≤ profile.packets ∧ profile.packets < 4294967296
  quantum : 256 ≤ profile.quantum ∧ profile.quantum ≤ 1048576
  memory : profile.memory ≤ 2147483648

theorem toNat_burstTicks (positive : 0 < rate)
    (small : rate < 1000000000000) (short : burst ≤ rate * 60) (few : burst ≤ 1048576) :
    (burstTicks (UInt64.ofNat rate) (UInt64.ofNat burst)).toNat =
    burst * 1000000000 / rate / 64 := by
  have rateValue : (UInt64.ofNat rate).toNat = rate :=
    UInt64.toNat_ofNat_of_lt' (by simp only [UInt64.size]; omega)
  have burstValue : (UInt64.ofNat burst).toNat = burst :=
    UInt64.toNat_ofNat_of_lt' (by simp only [UInt64.size]; omega)
  have nonzero : UInt64.ofNat rate ≠ 0 := by
    intro equal
    rw [equal] at rateValue
    simp at rateValue
    omega
  have quotient : burst * 1000000000 / rate ≤ 60000000000 := by
    refine Nat.div_le_of_le_mul ?_
    omega
  rw [burstTicks, if_neg nonzero, UInt64.toNat_toUInt32,
    UInt64.toNat_shiftRight, UInt64.toNat_div, UInt64.toNat_mul, rateValue, burstValue]
  have factor : (1000000000 : UInt64).toNat = 1000000000 := rfl
  have shift : (6 : UInt64).toNat % 64 = 6 := rfl
  have product : burst * 1000000000 % 2 ^ 64 = burst * 1000000000 := Nat.mod_eq_of_lt (by omega)
  rw [factor, shift, product, Nat.shiftRight_eq_div_pow]
  generalize burst * 1000000000 / rate = ticks at quotient ⊢
  omega

theorem fitting_profileOf (positive : 8 ≤ rate)
    (small : rate ≤ 1000000000000) (frames : 576 ≤ frame ∧ frame ≤ 65536)
    (short : (profileOf rate frame).burst ≤ rate / 8 * 60) : Fitting (profileOf rate frame) := by
  have bound : (1 : Nat) <<< 20 = 1048576 := rfl
  have memoryBound : (4 : Nat) <<< 20 = 4194304 := rfl
  have few : (profileOf rate frame).burst ≤ 1048576 := by
    simp only [profileOf, bound]
    omega
  refine ⟨?_, by omega, ?_, ?_, ?_⟩
  · have long : 1088 * (rate / 8) ≤ (profileOf rate frame).burst * 1000000000 := by
      simp only [profileOf, bound] at short ⊢
      omega
    have value := toNat_burstTicks (by omega) (by omega) short few
    have quotient : 1088 ≤ (profileOf rate frame).burst * 1000000000 / (rate / 8) :=
      (Nat.le_div_iff_mul_le (by omega)).2 long
    change 17 ≤ (burstTicks (UInt64.ofNat (rate / 8)) _).toNat
    omega
  · simp only [profileOf]
    omega
  · simp only [profileOf]
    omega
  · simp only [profileOf, memoryBound]
    omega

theorem bounds_of_validRate {rate : Int64}
    (valid : Envelope.validRate rate = true) (nonzero : rate ≠ 0) (divides : rate % 8 = 0) :
    8 ≤ rate.toNatClampNeg ∧ rate.toNatClampNeg ≤ 1000000000000 ∧ rate.toNatClampNeg % 8 = 0 := by
  rw [Envelope.validRate, Bool.and_eq_true, decide_eq_true_iff,
    decide_eq_true_iff, Int64.le_iff_toInt_le, Int64.le_iff_toInt_le] at valid
  have zero : (0 : Int64).toInt = 0 := rfl
  have eight : (8 : Int64).toInt = 8 := rfl
  have largest : Envelope.maxRate.toInt = 1000000000000 := rfl
  have different : rate.toInt ≠ 0 := by
    exact fun equal => nonzero (Int64.toInt_inj.1 equal)
  have remainder : rate.toInt.tmod 8 = 0 := by
    rw [← eight, ← Int64.toInt_mod, divides, zero]
  rw [Int.tmod_eq_emod_of_nonneg valid.1] at remainder
  rw [Int64.toNatClampNeg]
  omega

theorem newShapingProfile_of_ne_zero {device : String} {rate : Int64} {mtu : Int}
    {profile : ShapingProfile} (made : newShapingProfile device rate mtu = .ok profile)
    (nonzero : rate ≠ 0) : profile = profileOf rate.toNatClampNeg mtu.toNat ∧
    (8 ≤ rate.toNatClampNeg ∧ rate.toNatClampNeg ≤ 1000000000000 ∧ rate.toNatClampNeg % 8 = 0) ∧
    (576 ≤ mtu ∧ mtu ≤ 65536) ∧ profile.burst ≤ rate.toNatClampNeg / 8 * 60 := by
  rw [newShapingProfile, bind_eq_ok_iff] at made
  obtain ⟨_, checked, made⟩ := made
  obtain ⟨_, _, valid⟩ := require_eq_ok_iff.1 checked
  rw [if_neg nonzero] at made
  obtain ⟨_, divides, made⟩ := bind_eq_ok_iff.1 made
  obtain ⟨_, frames, made⟩ := bind_eq_ok_iff.1 made
  obtain ⟨_, short, made⟩ := bind_eq_ok_iff.1 made
  rw [require_eq_ok_iff] at divides frames short
  cases made
  exact ⟨rfl, bounds_of_validRate valid nonzero divides, frames, short⟩

theorem newShapingProfile_eq_ok {device : String} {rate : Int64} {mtu : Int}
    {profile : ShapingProfile} (made : newShapingProfile device rate mtu = .ok profile) :
    if rate = 0 then profile.rate = 0
    else profile.rate ≠ 0 ∧ Fitting profile := by
  split_ifs with zero
  · obtain ⟨_, _, made⟩ := bind_eq_ok_iff.1 made
    rw [if_pos zero] at made
    rw [← Except.ok.inj made]
  · obtain ⟨rfl, ⟨least, most, _⟩, frames, short⟩ := newShapingProfile_of_ne_zero made zero
    refine ⟨?_, fitting_profileOf least most (by omega) short⟩
    change rate.toNatClampNeg ≠ 0
    omega

/-- The parameters of a profile fit their fields, and the burst in ticks is exact and positive. -/
theorem shaping_parameters_admissible {device : String} {rate : Int64} {mtu : Int}
    {profile : ShapingProfile} (positive : 0 < rate)
    (made : newShapingProfile device rate mtu = .ok profile) :
    (2 * mtu ≤ profile.burst ∧ profile.burst ≤ profile.limit) ∧
      (32 ≤ profile.packets ∧ profile.packets ≤ 2048) ∧
      (64 * 1024 ≤ profile.memory ∧ profile.memory ≤ 4 * 1024 * 1024) ∧
      (profile.limit < 2 ^ 32 ∧ profile.packets < 2 ^ 32 ∧ profile.memory < 2 ^ 32 ∧
        profile.quantum < 2 ^ 32) ∧
      profile.burst * 1000000000 < 2 ^ 64 ∧
      profile.burst * 1000000000 / (profile.rate / 8) / 64 < 2 ^ 32 ∧
      (burstTicks (UInt64.ofNat (profile.rate / 8)) (UInt64.ofNat profile.burst)).toNat =
        profile.burst * 1000000000 / (profile.rate / 8) / 64 ∧
      0 < burstTicks (UInt64.ofNat (profile.rate / 8)) (UInt64.ofNat profile.burst) := by
  have nonzero : rate ≠ 0 := by
    rintro rfl
    exact Int64.lt_irrefl positive
  obtain ⟨rfl, ⟨least, most, _⟩, frames, short⟩ := newShapingProfile_of_ne_zero made nonzero
  have fitting := fitting_profileOf least most (by omega) short
  have bounds : (1 : Nat) <<< 20 = 1048576 ∧ (2 : Nat) <<< 20 = 2097152 ∧
      (64 : Nat) <<< 10 = 65536 ∧ (4 : Nat) <<< 20 = 4194304 := ⟨rfl, rfl, rfl, rfl⟩
  have few : (profileOf rate.toNatClampNeg mtu.toNat).burst ≤ 1048576 := by
    simp only [profileOf, bounds]
    omega
  have ticks := toNat_burstTicks (by omega) (by omega) short few
  have isTicks := fitting.ticks
  have exact := ticks ▸ UInt32.toNat_lt (burstTicks _ _)
  refine ⟨?_, ?_, ?_, ?_, by omega, exact, ticks, ?_⟩
  · simp only [profileOf, bounds]
    omega
  · simp only [profileOf]
    omega
  · simp only [profileOf, bounds]
    omega
  · simp only [profileOf, bounds]
    omega
  · rw [UInt32.lt_iff_toNat_lt, UInt32.toNat_zero]
    omega

theorem shaping_parameters_of_megabit :
    newShapingProfile "eth0" 1000000 1500 = .ok (profileOf 1000000 1500) ∧
      0 < burstTicks (UInt64.ofNat 125000) (UInt64.ofNat (profileOf 1000000 1500).burst) := by
  have made : newShapingProfile "eth0" 1000000 1500 = .ok (profileOf 1000000 1500) := by
    decide +kernel
  exact ⟨made, (shaping_parameters_admissible (by decide) made).2.2.2.2.2.2.2⟩

section Matches

variable {profile : ShapingProfile}

theorem buffer_tbfOptions (small : profile.burst < 4294967296) :
    profile.tbfOptions.buffer = burstTicks profile.tbfOptions.rate64
    profile.tbfOptions.burst.toUInt64 := by
  have burst : (UInt32.ofNat profile.burst).toUInt64 = UInt64.ofNat profile.burst := by
    rw [← UInt64.toNat_inj, UInt32.toNat_toUInt64, UInt32.toNat_ofNat_of_lt' small,
      UInt64.toNat_ofNat_of_lt' (by simp only [UInt64.size]; omega)]
  rw [ShapingProfile.tbfOptions, burst]

theorem matchesRoot_configure (fitting : Fitting profile) (qdisc : Qdisc) : profile.matchesRoot
    (some (kernel.configure qdisc (.tbf profile.tbfOptions))) = true := by
  obtain ⟨atMost, close⟩ := kernel.tbf_buffer profile.tbfOptions (buffer_tbfOptions fitting.burst)
  have ticks := fitting.ticks
  have rate := kernel.tbf_rate profile.tbfOptions
  have limit := kernel.tbf_limit profile.tbfOptions
  simp only [ShapingProfile.matchesRoot, Kernel.configure,
    kernel.tbf_supported, rate, limit, Bool.and_eq_true, decide_eq_true_iff,
    Bool.not_false, true_and]
  have want : profile.tbfOptions.buffer = burstTicks (UInt64.ofNat (profile.rate / 8))
        (UInt64.ofNat profile.burst) := rfl
  rw [want] at atMost close
  generalize burstTicks (UInt64.ofNat (profile.rate / 8))
    (UInt64.ofNat profile.burst) = ticksWanted at atMost close ticks ⊢
  generalize (kernel.tbf profile.tbfOptions).buffer = buffer at atMost close ⊢
  refine ⟨⟨⟨⟨rfl, rfl⟩, ?_⟩, atMost⟩, ?_⟩
  · rw [UInt32.lt_iff_toNat_lt]
    change 0 < buffer.toNat
    omega
  · rw [UInt32.le_iff_toNat_le, UInt32.toNat_sub_of_le _ _ atMost]
    change ticksWanted.toNat - buffer.toNat ≤ 16
    omega

theorem matchesLeaf_configure (fitting : Fitting profile) (qdisc : Qdisc)
    (flows : (kernel.fair qdisc.fair (profile.fairOptions create)).flows = 1024) :
    profile.matchesLeaf (some (kernel.configure qdisc
    (.fair (profile.fairOptions create)))) = true := by
  have small : ∀ {value : Nat}, value ≤ 2147483648 → value < UInt32.size :=
    fun bound => Nat.lt_of_le_of_lt bound (by decide)
  have limitSet := kernel.fair_limit qdisc.fair (profile.fairOptions create)
    ((UInt32.ofNat_le_iff_le (by decide) fitting.packets.2).2 fitting.packets.1)
  have quantumSmall := small (fitting.quantum.2.trans (by decide))
  have quantumSet := kernel.fair_quantum qdisc.fair (profile.fairOptions create)
    ((UInt32.ofNat_le_iff_le (by decide) quantumSmall).2 fitting.quantum.1)
    ((UInt32.ofNat_le_iff_le quantumSmall (by decide)).2 fitting.quantum.2)
  have memorySet := kernel.fair_memory qdisc.fair (profile.fairOptions create)
    ((UInt32.ofNat_le_iff_le (small fitting.memory) (by decide)).2 fitting.memory)
  have ecnSet := kernel.fair_ecn qdisc.fair (profile.fairOptions create) (UInt32.le_refl 1)
  obtain ⟨targetLow, targetHigh⟩ := kernel.fair_target qdisc.fair
    (profile.fairOptions create) (show (0 : UInt32) < 5000 by decide)
    (show (5000 : UInt32) ≤ 1000000 by decide)
  obtain ⟨intervalLow, intervalHigh⟩ := kernel.fair_interval qdisc.fair
    (profile.fairOptions create) (show (0 : UInt32) < 100000 by decide)
    (show (100000 : UInt32) ≤ 1000000 by decide)
  have target : (profile.fairOptions create).target - 1 = 4999 :=
    show (5000 : UInt32) - 1 = 4999 by decide
  have interval : (profile.fairOptions create).interval - 1 = 99999 :=
    show (100000 : UInt32) - 1 = 99999 by decide
  rw [target] at targetLow
  rw [interval] at intervalLow
  simp only [ShapingProfile.matchesLeaf, Kernel.configure, limitSet, flows,
    quantumSet, memorySet, ecnSet, Bool.and_eq_true, decide_eq_true_iff]
  exact ⟨⟨⟨⟨⟨⟨⟨⟨rfl, trivial⟩, rfl⟩, targetLow⟩, targetHigh⟩, intervalLow⟩,
    intervalHigh⟩, rfl⟩, rfl⟩

end Matches

section Programs

variable {profile : ShapingProfile} {before after : Wire}

def Silent (before after : Wire) : Prop :=
  after.qdiscs = before.qdiscs ∧ after.issued = before.issued

theorem Silent.refl (wire : Wire) : Silent wire wire := ⟨rfl, rfl⟩

theorem Silent.trans (earlier : Silent first second)
    (later : Silent second third) : Silent first third :=
  ⟨later.1.trans earlier.1, later.2.trans earlier.2⟩

theorem run_attempt (wire : Wire) : (attempt faults).run wire =
      ((faults wire.attempts).elim (.ok ()) .error,
        { wire with attempts := wire.attempts + 1 }) := by
  rw [attempt, run_get_bind]
  cases faults wire.attempts <;> rfl

theorem run_changeRouteShaper (command : Command) (wire : Wire) :
    (∃ error attempts, (changeRouteShaper kernel faults command).run wire =
      (.error error, { wire with attempts := attempts })) ∨
    (∃ error attempts, (changeRouteShaper kernel faults command).run wire =
      (.error error, ⟨wire.qdiscs, attempts, wire.issued ++ [(command, wire.qdiscs)]⟩)) ∨
    ∃ qdiscs attempts, kernel.apply wire.qdiscs command = some qdiscs ∧
      (changeRouteShaper kernel faults command).run wire =
        (.ok (), ⟨qdiscs, attempts, wire.issued ++ [(command, qdiscs)]⟩) := by
  rw [changeRouteShaper, run_bind, run_attempt]
  cases first : faults wire.attempts with
  | some error => exact .inl ⟨error, _, rfl⟩
  | none =>
    refine .inr ?_
    simp only [Option.elim_none, run_get_bind]
    cases answered : answer kernel faults
        { wire with attempts := wire.attempts + 1 } command with
    | error error => exact .inl ⟨error, _, rfl⟩
    | ok qdiscs =>
      refine .inr ⟨qdiscs, _, ?_, rfl⟩
      rw [answer] at answered
      split at answered
      · cases answered
      · exact orError_eq_ok_iff.1 answered

theorem applied_of_changeRouteShaper (ran : (changeRouteShaper kernel faults command).run before =
    (.ok (), after)) : kernel.apply before.qdiscs command = some after.qdiscs := by
  rcases run_changeRouteShaper command before with
    ⟨error, attempts, failed⟩ | ⟨error, attempts, failed⟩ | ⟨qdiscs, attempts, applied, done⟩
  · rw [failed] at ran
    cases ran
  · rw [failed] at ran
    cases ran
  · rw [done] at ran
    cases ran
    exact applied

theorem applied_of_wrapped (ran : (wrapped context (changeRouteShaper kernel faults command)).run
    before = (.ok (), after)) : kernel.apply before.qdiscs command = some after.qdiscs := by
  obtain ⟨succeeded, rfl⟩ := Prod.mk.inj ran
  rw [mapError_eq_ok_iff] at succeeded
  exact applied_of_changeRouteShaper (Prod.ext succeeded rfl)

theorem owned_removeOutdated (owned : Owned true before.qdiscs root leaf)
    (ran : (removeOutdated kernel faults device changed leaf).run before = (.ok kept, after)) :
    Owned true after.qdiscs root kept ∧ (kept = none ∨ kept = leaf) ∧
    outdated changed kept = false := by
  rw [removeOutdated] at ran
  split at ran
  · obtain ⟨_, middle, deleted, rest⟩ := run_bind_eq_ok_iff.1 ran
    cases rest
    exact ⟨owned.deleteLeaf (applied_of_wrapped deleted), .inl rfl, rfl⟩
  · rename_i current
    cases ran
    exact ⟨owned, .inr rfl, Bool.eq_false_iff.2 current⟩

theorem flows_of_current {leaf : Qdisc} (current : outdated changed (some leaf) = false) :
    ∃ state, leaf.fair = some state ∧ state.flows = 1024 := by
  rw [outdated, Option.any_some, Bool.or_eq_false_iff] at current
  cases fair : leaf.fair with
  | none =>
    rw [fair] at current
    exact Bool.noConfusion current.2
  | some state =>
    rw [fair, Option.all_some, decide_eq_false_iff_not, not_not] at current
    exact ⟨state, rfl, current.2⟩

theorem owned_configureLeaf (fitting : Fitting profile) (owned : Owned true before.qdiscs root leaf)
    (current : outdated changed leaf = false)
    (ran : (configureLeaf kernel faults device profile leaf).run before = (.ok (), after)) :
    ∃ found, Owned true after.qdiscs root found ∧ profile.matchesLeaf found = true := by
  rw [configureLeaf] at ran
  split at ran
  · rename_i matching
    cases ran
    exact ⟨leaf, owned, matching⟩
  · have applied := applied_of_wrapped ran
    cases leaf with
    | none =>
      refine ⟨_, owned.createLeaf applied, ?_⟩
      exact matchesLeaf_configure fitting _ (kernel.fair_flows _ _ rfl)
    | some leaf =>
      refine ⟨_, owned.configureLeaf applied, ?_⟩
      obtain ⟨state, fair, flows⟩ := flows_of_current current
      refine matchesLeaf_configure fitting leaf ?_
      rw [fair]
      exact (kernel.fair_flows_kept state _ rfl).trans flows

theorem owned_configureRoot (fitting : Fitting profile) (owned : Owned true before.qdiscs root leaf)
    (ran : (configureRoot kernel faults device profile
    (!profile.matchesRoot (some root)) (some root)).run before = (.ok (), after)) :
    ∃ found, Owned true after.qdiscs found leaf ∧ profile.matchesRoot (some found) = true := by
  rw [configureRoot] at ran
  split at ran
  · have applied := applied_of_wrapped ran
    exact ⟨_, owned.configureRoot applied, matchesRoot_configure fitting root⟩
  · rename_i matching
    cases ran
    rw [Bool.not_eq_true', Bool.not_eq_false] at matching
    exact ⟨root, owned, matching⟩

theorem verify_of_owned (limited : profile.rate ≠ 0) (owned : Owned true qdiscs root leaf)
    (rootMatches : profile.matchesRoot (some root) = true)
    (leafMatches : profile.matchesLeaf leaf = true) : profile.verify qdiscs device = .ok () := by
  rw [ShapingProfile.verify, decide_eq_true limited, ownedShapers_some_iff.2 owned]
  simp [Except.mapError, bind, Except.bind, limited, require, rootMatches, leafMatches]

variable {rate : Int64} {root : Option Qdisc}

theorem verify_of_shapeOwned (nonzero : rate ≠ 0) (limited : profile.rate ≠ 0)
    (fitting : Fitting profile) (owned : ownedShapers before.qdiscs true = .ok (root, leaf))
    (ran : (shapeOwned kernel faults device rate profile root leaf).run before = (.ok (), after)) :
    profile.verify after.qdiscs device = .ok () := by
  rw [shapeOwned, if_neg nonzero] at ran
  obtain ⟨kept, second, removed, ran⟩ := run_bind_eq_ok_iff.1 ran
  obtain ⟨_, third, rootRan, leafRan⟩ := run_bind_eq_ok_iff.1 ran
  cases root with
  | none =>
    obtain ⟨tolerated, shapers, rfl⟩ := ownedShapers_none_iff.1 owned
    cases removed
    have created := Owned.createRoot tolerated shapers (applied_of_wrapped rootRan)
    obtain ⟨found, last, leafMatches⟩ := owned_configureLeaf fitting created
        (show outdated true none = false from rfl) leafRan
    exact verify_of_owned limited last (matchesRoot_configure fitting _) leafMatches
  | some root =>
    obtain ⟨first, _, current⟩ := owned_removeOutdated (ownedShapers_some_iff.1 owned) removed
    obtain ⟨found, configured, rootMatches⟩ := owned_configureRoot fitting first rootRan
    obtain ⟨last, final, leafMatches⟩ := owned_configureLeaf fitting configured current leafRan
    exact verify_of_owned limited final rootMatches leafMatches

theorem verify_of_cleared (unlimited : profile.rate = 0)
    (owned : ownedShapers before.qdiscs false = .ok (root, leaf))
    (ran : (shapeOwned kernel faults device 0 profile root leaf).run before = (.ok (), after)) :
    profile.verify after.qdiscs device = .ok () := by
  have nothing : ownedShapers after.qdiscs false = .ok (none, none) := by
    cases root with
    | none =>
      cases ran
      obtain ⟨tolerated, shapers, rfl⟩ := ownedShapers_none_iff.1 owned
      exact owned
    | some root =>
      exact ownedShapers_deleteRoot (ownedShapers_some_iff.1 owned)
        (applied_of_changeRouteShaper ran)
  rw [ShapingProfile.verify, unlimited, decide_eq_false (not_not.2 rfl), nothing]
  rfl

theorem matches_of_verify (verified : profile.verify qdiscs device = .ok ())
    (owned : ownedShapers qdiscs (profile.rate ≠ 0) = .ok (root, leaf)) :
    if profile.rate = 0 then root = none
    else profile.matchesRoot root = true ∧ profile.matchesLeaf leaf = true := by
  rw [ShapingProfile.verify, owned] at verified
  obtain ⟨_, found, verified⟩ := bind_eq_ok_iff.1 verified
  cases found
  dsimp only at verified
  split at verified
  · rename_i unlimited
    rw [if_pos unlimited]
    exact require_eq_ok_iff.1 verified
  · rename_i limited
    rw [if_neg limited]
    obtain ⟨_, _, verified⟩ := bind_eq_ok_iff.1 verified
    obtain ⟨_, rootMatches, verified⟩ := bind_eq_ok_iff.1 verified
    exact ⟨require_eq_ok_iff.1 rootMatches, require_eq_ok_iff.1 verified⟩

theorem outdated_of_matchesLeaf (leafMatches : profile.matchesLeaf leaf = true) :
    outdated false leaf = false := by
  cases leaf with
  | none => rfl
  | some leaf =>
    rw [ShapingProfile.matchesLeaf] at leafMatches
    cases fair : leaf.fair with
    | none =>
      rw [fair] at leafMatches
      cases leafMatches
    | some state =>
      simp only [fair, Bool.and_eq_true, decide_eq_true_iff] at leafMatches
      simp [outdated, fair, leafMatches]

theorem run_shapeOwned_of_matches (nonzero : rate ≠ 0)
    (rootMatches : profile.matchesRoot root = true)
    (leafMatches : profile.matchesLeaf leaf = true) (wire : Wire) :
    (shapeOwned kernel faults device rate profile root leaf).run wire = (.ok (), wire) := by
  have leafKept : removeOutdated kernel faults device false leaf =
      pure leaf := by
    rw [removeOutdated, outdated_of_matchesLeaf leafMatches]
    rfl
  have rootKept : configureRoot kernel faults device profile false root = pure () := rfl
  have rest : configureLeaf kernel faults device profile leaf = pure () := if_pos leafMatches
  rw [shapeOwned, if_neg nonzero, rootMatches, Bool.not_true]
  simp only [leafKept, rootKept, pure_bind, rest]
  rfl

theorem run_attempt_bind {outcome : Except String Unit × Wire → Prop}
    {next : Program String Wire Unit}
    (fails : ∀ error last, Silent wire last → outcome (.error error, last))
    (goesOn : ∀ middle, Silent wire middle → outcome (next.run middle)) :
    outcome ((do attempt faults; next : Program String Wire Unit).run wire) := by
  rw [run_bind, run_attempt]
  cases faults wire.attempts with
  | none => exact goesOn ⟨_, _, _⟩ ⟨rfl, rfl⟩
  | some error => exact fails error ⟨_, _, _⟩ ⟨rfl, rfl⟩

/-- A call failed before it issued anything, or it has gone on with what it
found. -/
def Begins (kernel : Kernel) (faults : Nat → Option String) (device : String)
    (rate : Int64) (mtu : Int) (wire : Wire) (outcome : Except String Unit × Wire) : Prop :=
  (∃ error last, outcome = (.error error, last) ∧ Silent wire last) ∨ ∃ profile middle root leaf,
      newShapingProfile device rate mtu = .ok profile ∧ Silent wire middle ∧
        ownedShapers wire.qdiscs (rate ≠ 0) = .ok (root, leaf) ∧
          outcome = (shapeOwned kernel faults device rate profile root leaf).run middle

theorem begins_shape (kernel : Kernel) (faults : Nat → Option String)
    (device : String) (rate : Int64) (mtu : Int) (wire : Wire) :
    Begins kernel faults device rate mtu wire ((shape kernel faults device rate mtu).run wire) := by
  rw [shape, run_liftExcept_bind]
  cases made : newShapingProfile device rate mtu with
  | error error => exact .inl ⟨error, wire, rfl, Silent.refl wire⟩
  | ok profile =>
    refine run_attempt_bind (fun error last silent =>
      .inl ⟨error, last, rfl, silent⟩) fun first opened => ?_
    refine run_attempt_bind (fun error last silent =>
      .inl ⟨error, last, rfl, opened.trans silent⟩) fun second found => ?_
    refine run_attempt_bind (fun error last silent =>
      .inl ⟨error, last, rfl, (opened.trans found).trans silent⟩)
      fun third read => ?_
    have silent := (opened.trans found).trans read
    rw [run_get_bind, run_liftExcept_bind, silent.1]
    cases owned : ownedShapers wire.qdiscs (rate ≠ 0) with
    | error error => exact .inl ⟨_, third, rfl, silent⟩
    | ok pair =>
      exact .inr ⟨profile, third, pair.1, pair.2, made, silent, owned, rfl⟩

theorem silent_shape_of_verify (made : newShapingProfile device rate mtu = .ok profile)
    (verified : profile.verify wire.qdiscs device = .ok ()) :
    Silent wire ((shape kernel faults device rate mtu).run wire).2 := by
  rcases begins_shape kernel faults device rate mtu wire with
    ⟨error, last, ran, silent⟩ | ⟨same, middle, root, leaf, madeSame, silent, owned, ran⟩
  · rw [ran]
    exact silent
  · rw [made] at madeSame
    cases madeSame
    have shaped := newShapingProfile_eq_ok made
    have finished : (shapeOwned kernel faults device rate profile root
        leaf).run middle = (.ok (), middle) := by
      by_cases zero : rate = 0
      · rw [if_pos zero] at shaped
        have found := matches_of_verify verified (by
          simpa [shaped, zero] using owned)
        rw [if_pos shaped] at found
        rw [shapeOwned, if_pos zero, if_pos found]
        rfl
      · rw [if_neg zero] at shaped
        have found := matches_of_verify verified (by
          simpa [shaped.1, zero] using owned)
        rw [if_neg shaped.1] at found
        exact run_shapeOwned_of_matches zero found.1 found.2 middle
    rw [ran, finished]
    exact silent

theorem verify_of_shape (ran : (shape kernel faults device rate mtu).run before = (.ok (), after)) :
    ∃ profile, newShapingProfile device rate mtu = .ok profile ∧
    profile.verify after.qdiscs device = .ok () := by
  rcases begins_shape kernel faults device rate mtu before with
    ⟨error, last, failed, _⟩ | ⟨profile, middle, root, leaf, made, silent, owned, began⟩
  · rw [failed] at ran
    cases ran
  · rw [began] at ran
    rw [← silent.1] at owned
    have shaped := newShapingProfile_eq_ok made
    refine ⟨profile, made, ?_⟩
    by_cases zero : rate = 0
    · subst zero
      exact verify_of_cleared shaped owned ran
    · rw [if_neg zero] at shaped
      rw [decide_eq_true zero] at owned
      exact verify_of_shapeOwned zero shaped.1 shaped.2 owned ran

end Programs

def Protected (qdiscs : List Qdisc) : Prop :=
  ∃ qdisc ∈ qdiscs, qdisc.isShaper = true ∧ qdisc.kind = "tbf"

theorem Protected.occupied (protectedRoot : Protected qdiscs) : Kernel.occupied qdiscs = true := by
  obtain ⟨qdisc, member, isShaper, _⟩ := protectedRoot
  rw [Qdisc.isShaper, Bool.and_eq_true, decide_eq_true_iff] at isShaper
  rw [Kernel.occupied, List.any_eq_true]
  refine ⟨qdisc, member, ?_⟩
  rw [isShaper.1, isShaper.2]
  decide

theorem Protected.configure (protectedRoot : Protected qdiscs) (applied : kernel.apply qdiscs
    (.newQdisc false handle parent kind options) = some after) : Protected after := by
  rw [Kernel.apply] at applied
  split at applied
  · cases applied
    obtain ⟨qdisc, member, isShaper, isBucket⟩ := protectedRoot
    refine ⟨_, List.mem_map_of_mem member, ?_⟩
    split
    · cases options <;> exact ⟨isShaper, isBucket⟩
    · exact ⟨isShaper, isBucket⟩
  · cases applied

theorem Protected.apply (protectedRoot : Protected qdiscs)
    (other : ∀ handle, command ≠ .deleteQdisc handle rootParent)
    (applied : kernel.apply qdiscs command = some after) : Protected after := by
  cases command with
  | deleteQdisc handle parent =>
    have below : parent ≠ rootParent := by
      rintro rfl
      exact other handle rfl
    rw [Kernel.apply] at applied
    split at applied
    · cases applied
      obtain ⟨qdisc, member, isShaper, isBucket⟩ := protectedRoot
      refine ⟨qdisc, List.mem_filter.2 ⟨member, ?_⟩, isShaper, isBucket⟩
      rw [Qdisc.isShaper, Bool.and_eq_true] at isShaper
      rw [Kernel.isAt, if_neg below, isShaper.1, Bool.not_true,
        Bool.false_and, Bool.and_false, Bool.not_false]
    · cases applied
  | newQdisc create handle parent kind options =>
    cases create with
    | false => exact protectedRoot.configure applied
    | true =>
      rw [Kernel.apply] at applied
      split at applied
      · rw [if_pos protectedRoot.occupied] at applied
        cases applied
      · split at applied
        · cases applied
          obtain ⟨qdisc, member, isShaper, isBucket⟩ := protectedRoot
          exact ⟨qdisc, List.mem_append_left _ member, isShaper, isBucket⟩
        · cases applied

def Guards (before after : Wire) : Prop := Protected before.qdiscs → Protected after.qdiscs ∧
    ∃ issued, after.issued = before.issued ++ issued ∧ ∀ entry ∈ issued, Protected entry.2

theorem Guards.refl (wire : Wire) : Guards wire wire :=
  fun protectedRoot => ⟨protectedRoot, [], (List.append_nil _).symm, List.forall_mem_nil _⟩

theorem Guards.trans (first second third : Wire) (earlier : Guards first second)
    (later : Guards second third) : Guards first third := by
  intro protectedRoot
  obtain ⟨between, begun, beginning, beginningKept⟩ := earlier protectedRoot
  obtain ⟨last, ended, ending, endingKept⟩ := later between
  refine ⟨last, begun ++ ended, ?_, ?_⟩
  · rw [ending, beginning, List.append_assoc]
  · rw [List.forall_mem_append]
    exact ⟨beginningKept, endingKept⟩

theorem Silent.guards {before after : Wire} (silent : Silent before after) :
    Guards before after := by
  intro protectedRoot
  rw [silent.1, silent.2]
  exact Guards.refl before protectedRoot

section Protection

theorem guards_changeRouteShaper (other : ∀ handle, command ≠ .deleteQdisc handle rootParent) :
    Relates Guards (changeRouteShaper kernel faults command) := by
  intro wire protectedRoot
  rcases run_changeRouteShaper command wire with
    ⟨error, attempts, ran⟩ | ⟨error, attempts, ran⟩ | ⟨qdiscs, attempts, applied, ran⟩
  · rw [ran]
    exact Guards.refl _ protectedRoot
  · rw [ran]
    exact ⟨protectedRoot, _, rfl, List.forall_mem_singleton.2 protectedRoot⟩
  · rw [ran]
    have kept := protectedRoot.apply other applied
    exact ⟨kept, _, rfl, List.forall_mem_singleton.2 kept⟩

theorem guards_wrapped (guards : Relates Guards program) : Relates Guards
    (wrapped context program) := by
  intro wire
  exact guards wire

theorem guards_shapeOwned {rate : Int64} (nonzero : rate ≠ 0) (root leaf : Option Qdisc) :
    Relates Guards (shapeOwned kernel faults device rate profile root leaf) := by
  rw [shapeOwned, if_neg nonzero]
  refine Relates.bind Guards.trans ?_ fun kept => ?_
  · rw [removeOutdated]
    split
    · refine Relates.bind Guards.trans (guards_wrapped
        (guards_changeRouteShaper ?_)) fun _ => Guards.refl
      intro handle same
      exact absurd (Command.deleteQdisc.inj same).2 (by decide)
    · exact Guards.refl
  · refine Relates.bind Guards.trans ?_ fun _ => ?_
    · rw [configureRoot]
      split
      · exact guards_wrapped (guards_changeRouteShaper fun _ same =>
          Command.noConfusion same)
      · exact Guards.refl
    · rw [configureLeaf]
      split
      · exact Guards.refl
      · exact guards_wrapped (guards_changeRouteShaper fun _ same =>
          Command.noConfusion same)

end Protection

/-- After a success the verification succeeds and another call issues no command. A refusal issues
none, and a root that is there stays, also when commands fail. -/
theorem shape_converges (kernel : Kernel) (faults : Nat → Option String)
    (device : String) (rate : Int64) (mtu : Int) (wire : Wire) :
    (∀ after, (shape kernel faults device rate mtu).run wire =
        (.ok (), after) → ∃ profile, newShapingProfile device rate mtu = .ok profile ∧
        profile.verify after.qdiscs device = .ok () ∧
          ∀ (later : Nat → Option String) (again : Wire),
            again.qdiscs = after.qdiscs →
              ((shape kernel later device rate mtu).run again).2.issued = again.issued) ∧
    (∀ refused, ownedShapers wire.qdiscs (rate ≠ 0) = .error refused →
      (∃ error, ((shape kernel faults device rate mtu).run wire).1 = .error error) ∧
      ((shape kernel faults device rate mtu).run wire).2.issued = wire.issued) ∧
    (rate ≠ 0 → Protected wire.qdiscs →
      Protected ((shape kernel faults device rate mtu).run wire).2.qdiscs ∧
        ∃ issued, ((shape kernel faults device rate mtu).run wire).2.issued =
            wire.issued ++ issued ∧ ∀ entry ∈ issued, Protected entry.2) := by
  refine ⟨?_, ?_, ?_⟩
  · intro after ran
    obtain ⟨profile, made, verified⟩ := verify_of_shape ran
    refine ⟨profile, made, verified, fun later again same => ?_⟩
    rw [← same] at verified
    exact (silent_shape_of_verify made verified).2
  · intro refused failed
    rcases begins_shape kernel faults device rate mtu wire with
      ⟨error, last, ran, silent⟩ | ⟨_, _, root, leaf, _, _, owned, _⟩
    · rw [ran]
      exact ⟨⟨error, rfl⟩, silent.2⟩
    · rw [failed] at owned
      cases owned
  · intro nonzero
    rcases begins_shape kernel faults device rate mtu wire with
      ⟨error, last, ran, silent⟩ | ⟨profile, middle, root, leaf, _, silent, _, ran⟩
    · rw [ran]
      exact silent.guards
    · rw [ran]
      exact Guards.trans wire middle _ silent.guards (guards_shapeOwned nonzero root leaf middle)

theorem sub_one_le {number : UInt32} (positive : 0 < number) : number - 1 ≤ number := by
  have least : (1 : UInt32) ≤ number := by
    exact positive
  rw [UInt32.le_iff_toNat_le, UInt32.toNat_sub_of_le _ _ least]
  omega

def exactKernel : Kernel where
  refusal := "invalid argument"
  tbf options := ⟨options.rate64, options.buffer, options.limit, false⟩
  fair before options := ⟨options.limit, (before.map FairQueueState.flows).getD
      (options.flows.getD 1024), options.quantum, options.target,
      options.interval, options.memory, options.ecn⟩
  tbf_rate _ := rfl
  tbf_limit _ := rfl
  tbf_supported _ := rfl
  tbf_buffer _ _ := ⟨UInt32.le_refl _, Nat.le_add_right _ _⟩
  fair_limit _ _ _ := rfl
  fair_quantum _ _ _ _ := rfl
  fair_memory _ _ _ := rfl
  fair_ecn _ _ _ := rfl
  fair_target _ _ positive _ := ⟨sub_one_le positive, UInt32.le_refl _⟩
  fair_interval _ _ positive _ := ⟨sub_one_le positive, UInt32.le_refl _⟩
  fair_flows _ _ set := by rw [set]; rfl
  fair_flows_kept _ _ _ := rfl

theorem shape_converges_default : ∃ after : Wire,
      (shape exactKernel (fun _ => none) "eth0" 1000000 1500).run
          ⟨[Kernel.defaultQdisc], 0, []⟩ = (.ok (), after) ∧ after.issued.length = 2 ∧
          ((shape exactKernel (fun _ => none) "eth0" 1000000 1500).run
            after).2.issued = after.issued := by
  have succeeded : ((shape exactKernel (fun _ => none) "eth0" 1000000
      1500).run ⟨[Kernel.defaultQdisc], 0, []⟩).1.isOk = true := by
    decide +kernel
  have issued : ((shape exactKernel (fun _ => none) "eth0" 1000000
      1500).run ⟨[Kernel.defaultQdisc], 0, []⟩).2.issued.length = 2 := by
    decide +kernel
  cases ran : (shape exactKernel (fun _ => none) "eth0" 1000000 1500).run
      ⟨[Kernel.defaultQdisc], 0, []⟩ with
  | mk outcome after =>
    rw [ran] at succeeded issued
    cases outcome with
    | error error => cases succeeded
    | ok =>
      obtain ⟨_, _, _, again⟩ := (shape_converges exactKernel (fun _ => none) "eth0" 1000000 1500
        ⟨[Kernel.defaultQdisc], 0, []⟩).1 after ran
      exact ⟨after, rfl, issued, again (fun _ => none) after rfl⟩

end Wings.NetworkPolicy.Shaping
