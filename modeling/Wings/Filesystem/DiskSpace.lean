import Wings.Library.MachineInt
import Wings.Library.Transition

/-!
# The disk ledger

The usage counter of a quota filesystem, with the space reserved by unfinished writes and by a walk
of the disk. `canFit` treats the limits `-1` and `0` as "no writes" and "no limit", and a usage of
`-1` as not yet known. Each definition is one mutex-delimited section; concurrent calls of `Add`
take effect in the order in which they return.
-/

namespace Wings.Filesystem

open MachineInt

structure Quota where
  limit : Int
  usage : Int

namespace Quota

def addUsage (usage i : Int) : Int :=
  if 0 < i then
    if usage > maxInt64 - i then maxInt64 else usage + i
  else if i < 0 then
    if i = minInt64 then 0
    else if usage ≤ -i then 0
    else usage + i
  else usage

def add (quota : Quota) (i : Int) : Quota := { quota with usage := addUsage quota.usage i }

def setUsage (quota : Quota) (newUsage : Int) : Quota := { quota with usage := newUsage }

/-- `CanFit`: whether `size` more bytes fit under the limit. -/
def canFit (quota : Quota) (size : Int) : Bool :=
  if quota.limit = -1 then false
  else if quota.limit = 0 then true
  else if quota.usage = -1 then true
  else if size ≤ 0 then true
  else if quota.usage ≥ quota.limit then false
  else size ≤ wrap (quota.limit - quota.usage)

@[simp] theorem add_limit (quota : Quota) (i : Int) : (quota.add i).limit = quota.limit := rfl

@[simp] theorem add_usage (quota : Quota) (i : Int) :
    (quota.add i).usage = addUsage quota.usage i := rfl

@[simp] theorem setUsage_usage (quota : Quota) (newUsage : Int) :
    (quota.setUsage newUsage).usage = newUsage := rfl

theorem addUsage_eq_add {usage i : Int} (usageBounded : usage ≤ maxInt64)
    (nonnegative : 0 ≤ usage + i) (bounded : usage + i ≤ maxInt64) :
    addUsage usage i = usage + i := by
  simp only [addUsage, minInt64, maxInt64] at usageBounded bounded ⊢
  split_ifs <;> omega

theorem canFit_iff {quota : Quota} {size : Int}
    (limitPositive : 0 < quota.limit) (limitBounded : quota.limit ≤ maxInt64)
    (usageNonnegative : 0 ≤ quota.usage) (sizePositive : 0 < size) :
    quota.canFit size = true ↔ quota.usage + size ≤ quota.limit := by
  have limitDifferent : quota.limit ≠ -1 ∧ quota.limit ≠ 0 := by omega
  have usageKnown : quota.usage ≠ -1 := by omega
  by_cases full : quota.usage ≥ quota.limit
  · simp only [canFit, limitDifferent, usageKnown, full, if_true, if_false,
      Int.not_le.2 sizePositive, Bool.false_eq_true, false_iff]
    omega
  · have room : wrap (quota.limit - quota.usage) = quota.limit - quota.usage :=
      wrap_eq_self (inRange_of_nonneg (by omega) (by omega))
    simp only [canFit, limitDifferent, usageKnown, full, if_false,
      Int.not_le.2 sizePositive, room, decide_eq_true_eq]
    omega

theorem add_le_limit_of_canFit {quota : Quota} {size : Int}
    (fits : quota.canFit size = true) (limited : quota.limit ≠ 0)
    (limitBounded : quota.limit ≤ maxInt64) (usageNonnegative : 0 ≤ quota.usage)
    (sizePositive : 0 < size) : quota.usage + size ≤ quota.limit := by
  by_cases positive : 0 < quota.limit
  · exact (canFit_iff positive limitBounded usageNonnegative sizePositive).mp fits
  · have full : quota.usage ≥ quota.limit := by omega
    have usageKnown : quota.usage ≠ -1 := by omega
    simp [canFit, limited, usageKnown, full, Int.not_le.2 sizePositive] at fits

end Quota

structure Ledger where
  unixFS : Quota
  reserved : Int
  walking : Bool
  walkReserved : Int

namespace Ledger

section

variable (fs : Ledger)

def hasSpaceFor (size : Int) : Bool := fs.unixFS.canFit size

/-- `reserveDisk`, returning `none` for the disk-space error. -/
def reserveDisk (size : Int) : Option Ledger :=
  if size ≤ 0 then some fs
  else if fs.hasSpaceFor size then
    some
      { unixFS := fs.unixFS.add size
        reserved := wrap (fs.reserved + size)
        walking := fs.walking
        walkReserved :=
          if fs.walking then wrap (fs.walkReserved + size)
          else fs.walkReserved }
  else none

/-- `releaseDisk`: replace reserved space by the space actually used. -/
def releaseDisk (reserved used : Int) : Ledger :=
  let released := if reserved < 0 then 0 else reserved
  { unixFS := fs.unixFS.add (wrap (used - released))
    reserved := wrap (fs.reserved - released)
    walking := fs.walking
    walkReserved :=
      if fs.walking then max (wrap (fs.walkReserved - released)) 0
      else fs.walkReserved }

/-- `adjustDisk`.  Its result is the usage of the ledger it leaves. -/
def adjustDisk (size : Int) : Ledger :=
  if size = 0 then fs
  else { fs with unixFS := fs.unixFS.add size }

def walkBegin : Ledger := { fs with walking := true, walkReserved := fs.reserved }

/-- Usage stored by a walk that has measured `size` bytes and possibly failed. -/
def walkedUsage (size : Int) (failed : Bool) : Int :=
  let usage := wrap (size + fs.walkReserved)
  if failed then max usage fs.unixFS.usage else usage

def walkEnd (size : Int) (failed : Bool) : Ledger :=
  { fs with
    unixFS := fs.unixFS.setUsage (fs.walkedUsage size failed)
    walking := false }

end

/-- Space that an outcome of `reserveDisk` adds to the reservations. -/
def reservation (size : Int) : Int := max size 0

theorem reservation_nonneg (size : Int) : 0 ≤ reservation size := le_max_right size 0

section Usage

variable {fs : Ledger}

theorem reserveDisk_eq_none_iff (limitPositive : 0 < fs.unixFS.limit)
    (limitBounded : fs.unixFS.limit ≤ maxInt64)
    (usageNonnegative : 0 ≤ fs.unixFS.usage) (sizePositive : 0 < size) :
    fs.reserveDisk size = none ↔ fs.unixFS.limit < fs.unixFS.usage + size := by
  have fits := Quota.canFit_iff limitPositive limitBounded usageNonnegative sizePositive
  rw [reserveDisk, if_neg (Int.not_le.2 sizePositive), hasSpaceFor]
  split_ifs with fit
  · have := fits.1 fit
    simp only [false_iff]
    omega
  · have := mt fits.2 fit
    simp only [true_iff]
    omega

@[simp] theorem releaseDisk_limit (fs : Ledger) (reserved used : Int) :
    (fs.releaseDisk reserved used).unixFS.limit = fs.unixFS.limit := rfl

end Usage

section Exact

variable {fs : Ledger}

/-- `size` more bytes do not take the usage above the largest integer, which a disk
limit rules out. -/
def Fits (fs : Ledger) (size : Int) : Prop :=
  fs.unixFS.limit ≠ 0 ∨ fs.unixFS.usage + size ≤ maxInt64

theorem Fits.mono (fits : fs.Fits larger) (smaller : size ≤ larger) : fs.Fits size :=
    fits.imp_right fun bounded => by omega

theorem reserveDisk_exact (granted : fs.reserveDisk size = some after)
    (usageNonnegative : 0 ≤ fs.unixFS.usage) (usageBounded : fs.unixFS.usage ≤ maxInt64)
    (limitBounded : fs.unixFS.limit ≤ maxInt64) (fits : fs.Fits size) :
    after.unixFS.usage = fs.unixFS.usage + reservation size ∧ after.unixFS.usage ≤ maxInt64 ∧
    after.unixFS.limit = fs.unixFS.limit := by
  rw [reserveDisk] at granted
  by_cases nothing : size ≤ 0
  · rw [if_pos nothing] at granted
    cases granted
    refine ⟨?_, usageBounded, rfl⟩
    rw [reservation, max_eq_right nothing, Int.add_zero]
  · rw [if_neg nothing, Option.ite_none_right_eq_some] at granted
    obtain ⟨room, granted⟩ := granted
    cases granted
    have bounded : fs.unixFS.usage + size ≤ maxInt64 := by
      rcases fits with limited | bounded
      · exact (Quota.add_le_limit_of_canFit room limited limitBounded
          usageNonnegative (by omega)).trans limitBounded
      · exact bounded
    have added : Quota.addUsage fs.unixFS.usage size = fs.unixFS.usage + size :=
      Quota.addUsage_eq_add usageBounded (by omega) bounded
    refine ⟨?_, ?_, rfl⟩
    · rw [reservation, max_eq_left (by omega)]
      exact added
    · rw [Quota.add_usage, added]
      exact bounded

theorem reserveDisk_usage (limitPositive : 0 < fs.unixFS.limit)
    (limitBounded : fs.unixFS.limit ≤ maxInt64)
    (usageNonnegative : 0 ≤ fs.unixFS.usage) (sizePositive : 0 < size)
    (granted : fs.reserveDisk size = some after) :
    after.unixFS.limit = fs.unixFS.limit ∧ after.unixFS.usage = fs.unixFS.usage + size ∧
    fs.unixFS.usage + size ≤ fs.unixFS.limit := by
  have notRefused : ¬fs.unixFS.limit < fs.unixFS.usage + size := by
    rw [← reserveDisk_eq_none_iff limitPositive limitBounded usageNonnegative sizePositive, granted]
    simp
  obtain ⟨usage, _, limit⟩ := reserveDisk_exact granted usageNonnegative (by omega) limitBounded
    (.inl (by omega))
  rw [reservation, max_eq_left sizePositive.le] at usage
  exact ⟨limit, usage, by omega⟩

theorem releaseDisk_exact {reserved used : Int} (reservedNonnegative : 0 ≤ reserved)
    (usageNonnegative : 0 ≤ fs.unixFS.usage) (usageBounded : fs.unixFS.usage ≤ maxInt64)
    (nonnegative : 0 ≤ fs.unixFS.usage + used - reserved)
    (bounded : fs.unixFS.usage + used - reserved ≤ maxInt64) :
    (fs.releaseDisk reserved used).unixFS.usage = fs.unixFS.usage + used - reserved := by
  have released : (if reserved < 0 then 0 else reserved) = reserved := if_neg (by omega)
  have representable : InRange (used - reserved) := by
    simp only [InRange, minInt64, maxInt64] at usageBounded bounded ⊢
    omega
  rw [releaseDisk]
  rw [released, wrap_eq_self representable, Quota.add_usage,
    Quota.addUsage_eq_add usageBounded (by omega) (by omega)]
  omega

theorem adjustDisk_exact (usageBounded : fs.unixFS.usage ≤ maxInt64)
    (nonnegative : 0 ≤ fs.unixFS.usage + change) (bounded : fs.unixFS.usage + change ≤ maxInt64) :
    (fs.adjustDisk change).unixFS.usage = fs.unixFS.usage + change := by
  rw [adjustDisk]
  split_ifs with unchanged
  · rw [unchanged, Int.add_zero]
  · exact Quota.addUsage_eq_add usageBounded nonnegative bounded

theorem adjustDisk_limit (fs : Ledger) (change : Int) :
    (fs.adjustDisk change).unixFS.limit = fs.unixFS.limit := by
  rw [adjustDisk]
  split_ifs <;> rfl

end Exact

/-- `reserved` is a nonnegative total, and so is `walkReserved` while the disk is walked. -/
structure Accounts (fs : Ledger) (total : Int) : Prop where
  nonnegative : 0 ≤ total
  bounded : total ≤ maxInt64
  reserved_eq : fs.reserved = total
  walkReserved_eq : fs.walking = true → fs.walkReserved = total

namespace Accounts

variable {fs : Ledger}

section

variable (accounts : fs.Accounts total)
include accounts

theorem reserveDisk (bounded : fs.reserved + size ≤ maxInt64)
    (succeeded : fs.reserveDisk size = some after) : after.Accounts (total + reservation size) := by
  have totalNonnegative := accounts.nonnegative
  have reservedEqual := accounts.reserved_eq
  by_cases nonpositive : size ≤ 0
  · have nothing : reservation size = 0 := max_eq_right nonpositive
    rw [Ledger.reserveDisk, if_pos nonpositive] at succeeded
    rw [nothing, add_zero]
    exact (Option.some.inj succeeded) ▸ accounts
  · have something : reservation size = size := max_eq_left (Int.not_le.1 nonpositive).le
    have exact : wrap (total + size) = total + size :=
      wrap_eq_self (inRange_of_nonneg (by omega) (by omega))
    rw [Ledger.reserveDisk, if_neg nonpositive, Option.ite_none_right_eq_some] at succeeded
    obtain rfl := Option.some.inj succeeded.2
    rw [something]
    refine ⟨by omega, by omega, ?_, ?_⟩
    · simp only [reservedEqual, exact]
    · intro walking
      simp only at walking
      simp only [walking, if_true, accounts.walkReserved_eq walking, exact]

theorem releaseDisk {reserved : Int} (used : Int)
    (within : reservation reserved ≤ total) : (fs.releaseDisk reserved used).Accounts
    (total - reservation reserved) := by
  have totalBounded := accounts.bounded
  have released : (if reserved < 0 then 0 else reserved) = reservation reserved := by
    unfold reservation
    split_ifs <;> omega
  have exact : wrap (total - reservation reserved) = total - reservation reserved :=
    wrap_eq_self (inRange_of_nonneg (by omega) (by omega))
  refine ⟨by omega, by omega, ?_, ?_⟩
  · simp only [Ledger.releaseDisk, released, accounts.reserved_eq, exact]
  · intro walking
    change fs.walking = true at walking
    simp only [Ledger.releaseDisk, released, walking, if_true,
      accounts.walkReserved_eq walking, exact]
    omega

theorem adjustDisk (size : Int) : (fs.adjustDisk size).Accounts total := by
  unfold Ledger.adjustDisk
  split_ifs
  · exact accounts
  · exact { accounts with }

theorem walkBegin : fs.walkBegin.Accounts total :=
  { accounts with walkReserved_eq := fun _ => accounts.reserved_eq }

theorem walkEnd (size : Int) (failed : Bool) : (fs.walkEnd size failed).Accounts total :=
  { accounts with walkReserved_eq := fun walking => by simp [Ledger.walkEnd] at walking }

end

theorem walkEnd_usage (accounts : fs.Accounts 0) (walking : fs.walking = true)
    (representable : InRange size) : (fs.walkEnd size false).unixFS.usage = size := by
  simp [Ledger.walkEnd, walkedUsage, accounts.walkReserved_eq walking, wrap_eq_self representable]

end Accounts
end Ledger

/-- `quotaWriteEnd`, returning `none` when the end is not representable. -/
def quotaWriteEnd (off : Int) (size : Nat) : Option Int :=
  if off > maxInt64 - size then none else some (off + size)

/-- Value of `writtenEnd` after `n` bytes were written at `off`. -/
def quotaWrittenEnd (previousSize off : Int) (n : Nat) : Int :=
  if 0 < n then (quotaWriteEnd off n).getD 0 else previousSize

/-- Growth that a write reports to `releaseDisk`. -/
def quotaActual (previousSize off : Int) (n : Nat) : Int :=
  let writtenEnd := quotaWrittenEnd previousSize off n
  if writtenEnd > previousSize then writtenEnd - previousSize else 0

theorem quotaWriteEnd_eq_some (found : quotaWriteEnd off size = some stop) :
    stop = off + size ∧ off + size ≤ maxInt64 := by
  unfold quotaWriteEnd at found
  split_ifs at found with overflows
  exact ⟨(Option.some.inj found).symm, by omega⟩

theorem quotaWriteEnd_of_le {off : Int} {size : Nat} (fits : off + size ≤ maxInt64) :
    quotaWriteEnd off size = some (off + size) := by
  rw [quotaWriteEnd, if_neg (by omega)]

theorem quotaWrittenEnd_eq {off : Int} {n : Nat} (previousSize : Int) (fits : off + n ≤ maxInt64) :
    quotaWrittenEnd previousSize off n =
      if 0 < n then off + n else previousSize := by
  rw [quotaWrittenEnd, quotaWriteEnd_of_le fits, Option.getD_some]

end Wings.Filesystem

namespace Wings.Filesystem.QuotaCounter

open MachineInt Processes Transition
open Quota (addUsage)

/-- What `Add` stores, in `int64` arithmetic; `addUsage` is the same over the integers. -/
def nextUsage (usage i : Int) : Int :=
  if 0 < i then
    if usage > wrap (maxInt64 - i) then maxInt64 else wrap (usage + i)
  else if i < 0 then
    if i = minInt64 then 0
    else if usage ≤ wrap (-i) then 0
    else wrap (usage + i)
  else usage

inductive AddCall where
  | calling
  | loaded (usage : Int)
  | returned (usage : Int)

/-- The load, after which a call that adds nothing returns, or the compare-and-swap. -/
def addStep (i : Nat → Int) (call : Nat) (_ : Unit) (current : Int) :
    AddCall → Option (Int × AddCall)
  | .calling => some (current, if i call = 0 then .returned current else .loaded current)
  | .loaded usage =>
    let next := nextUsage usage (i call)
    some (if current = usage then (next, .returned next) else (current, .calling))
  | .returned _ => none

def Initial (usage : Int) (config : Config Int AddCall) : Prop :=
  config = ⟨usage, fun _ => .calling⟩

def clampedAdd (usage i : Int) : Int := max 0 (min (usage + i) maxInt64)

/-- The usage is in range, and it is what the calls that have returned make of the first one. -/
structure Linear (i : Nat → Int) (initial : Int) (config : Config Int AddCall) : Prop where
  nonnegative : 0 ≤ config.shared
  bounded : config.shared ≤ maxInt64
  ordered : ∃ order : List Nat, order.Nodup ∧
    (∀ call, call ∈ order ↔ ∃ usage, config.own call = .returned usage) ∧
      config.shared = (order.map i).foldl clampedAdd initial

/-- The call returns if no other one moves any more. -/
def ReturnsAlone (i : Nat → Int) (call : Nat) : Config Int AddCall → Prop :=
  Inevitable (Guarded (fun _ label => label.1 = call) (Config.Steps (addStep i)))
    (fun _ => True) fun config => ∃ usage, config.own call = .returned usage

variable {i : Nat → Int} {config after : Config Int AddCall}

section

variable {i : Int} (isInt64 : InRange i) (nonnegative : 0 ≤ usage) (bounded : usage ≤ maxInt64)
include isInt64 nonnegative bounded

theorem nextUsage_eq_addUsage : nextUsage usage i = addUsage usage i := by
  simp only [InRange, minInt64, maxInt64] at isInt64 bounded
  simp only [nextUsage, addUsage, wrap, minInt64, maxInt64]
  split_ifs <;> omega

theorem addUsage_eq_clampedAdd : addUsage usage i = clampedAdd usage i := by
  simp only [InRange, minInt64, maxInt64] at isInt64 bounded
  simp only [addUsage, clampedAdd, minInt64, maxInt64]
  split_ifs <;> omega

end

section

variable (linear : Linear i initial config) (unreturned : ∀ usage, config.own call ≠ .returned usage)
include linear unreturned

theorem Linear.goesOn {own : AddCall} (goesOn : ∀ usage, own ≠ .returned usage) :
    Linear i initial ⟨config.shared, Function.update config.own call own⟩ := by
  obtain ⟨order, distinct, returned, usage⟩ := linear.ordered
  refine { linear with ordered := ⟨order, distinct, fun other => ?_, usage⟩ }
  rw [returned other]
  by_cases same : other = call
  · subst same
    simp [unreturned, goesOn]
  · simp [same]

theorem Linear.returns (added : value = clampedAdd config.shared (i call)) :
    Linear i initial ⟨value, Function.update config.own call (.returned value)⟩ := by
  obtain ⟨order, distinct, returned, usage⟩ := linear.ordered
  have last : call ∉ order := by
    rw [returned call]
    exact fun ⟨value, isReturned⟩ => unreturned value isReturned
  have range : 0 ≤ value ∧ value ≤ maxInt64 := by
    simp only [added, clampedAdd, maxInt64]
    omega
  refine ⟨range.1, range.2, order ++ [call], ?_, fun other => ?_, ?_⟩
  · exact List.nodup_append.2 ⟨distinct, by simp, by grind⟩
  · rw [List.mem_append, List.mem_singleton, returned other]
    by_cases same : other = call
    · subst same
      simp
    · simp [same]
  · rw [List.map_append, List.foldl_append, ← usage]
    exact added

end

theorem Linear.step (isInt64 : ∀ call, InRange (i call)) (linear : Linear i initial config)
    (taken : config.Steps (addStep i) label after) : Linear i initial after := by
  obtain ⟨shared, own, moved, rfl⟩ := Config.steps_iff.1 taken
  have sum := (nextUsage_eq_addUsage (isInt64 label.1) linear.nonnegative linear.bounded).trans
    (addUsage_eq_clampedAdd (isInt64 label.1) linear.nonnegative linear.bounded)
  cases phase : config.own label.1 with
  | calling =>
    simp only [phase, addStep, Option.some.injEq, Prod.mk.injEq] at moved
    obtain ⟨rfl, rfl⟩ := moved
    split_ifs with nothing
    · refine linear.returns (by simp [phase]) ?_
      rw [← sum, nothing]
      rfl
    · exact linear.goesOn (by simp [phase]) (by simp)
  | loaded usage =>
    simp only [phase, addStep, Option.some.injEq] at moved
    split_ifs at moved with unchanged <;> cases moved
    · exact linear.returns (by simp [phase]) (unchanged ▸ sum)
    · exact linear.goesOn (by simp [phase]) (by simp)
  | returned usage => simp [phase, addStep] at moved

def stepsLeft (call : Nat) (config : Config Int AddCall) : Nat :=
  match config.own call with
  | .calling => 2
  | .loaded usage => if config.shared = usage then 1 else 3
  | .returned _ => 0

theorem stepsLeft_lt (taken : config.Steps (addStep i) label after) :
    stepsLeft label.1 after < stepsLeft label.1 config := by
  obtain ⟨shared, own, moved, rfl⟩ := Config.steps_iff.1 taken
  cases phase : config.own label.1 with
  | calling =>
    simp only [phase, addStep, Option.some.injEq, Prod.mk.injEq] at moved
    obtain ⟨rfl, rfl⟩ := moved
    split_ifs <;> simp [stepsLeft, phase]
  | loaded usage =>
    simp only [phase, addStep, Option.some.injEq] at moved
    split_ifs at moved with unchanged <;> cases moved <;> simp [stepsLeft, phase, unchanged]
  | returned usage => simp [phase, addStep] at moved

theorem returnsAlone (i : Nat → Int) (call : Nat) (config : Config Int AddCall) :
    ReturnsAlone i call config := by
  refine Inevitable.of_measure (stepsLeft call) (fun _ _ _ _ _ => trivial) ?_ ?_ trivial
  · rintro state label after ⟨rfl, taken⟩
    exact stepsLeft_lt taken
  · intro state _
    by_cases returned : ∃ usage, state.own call = .returned usage
    · exact .inl returned
    · have able : (state.step (addStep i) (call, ())).isSome := by
        cases phase : state.own call <;> simp_all [Config.step, addStep]
      obtain ⟨after, taken⟩ := Option.isSome_iff_exists.1 able
      exact .inr ⟨_, after, trivial, rfl, taken⟩

/-- The usage is what the calls that have returned make of it one after another, every call returns
when it is left alone, and room that `CanFit` finds is there. -/
theorem usage_linearizable (isInt64 : ∀ call, InRange (i call)) (nonnegative : 0 ≤ initial)
    (bounded : initial ≤ maxInt64)
    (reached : Reachable (Initial initial) (Config.Steps (addStep i)) config) :
    Linear i initial config ∧ (∀ call, ReturnsAlone i call config) ∧
      ∀ (quota : Quota) (size : Int), quota.canFit size = true → 0 < quota.limit →
        quota.limit ≤ maxInt64 → 0 < size → 0 ≤ quota.usage →
          quota.usage + size ≤ quota.limit ∧ InRange (quota.usage + size) := by
  refine ⟨?_, fun call => returnsAlone i call config, ?_⟩
  · refine reached.invariant ?_ fun _ _ _ linear taken => linear.step isInt64 taken
    rintro _ rfl
    exact ⟨nonnegative, bounded, [], List.nodup_nil, by simp, rfl⟩
  · intro quota size fits limitPositive limitBounded sizePositive known
    have within := (Quota.canFit_iff limitPositive limitBounded known sizePositive).1 fits
    exact ⟨within, inRange_of_nonneg (by omega) (by omega)⟩

theorem two_calls_linear : ∃ config,
    Reachable (Initial 1) (Config.Steps (addStep fun _ => 3)) config ∧
      config.own 1 = .returned 7 ∧ Linear (fun _ => 3) 1 config := by
  have start : Reachable (Initial 1) (Config.Steps (addStep fun _ => 3))
      ⟨1, fun _ => .calling⟩ := .start rfl
  have reached := start.execute [(1, ()), (2, ()), (2, ()), (1, ()), (1, ()), (1, ())] rfl
  exact ⟨_, reached, rfl, (usage_linearizable (fun _ => by decide) (by decide) (by decide)
    reached).1⟩

end Wings.Filesystem.QuotaCounter
