import Mathlib.Algebra.BigOperators.Group.Finset.Basic
import Mathlib.Algebra.Order.BigOperators.Group.List
import Wings.Filesystem.DiskSpace
import Wings.Library.Dictionary

/-!
# The quota check of an upload batch

The growth of a batch is computed from the sizes of the files that are there. The credit of
shrinking files is capped against overflow; the peak is not changed by it.
-/

namespace Wings.Uploads.Batch

open MachineInt

variable {Path : Type} [DecidableEq Path]

structure Target (Path : Type) where
  path : Path
  size : Int

inductive Refusal
  | ignored
  | badRequest (error : String)

structure Plan (Path : Type) [DecidableEq Path] where
  growth : Int
  projectedGrowth : Int
  plannedSizes : Dictionary Path Int

def Plan.start : Plan Path := ⟨0, 0, ∅⟩

def project (maxFileSizeBytes projectedGrowth delta : Int) : Int :=
  if delta < 0 ∧ projectedGrowth < wrap (wrap (-maxFileSizeBytes) - delta) then
    wrap (-maxFileSizeBytes)
  else wrap (projectedGrowth + delta)

/-- What `project` computes on its way, before it is reduced. -/
def projectValues (maxFileSizeBytes projectedGrowth delta : Int) : List Int :=
  if delta < 0 then
    [-maxFileSizeBytes, wrap (-maxFileSizeBytes) - delta] ++
      if projectedGrowth < wrap (wrap (-maxFileSizeBytes) - delta) then []
      else [projectedGrowth + delta]
  else [projectedGrowth + delta]

namespace Plan

def oldSize (plan : Plan Path) (existing : Int) (path : Path) : Int :=
  (plan.plannedSizes.lookup path).getD existing

/-- What one pass of the loop computes on its way, before it is reduced. -/
def values (maxFileSizeBytes : Int) (plan : Plan Path) (existing : Int)
    (target : Target Path) : List Int :=
  let delta := target.size - plan.oldSize existing target.path
  delta :: projectValues maxFileSizeBytes plan.projectedGrowth (wrap delta)

def add (maxFileSizeBytes : Int) (allowed : Path → Bool)
    (multipartUploadExistingSize : Path → Option Int) (plan : Plan Path)
    (target : Target Path) : Except Refusal (Plan Path) :=
  if allowed target.path then
    match multipartUploadExistingSize target.path with
    | none => .error (.badRequest
        "An upload destination is not a regular file or contains a symbolic link.")
    | some existing =>
      let delta := wrap (target.size - plan.oldSize existing target.path)
      let projected := project maxFileSizeBytes plan.projectedGrowth delta
      .ok {
        growth := if projected > plan.growth then projected else plan.growth
        projectedGrowth := projected
        plannedSizes := plan.plannedSizes.insert target.path target.size }
  else .error .ignored

def addAll (maxFileSizeBytes : Int) (allowed : Path → Bool)
    (multipartUploadExistingSize : Path → Option Int)
    (targets : List (Target Path)) : Except Refusal (Plan Path) := targets.foldlM
    (add maxFileSizeBytes allowed multipartUploadExistingSize) start

end Plan

def stored (existing : Path → Int) (done : List (Target Path)) : Path → Int :=
  done.foldl (fun sizes target => Function.update sizes target.path target.size) existing

def netChange (existing : Path → Int) (done : List (Target Path)) : Int :=
  ∑ path ∈ (done.map Target.path).toFinset, (stored existing done path - existing path)

/-- The largest of zero and the net changes after the first uploads. -/
def peak (existing : Path → Int) (targets : List (Target Path)) : Int :=
  (targets.inits.map (netChange existing)).foldl max 0

def newSize (targets : List (Target Path)) : Int := (targets.map Target.size).sum

variable {existing : Path → Int} {done : List (Target Path)}

theorem stored_concat : stored existing (done ++ [target]) =
    Function.update (stored existing done) target.path target.size := by
  simp [stored]

theorem stored_of_untouched (untouched : path ∉ done.map Target.path) :
    stored existing done path = existing path := by
  induction done using List.reverseRecOn with
  | nil => rfl
  | append_singleton done target ih =>
      simp only [List.map_append, List.map_singleton, List.mem_append,
        List.mem_singleton, not_or] at untouched
      rw [stored_concat, Function.update_of_ne untouched.2, ih untouched.1]

theorem netChange_concat (existing : Path → Int) (done : List (Target Path))
    (target : Target Path) : netChange existing (done ++ [target]) = netChange existing done +
    (target.size - stored existing done target.path) := by
  have paths : ((done ++ [target]).map Target.path).toFinset =
      insert target.path (done.map Target.path).toFinset := by
    ext path
    simp
  have before : netChange existing done =
      ∑ path ∈ insert target.path (done.map Target.path).toFinset,
        (stored existing done path - existing path) := by
    refine (Finset.sum_insert_of_eq_zero_if_notMem fun fresh => ?_).symm
    rw [stored_of_untouched (by simpa using fresh), sub_self]
  rw [before, netChange, paths, ← sub_eq_iff_eq_add', ← Finset.sum_sub_distrib,
    Finset.sum_eq_single target.path]
  · simp [stored_concat]
  · intro path _ other
    simp [stored_concat, Function.update_of_ne other]
  · simp

theorem peak_concat : peak existing (done ++ [target]) =
    max (peak existing done) (netChange existing (done ++ [target])) := by
  simp [peak, List.inits_append]

omit [DecidableEq Path] in
@[simp] theorem newSize_append (done after : List (Target Path)) :
    newSize (done ++ after) = newSize done + newSize after := by
  simp [newSize]

omit [DecidableEq Path] in
@[simp] theorem newSize_nil : newSize ([] : List (Target Path)) = 0 := rfl

omit [DecidableEq Path] in
@[simp] theorem newSize_cons : newSize (target :: done) = target.size + newSize done := by
  simp [newSize]

omit [DecidableEq Path] in
theorem newSize_nonneg (nonneg : ∀ target ∈ done, 0 ≤ target.size) : 0 ≤ newSize done :=
  List.sum_nonneg (by simpa using nonneg)

/-- The plan after the first targets. With capped credit the rest does not reach zero. -/
structure Follows (maxFileSizeBytes : Int) (existing : Path → Int)
    (done : List (Target Path)) (plan : Plan Path) : Prop where
  oldSize : ∀ path, plan.oldSize (existing path) path = stored existing done path
  nonneg : ∀ path, 0 ≤ stored existing done path
  bounded : ∀ path, stored existing done path ≤ maxInt64
  lower : -maxFileSizeBytes ≤ plan.projectedGrowth
  upper : plan.projectedGrowth ≤ newSize done
  credit : netChange existing done ≤ plan.projectedGrowth
  capped : plan.projectedGrowth = netChange existing done ∨
    plan.projectedGrowth ≤ newSize done - maxFileSizeBytes
  positive : 0 ≤ plan.growth
  growth : plan.growth = peak existing done

theorem follows_start (limit : 0 ≤ maxFileSizeBytes)
    (sizes : ∀ path, 0 ≤ existing path ∧ existing path ≤ maxInt64) :
    Follows maxFileSizeBytes existing [] Plan.start where
  oldSize := fun path => rfl
  nonneg := fun path => (sizes path).1
  bounded := fun path => (sizes path).2
  lower := neg_nonpos.mpr limit
  upper := le_rfl
  credit := le_rfl
  capped := .inl rfl
  positive := le_rfl
  growth := by simp [Plan.start, peak, netChange]

theorem project_eq (limit : 0 ≤ maxFileSizeBytes ∧ maxFileSizeBytes ≤ maxInt64)
    (lower : -maxFileSizeBytes ≤ projectedGrowth) (least : -maxInt64 ≤ delta)
    (upper : projectedGrowth + delta ≤ maxFileSizeBytes) :
    project maxFileSizeBytes projectedGrowth delta =
    max (-maxFileSizeBytes) (projectedGrowth + delta) ∧
    ∀ value ∈ projectValues maxFileSizeBytes projectedGrowth delta, InRange value := by
  simp only [maxInt64] at limit least
  have negated : wrap (-maxFileSizeBytes) = -maxFileSizeBytes :=
    wrap_eq_self (by simp only [InRange, minInt64, maxInt64]; omega)
  unfold project projectValues
  rw [negated]
  by_cases shrinks : delta < 0
  · have room : wrap (-maxFileSizeBytes - delta) = -maxFileSizeBytes - delta :=
      wrap_eq_self (by simp only [InRange, minInt64, maxInt64]; omega)
    rw [room]
    by_cases capped : projectedGrowth < -maxFileSizeBytes - delta
    · rw [if_pos ⟨shrinks, capped⟩, if_pos shrinks, if_pos capped]
      simp only [InRange, minInt64, maxInt64]
      refine ⟨by omega, ?_⟩
      simp
      omega
    · have sum : InRange (projectedGrowth + delta) := by
        simp only [InRange, minInt64, maxInt64]
        omega
      rw [if_neg fun both => capped both.2, if_pos shrinks, if_neg capped, wrap_eq_self sum]
      refine ⟨by omega, ?_⟩
      simp [sum]
      simp only [InRange, minInt64, maxInt64]
      omega
  · have sum : InRange (projectedGrowth + delta) := by
      simp only [InRange, minInt64, maxInt64]
      omega
    rw [if_neg fun both => shrinks both.1, if_neg shrinks, wrap_eq_self sum]
    refine ⟨by omega, ?_⟩
    simpa using sum

/-- The new sizes fit, and the destinations are allowed and absent or regular files. -/
structure Admissible (maxFileSizeBytes : Int) (existing : Path → Int)
    (allowed : Path → Bool) (multipartUploadExistingSize : Path → Option Int)
    (targets : List (Target Path)) : Prop where
  limit : maxFileSizeBytes ≤ maxInt64
  sizes : ∀ path, 0 ≤ existing path ∧ existing path ≤ maxInt64
  nonneg : ∀ target ∈ targets, 0 ≤ target.size
  total : newSize targets ≤ maxFileSizeBytes
  isAllowed : ∀ target ∈ targets, allowed target.path = true
  found : ∀ target ∈ targets, multipartUploadExistingSize target.path = some (existing target.path)

theorem Follows.add (follows : Follows maxFileSizeBytes existing done plan)
    (admissible : Admissible maxFileSizeBytes existing allowed
    multipartUploadExistingSize (done ++ target :: after)) :
    (∀ value ∈ plan.values maxFileSizeBytes (existing target.path) target, InRange value) ∧
    ∃ next, plan.add maxFileSizeBytes allowed multipartUploadExistingSize target = .ok next ∧
    Follows maxFileSizeBytes existing (done ++ [target]) next := by
  obtain ⟨limit, -, nonneg, total, isAllowed, found⟩ := admissible
  rw [List.forall_mem_append, List.forall_mem_cons] at nonneg isAllowed found
  obtain ⟨before, nonneg, rest⟩ := nonneg
  have doneNonneg := newSize_nonneg before
  have afterNonneg := newSize_nonneg rest
  simp only [newSize_append, newSize_cons] at total
  have change := netChange_concat existing done target
  obtain ⟨oldSize, olds, bounded, lower, upper, credit, capped, positive, growth⟩ := follows
  have old := olds target.path
  have oldBounded := bounded target.path
  have delta : InRange (target.size - stored existing done target.path) := by
    simp only [InRange, minInt64, maxInt64] at limit oldBounded ⊢
    omega
  have least : -maxInt64 ≤ target.size - stored existing done target.path := by
    omega
  obtain ⟨projected, inRange⟩ := project_eq ⟨by omega, limit⟩ lower least (by omega)
  simp only [Plan.values, Plan.add, isAllowed.2.1, found.2.1, oldSize,
    wrap_eq_self delta, projected, if_true]
  refine ⟨by simpa [delta] using inRange, _, rfl, ?_⟩
  constructor
  · intro path
    rw [stored_concat]
    by_cases same : path = target.path
    · subst path
      simp [Plan.oldSize]
    · rw [Function.update_of_ne same, ← oldSize path]
      simp [Plan.oldSize, AList.lookup_insert_ne same]
  · intro path
    rw [stored_concat, Function.update_apply]
    split_ifs
    · exact nonneg
    · exact olds path
  · intro path
    rw [stored_concat, Function.update_apply]
    split_ifs
    · omega
    · exact bounded path
  all_goals
    simp only [newSize_append, newSize_cons, newSize_nil, peak_concat, change]
    omega

theorem Admissible.follows (admissible : Admissible maxFileSizeBytes existing allowed
    multipartUploadExistingSize targets) (before after : List (Target Path))
    (split : targets = before ++ after) :
    ∃ plan, Plan.addAll maxFileSizeBytes allowed multipartUploadExistingSize before = .ok plan ∧
    Follows maxFileSizeBytes existing before plan := by
  induction before using List.reverseRecOn generalizing after with
  | nil =>
      have nonneg := newSize_nonneg admissible.nonneg
      exact ⟨_, rfl, follows_start (nonneg.trans admissible.total) admissible.sizes⟩
  | append_singleton done target ih =>
      rw [List.append_assoc] at split
      obtain ⟨plan, reached, follows⟩ := ih _ split
      obtain ⟨-, next, added, follows⟩ := follows.add (split ▸ admissible)
      refine ⟨next, ?_, follows⟩
      rw [Plan.addAll, List.foldlM_append, ← Plan.addAll, reached]
      simp [added, bind, Except.bind, pure, Except.pure]

/-- The growth that is checked is the peak of the uploads performed in order, without overflow. -/
theorem growth_eq_peak (targets : List (Target Path))
    (admissible : Admissible maxFileSizeBytes existing allowed
      multipartUploadExistingSize targets) :
    (∃ plan, Plan.addAll maxFileSizeBytes allowed multipartUploadExistingSize
      targets = .ok plan ∧ plan.growth = peak existing targets) ∧
    ∀ before target after, targets = before ++ target :: after →
      ∃ plan, Plan.addAll maxFileSizeBytes allowed multipartUploadExistingSize before = .ok plan ∧
        ∀ value ∈ plan.values maxFileSizeBytes (existing target.path) target, InRange value := by
  constructor
  · obtain ⟨plan, reached, follows⟩ := admissible.follows targets [] (List.append_nil _).symm
    exact ⟨plan, reached, follows.growth⟩
  · intro before target after split
    obtain ⟨plan, reached, follows⟩ := admissible.follows before _ split
    exact ⟨plan, reached, (follows.add (split ▸ admissible)).1⟩

theorem growth_eq_peak_replaced : ∃ plan, Plan.addAll 5 (fun _ => true) (fun _ => some 8)
        [⟨"a", 1⟩, ⟨"a", 4⟩] = .ok plan ∧ plan.growth = peak (fun _ => 8) [⟨"a", 1⟩, ⟨"a", 4⟩] :=
  (growth_eq_peak _ {
    limit := by decide
    sizes := fun _ => by decide
    nonneg := by simp
    total := by decide
    isAllowed := by simp
    found := by simp }).1

theorem peak_le_iff {targets : List (Target Path)} (nonneg : 0 ≤ bound) :
    peak existing targets ≤ bound ↔ ∀ done, done <+: targets → netChange existing done ≤ bound := by
  induction targets using List.reverseRecOn with
  | nil => simp [peak, netChange, nonneg]
  | append_singleton targets target ih =>
    rw [peak_concat, max_le_iff, ih]
    simp only [List.prefix_concat_iff, forall_eq_or_imp]
    exact and_comm

/-- A batch is refused exactly if one of its uploads would exceed the limit. -/
theorem fits_iff_uploads_fit {fs : Filesystem.Ledger} (targets : List (Target Path))
    (admissible : Admissible maxFileSizeBytes existing allowed multipartUploadExistingSize targets)
    (limited : 0 < fs.unixFS.limit ∧ fs.unixFS.limit ≤ maxInt64) (known : 0 ≤ fs.unixFS.usage) :
    ∃ plan, Plan.addAll maxFileSizeBytes allowed multipartUploadExistingSize targets = .ok plan ∧
      (fs.hasSpaceFor plan.growth = true ↔ ∀ done, done <+: targets →
        netChange existing done ≤ max 0 (fs.unixFS.limit - fs.unixFS.usage)) := by
  obtain ⟨plan, reached, follows⟩ := admissible.follows targets [] (List.append_nil _).symm
  refine ⟨plan, reached, Iff.trans ?_ (peak_le_iff (le_max_left 0 _))⟩
  rw [← follows.growth, Filesystem.Ledger.hasSpaceFor]
  by_cases grows : 0 < plan.growth
  · rw [Filesystem.Quota.canFit_iff limited.1 limited.2 known grows]
    omega
  · refine iff_of_true ?_ (by omega)
    rw [Filesystem.Quota.canFit]
    grind

theorem replaced_upload_checked : ∃ plan,
    Plan.addAll 9 (fun _ => true) (fun _ => some 1) [⟨"a", 5⟩, ⟨"a", 2⟩] = .ok plan ∧
      ((⟨⟨6, 3⟩, 0, false, 0⟩ : Filesystem.Ledger).hasSpaceFor plan.growth = true ↔ ∀ done,
        done <+: [⟨"a", 5⟩, ⟨"a", 2⟩] → netChange (fun _ => 1) done ≤ 3) :=
  fits_iff_uploads_fit _ {
    limit := by decide
    sizes := fun _ => by decide
    nonneg := by simp
    total := by decide
    isAllowed := by simp
    found := by simp } (by decide) (by decide)

end Wings.Uploads.Batch
