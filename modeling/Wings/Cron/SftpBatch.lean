import Wings.Cron.Delivery
import Wings.Library.Transition

/-!
# One batch of SFTP events

A batch reads the events page by page while others store new ones. The order that a query finds, the
order in which the map of events is visited and the answers of the Panel are part of an action.
-/

namespace Wings.Cron.SftpBatch

open Transition

structure Batch where
  events : EventMap
  invalid : List Int
  full : Bool
  added : Bool
  pushed : List Activity

inductive BatchError where
  | database (message : String)
  | wrapped (context : String) (cause : Fault)

inductive Phase where
  | fetching
  | fetched
  /-- Rows are still to be deleted. -/
  | deleting (pending : List Int) (anyDone : Bool) (err : Option Fault)
  | returned (more : Bool) (err : Option BatchError)

structure Run where
  table : List Activity
  deleted : List Activity
  read : List Activity
  offset : Nat
  batch : Batch
  requests : List Request
  phase : Phase

/-- The pattern of the query does not tell upper from lower case. -/
def isSftp (a : Activity) : Bool :=
  "server:sftp.".toList.isPrefixOf (a.event.toList.map Char.toLower)

def rowsWith (table : List Activity) (order : List Int) : List Activity :=
  order.filterMap fun id => table.find? fun row => row.id == id

def Ordered (table : List Activity) (order : List Int) : Prop :=
  order.isPerm ((table.filter isSftp).map Activity.id) = true ∧
    (rowsWith table order).Pairwise fun a b => ¬ a.event < b.event

instance (table : List Activity) (order : List Int) : Decidable (Ordered table order) :=
  inferInstanceAs (Decidable (_ ∧ _))

def fetchRecords (table : List Activity) (order : List Int) (offset limit : Nat) : List Activity :=
  ((rowsWith table order).drop offset).take limit

section Steps

variable (standard : Standard)

def Batch.visit (batch : Batch) (a : Activity) : Batch :=
  if standard.parseIP a.ip = false then
    { batch with invalid := batch.invalid ++ [a.id] }
  else
    match batch.events.push standard a with
    | (events, true) =>
      { batch with
        events := events
        added := true
        pushed := batch.pushed ++ [a] }
    | (events, false) => { batch with events := events, full := true }

def Run.page (run : Run) (activity : List Activity) : Run :=
  if activity.length = 0 then { run with phase := .fetched }
  else
    let batch := activity.foldl (Batch.visit standard) { run.batch with added := false }
    { run with
      offset := run.offset + activity.length
      read := run.read ++ activity
      batch := batch
      phase := if batch.added then .fetching else .fetched }

def result (full anyDone : Bool) : Option Fault → Phase
  | none => .returned (full && anyDone) none
  | some fault => .returned false
      (some (.wrapped "failed to send sftp activity logs to Panel" fault))

def Run.proceed (run : Run) (pending : List Int) (anyDone : Bool) (err : Option Fault) : Run :=
  { run with
    phase := if pending.length = 0 then result run.batch.full anyDone err
      else .deleting pending anyDone err }

def deleteChunk : Nat := 32000

inductive Action where
  /-- Another goroutine stores an activity. -/
  | insert (row : Activity)
  | fetch (order : List Int)
  | fetchError (message : String)
  | deliver (order : List MapKey) (panel : Panel)
  | delete
  | deleteError (message : String)

def Run.step (run : Run) : Action → Option Run
  | .insert row =>
    if (run.table ++ run.deleted).any fun other => other.id == row.id then
      none
    else some { run with table := run.table ++ [row] }
  | .fetch order =>
    match run.phase with
    | .fetching =>
      if Ordered run.table order then
        some (run.page standard (fetchRecords run.table order run.offset run.batch.events.max))
      else none
    | _ => none
  | .fetchError message =>
    match run.phase with
    | .fetching =>
      some { run with phase := .returned false (some (.database message)) }
    | _ => none
  | .deliver order panel =>
    match run.phase with
    | .fetched =>
      if order.isPerm run.batch.events.m.keys then
        let delivery := deliver panel run.requests (run.batch.events.items order)
        some (Run.proceed { run with requests := delivery.requests }
          (run.batch.invalid ++ delivery.done) (decide (0 < delivery.done.length)) delivery.err)
      else none
    | _ => none
  | .delete =>
    match run.phase with
    | .deleting pending anyDone err =>
      let chunk := pending.take deleteChunk
      some (Run.proceed
        { run with
          table := run.table.filter fun row => !chunk.contains row.id
          deleted := run.deleted ++ run.table.filter fun row => chunk.contains row.id }
        (pending.drop deleteChunk) anyDone err)
    | _ => none
  | .deleteError message =>
    match run.phase with
    | .deleting _ _ _ =>
      some { run with phase := .returned false (some (.database message)) }
    | _ => none

def Run.Steps (run : Run) (action : Action) (after : Run) : Prop :=
  run.step standard action = some after

end Steps

def limit (max : Int) : Nat := if max ≤ 0 then 100 else max.toNat

def Run.Initial (max : Int) (run : Run) : Prop :=
  (run.table.map Activity.id).Nodup ∧ run.deleted = [] ∧ run.read = [] ∧
    run.offset = 0 ∧ run.batch = ⟨⟨limit max, 0, ∅⟩, [], false, false, []⟩ ∧
    run.requests = [] ∧ run.phase = .fetching

/-- A query finds the rows that were read first, as they were read. -/
def Run.Stable (run : Run) : Action → Prop
  | .fetch order => run.read.map Activity.id <+: order
  | _ => True

instance (run : Run) : (action : Action) → Decidable (run.Stable action)
  | .fetch order =>
    inferInstanceAs (Decidable (run.read.map Activity.id <+: order))
  | .insert _ => isTrue trivial
  | .fetchError _ => isTrue trivial
  | .deliver _ _ => isTrue trivial
  | .delete => isTrue trivial
  | .deleteError _ => isTrue trivial

structure Collected (standard : Standard) (read : List Activity) (batch : Batch) : Prop where
  pushed : batch.pushed.Sublist read
  invalid : ∀ id ∈ batch.invalid, ∃ row ∈ read, row.id = id ∧ standard.parseIP row.ip = false
  made : batch.events.Made standard batch.pushed

section Collect

variable {read rows : List Activity}

theorem Collected.visit (collected : Collected standard read batch) :
    Collected standard (read ++ [a]) (batch.visit standard a) := by
  rw [Batch.visit]
  split
  · rename_i invalid
    refine ⟨collected.pushed.trans (List.sublist_append_left _ _), ?_, collected.made⟩
    intro id listed
    rcases List.mem_append.1 listed with earlier | last
    · obtain ⟨row, member, same⟩ := collected.invalid id earlier
      exact ⟨row, List.mem_append_left _ member, same⟩
    · exact ⟨a, by simp, (List.mem_singleton.1 last).symm, invalid⟩
  · have invalid : ∀ id ∈ batch.invalid, ∃ row ∈ read ++ [a], row.id = id ∧
        standard.parseIP row.ip = false := by
      intro id listed
      obtain ⟨row, member, same⟩ := collected.invalid id listed
      exact ⟨row, List.mem_append_left _ member, same⟩
    have outcome := EventMap.pushed_push standard batch.events a
    generalize batch.events.push standard a = pushed at outcome
    obtain ⟨events, succeeded⟩ := pushed
    cases succeeded with
    | true =>
      exact ⟨collected.pushed.append_right [a], invalid, collected.made.push outcome⟩
    | false =>
      cases outcome
      exact ⟨collected.pushed.trans (List.sublist_append_left _ _), invalid, collected.made⟩

theorem Collected.foldl (collected : Collected standard read batch) :
    Collected standard (read ++ rows) (rows.foldl (Batch.visit standard) batch) := by
  induction rows generalizing read batch with
  | nil =>
    rw [List.append_nil]
    exact collected
  | cons a rest ih =>
    rw [List.foldl_cons, List.append_cons]
    exact ih collected.visit

end Collect

section Query

theorem mem_of_mem_rowsWith (member : row ∈ rowsWith table order) : row ∈ table := by
  obtain ⟨id, _, found⟩ := List.mem_filterMap.1 member
  exact List.mem_of_find?_eq_some found

theorem map_id_rowsWith (stored : ∀ id ∈ order, id ∈ table.map Activity.id) :
    (rowsWith table order).map Activity.id = order := by
  induction order with
  | nil => rfl
  | cons id rest ih =>
    obtain ⟨first, others⟩ := List.forall_mem_cons.1 stored
    obtain ⟨row, member, same⟩ := List.mem_map.1 first
    cases found : table.find? fun row => row.id == id with
    | none =>
      have different := List.find?_eq_none.1 found row member
      exact absurd (beq_iff_eq.2 same) different
    | some other =>
      have own := List.find?_some found
      have tail := ih others
      rw [rowsWith, List.filterMap_cons, found, List.map_cons, beq_iff_eq.1 own]
      exact congrArg (id :: ·) tail

theorem Ordered.map_id (ordered : Ordered table order) :
    (rowsWith table order).map Activity.id = order := by
  apply map_id_rowsWith
  intro id listed
  have among := (List.isPerm_iff.1 ordered.1).mem_iff.1 listed
  obtain ⟨row, member, same⟩ := List.mem_map.1 among
  exact List.mem_map.2 ⟨row, (List.mem_filter.1 member).1, same⟩

theorem Ordered.nodup (ordered : Ordered table order)
    (different : (table.map Activity.id).Nodup) : order.Nodup := by
  rw [(List.isPerm_iff.1 ordered.1).nodup_iff]
  exact different.sublist (List.filter_sublist.map _)

end Query

def Run.Sent (run : Run) (row : Activity) : Prop :=
  ∃ request ∈ run.requests, ∃ item, request.Accepted item ∧ item.Reports row

/-- The Panel refused a request about the row and what was merged with it. -/
def Run.Refused (run : Run) (row : Activity) : Prop :=
  ∃ request ∈ run.requests, ∃ item, request.Refused item ∧ item.Reports row

def Run.Dispensable (standard : Standard) (run : Run) (row : Activity) : Prop :=
  run.Sent row ∨ run.Refused row ∨ standard.parseIP row.ip = false

/-- Rows differ by their ids, the batch was made from rows that were read, and each deletion has a
reason. -/
structure Accounted (standard : Standard) (run : Run) : Prop where
  different : ((run.table ++ run.deleted).map Activity.id).Nodup
  stored : ∀ row ∈ run.read, row ∈ run.table ++ run.deleted
  collected : Collected standard run.read run.batch
  pending : ∀ ids anyDone err, run.phase = .deleting ids anyDone err →
    ∀ id ∈ ids, ∃ row ∈ run.read, row.id = id ∧ run.Dispensable standard row
  deleted : ∀ row ∈ run.deleted, run.Dispensable standard row

section Account

variable {max : Int} {run after : Run}

theorem Run.Initial.accounted (initial : run.Initial max) : Accounted standard run := by
  obtain ⟨different, deleted, read, _, batch, _, phase⟩ := initial
  refine ⟨?_, ?_, ?_, ?_, ?_⟩
  · rw [deleted, List.append_nil]
    exact different
  · rw [read]
    exact List.forall_mem_nil _
  · rw [read, batch]
    refine ⟨List.nil_sublist _, List.forall_mem_nil _, ?_⟩
    intro key g found
    cases found
  · intro ids anyDone err deleting
    rw [phase] at deleting
    cases deleting
  · rw [deleted]
    exact List.forall_mem_nil _

theorem Accounted.insert (accounted : Accounted standard run)
    (moved : run.Steps standard (.insert row) after) : Accounted standard after := by
  simp only [Run.Steps, Run.step] at moved
  split at moved
  · cases moved
  · rename_i fresh
    cases moved
    refine ⟨?_, ?_, accounted.collected, accounted.pending, accounted.deleted⟩
    · have moved : (run.table ++ [row] ++ run.deleted).Perm
          (row :: (run.table ++ run.deleted)) := by
        rw [List.append_assoc]
        exact List.perm_middle
      rw [(moved.map _).nodup_iff, List.map_cons, List.nodup_cons]
      refine ⟨?_, accounted.different⟩
      intro listed
      obtain ⟨other, member, same⟩ := List.mem_map.1 listed
      exact fresh (List.any_eq_true.2 ⟨other, member, beq_iff_eq.2 same⟩)
    · intro other member
      have known := accounted.stored other member
      simp only [List.mem_append] at known ⊢
      exact known.imp_left .inl

theorem fetch_of_step (moved : run.Steps standard (.fetch order) after) :
    Ordered run.table order ∧ after = run.page standard
    (fetchRecords run.table order run.offset run.batch.events.max) := by
  simp only [Run.Steps, Run.step] at moved
  cases phase : run.phase with
  | fetching =>
    rw [phase] at moved
    dsimp only at moved
    split at moved
    · rename_i ordered
      exact ⟨ordered, (Option.some.inj moved).symm⟩
    · cases moved
  | _ =>
    rw [phase] at moved
    cases moved

theorem Accounted.page (accounted : Accounted standard run)
    (stored : ∀ row ∈ rows, row ∈ run.table) : Accounted standard (run.page standard rows) := by
  rw [Run.page]
  split
  · exact { accounted with pending := fun ids anyDone err deleting => (by cases deleting) }
  · refine ⟨accounted.different, ?_, ?_, ?_, accounted.deleted⟩
    · intro row member
      rcases List.mem_append.1 member with earlier | new
      · exact accounted.stored row earlier
      · exact List.mem_append_left _ (stored row new)
    · have before : Collected standard run.read { run.batch with added := false } :=
        ⟨accounted.collected.pushed, accounted.collected.invalid, accounted.collected.made⟩
      exact before.foldl
    · intro ids anyDone err deleting
      dsimp only at deleting
      split at deleting
      · cases deleting
      · cases deleting

theorem mem_of_mem_fetchRecords {table : List Activity} {offset limit : Nat}
    (member : row ∈ fetchRecords table order offset limit) : row ∈ table :=
  mem_of_mem_rowsWith (List.mem_of_mem_drop (List.mem_of_mem_take member))

theorem Accounted.fetch (accounted : Accounted standard run)
    (moved : run.Steps standard (.fetch order) after) : Accounted standard after := by
  obtain ⟨_, rfl⟩ := fetch_of_step moved
  exact accounted.page fun row => mem_of_mem_fetchRecords

theorem Accounted.proceed {pending : List Int} {anyDone : Bool} {err : Option Fault}
    (accounted : Accounted standard { run with phase := .fetched })
    (reasons : ∀ id ∈ pending, ∃ row ∈ run.read, row.id = id ∧ run.Dispensable standard row) :
    Accounted standard (run.proceed pending anyDone err) := by
  refine { accounted with pending := ?_ }
  intro ids _ _ deleting
  rw [Run.proceed] at deleting
  split at deleting
  · cases err with
    | none | some fault => cases deleting
  · cases deleting
    exact reasons

theorem Run.Dispensable.more (dispensable : run.Dispensable standard row)
    (kept : ∀ request ∈ run.requests, request ∈ after.requests) :
    after.Dispensable standard row := by
  rcases dispensable with sent | refused | invalid
  · obtain ⟨request, known, item, accepted⟩ := sent
    exact .inl ⟨request, kept request known, item, accepted⟩
  · obtain ⟨request, known, item, outcome⟩ := refused
    exact .inr (.inl ⟨request, kept request known, item, outcome⟩)
  · exact .inr (.inr invalid)

theorem Accounted.deliver {order : List MapKey} {panel : Panel} (accounted : Accounted standard run)
    (moved : run.Steps standard (.deliver order panel) after) : Accounted standard after := by
  simp only [Run.Steps, Run.step] at moved
  cases phase : run.phase with
  | fetched =>
    rw [phase] at moved
    dsimp only at moved
    split at moved
    · cases moved
      obtain ⟨longer, settles⟩ := deliver_settles panel run.requests (run.batch.events.items order)
      have collected := accounted.collected
      apply Accounted.proceed
      · exact ⟨accounted.different, accounted.stored, collected,
          fun ids anyDone err deleting => (by cases deleting),
          fun row member => (accounted.deleted row member).more
            fun request known => longer.subset known⟩
      · intro id listed
        rcases List.mem_append.1 listed with invalid | done
        · obtain ⟨row, member, same, unparsed⟩ := collected.invalid id invalid
          exact ⟨row, member, same, .inr (.inr unparsed)⟩
        · obtain ⟨item, member, made, request, known, outcome⟩ := settles id done
          obtain ⟨row, pushed, same, reports⟩ := collected.made.reports member made
          refine ⟨row, collected.pushed.subset pushed, same, ?_⟩
          rcases outcome with accepted | refused
          · exact .inl ⟨request, known, item, accepted, reports⟩
          · exact .inr (.inl ⟨request, known, item, refused, reports⟩)
    · cases moved
  | _ =>
    rw [phase] at moved
    cases moved

theorem split_perm (table deleted : List Activity) (chunk : List Int) :
    ((table.filter fun row => !chunk.contains row.id) ++
    (deleted ++ table.filter fun row => chunk.contains row.id)).Perm (table ++ deleted) := by
  have divided := List.filter_append_perm (fun row : Activity => chunk.contains row.id) table
  rw [← List.append_assoc]
  refine List.perm_append_comm.trans ?_
  rw [← List.append_assoc]
  exact divided.append_right deleted

theorem Accounted.delete (accounted : Accounted standard run)
    (moved : run.Steps standard .delete after) : Accounted standard after := by
  simp only [Run.Steps, Run.step] at moved
  cases phase : run.phase with
  | deleting pending anyDone err =>
    rw [phase] at moved
    cases moved
    have reasons := accounted.pending pending anyDone err phase
    have same := split_perm run.table run.deleted (pending.take deleteChunk)
    apply Accounted.proceed
    · refine ⟨?_, ?_, accounted.collected, fun ids anyDone err deleting => (by cases deleting), ?_⟩
      · exact (same.map _).nodup_iff.2 accounted.different
      · intro row member
        exact same.mem_iff.2 (accounted.stored row member)
      · intro row member
        rcases List.mem_append.1 member with earlier | new
        · exact accounted.deleted row earlier
        · obtain ⟨stored, chosen⟩ := List.mem_filter.1 new
          have listed := List.mem_of_mem_take (List.contains_iff_mem.1 chosen)
          obtain ⟨other, read, equal, dispensable⟩ := reasons row.id listed
          have own : other = row := List.inj_on_of_nodup_map accounted.different
              (accounted.stored other read) (List.mem_append_left _ stored) equal
          rw [← own]
          exact dispensable
    · intro id listed
      exact reasons id (List.mem_of_mem_drop listed)
  | _ =>
    rw [phase] at moved
    cases moved

theorem Accounted.step (accounted : Accounted standard run)
    (moved : run.Steps standard action after) : Accounted standard after := by
  have returned : ∀ more err, Accounted standard { run with phase := .returned more err } := by
    intro more err
    exact { accounted with pending := fun ids anyDone err deleting => (by cases deleting) }
  cases action with
  | insert row => exact accounted.insert moved
  | fetch order => exact accounted.fetch moved
  | deliver order panel => exact accounted.deliver moved
  | delete => exact accounted.delete moved
  | fetchError message | deleteError message =>
    simp only [Run.Steps, Run.step] at moved
    cases phase : run.phase <;> rw [phase] at moved <;> cases moved
    exact returned _ _

end Account

theorem accounted_of_reachable {standard : Standard} {max : Int} {run : Run}
    (reached : Reachable (Run.Initial max) (Run.Steps standard) run) : Accounted standard run :=
  reached.invariant (fun _ initial => initial.accounted)
    fun _ _ _ accounted moved => accounted.step moved

/-- No row was read twice, and a query skips as many as were read. -/
structure ReadOnce (run : Run) : Prop where
  offset : run.offset = run.read.length
  once : (run.read.map Activity.id).Nodup

section Once

variable {max : Int} {run after : Run}

theorem map_id_fetchRecords (limit : Nat) (ordered : Ordered run.table order)
    (stable : run.read.map Activity.id <+: order) (offset : run.offset = run.read.length) :
    (run.read ++ fetchRecords run.table order run.offset limit).map Activity.id <+: order := by
  obtain ⟨rest, rfl⟩ := stable
  have next : (fetchRecords run.table (run.read.map Activity.id ++ rest)
      run.offset limit).map Activity.id = rest.take limit := by
    rw [fetchRecords, List.map_take, List.map_drop, ordered.map_id, offset,
      ← List.length_map Activity.id, List.drop_left]
  rw [List.map_append, next]
  exact (List.prefix_append_right_inj _).2 (List.take_prefix _ _)

theorem ReadOnce.fetch (readOnce : ReadOnce run) (different : (run.table.map Activity.id).Nodup)
    (stable : run.read.map Activity.id <+: order)
    (moved : run.Steps standard (.fetch order) after) : ReadOnce after := by
  obtain ⟨ordered, rfl⟩ := fetch_of_step moved
  have next := map_id_fetchRecords run.batch.events.max ordered stable readOnce.offset
  rw [Run.page]
  split
  · exact ⟨readOnce.offset, readOnce.once⟩
  · refine ⟨?_, (ordered.nodup different).sublist next.sublist⟩
    rw [List.length_append, readOnce.offset]

theorem read_of_step (moved : run.Steps standard action after) : (∃ order, action = .fetch order) ∨
    after.read = run.read ∧ after.offset = run.offset := by
  cases action with
  | fetch order => exact .inl ⟨order, rfl⟩
  | insert row =>
    simp only [Run.Steps, Run.step] at moved
    split at moved
    · cases moved
    · cases moved
      exact .inr ⟨rfl, rfl⟩
  | deliver order panel =>
    simp only [Run.Steps, Run.step] at moved
    split at moved
    · split at moved
      · cases moved
        exact .inr ⟨rfl, rfl⟩
      · cases moved
    · cases moved
  | _ =>
    simp only [Run.Steps, Run.step] at moved
    split at moved
    · cases moved
      exact .inr ⟨rfl, rfl⟩
    · cases moved

theorem ReadOnce.step (readOnce : ReadOnce run)
    (different : (run.table.map Activity.id).Nodup) (stable : run.Stable action)
    (moved : run.Steps standard action after) : ReadOnce after := by
  rcases read_of_step moved with ⟨order, rfl⟩ | ⟨read, offset⟩
  · exact readOnce.fetch different stable moved
  · refine ⟨?_, ?_⟩
    · rw [offset, read]
      exact readOnce.offset
    · rw [read]
      exact readOnce.once

theorem readOnce_of_reachable (reached : Reachable (Run.Initial max)
    (Guarded Run.Stable (Run.Steps standard)) run) : ReadOnce run := by
  induction reached with
  | start initial =>
    obtain ⟨_, _, read, offset, _⟩ := initial
    refine ⟨?_, ?_⟩
    · rw [offset, read]
      rfl
    · rw [read]
      exact List.nodup_nil
  | next before action taken ih =>
    have accounted := accounted_of_reachable before.of_guarded
    refine ih.step ?_ taken.1 taken.2
    have different := accounted.different
    rw [List.map_append] at different
    exact different.of_append_left

end Once

/-- A row is added once if queries find the rows read first, and each deletion has a reason. -/
theorem rows_pushed_once (standard : Standard) (max : Int) (run : Run)
    (reached : Reachable (Run.Initial max) (Guarded Run.Stable (Run.Steps standard)) run) :
    (run.batch.pushed.map Activity.id).Nodup ∧ ∀ row ∈ run.deleted, run.Sent row ∨ run.Refused row ∨
        standard.parseIP row.ip = false := by
  have accounted := accounted_of_reachable reached.of_guarded
  have readOnce := readOnce_of_reachable reached
  refine ⟨readOnce.once.sublist ?_, accounted.deleted⟩
  exact accounted.collected.pushed.map Activity.id

private def plainStandard : Standard where
  parseIP ip := ip != ""
  marshalledLength metadata := metadata.length
  formatMinute _ := ""

private def uploadedRow (id : Int) (event : String) : Activity :=
  ⟨id, some "user", "server", event, filesMeta [.string ['f']], "10.0.0.1", 0⟩

private def threeCreated : Run where
  table := [uploadedRow 1 "server:sftp.create",
    uploadedRow 2 "server:sftp.create", uploadedRow 3 "server:sftp.create"]
  deleted := []
  read := []
  offset := 0
  batch := ⟨⟨2, 0, ∅⟩, [], false, false, []⟩
  requests := []
  phase := .fetching

private def createdKey : MapKey := ⟨"user", "server", "10.0.0.1", "server:sftp.create", "", 0⟩

private theorem threeCreated_initial : threeCreated.Initial 2 :=
  ⟨by decide, rfl, rfl, rfl, rfl, rfl, rfl⟩

private def stableStep (run : Run) (action : Action) : Option Run :=
  if run.Stable action then run.step plainStandard action else none

private def quietActions : List Action := [.fetch [1, 2, 3], .fetch [1, 2, 3], .fetch [1, 2, 3],
    .deliver [createdKey] fun _ _ => none, .delete]

theorem quiet_rows_pushed_once : ∃ run, Reachable (Run.Initial 2)
        (Guarded Run.Stable (Run.Steps plainStandard)) run ∧
      run.batch.pushed.map Activity.id = [1, 2, 3] ∧ run.deleted.map Activity.id = [1, 2, 3] ∧
      (run.batch.pushed.map Activity.id).Nodup := by
  have ran : (execute stableStep threeCreated quietActions).any
      (fun run => decide (run.batch.pushed.map Activity.id = [1, 2, 3] ∧
        run.deleted.map Activity.id = [1, 2, 3])) = true := by
    decide +kernel
  obtain ⟨run, executed, found⟩ := (Option.any_eq_true _ _).1 ran
  obtain ⟨pushed, deleted⟩ := of_decide_eq_true found
  have reached : Reachable (Run.Initial 2) (Guarded Run.Stable (Run.Steps plainStandard)) run := by
    refine (Reachable.execute (.start threeCreated_initial) quietActions executed).mono ?_
    intro before action after taken
    rw [stableStep] at taken
    split at taken
    · rename_i stable
      exact ⟨stable, taken⟩
    · cases taken
  exact ⟨run, reached, pushed, deleted, (rows_pushed_once plainStandard 2 run reached).1⟩

private def busyActions : List Action :=
  [.fetch [1, 2, 3], .insert (uploadedRow 4 "server:sftp.write"),
    .fetch [4, 1, 2, 3], .fetch [4, 1, 2, 3], .deliver [createdKey] fun _ _ => none]

/-- A row that moved to the next page is sent twice. -/
theorem row_pushed_twice : ∃ run, Reachable (Run.Initial 2) (Run.Steps plainStandard) run ∧
      run.batch.pushed.map Activity.id = [1, 2, 2, 3] ∧
      run.requests.map (fun request => (request.err.isNone,
        request.items.map BatchItem.ids)) = [(true, [[1, 2, 2, 3]])] := by
  have ran : (execute (Run.step plainStandard) threeCreated busyActions).any
      (fun run => decide (run.batch.pushed.map Activity.id = [1, 2, 2, 3] ∧
        run.requests.map (fun request => (request.err.isNone, request.items.map BatchItem.ids)) =
            [(true, [[1, 2, 2, 3]])])) = true := by
    decide +kernel
  obtain ⟨run, executed, found⟩ := (Option.any_eq_true _ _).1 ran
  obtain ⟨pushed, sent⟩ := of_decide_eq_true found
  exact ⟨run, Reachable.execute (.start threeCreated_initial) busyActions executed, pushed, sent⟩

end Wings.Cron.SftpBatch
