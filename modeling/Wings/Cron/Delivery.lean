import Mathlib.Data.List.Induction
import Wings.Library.Dictionary
import Wings.Library.Json
import Wings.Library.Loop

/-!
# Delivery of activity to the Panel

When the Panel refuses a request because of its contents, the items are sent in two halves, down to
single items, which are given up. SFTP events of one user, server, address and kind within one
minute are merged to one event that lists all the files.
-/

namespace Wings.Cron

abbrev ActivityMeta := List (Json.Text × Json.Value)

/-- A row of the database. The user is null for the system. -/
structure Activity where
  id : Int
  user : Option String
  server : String
  event : String
  metadata : ActivityMeta
  ip : String
  timestamp : Int

structure BatchItem where
  activity : Activity
  ids : List Int

/-- Why a request failed, with its status if the Panel answered it. -/
structure Fault where
  statusCode : Option Nat
  message : String

/-- Bad request, request entity too large or unprocessable entity. -/
def isRefused (err : Fault) : Bool :=
  match err.statusCode with
  | none => false
  | some code => code == 400 || code == 413 || code == 422

structure Request where
  items : List BatchItem
  err : Option Fault

abbrev Panel := List Request → List Activity → Option Fault

structure Delivery where
  requests : List Request
  done : List Int
  err : Option Fault

def sendActivityLogs (panel : Panel) (requests : List Request) (items : List BatchItem) : Request :=
  ⟨items, panel requests (items.map BatchItem.activity)⟩

def rowsOf (items : List BatchItem) : List Int := items.flatMap BatchItem.ids

def deliver (panel : Panel) (requests : List Request) (items : List BatchItem) : Delivery :=
  if items.length = 0 then ⟨requests, [], none⟩
  else
    let request := sendActivityLogs panel requests items
    match request.err with
    | none => ⟨requests ++ [request], rowsOf items, none⟩
    | some fault =>
      if isRefused fault = false then
        ⟨requests ++ [request], [], some fault⟩
      else if items.length = 1 then
        ⟨requests ++ [request], rowsOf items, none⟩
      else
        let mid := items.length / 2
        let first := deliver panel (requests ++ [request]) (items.take mid)
        match first.err with
        | some fault => ⟨first.requests, first.done, some fault⟩
        | none =>
          let rest := deliver panel first.requests (items.drop mid)
          ⟨rest.requests, first.done ++ rest.done, rest.err⟩
termination_by items.length

def Request.Accepted (request : Request) (item : BatchItem) : Prop :=
  item ∈ request.items ∧ request.err.isNone = true

def Request.Refused (request : Request) (item : BatchItem) : Prop :=
  request.items = [item] ∧ request.err.any isRefused = true

/-- Requests settle rows: an item was accepted, or refused alone. -/
def Settles (requests : List Request) (items : List BatchItem) (done : List Int) : Prop :=
  ∀ id ∈ done, ∃ item ∈ items, id ∈ item.ids ∧ ∃ request ∈ requests,
    request.Accepted item ∨ request.Refused item

def Request.settles (request : Request) : Bool := request.err.isNone ||
    (request.items.length == 1 && request.err.any isRefused)

structure Sent where
  start : Nat
  request : Request

def Sent.covers (place : Nat) (sent : Sent) : Bool :=
  sent.request.settles && decide (sent.start ≤ place) &&
    decide (place < sent.start + sent.request.items.length)

/-- The first `count` items are settled by one request each and the others by none, and the rows of
those are done with. These are all items unless there is an error. -/
structure Exact (start : Nat) (requests : List Request) (items : List BatchItem)
    (sent : List Sent) (count : Nat) (delivery : Delivery) : Prop where
  requests_eq : delivery.requests = requests ++ sent.map Sent.request
  part : ∀ one ∈ sent, ∃ before after, items = before ++ (one.request.items ++ after) ∧
      one.start = start + before.length
  once : ∀ place, sent.countP (Sent.covers place) =
    if start ≤ place ∧ place < start + count then 1 else 0
  done_eq : delivery.done = rowsOf (items.take count)
  bounded : count ≤ items.length
  whole : delivery.err = none → count = items.length

namespace Exact

theorem single (start : Nat) (requests : List Request) (request : Request)
    (err : Option Fault) (whole : err = none → request.settles = true) :
    Exact start requests request.items [⟨start, request⟩]
      (if request.settles = true then request.items.length else 0) ⟨requests ++ [request],
        if request.settles = true then rowsOf request.items else [], err⟩ := by
  refine ⟨rfl, ?_, ?_, ?_, ?_, fun none => if_pos (whole none)⟩
  · intro one member
    rw [List.mem_singleton.1 member]
    exact ⟨[], [], by simp, rfl⟩
  · intro place
    cases settled : request.settles <;>
      simp [List.countP_cons, Sent.covers, settled]
  · split
    · rw [List.take_length]
    · rfl
  · split <;> omega

theorem retried (exact : Exact start (requests ++ [request]) request.items sent count delivery)
    (unsettled : request.settles = false) :
    Exact start requests request.items (⟨start, request⟩ :: sent) count delivery := by
  refine { exact with requests_eq := ?_, part := ?_, once := ?_ }
  · rw [exact.requests_eq, List.append_assoc]
    rfl
  · rw [List.forall_mem_cons]
    exact ⟨⟨[], [], by simp, rfl⟩, exact.part⟩
  · intro place
    rw [List.countP_cons_of_neg (by simp [Sent.covers, unsettled])]
    exact exact.once place

theorem failed (exact : Exact start requests front sent count delivery)
    (error : delivery.err ≠ none) (back : List BatchItem) :
    Exact start requests (front ++ back) sent count delivery := by
  refine ⟨exact.requests_eq, ?_, exact.once, ?_, ?_, fun none =>
    absurd none error⟩
  · intro one member
    obtain ⟨before, after, rfl, place⟩ := exact.part one member
    exact ⟨before, after ++ back, by simp, place⟩
  · rw [List.take_append_of_le_length exact.bounded]
    exact exact.done_eq
  · exact exact.bounded.trans (by simp)

theorem append (exact : Exact start requests front sent count delivery)
    (finished : delivery.err = none)
    (next : Exact (start + front.length) delivery.requests back others more rest) :
    Exact start requests (front ++ back) (sent ++ others) (front.length + more)
    ⟨rest.requests, delivery.done ++ rest.done, rest.err⟩ := by
  have all := exact.whole finished
  refine ⟨?_, ?_, ?_, ?_, ?_, ?_⟩
  · rw [next.requests_eq, exact.requests_eq, List.map_append, List.append_assoc]
  · intro one member
    rcases List.mem_append.1 member with early | late
    · obtain ⟨before, after, rfl, place⟩ := exact.part one early
      exact ⟨before, after ++ back, by simp, place⟩
    · obtain ⟨before, after, rfl, place⟩ := next.part one late
      refine ⟨front ++ before, after, by simp, ?_⟩
      rw [place, List.length_append, Nat.add_assoc]
  · intro place
    rw [List.countP_append, exact.once, next.once, all]
    split_ifs <;> omega
  · rw [List.take_length_add_append, exact.done_eq, next.done_eq, all,
      List.take_length, rowsOf, rowsOf, rowsOf, List.flatMap_append]
  · rw [List.length_append]
    exact Nat.add_le_add_left next.bounded _
  · intro none
    rw [List.length_append, next.whole none]

end Exact

variable {request : Request}

theorem Request.settles_of_err (err : request.err = some fault) :
    request.settles = (request.items.length == 1 && isRefused fault) := by
  rw [settles, err]
  rfl

theorem Request.unsettled_of_several (err : request.err = some fault)
    (several : request.items.length ≠ 1) : request.settles = false := by
  rw [settles_of_err err, beq_false_of_ne several, Bool.false_and]

theorem Request.accepted_or_refused (settled : request.settles = true)
    (among : item ∈ request.items) : request.Accepted item ∨ request.Refused item := by
  simp only [settles, Bool.or_eq_true, Bool.and_eq_true, beq_iff_eq] at settled
  rcases settled with accepted | ⟨single, refused⟩
  · exact .inl ⟨among, accepted⟩
  · obtain ⟨only, same⟩ := List.length_eq_one_iff.1 single
    rw [same, List.mem_singleton] at among
    exact .inr ⟨among ▸ same, refused⟩

theorem deliver_from (panel : Panel) (requests : List Request)
    (items : List BatchItem) (start : Nat) : ∃ sent count, Exact start requests items sent count
    (deliver panel requests items) := by
  fun_induction deliver panel requests items generalizing start with
  | case1 requests items empty =>
    obtain rfl := List.length_eq_zero_iff.1 empty
    exact ⟨[], 0, by simp, by simp, by simp, rfl, le_rfl, by simp⟩
  | case2 requests items _ request accepted =>
    have settled : request.settles = true := by
      rw [Request.settles, accepted]
      rfl
    have exact := Exact.single start requests request none fun _ => settled
    rw [if_pos settled, if_pos settled] at exact
    exact ⟨_, _, exact⟩
  | case3 requests items _ request fault failed final =>
    have unsettled : ¬request.settles = true := by
      rw [Request.settles_of_err failed, final, Bool.and_false]
      exact Bool.false_ne_true
    have exact := Exact.single start requests request (some fault) fun none =>
      absurd none (Option.some_ne_none fault)
    rw [if_neg unsettled, if_neg unsettled] at exact
    exact ⟨_, _, exact⟩
  | case4 requests items _ request fault failed refused single =>
    have settled : request.settles = true := by
      rw [Request.settles_of_err failed, Bool.eq_true_of_not_eq_false refused, Bool.and_true]
      exact beq_iff_eq.2 single
    have exact := Exact.single start requests request none fun _ => settled
    rw [if_pos settled, if_pos settled] at exact
    exact ⟨_, _, exact⟩
  | case5 requests items _ request fault failed refused several mid first
      error stopped firstIh =>
    obtain ⟨sent, count, exact⟩ := firstIh start
    have longer := exact.failed (by rw [stopped]; nofun) (items.drop mid)
    rw [List.take_append_drop] at longer
    rw [← stopped]
    exact ⟨_, _, longer.retried (Request.unsettled_of_several failed several)⟩
  | case6 requests items _ request fault failed refused several mid first
      finished rest firstIh _ restIh =>
    obtain ⟨sent, count, exact⟩ := firstIh start
    obtain ⟨others, more, next⟩ := restIh (start + (items.take mid).length)
    have both := exact.append finished next
    rw [List.take_append_drop] at both
    exact ⟨_, _, both.retried (Request.unsettled_of_several failed several)⟩

theorem deliver_settles (panel : Panel) (requests : List Request) (items : List BatchItem) :
    requests <+: (deliver panel requests items).requests ∧
    Settles (deliver panel requests items).requests items (deliver panel requests items).done := by
  obtain ⟨sent, count, exact⟩ := deliver_from panel requests items 0
  refine ⟨⟨_, exact.requests_eq.symm⟩, ?_⟩
  intro id listed
  rw [exact.done_eq] at listed
  obtain ⟨item, member, made⟩ := List.mem_flatMap.1 listed
  refine ⟨item, List.mem_of_mem_take member, made, ?_⟩
  obtain ⟨place, bound, rfl⟩ := List.mem_iff_getElem.1 member
  have inside : place < count := Nat.lt_of_lt_of_le bound (List.length_take_le _ _)
  have covered : 0 < sent.countP (Sent.covers place) := by
    rw [exact.once, if_pos (by omega)]
    exact Nat.one_pos
  obtain ⟨one, known, covers⟩ := List.countP_pos_iff.1 covered
  obtain ⟨before, after, parts, starts⟩ := exact.part one known
  simp only [Sent.covers, Bool.and_eq_true, decide_eq_true_eq] at covers
  have among : (items.take count)[place] ∈ one.request.items := by
    simp only [List.getElem_take, parts]
    rw [List.getElem_append_right (by omega), List.getElem_append_left (by omega)]
    exact List.getElem_mem _
  refine ⟨one.request, ?_, ?_⟩
  · rw [exact.requests_eq]
    exact List.mem_append_right _ (List.mem_map_of_mem known)
  · exact Request.accepted_or_refused covers.1.1 among

/-- Whatever the Panel answers, a prefix of the items is settled by one request each, `deliver`
returns their rows, and without an error it settles all. -/
theorem deliver_exact (panel : Panel) (requests : List Request) (items : List BatchItem) :
    ∃ sent count, Exact 0 requests items sent count (deliver panel requests items) :=
  deliver_from panel requests items 0

/-- However the Panel answers, there are at most as many requests as a tree of halves has nodes. -/
theorem requests_bounded (panel : Panel) (requests : List Request) (items : List BatchItem) :
    (deliver panel requests items).requests.length ≤ requests.length + (2 * items.length - 1) := by
  fun_induction deliver panel requests items with
  | case1 => exact Nat.le_add_right _ _
  | case2 | case3 | case4 =>
    rw [List.length_append, List.length_singleton]
    omega
  | case5 requests items _ _ _ _ _ several mid first _ _ firstIh =>
    rw [List.length_append, List.length_singleton, List.length_take] at firstIh
    change first.requests.length ≤ _ at firstIh
    dsimp only
    omega
  | case6 requests items _ _ _ _ _ several mid first _ rest firstIh _ restIh =>
    rw [List.length_append, List.length_singleton, List.length_take] at firstIh
    rw [List.length_drop] at restIh
    change first.requests.length ≤ _ at firstIh
    change rest.requests.length ≤ _ at restIh
    dsimp only
    omega

end Wings.Cron

namespace Wings.Cron

open Loop

/-- The most files that an event may have before another part begins. -/
def maxFilesPerEvent : Nat := 500

def maxRequestBytes : Nat := 4 <<< 20

/-- Parse an address, encode metadata, and write a time up to its minute. -/
structure Standard where
  parseIP : String → Bool
  marshalledLength : ActivityMeta → Nat
  formatMinute : Int → String

structure MapKey where
  user : String
  server : String
  ip : String
  event : String
  timestamp : String
  part : Nat
  deriving DecidableEq

structure EventGroup where
  activity : Activity
  ids : List Int
  files : Nat

structure EventMap where
  max : Nat
  bytes : Nat
  m : Dictionary MapKey EventGroup

def filesOf (metadata : ActivityMeta) : Option (List Json.Value) :=
  match metadata.lookup "files".toList with
  | some (.array files) => some files
  | _ => none

def filesMeta (files : List Json.Value) : ActivityMeta := [("files".toList, .array files)]

def newGroup (a : Activity) : EventGroup where
  activity := { a with metadata := filesMeta [] }
  ids := []
  files := 0

def EventGroup.appendFiles (g : EventGroup) (a : Activity) : EventGroup :=
  match filesOf a.metadata with
  | none => g
  | some files =>
    { g with
      activity := { g.activity with
        metadata := filesMeta ((filesOf g.activity.metadata).getD [] ++ files) }
      files := g.files + files.length }

def EventGroup.merge (g : EventGroup) (a : Activity) : EventGroup := EventGroup.appendFiles
    { g with
      ids := g.ids ++ [a.id]
      activity := { g.activity with
        timestamp :=
          if a.timestamp < g.activity.timestamp then a.timestamp
          else g.activity.timestamp } }
    a

section

variable (standard : Standard)

def activitySize (a : Activity) : Nat := standard.marshalledLength a.metadata + 256

def mapKey (a : Activity) : MapKey where
  user := a.user.getD ""
  server := a.server
  ip := a.ip
  event := a.event
  timestamp := standard.formatMinute a.timestamp
  part := 0

namespace EventMap

variable (em : EventMap)

def nextPart (key : MapKey) (part : Nat) : Nat × Bool :=
  match em.m.lookup { key with part := part } with
  | none => (part, false)
  | some v =>
    if v.files < maxFilesPerEvent then (part, false) else (part + 1, true)

def partKey (key : MapKey) : MapKey :=
  { key with part := loop (em.nextPart key) (em.m.entries.length + 1) 0 }

def forActivity (a : Activity) : Option (MapKey × EventGroup) :=
  let key := em.partKey (mapKey standard a)
  match em.m.lookup key with
  | some v => some (key, v)
  | none =>
    if em.max ≤ em.m.entries.length then none else some (key, newGroup a)

def push (a : Activity) : EventMap × Bool :=
  let size := activitySize standard a
  if 0 < em.bytes ∧ maxRequestBytes < em.bytes + size then (em, false)
  else
    match em.forActivity standard a with
    | none => (em, false)
    | some (key, g) =>
      ({ em with
        bytes := em.bytes + size
        m := em.m.insert key (g.merge a) }, true)

def items (order : List MapKey) : List BatchItem :=
  order.filterMap fun key =>
    (em.m.lookup key).map fun g => ⟨g.activity, g.ids⟩

end EventMap

end

namespace EventMap

variable {em : EventMap} {key : MapKey}

theorem nextPart_goes_on (full : (em.nextPart key part).2 = true) :
    (em.nextPart key part).1 = part + 1 ∧ ∃ v, em.m.lookup { key with part := part } = some v := by
  rw [nextPart] at full ⊢
  cases found : em.m.lookup { key with part := part } with
  | none =>
    rw [found] at full
    cases full
  | some v =>
    rw [found] at full
    dsimp only at full ⊢
    by_cases room : v.files < maxFilesPerEvent
    · rw [if_pos room] at full
      cases full
    · rw [if_neg room]
      exact ⟨rfl, v, rfl⟩

theorem nextPart_stops (stopped : (em.nextPart key part).2 = false) :
    (em.nextPart key part).1 = part ∧
      ∀ v, em.m.lookup { key with part := part } = some v → v.files < maxFilesPerEvent := by
  rw [nextPart] at stopped ⊢
  cases found : em.m.lookup { key with part := part } with
  | none => exact ⟨rfl, fun v impossible => by cases impossible⟩
  | some v =>
    rw [found] at stopped
    dsimp only at stopped ⊢
    by_cases room : v.files < maxFilesPerEvent
    · rw [if_pos room]
      refine ⟨rfl, fun other same => ?_⟩
      cases same
      exact room
    · rw [if_neg room] at stopped
      cases stopped

def laterKeys (em : EventMap) (part : Nat) : List MapKey :=
  em.m.keys.filter fun key => part ≤ key.part

theorem length_laterKeys_lt (found : em.m.lookup { key with part := part } = some v) :
    (em.laterKeys (part + 1)).length < (em.laterKeys part).length := by
  have later : ∀ key : MapKey, decide (part + 1 ≤ key.part) = true →
      decide (part ≤ key.part) = true := by
    intro key after
    exact decide_eq_true (Nat.le_of_succ_le (of_decide_eq_true after))
  have fewer : (em.laterKeys (part + 1)).Sublist (em.laterKeys part) :=
    List.monotone_filter_right _ later
  apply Nat.lt_of_le_of_ne fewer.length_le
  intro equal
  have listed : { key with part := part } ∈ em.laterKeys part := by
    refine List.mem_filter.2 ⟨?_, decide_eq_true (Nat.le_refl part)⟩
    rw [← AList.mem_keys, ← AList.lookup_isSome, found]
    rfl
  rw [← fewer.eq_of_length equal] at listed
  have after := of_decide_eq_true (List.mem_filter.1 listed).2
  exact Nat.not_succ_le_self part after

theorem lookup_partKey (found : em.m.lookup (em.partKey key) = some v) :
    v.files < maxFilesPerEvent := by
  have enough : (em.laterKeys 0).length < em.m.entries.length + 1 := by
    apply Nat.lt_succ_of_le
    refine (List.length_filter_le _ _).trans (Nat.le_of_eq ?_)
    exact List.length_map _
  obtain ⟨last, stopped, ended⟩ := loop_exits (fun part => (em.laterKeys part).length)
    (fun part full => by
      obtain ⟨next, v, found⟩ := nextPart_goes_on full
      rw [next]
      exact length_laterKeys_lt found)
    enough
  obtain ⟨same, room⟩ := nextPart_stops stopped
  rw [partKey, ended, same] at found
  exact room v found

end EventMap

structure Merges (standard : Standard) (rows : List Activity) (key : MapKey)
    (g : EventGroup) : Prop where
  ids : g.ids = rows.map Activity.id
  alike : ∀ row ∈ rows, { mapKey standard row with part := key.part } = key
  about : g.activity.user.getD "" = key.user ∧ g.activity.server = key.server ∧
    g.activity.ip = key.ip ∧ g.activity.event = key.event
  files : filesOf g.activity.metadata =
    some (rows.flatMap fun row => (filesOf row.metadata).getD [])

@[simp] theorem filesOf_filesMeta (files : List Json.Value) :
    filesOf (filesMeta files) = some files := by
  simp [filesOf, filesMeta]

section

variable {g : EventGroup}

theorem merges_newGroup (own : { mapKey standard a with part := key.part } = key) :
    Merges standard [] key (newGroup a) where
  ids := rfl
  alike := List.forall_mem_nil _
  about := by
    rw [← own]
    exact ⟨rfl, rfl, rfl, rfl⟩
  files := filesOf_filesMeta []

theorem EventGroup.merge_keeps (g : EventGroup) (a : Activity) : (g.merge a).ids = g.ids ++ [a.id] ∧
    (g.merge a).activity.user = g.activity.user ∧
    (g.merge a).activity.server = g.activity.server ∧ (g.merge a).activity.ip = g.activity.ip ∧
    (g.merge a).activity.event = g.activity.event := by
  rw [EventGroup.merge, EventGroup.appendFiles]
  cases filesOf a.metadata with
  | none | some files => exact ⟨rfl, rfl, rfl, rfl, rfl⟩

theorem EventGroup.filesOf_merge {files : List Json.Value}
    (known : filesOf g.activity.metadata = some files) : filesOf (g.merge a).activity.metadata =
    some (files ++ (filesOf a.metadata).getD []) := by
  rw [EventGroup.merge, EventGroup.appendFiles]
  cases filesOf a.metadata with
  | none =>
    rw [Option.getD_none, List.append_nil]
    exact known
  | some more => simp [known]

theorem Merges.merge (merges : Merges standard rows key g)
    (own : { mapKey standard a with part := key.part } = key) :
    Merges standard (rows ++ [a]) key (g.merge a) := by
  obtain ⟨ids, user, server, ip, event⟩ := g.merge_keeps a
  refine ⟨?_, ?_, ?_, ?_⟩
  · rw [ids, merges.ids, List.map_append, List.map_singleton]
  · exact List.forall_mem_append.2 ⟨merges.alike, List.forall_mem_singleton.2 own⟩
  · rw [user, server, ip, event]
    exact merges.about
  · rw [EventGroup.filesOf_merge merges.files, List.flatMap_append, List.flatMap_singleton]

end

namespace EventMap

inductive Pushed (standard : Standard) (em : EventMap) (a : Activity) : EventMap → Bool → Prop
  | refused : Pushed standard em a em false
  | merged {key : MapKey} {g : EventGroup} (found : em.m.lookup key = some g)
      (room : g.files < maxFilesPerEvent)
      (own : { mapKey standard a with part := key.part } = key) : Pushed standard em a
        { em with
          bytes := em.bytes + activitySize standard a
          m := em.m.insert key (g.merge a) } true
  | added {key : MapKey} (missing : em.m.lookup key = none) (few : em.m.entries.length < em.max)
      (own : { mapKey standard a with part := key.part } = key) : Pushed standard em a
        { em with
          bytes := em.bytes + activitySize standard a
          m := em.m.insert key ((newGroup a).merge a) } true

theorem pushed_push (standard : Standard) (em : EventMap) (a : Activity) :
    Pushed standard em a (em.push standard a).1 (em.push standard a).2 := by
  simp only [push, forActivity]
  split
  · exact .refused
  · cases found : em.m.lookup (em.partKey (mapKey standard a)) with
    | some g => exact .merged found (lookup_partKey found) rfl
    | none =>
      by_cases many : em.max ≤ em.m.entries.length
      · rw [if_pos many]
        exact .refused
      · rw [if_neg many]
        exact .added found (Nat.lt_of_not_le many) rfl

def Made (standard : Standard) (pushed : List Activity) (em : EventMap) : Prop :=
  ∀ key g, em.m.lookup key = some g →
    ∃ rows, (∀ row ∈ rows, row ∈ pushed) ∧ Merges standard rows key g

section

variable {em after : EventMap}

theorem Made.insert {bytes : Nat} {key : MapKey} {g : EventGroup} {rows : List Activity}
    (made : Made standard pushed em) (known : ∀ row ∈ rows, row ∈ pushed)
    (merges : Merges standard rows key g)
    (own : { mapKey standard a with part := key.part } = key) : Made standard (pushed ++ [a])
      { em with bytes := bytes, m := em.m.insert key (g.merge a) } := by
  intro other found stored
  rcases Dictionary.lookup_insert_iff.1 stored with ⟨rfl, rfl⟩ | ⟨_, stored⟩
  · refine ⟨rows ++ [a], ?_, merges.merge own⟩
    intro row member
    exact List.mem_append.2 ((List.mem_append.1 member).imp_left (known row))
  · obtain ⟨rows, earlier, merges⟩ := made other found stored
    exact ⟨rows, fun row member =>
      List.mem_append_left _ (earlier row member), merges⟩

theorem Made.push (made : Made standard pushed em) (succeeded : Pushed standard em a after true) :
    Made standard (pushed ++ [a]) after := by
  cases succeeded with
  | merged found _ own =>
    obtain ⟨rows, known, merges⟩ := made _ _ found
    exact made.insert known merges own
  | added _ _ own =>
    exact made.insert (List.forall_mem_nil _) (merges_newGroup own) own

end

end EventMap

structure BatchItem.Reports (item : BatchItem) (row : Activity) : Prop where
  listed : row.id ∈ item.ids
  about : item.activity.user.getD "" = row.user.getD "" ∧
    item.activity.server = row.server ∧ item.activity.ip = row.ip ∧ item.activity.event = row.event
  files : ∃ files, filesOf item.activity.metadata = some files ∧
    ∀ file ∈ (filesOf row.metadata).getD [], file ∈ files

theorem EventMap.Made.reports {standard : Standard} {pushed : List Activity}
    {em : EventMap} (made : em.Made standard pushed) {order : List MapKey}
    {item : BatchItem} (member : item ∈ em.items order) {id : Int} (listed : id ∈ item.ids) :
    ∃ row ∈ pushed, row.id = id ∧ item.Reports row := by
  obtain ⟨key, _, found⟩ := List.mem_filterMap.1 member
  obtain ⟨g, stored, rfl⟩ := Option.map_eq_some_iff.1 found
  obtain ⟨rows, known, merges⟩ := made key g stored
  have made : id ∈ rows.map Activity.id := merges.ids ▸ listed
  obtain ⟨row, merged, rfl⟩ := List.mem_map.1 made
  refine ⟨row, known row merged, rfl, listed, ?_, _, merges.files, ?_⟩
  · have own := merges.alike row merged
    have about := merges.about
    rw [← own] at about
    exact about
  · intro file among
    exact List.mem_flatMap.2 ⟨row, merged, among⟩

structure Gathers (standard : Standard) (rows : List Activity) (key : MapKey)
    (g : EventGroup) : Prop extends Merges standard rows key g where
  reached : g.activity.timestamp ∈ rows.map Activity.timestamp
  earliest : ∀ row ∈ rows, g.activity.timestamp ≤ row.timestamp

section

variable {em : EventMap}

theorem EventGroup.timestamp_merge (g : EventGroup) (a : Activity) :
    (g.merge a).activity.timestamp =
      if a.timestamp < g.activity.timestamp then a.timestamp
      else g.activity.timestamp := by
  rw [EventGroup.merge, EventGroup.appendFiles]
  cases filesOf a.metadata <;> rfl

theorem Gathers.merge (gathers : Gathers standard rows key g)
    (own : { mapKey standard a with part := key.part } = key) :
    Gathers standard (rows ++ [a]) key (g.merge a) := by
  refine ⟨gathers.toMerges.merge own, ?_, ?_⟩
  · rw [g.timestamp_merge a, List.map_append]
    split
    · exact List.mem_append_right _ List.mem_cons_self
    · exact List.mem_append_left _ gathers.reached
  · intro row member
    rw [g.timestamp_merge a]
    rcases List.mem_append.1 member with earlier | last
    · have bound := gathers.earliest row earlier
      split <;> omega
    · rw [List.mem_singleton.1 last]
      split <;> omega

theorem gathers_newGroup (own : { mapKey standard a with part := key.part } = key) :
    Gathers standard [a] key ((newGroup a).merge a) := by
  have same : ((newGroup a).merge a).activity.timestamp = a.timestamp := by
    rw [EventGroup.timestamp_merge]
    exact ite_self _
  refine ⟨(merges_newGroup own).merge own, ?_, ?_⟩
  · rw [same]
    exact List.mem_cons_self
  · intro row member
    rw [same, List.mem_singleton.1 member]

/-- What the map holds after some activities were added. -/
structure Gathered (standard : Standard) (max : Nat) (pushed : List Activity)
    (em : EventMap) : Prop where
  max_eq : em.max = max
  rows : ∀ key g, em.m.lookup key = some g →
    ∃ rows, rows.Sublist pushed ∧ Gathers standard rows key g
  once : ∀ id, em.m.total (fun g => g.ids.count id) = (pushed.map Activity.id).count id
  few : em.m.entries.length ≤ max
  bytes_eq : em.bytes = (pushed.map (activitySize standard)).sum
  small : em.bytes ≤ Nat.max maxRequestBytes (pushed.head?.elim 0 (activitySize standard))

theorem EventMap.rows_insert (before : ∀ key g, em.m.lookup key = some g →
    ∃ rows, rows.Sublist pushed ∧ Gathers standard rows key g) (listed : rows.Sublist pushed)
    (gathers : Gathers standard (rows ++ [a]) key g) :
    ∀ other found, (em.m.insert key g).lookup other = some found →
    ∃ rows, rows.Sublist (pushed ++ [a]) ∧ Gathers standard rows other found := by
  intro other found stored
  rcases Dictionary.lookup_insert_iff.1 stored with ⟨rfl, rfl⟩ | ⟨_, stored⟩
  · exact ⟨rows ++ [a], listed.append (List.Sublist.refl _), gathers⟩
  · obtain ⟨rows, earlier, gathers⟩ := before other found stored
    exact ⟨rows, earlier.trans (List.sublist_append_left _ _), gathers⟩

theorem EventMap.bytes_push (added : (em.push standard a).2 = true) :
    (em.push standard a).1.bytes = em.bytes + activitySize standard a ∧ (em.bytes = 0 ∨
    em.bytes + activitySize standard a ≤ maxRequestBytes) := by
  rw [push] at added ⊢
  by_cases large : 0 < em.bytes ∧ maxRequestBytes < em.bytes + activitySize standard a
  · rw [if_pos large] at added
    cases added
  · rw [if_neg large] at added ⊢
    cases found : em.forActivity standard a with
    | none =>
      rw [found] at added
      cases added
    | some entry => exact ⟨rfl, by omega⟩

variable {max : Nat}

theorem Gathered.small_push (gathered : Gathered standard max pushed em)
    (added : (em.push standard a).2 = true) : (em.push standard a).1.bytes ≤ Nat.max maxRequestBytes
    ((pushed ++ [a]).head?.elim 0 (activitySize standard)) := by
  obtain ⟨bytes, room⟩ := EventMap.bytes_push added
  have sum := gathered.bytes_eq
  rw [bytes]
  cases pushed with
  | nil =>
    rw [sum, List.map_nil, List.sum_nil, Nat.zero_add]
    exact Nat.le_max_right _ _
  | cons first rest =>
    rw [List.map_cons, List.sum_cons] at sum
    have positive : 0 < activitySize standard first := Nat.succ_pos _
    exact (room.resolve_left (by omega)).trans (Nat.le_max_left _ _)

theorem Gathered.push (gathered : Gathered standard max pushed em)
    (added : (em.push standard a).2 = true) :
    Gathered standard max (pushed ++ [a]) (em.push standard a).1 := by
  have small := gathered.small_push added
  have bytes : (em.push standard a).1.bytes =
      ((pushed ++ [a]).map (activitySize standard)).sum := by
    rw [(EventMap.bytes_push added).1, gathered.bytes_eq, List.map_append,
      List.sum_append, List.map_singleton, List.sum_singleton]
  have pushes := EventMap.pushed_push standard em a
  rw [added] at pushes
  generalize (em.push standard a).1 = after at *
  cases pushes with
  | merged found room own =>
    obtain ⟨rows, listed, gathers⟩ := gathered.rows _ _ found
    refine ⟨gathered.max_eq, EventMap.rows_insert gathered.rows listed
      (gathers.merge own), ?_, ?_, bytes, small⟩
    · intro id
      rw [Dictionary.total_insert, (EventGroup.merge_keeps _ a).1,
        List.map_append, List.count_append, List.count_append,
        ← gathered.once id, Dictionary.total_erase found]
      exact Nat.add_right_comm _ _ _
    · rw [Dictionary.length_insert_of_found found]
      exact gathered.few
  | added missing few own =>
    refine ⟨gathered.max_eq, EventMap.rows_insert gathered.rows
      (List.nil_sublist pushed) (gathers_newGroup own), ?_, ?_, bytes, small⟩
    · intro id
      rw [Dictionary.total_insert_fresh missing,
        (EventGroup.merge_keeps _ a).1, List.map_append, List.count_append,
        List.count_append, ← gathered.once id, newGroup, List.count_nil, Nat.zero_add]
      exact Nat.add_comm _ _
    · rw [← gathered.max_eq]
      exact (Dictionary.length_insert_le _ _).trans few

theorem gathered_nil (standard : Standard) (max : Nat) : Gathered standard max [] ⟨max, 0, ∅⟩ := by
  refine ⟨rfl, ?_, fun id => rfl, Nat.zero_le _, rfl, Nat.zero_le _⟩
  intro key g found
  cases found

end

def EventMap.pushNext (standard : Standard) (state : EventMap × List Activity)
    (a : Activity) : EventMap × List Activity :=
  let pushed := state.1.push standard a
  (pushed.1, if pushed.2 then state.2 ++ [a] else state.2)

/-- The map after a sequence of activities, with those that were added. -/
def EventMap.pushAll (standard : Standard) (max : Nat)
    (activities : List Activity) : EventMap × List Activity :=
  activities.foldl (pushNext standard) (⟨max, 0, ∅⟩, [])

theorem EventMap.push_refused {standard : Standard} {em : EventMap} {a : Activity}
    (refused : (em.push standard a).2 = false) : (em.push standard a).1 = em := by
  have pushes := pushed_push standard em a
  rw [refused] at pushes
  generalize (em.push standard a).1 = after at *
  cases pushes
  rfl

theorem EventMap.gathered_pushAll (standard : Standard) (max : Nat) (activities : List Activity) :
    Gathered standard max (pushAll standard max activities).2 (pushAll standard max activities).1 ∧
    (pushAll standard max activities).2.Sublist activities := by
  induction activities using List.reverseRecOn with
  | nil => exact ⟨gathered_nil standard max, List.Sublist.refl _⟩
  | append_singleton activities a ih =>
    rw [pushAll, List.foldl_append]
    change Gathered standard max (pushNext standard (pushAll standard max activities) a).2
        (pushNext standard (pushAll standard max activities) a).1 ∧
      (pushNext standard (pushAll standard max activities) a).2.Sublist _
    obtain ⟨gathered, listed⟩ := ih
    rw [pushNext]
    cases added : ((pushAll standard max activities).1.push standard a).2 with
    | true =>
      exact ⟨gathered.push added, listed.append (List.Sublist.refl _)⟩
    | false =>
      rw [push_refused added]
      exact ⟨gathered, listed.trans (List.sublist_append_left _ _)⟩

structure BatchItem.MergedFrom (standard : Standard) (item : BatchItem)
    (rows : List Activity) : Prop where
  ids : item.ids = rows.map Activity.id
  files : filesOf item.activity.metadata =
    some (rows.flatMap fun row => (filesOf row.metadata).getD [])
  about : ∀ row ∈ rows, row.user.getD "" = item.activity.user.getD "" ∧
    row.server = item.activity.server ∧ row.ip = item.activity.ip ∧
    row.event = item.activity.event ∧ standard.formatMinute row.timestamp =
      standard.formatMinute item.activity.timestamp
  reached : item.activity.timestamp ∈ rows.map Activity.timestamp
  earliest : ∀ row ∈ rows, item.activity.timestamp ≤ row.timestamp

theorem Gathers.mergedFrom (gathers : Gathers standard rows key g) :
    BatchItem.MergedFrom standard ⟨g.activity, g.ids⟩ rows := by
  refine ⟨gathers.ids, gathers.files, ?_, gathers.reached, gathers.earliest⟩
  intro row member
  obtain ⟨first, among, same⟩ := List.mem_map.1 gathers.reached
  have own := gathers.alike row member
  have minute := congrArg MapKey.timestamp (gathers.alike first among)
  have about := gathers.about
  rw [← own] at about
  refine ⟨about.1.symm, about.2.1.symm, about.2.2.1.symm, about.2.2.2.symm, ?_⟩
  rw [← same]
  exact (congrArg MapKey.timestamp own).trans minute.symm

theorem EventMap.items_keys (em : EventMap) : em.items em.m.keys =
    em.m.entries.map fun entry => ⟨entry.2.activity, entry.2.ids⟩ := by
  rw [items, AList.keys, List.keys, List.filterMap_map, ← List.filterMap_eq_map]
  refine List.filterMap_congr fun entry member => ?_
  rw [Function.comp_apply, Dictionary.mem_entries_iff.1 member]
  rfl

theorem Gathered.ids_perm {standard : Standard} {max : Nat} {pushed : List Activity}
    {em : EventMap} {order : List MapKey} (gathered : Gathered standard max pushed em)
    (visits : order.Perm em.m.keys) : ((em.items order).flatMap BatchItem.ids).Perm
    (pushed.map Activity.id) := by
  have same : ((em.items em.m.keys).flatMap BatchItem.ids).Perm (pushed.map Activity.id) := by
    refine List.perm_iff_count.2 fun id => ?_
    rw [em.items_keys, ← gathered.once id, List.count_flatMap, List.map_map]
    rfl
  exact ((visits.filterMap _).flatMap_right _).trans same

/-- Each activity that fits is merged to one item and nothing else is, and the items are not too
many and not too large. -/
theorem pushAll_merges (standard : Standard) (max : Nat)
    (activities : List Activity) (distinct : (activities.map Activity.id).Nodup)
    (order : List MapKey)
    (visits : order.Perm (EventMap.pushAll standard max activities).1.m.keys) :
    let added := (EventMap.pushAll standard max activities).2
    let em := (EventMap.pushAll standard max activities).1
    ((em.items order).flatMap BatchItem.ids).Perm (added.map Activity.id) ∧
    ((em.items order).flatMap BatchItem.ids).Nodup ∧
    (∀ item ∈ em.items order, ∃ rows, rows.Sublist added ∧ item.MergedFrom standard rows) ∧
    (em.items order).length ≤ max ∧
    em.bytes = (added.map (activitySize standard)).sum ∧
    em.bytes ≤ Nat.max maxRequestBytes (added.head?.elim 0 (activitySize standard)) ∧
    ∀ em a, (EventMap.push standard em a).2 = false → (EventMap.push standard em a).1 = em := by
  intro added em
  obtain ⟨gathered, listed⟩ := EventMap.gathered_pushAll standard max activities
  have same := gathered.ids_perm visits
  refine ⟨same, ?_, ?_, ?_, gathered.bytes_eq, gathered.small, fun _ _ => EventMap.push_refused⟩
  · exact same.nodup_iff.2 (distinct.sublist (listed.map _))
  · intro item member
    obtain ⟨key, _, found⟩ := List.mem_filterMap.1 member
    obtain ⟨g, stored, rfl⟩ := Option.map_eq_some_iff.1 found
    obtain ⟨rows, among, gathers⟩ := gathered.rows key g stored
    exact ⟨rows, among, gathers.mergedFrom⟩
  · refine (List.length_filterMap_le _ _).trans ?_
    rw [visits.length_eq, AList.keys, List.keys, List.length_map]
    exact gathered.few

def uploads : List Activity :=
  [⟨1, some "u", "s", "server:sftp.create", filesMeta [.string ['a']], "::1", 7⟩,
    ⟨2, some "u", "s", "server:sftp.create", filesMeta [.string ['b']], "::1", 5⟩]

theorem uploads_merged :
    let em := (EventMap.pushAll ⟨fun _ => true, List.length, fun _ => "t"⟩ 10 uploads).1
    (em.items em.m.keys).length = 1 ∧ (em.items em.m.keys).length ≤ 10 :=
  ⟨by decide +kernel, (pushAll_merges _ 10 uploads (by decide) _ (List.Perm.refl _)).2.2.2.1⟩

end Wings.Cron
