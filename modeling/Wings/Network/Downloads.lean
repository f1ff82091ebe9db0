import Mathlib.Data.List.Nodup
import Wings.Library.Transition

/-!
# Remote downloads of a server

A request counts the tracked downloads, registers its own and executes it; anyone can cancel a
tracked download. An access to the caches or a cancel function and the copying of a chunk are one
step each.
-/

namespace Wings.Downloads

open Processes Transition

structure Downloader where
  downloadCache : List Nat
  serverCache : List Nat
  /-- The cancel functions that are set, and whether they were called. -/
  cancelFunc : Nat → Option Bool
  /-- The entries that were removed. No step reads them. -/
  removals : List Nat

namespace Downloader

section

variable (d : Downloader)

def byServer : List Nat := d.serverCache.filter d.downloadCache.contains

def track (id : Nat) : Downloader :=
  if d.downloadCache.contains id then d
  else { d with downloadCache := d.downloadCache ++ [id], serverCache := d.serverCache ++ [id] }

def remove (id : Nat) : Downloader :=
  if d.downloadCache.contains id then
    { d with
      downloadCache := d.downloadCache.filter (· != id)
      serverCache := d.serverCache.filter (· != id)
      removals := d.removals ++ [id] }
  else d

def setCancelFunc (id : Nat) : Downloader :=
  { d with cancelFunc := Function.update d.cancelFunc id (some false) }

def callCancelFunc (id : Nat) : Downloader :=
  { d with cancelFunc := Function.update d.cancelFunc id ((d.cancelFunc id).map fun _ => true) }

end

end Downloader

/-- How far a process is: a request with the deferred `Cancel`, or a call of `Cancel`. -/
inductive Process
  | arriving
  | refused
  | counted
  | registered
  | sending
  | writing (written : Nat)
  | cancelling (written : Nat) (succeeded : Bool)
  | removing (written : Nat) (succeeded : Bool)
  | returned (written : Nat) (succeeded : Bool)
  | finding (id : Nat)
  | missing (id : Nat)
  | calling (id : Nat)
  | dropping (id : Nat)
  | cancelled (id : Nat)

/-- The next step of a process, or the same step with an error of the network or the disk. -/
inductive Action
  | proceed
  | fail
  deriving DecidableEq

@[grind =] def move (chunks : Nat → Nat) (own : Nat) (action : Action) (d : Downloader) :
    Process → Option (Downloader × Process)
  | .arriving => some (d, if d.byServer.length ≥ 3 then .refused else .counted)
  | .counted => some (d.track own, .registered)
  | .registered => some (d.setCancelFunc own, .sending)
  | .sending => some (d, if action = .fail ∨ d.cancelFunc own = some true then .cancelling 0 false
      else .writing 0)
  | .writing written => some (d,
      if action = .fail then .cancelling written false
      else if written < chunks own then
        if d.cancelFunc own = some true then .cancelling written false else .writing (written + 1)
      else .cancelling written true)
  | .cancelling written succeeded => some (d.callCancelFunc own, .removing written succeeded)
  | .removing written succeeded => some (d.remove own, .returned written succeeded)
  | .finding id => some (d, if d.downloadCache.contains id then .calling id else .missing id)
  | .calling id => some (d.callCancelFunc id, .dropping id)
  | .dropping id => some (d.remove id, .cancelled id)
  | .refused | .returned _ _ | .missing _ | .cancelled _ => none

def Initial (config : Config Downloader Process) : Prop :=
  config.shared = ⟨[], [], fun _ => none, []⟩ ∧
    ∀ process, config.own process = .arriving ∨ ∃ id, config.own process = .finding id

@[grind =] def Process.made : Process → Bool
  | .registered | .sending | .writing _ | .cancelling _ _ | .removing _ _ | .returned _ _ => true
  | _ => false

@[grind =] def Process.found : Process → Option Nat
  | .calling id | .dropping id | .cancelled id => some id
  | _ => none

@[grind =] def Process.removed (own : Nat) : Process → Option Nat
  | .returned _ _ => some own
  | .cancelled id => some id
  | _ => none

structure Accounted (own : Nat) (d : Downloader) (process : Process) : Prop where
  cached : own ∈ d.downloadCache ↔ process.made = true ∧ own ∉ d.removals
  made : own ∈ d.removals → process.made = true
  found : ∀ id, process.found = some id → id ∈ d.downloadCache ∨ id ∈ d.removals
  removed : ∀ id, process.removed own = some id → id ∈ d.removals

variable {d : Downloader} {id : Nat}

@[grind =] theorem mem_track :
    other ∈ (d.track id).downloadCache ↔ other ∈ d.downloadCache ∨ other = id := by
  unfold Downloader.track
  split_ifs with known
  · have := List.contains_iff_mem.mp known
    grind
  · simp

@[grind =] theorem removals_track : (d.track id).removals = d.removals := by
  unfold Downloader.track
  split_ifs <;> rfl

@[grind =] theorem mem_cache_remove :
    other ∈ (d.remove id).downloadCache ↔ other ∈ d.downloadCache ∧ other ≠ id := by
  unfold Downloader.remove
  split_ifs with known
  · simp
  · have := mt List.contains_iff_mem.mpr known
    grind

@[grind =] theorem mem_removals_remove : other ∈ (d.remove id).removals ↔
    other ∈ d.removals ∨ other = id ∧ other ∈ d.downloadCache := by
  unfold Downloader.remove
  split_ifs with known
  · have := List.contains_iff_mem.mp known
    grind
  · have := mt List.contains_iff_mem.mpr known
    grind

/-- What a step does to the caches: nothing, or it registers or removes a download. -/
theorem caches_of_move (taken : move chunks own action d process = some (after, moved)) :
    (after.downloadCache = d.downloadCache ∧ after.serverCache = d.serverCache ∧
    after.removals = d.removals ∧ moved.made = process.made ∧ moved.removed own = none ∧
    ∀ id, moved.found = some id → process.found = some id ∨ id ∈ d.downloadCache) ∨
    (process = .counted ∧ moved = .registered ∧ after = d.track own) ∨
    ∃ id, after = d.remove id ∧ moved.removed own = some id ∧ moved.made = process.made ∧
    moved.found = process.found ∧ (process.found = some id ∨ id = own ∧ process.made = true) := by
  cases process with
  | counted =>
    obtain ⟨rfl, rfl⟩ := Prod.mk.inj (Option.some.inj taken)
    exact .inr (.inl ⟨rfl, rfl, rfl⟩)
  | removing written succeeded =>
    obtain ⟨rfl, rfl⟩ := Prod.mk.inj (Option.some.inj taken)
    exact .inr (.inr ⟨own, rfl, rfl, rfl, rfl, .inr ⟨rfl, rfl⟩⟩)
  | dropping id =>
    obtain ⟨rfl, rfl⟩ := Prod.mk.inj (Option.some.inj taken)
    exact .inr (.inr ⟨id, rfl, rfl, rfl, rfl, .inl rfl⟩)
  | refused | returned | missing | cancelled => cases taken
  | _ =>
    obtain ⟨rfl, rfl⟩ := Prod.mk.inj (Option.some.inj taken)
    refine .inl ⟨rfl, rfl, rfl, ?_⟩
    grind

theorem Accounted.move (accounted : Accounted own d process)
    (taken : move chunks own action d process = some (after, moved)) :
    Accounted own after moved := by
  obtain ⟨cached, made, found, removed⟩ := accounted
  obtain ⟨cache, -, removals, sameMade, none, finds⟩ | ⟨rfl, rfl, rfl⟩ |
    ⟨id, rfl, removes, sameMade, sameFound, target⟩ := caches_of_move taken
  · constructor <;> grind
  · constructor <;> grind
  · constructor <;> grind

theorem Accounted.unmoved (accounted : Accounted other d waiting) (different : other ≠ own)
    (taken : Downloads.move chunks own action d process = some (after, moved)) :
    Accounted other after waiting := by
  obtain ⟨cached, made, found, removed⟩ := accounted
  obtain ⟨cache, -, removals, -⟩ | ⟨-, -, rfl⟩ | ⟨id, rfl, -⟩ := caches_of_move taken
  · constructor <;> grind
  · constructor <;> grind
  · constructor <;> grind

/-- Every entry belongs to a download that has not ended, and is removed once. -/
structure Tidy (config : Config Downloader Process) : Prop where
  each : config.Each Accounted
  same : config.shared.serverCache = config.shared.downloadCache
  once : config.shared.removals.Nodup

theorem Tidy.step (tidy : Tidy config) (taken : config.Steps (move chunks) label after) :
    Tidy after := by
  have each := tidy.each.step taken (fun _ _ moved => (tidy.each _).move moved)
    fun _ _ moved _ different accounted => accounted.unmoved different moved
  obtain ⟨shared, own, moved, rfl⟩ := Config.steps_iff.mp taken
  obtain ⟨cache, server, removals, -⟩ | ⟨-, -, rfl⟩ | ⟨id, rfl, -⟩ := caches_of_move moved
  · exact ⟨each, by rw [server, cache, tidy.same], by rw [removals]; exact tidy.once⟩
  · refine ⟨each, ?_, by rw [removals_track]; exact tidy.once⟩
    unfold Downloader.track
    split_ifs <;> simp [tidy.same]
  · refine ⟨each, ?_, ?_⟩ <;> unfold Downloader.remove <;> split_ifs with known
    · simp [tidy.same]
    · exact tidy.same
    · have fresh := ((tidy.each id).cached.mp (List.contains_iff_mem.mp known)).2
      exact List.nodup_append.mpr ⟨tidy.once, by simp, by grind⟩
    · exact tidy.once

theorem tidy_of_reachable (reached : Reachable Initial (Config.Steps (move chunks)) config) :
    Tidy config := by
  refine reached.invariant ?_ fun _ _ _ tidy taken => tidy.step taken
  rintro ⟨shared, own⟩ ⟨rfl, started⟩
  refine ⟨fun process => ?_, rfl, List.nodup_nil⟩
  constructor <;> grind

/-- No request counts while another has counted and not yet registered. -/
def Undisturbed (config : Config Downloader Process) (label : Nat × Action) : Prop :=
  config.own label.1 = .arriving → ∀ other, config.own other ≠ .counted

structure Bounded (config : Config Downloader Process) : Prop where
  single : ∀ first second, config.own first = .counted → config.own second = .counted →
    first = second
  length : config.shared.downloadCache.length ≤ 3
  room : ∀ process, config.own process = .counted → config.shared.downloadCache.length ≤ 2

theorem counted_of_move (taken : move chunks own action d process = some (after, .counted)) :
    process = .arriving ∧ d.byServer.length < 3 := by
  cases process <;> grind

theorem byServer_eq (same : d.serverCache = d.downloadCache) : d.byServer = d.downloadCache := by
  rw [Downloader.byServer, same, List.filter_eq_self]
  exact fun id member => List.contains_iff_mem.mpr member

theorem length_of_move (taken : move chunks own action d process = some (after, moved)) :
    after.downloadCache.length ≤ d.downloadCache.length ∨ process = .counted ∧ moved = .registered ∧
    after.downloadCache.length ≤ d.downloadCache.length + 1 := by
  obtain ⟨cache, -⟩ | ⟨counted, registered, rfl⟩ | ⟨id, rfl, -⟩ := caches_of_move taken
  · exact .inl (Nat.le_of_eq (congrArg List.length cache))
  · refine .inr ⟨counted, registered, ?_⟩
    unfold Downloader.track
    split_ifs <;> simp
  · refine .inl ?_
    unfold Downloader.remove
    split_ifs
    · exact List.length_filter_le _ _
    · exact Nat.le_refl _

theorem Bounded.step (bounded : Bounded config) (tidy : Tidy config)
    (undisturbed : Undisturbed config label) (taken : config.Steps (move chunks) label after) :
    Bounded after := by
  obtain ⟨single, length, room⟩ := bounded
  obtain ⟨shared, own, moved, rfl⟩ := Config.steps_iff.mp taken
  have grown := length_of_move moved
  have counts : own = .counted → config.own label.1 = .arriving ∧
      config.shared.downloadCache.length ≤ 2 := by
    rintro rfl
    have counted := counted_of_move moved
    rw [byServer_eq tidy.same] at counted
    exact ⟨counted.1, by omega⟩
  refine ⟨?_, ?_, ?_⟩
  · intro first second one other
    grind [Undisturbed]
  · grind
  · intro process isCounted
    grind

theorem bounded_of_reachable
    (reached : Reachable Initial (Guarded Undisturbed (Config.Steps (move chunks))) config) :
    Bounded config := by
  induction reached with
  | start initial =>
    obtain ⟨shared, started⟩ := initial
    refine ⟨?_, by rw [shared]; simp, by rw [shared]; simp⟩
    intro first second counted
    simpa [counted] using started first
  | next reached label taken ih =>
    exact ih.step (tidy_of_reachable reached.of_guarded) taken.1 taken.2

/-- At most three downloads are tracked if no request counts while another is about to register. -/
theorem downloads_bounded (chunks : Nat → Nat) (config : Config Downloader Process) :
    (Reachable Initial (Guarded Undisturbed (Config.Steps (move chunks))) config →
      config.shared.byServer.length ≤ 3) ∧
    (Reachable Initial (Config.Steps (move chunks)) config →
      config.shared.removals.Nodup ∧
      (∀ id, id ∈ config.shared.downloadCache ∨ id ∈ config.shared.serverCache →
        (config.own id).made = true ∧ id ∉ config.shared.removals) ∧
      ∀ process id, (config.own process).removed process = some id →
        id ∈ config.shared.removals ∧ id ∉ config.shared.downloadCache ∧
          id ∉ config.shared.serverCache) := by
  constructor
  · intro reached
    rw [byServer_eq (tidy_of_reachable reached.of_guarded).same]
    exact (bounded_of_reachable reached).length
  · intro reached
    obtain ⟨each, same, once⟩ := tidy_of_reachable reached
    refine ⟨once, ?_, ?_⟩
    · rw [same]
      intro id cached
      exact (each id).cached.mp (or_self_iff.mp cached)
    · rw [same]
      intro process id removed
      have gone := (each process).removed id removed
      have absent : id ∉ config.shared.downloadCache := fun cached =>
        ((each id).cached.mp cached).2 gone
      exact ⟨gone, absent, absent⟩

def requests : Config Downloader Process := ⟨⟨[], [], fun _ => none, []⟩, fun _ => .arriving⟩

theorem requests_initial : Initial requests := ⟨rfl, fun _ => .inl rfl⟩

theorem downloads_bounded_one : ∃ config,
    Reachable Initial (Guarded Undisturbed (Config.Steps (move fun _ => 1))) config ∧
      config.shared.byServer = [0] ∧ config.shared.byServer.length ≤ 3 := by
  have counts : Guarded Undisturbed (Config.Steps (move fun _ => 1)) requests (0, .proceed) _ :=
    ⟨fun _ _ => by simp [requests], rfl⟩
  have registered := ((Reachable.start requests_initial).next _ counts).next (0, .proceed)
    ⟨(fun arriving => by cases arriving), rfl⟩
  exact ⟨_, registered, rfl, (downloads_bounded _ _).1 registered⟩

/-- Four requests count before one of them registers. -/
theorem four_tracked : ∃ config, Reachable Initial (Config.Steps (move fun _ => 1)) config ∧
    config.shared.byServer = [0, 1, 2, 3] :=
  ⟨_, Reachable.execute (.start requests_initial)
    ([0, 1, 2, 3, 0, 1, 2, 3].map (·, Action.proceed)) rfl, by decide⟩

@[grind =] def Process.started : Process → Bool
  | .sending | .writing _ | .cancelling _ _ | .removing _ _ | .returned _ _ => true
  | _ => false

@[grind =] def Process.written : Process → Nat
  | .writing written | .cancelling written _ | .removing written _ | .returned written _ => written
  | _ => 0

@[grind =] def Process.succeeded : Process → Bool
  | .cancelling _ succeeded | .removing _ succeeded | .returned _ succeeded => succeeded
  | _ => false

def AfterSet (config : Config Downloader Process) (label : Nat × Action) : Prop :=
  ∀ id, config.own label.1 = .calling id → config.shared.cancelFunc id ≠ none

structure Stops (chunks : Nat → Nat) (own : Nat) (d : Downloader) (process : Process) : Prop where
  started : d.cancelFunc own ≠ none → process.started = true
  whole : process.succeeded = true → chunks own ≤ process.written
  called : ∀ id, process = .dropping id ∨ process = .cancelled id → d.cancelFunc id = some true

@[grind =] theorem callCancelFunc_apply : (d.callCancelFunc id).cancelFunc other =
    if other = id ∧ d.cancelFunc id ≠ none then some true else d.cancelFunc other := by
  simp only [Downloader.callCancelFunc, Function.update_apply]
  cases set : d.cancelFunc id <;> grind

@[grind =] theorem setCancelFunc_apply : (d.setCancelFunc id).cancelFunc other =
    if other = id then some false else d.cancelFunc other :=
  Function.update_apply _ _ _ _

@[grind =] theorem cancelFunc_track : (d.track id).cancelFunc = d.cancelFunc := by
  unfold Downloader.track
  split_ifs <;> rfl

@[grind =] theorem cancelFunc_remove : (d.remove id).cancelFunc = d.cancelFunc := by
  unfold Downloader.remove
  split_ifs <;> rfl

theorem cancelFunc_of_move (taken : move chunks own action d process = some (after, moved))
    (other : id = own → process ≠ .registered) :
    (d.cancelFunc id = some true → after.cancelFunc id = some true) ∧
    (d.cancelFunc id = none → after.cancelFunc id = none) := by
  cases process <;> grind

theorem Stops.move (stops : Stops chunks own d process)
    (afterSet : ∀ id, process = .calling id → d.cancelFunc id ≠ none)
    (taken : move chunks own action d process = some (after, moved)) :
    Stops chunks own after moved := by
  obtain ⟨started, whole, called⟩ := stops
  constructor <;> cases process <;> grind -linarith -ring -lia

theorem Stops.unmoved (stops : Stops chunks other d waiting) (different : other ≠ own)
    (mover : Stops chunks own d process)
    (taken : Downloads.move chunks own action d process = some (after, moved)) :
    Stops chunks other after waiting := by
  obtain ⟨started, whole, called⟩ := stops
  have kept (id : Nat) (apart : id = own → process ≠ .registered) := cancelFunc_of_move taken apart
  refine ⟨?_, whole, ?_⟩
  · grind
  · intro id names
    have := called id names
    refine (kept id ?_).1 this
    rintro rfl rfl
    have := mover.started
    grind

theorem stops_of_reachable
    (reached : Reachable Initial (Guarded AfterSet (Config.Steps (Downloads.move chunks))) config) :
    config.Each (Stops chunks) := by
  refine reached.invariant ?_ ?_
  · rintro ⟨shared, own⟩ ⟨rfl, started⟩ process
    constructor <;> grind
  · rintro config label after each ⟨afterSet, taken⟩
    exact each.step taken (fun _ _ moved => (each _).move afterSet moved)
      fun _ _ moved _ different stops => stops.unmoved different (each _) moved

/-- A download whose context has ended writes nothing more. -/
structure Stopped (chunks : Nat → Nat) (own count : Nat) (d : Downloader) (process : Process) :
    Prop where
  called : d.cancelFunc own = some true
  started : process.started = true
  written : process.written = count
  whole : process.succeeded = true → chunks own ≤ count

theorem Stopped.step {config after : Config Downloader Process}
    (stopped : Stopped chunks id count config.shared (config.own id))
    (taken : config.Steps (move chunks) label after) :
    Stopped chunks id count after.shared (after.own id) := by
  obtain ⟨called, started, written, whole⟩ := stopped
  obtain ⟨shared, own, moved, rfl⟩ := Config.steps_iff.mp taken
  have still : shared.cancelFunc id = some true := by
    refine (cancelFunc_of_move moved ?_).1 called
    rintro rfl registered
    simp [registered, Process.started] at started
  dsimp only
  by_cases mover : id = label.1
  · subst mover
    generalize config.own label.1 = process at *
    refine ⟨still, ?_, ?_, ?_⟩ <;> cases process <;> grind -linarith -ring -lia
  · rw [Function.update_of_ne mover]
    exact ⟨still, started, written, whole⟩

/-- If cancel functions are called once they are set, a download writes nothing after a `Cancel` has
returned. -/
theorem cancelled_download_stops (chunks : Nat → Nat) (config later : Config Downloader Process)
    (process id : Nat)
    (reached : Reachable Initial (Guarded AfterSet (Config.Steps (move chunks))) config)
    (returned : config.own process = .cancelled id)
    (continued : Reachable (· = config) (Config.Steps (move chunks)) later) :
    (later.own id).written = (config.own id).written ∧
      ((later.own id).succeeded = true → chunks id ≤ (config.own id).written) := by
  have each := stops_of_reachable reached
  have called := (each process).called id (.inr returned)
  have stopped : Stopped chunks id (config.own id).written later.shared (later.own id) := by
    induction continued with
    | start same =>
      subst same
      exact ⟨called, (each id).started (by simp [called]), rfl, (each id).whole⟩
    | next _ _ taken ih => exact ih.step taken
  exact ⟨stopped.written, stopped.whole⟩

def cancelling : Config Downloader Process :=
  ⟨⟨[], [], fun _ => none, []⟩, fun process => if process = 1 then .finding 0 else .arriving⟩

theorem cancelling_initial : Initial cancelling := by
  refine ⟨rfl, fun process => ?_⟩
  unfold cancelling
  grind

theorem cancelled_download_stops_sending : ∃ config : Config Downloader Process,
    (∀ later, Reachable (· = config) (Config.Steps (move fun _ => 1)) later →
      (later.own 0).written = (config.own 0).written) ∧
      config.own 1 = .cancelled 0 ∧ config.own 0 = .sending := by
  have idle {config : Config Downloader Process} {label : Nat × Action}
      (other : (config.own label.1).found = none) : AfterSet config label := by
    intro id calling
    simp [calling, Process.found] at other
  have counted : Guarded AfterSet (Config.Steps (move fun _ => 1)) cancelling (0, .proceed) _ :=
    ⟨idle rfl, rfl⟩
  have set := (((Reachable.start cancelling_initial).next _ counted).next (0, .proceed)
    ⟨idle rfl, rfl⟩).next (0, .proceed) ⟨idle rfl, rfl⟩
  have called := (set.next (1, .proceed) ⟨idle rfl, rfl⟩).next (1, .proceed)
    ⟨by rintro _ ⟨⟩; simp [setCancelFunc_apply], rfl⟩
  have dropped := called.next (1, .proceed) ⟨by rintro _ ⟨⟩, rfl⟩
  exact ⟨_, fun later continued =>
    (cancelled_download_stops _ _ later 1 0 dropped rfl continued).1, rfl, rfl⟩

/-- A download that is cancelled before it sets its cancel function is written to the end. -/
theorem cancelled_download_succeeds : ∃ config later : Config Downloader Process,
    Reachable Initial (Config.Steps (move fun _ => 1)) config ∧ config.own 1 = .cancelled 0 ∧
      (config.own 0).written = 0 ∧ Reachable (· = config) (Config.Steps (move fun _ => 1)) later ∧
      later.own 0 = .returned 1 true :=
  ⟨_, _, Reachable.execute (.start cancelling_initial) ([0, 0, 1, 1, 1].map (·, Action.proceed)) rfl,
    rfl, rfl, Reachable.execute (.start rfl) ([0, 0, 0, 0, 0, 0].map (·, Action.proceed)) rfl, rfl⟩

end Wings.Downloads
