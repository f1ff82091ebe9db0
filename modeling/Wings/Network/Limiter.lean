import Wings.Library.Transition

/-!
# The limiters of a websocket connection

Every event is counted by the limiter of its name. A call looks the limiter up under one lock, makes
it under another one if there was none, and asks it under a third one.
-/

namespace Wings.Limiter

open Processes Transition

inductive Event
  | authentication
  | sendServerLogs
  | sendCommand
  | other (name : String)
  deriving DecidableEq

/-- The time for one token in nanoseconds, and the burst. -/
def limitValuesFor : Event → Nat × Nat
  | .authentication | .sendServerLogs => (5000000000, 2)
  | .sendCommand => (1000000000, 10)
  | .other _ => (1000000000, 4)

def limiterName : Event → Event
  | .other _ => .other "_default"
  | e => e

/-- A token bucket, whose level is counted in nanoseconds. -/
structure Bucket where
  interval : Nat
  burst : Nat
  level : Nat
  last : Nat

namespace Bucket

def new (limit : Nat × Nat) : Bucket := ⟨limit.1, limit.2, limit.2 * limit.1, 0⟩

def allow (bucket : Bucket) (now : Nat) : Bool × Bucket :=
  let level := min (bucket.burst * bucket.interval) (bucket.level + (now - bucket.last))
  if bucket.interval ≤ level then
    (true, { bucket with level := level - bucket.interval, last := now })
  else (false, bucket)

def run (bucket : Bucket) : List Nat → List Bool × Bucket
  | [] => ([], bucket)
  | now :: times =>
    let next := bucket.allow now
    (next.1 :: (next.2.run times).1, (next.2.run times).2)

theorem run_concat (bucket : Bucket) (times : List Nat) (now : Nat) :
    bucket.run (times ++ [now]) = ((bucket.run times).1 ++ [((bucket.run times).2.allow now).1],
    ((bucket.run times).2.allow now).2) := by
  induction times generalizing bucket with
  | nil => rfl
  | cons first times ih => simp [run, ih]

end Bucket

/-- The limiters, and the times and answers for each name, which no step reads. -/
structure LimiterBucket where
  limits : Event → Option Nat := fun _ => none
  limiters : List Bucket := []
  answers : Event → List (Nat × Bool) := fun _ => []

inductive Call
  | calling (e : Event)
  | missed (e : Event)
  | found (e : Event) (limiter : Nat)
  | returned (e : Event) (limiter : Nat) (allowed : Bool)

def move (_ : Nat) (now : Nat) (l : LimiterBucket) : Call → Option (LimiterBucket × Call)
  | .calling e => some (l, (l.limits (limiterName e)).elim (.missed e) (.found e))
  | .missed e => some ({ l with
      limits := Function.update l.limits (limiterName e) (some l.limiters.length)
      limiters := l.limiters ++ [.new (limitValuesFor e)] }, .found e l.limiters.length)
  | .found e limiter => (l.limiters[limiter]?).map fun bucket => ({ l with
      limiters := l.limiters.set limiter (bucket.allow now).2
      answers := Function.update l.answers (limiterName e)
        (l.answers (limiterName e) ++ [(now, (bucket.allow now).1)]) },
      .returned e limiter (bucket.allow now).1)
  | .returned _ _ _ => none

def Initial (config : Config LimiterBucket Call) : Prop :=
  ∃ events : Nat → Event, config = ⟨{}, fun process => .calling (events process)⟩

/-- No call looks for the limiter of a name that another call has missed and not yet made. -/
def Undisturbed (config : Config LimiterBucket Call) (label : Nat × Nat) : Prop :=
  ∀ e, config.own label.1 = .calling e →
    ∀ other missing, config.own other = .missed missing → limiterName missing ≠ limiterName e

def Call.limiter : Call → Option (Event × Nat)
  | .found e limiter | .returned e limiter _ => some (limiterName e, limiter)
  | _ => none

structure Sound (config : Config LimiterBucket Call) : Prop where
  known : ∀ process name limiter, (config.own process).limiter = some (name, limiter) →
    config.shared.limits name = some limiter
  missing : ∀ process e, config.own process = .missed e →
    config.shared.limits (limiterName e) = none
  single : ∀ process other e missing, config.own process = .missed e →
    config.own other = .missed missing → limiterName missing = limiterName e → other = process
  apart : ∀ name other limiter, config.shared.limits name = some limiter →
    config.shared.limits other = some limiter → name = other
  unused : ∀ name, config.shared.limits name = none → config.shared.answers name = []
  run : ∀ name limiter, config.shared.limits name = some limiter → ∃ bucket,
    config.shared.limiters[limiter]? = some bucket ∧
      (Bucket.new (limitValuesFor name)).run ((config.shared.answers name).map Prod.fst) =
        ((config.shared.answers name).map Prod.snd, bucket)

theorem limitValuesFor_limiterName (e : Event) :
    limitValuesFor (limiterName e) = limitValuesFor e := by
  cases e <;> rfl

theorem Sound.step {config after : Config LimiterBucket Call} (sound : Sound config)
    (undisturbed : Undisturbed config label) (taken : config.Steps move label after) :
    Sound after := by
  obtain ⟨known, missing, single, apart, unused, run⟩ := sound
  obtain ⟨shared, own, moved, rfl⟩ := Config.steps_iff.mp taken
  cases isOwn : config.own label.1 with
  | calling e =>
    rw [isOwn] at moved
    cases moved
    cases isLimit : config.shared.limits (limiterName e) with
    | none => constructor <;> grind [Call.limiter, Undisturbed]
    | some limiter => constructor <;> grind [Call.limiter]
  | missed e =>
    rw [isOwn] at moved
    cases moved
    refine ⟨by grind [Call.limiter], by grind, by grind, by grind, by grind, ?_⟩
    intro name limiter isLimit
    dsimp only at isLimit ⊢
    by_cases same : name = limiterName e
    · subst same
      rw [Function.update_self] at isLimit
      cases isLimit
      rw [unused _ (missing _ _ isOwn), limitValuesFor_limiterName]
      exact ⟨_, List.getElem?_concat_length, rfl⟩
    · rw [Function.update_of_ne same] at isLimit
      obtain ⟨bucket, isBucket, ran⟩ := run name limiter isLimit
      exact ⟨bucket, by grind, ran⟩
  | found e limiter =>
    rw [isOwn] at moved
    obtain ⟨bucket, isBucket, moved⟩ := Option.map_eq_some_iff.mp moved
    cases moved
    have isLimit := known label.1 (limiterName e) limiter (by rw [isOwn]; rfl)
    refine ⟨by grind [Call.limiter], by grind, by grind, by grind, ?_, ?_⟩ <;> intro name
    · intro none
      have other : name ≠ limiterName e := by grind
      dsimp only
      rw [Function.update_of_ne other, unused name none]
    · intro found isFound
      obtain ⟨current, isCurrent, ran⟩ := run name found isFound
      dsimp only
      by_cases same : name = limiterName e
      · obtain rfl : found = limiter := by grind
        obtain rfl : current = bucket := by grind
        subst same
        rw [Function.update_self, List.map_append, List.map_append, List.map_singleton,
          List.map_singleton, Bucket.run_concat, ran]
        exact ⟨_, by grind, rfl⟩
      · rw [Function.update_of_ne same]
        exact ⟨current, by grind, ran⟩
  | returned e limiter allowed =>
    rw [isOwn] at moved
    cases moved

/-- All calls for a name get one limiter, if no call looks for it while another one is about to make
it. -/
theorem single_limiter (config : Config LimiterBucket Call)
    (reached : Reachable Initial (Guarded Undisturbed (Config.Steps move)) config) :
    (∀ process other name first second, (config.own process).limiter = some (name, first) →
      (config.own other).limiter = some (name, second) → first = second) ∧
    ∀ name, (config.shared.answers name).map Prod.snd =
      ((Bucket.new (limitValuesFor name)).run ((config.shared.answers name).map Prod.fst)).1 := by
  have sound : Sound config := by
    induction reached with
    | start initial =>
      obtain ⟨events, rfl⟩ := initial
      exact ⟨nofun, nofun, nofun, nofun, fun _ _ => rfl, nofun⟩
    | next _ _ taken ih => exact ih.step taken.1 taken.2
  constructor
  · intro process other name first second isFirst isSecond
    have known := sound.known process name first isFirst
    rw [sound.known other name second isSecond] at known
    exact (Option.some.inj known).symm
  · intro name
    cases isLimit : config.shared.limits name with
    | none =>
      rw [sound.unused name isLimit]
      rfl
    | some limiter =>
      obtain ⟨bucket, -, ran⟩ := sound.run name limiter isLimit
      rw [ran]

theorem single_limiter_first : ∃ config : Config LimiterBucket Call,
    config.own 0 = .returned .sendServerLogs 0 true ∧
      (config.shared.answers .sendServerLogs).map Prod.snd =
        ((Bucket.new (limitValuesFor .sendServerLogs)).run
          ((config.shared.answers .sendServerLogs).map Prod.fst)).1 := by
  have reached : Reachable Initial (Guarded Undisturbed (Config.Steps move)) _ :=
    .next (.next (.next (.start ⟨fun _ => .sendServerLogs, rfl⟩)
      (0, 0) ⟨fun _ _ _ _ => nofun, rfl⟩) (0, 0) ⟨nofun, rfl⟩) (0, 0) ⟨nofun, rfl⟩
  exact ⟨_, rfl, (single_limiter _ reached).2 .sendServerLogs⟩

/-- Two first calls make a limiter each: three events are accepted at once instead of two. -/
theorem three_accepted : ∃ config, Reachable Initial (Config.Steps move) config ∧
    config.own 0 = .returned .sendServerLogs 0 true ∧
    config.own 1 = .returned .sendServerLogs 1 true ∧
    config.own 2 = .returned .sendServerLogs 1 true ∧
    ((Bucket.new (limitValuesFor .sendServerLogs)).run [0, 0, 0]).1 = [true, true, false] :=
  ⟨_, Reachable.execute (.start ⟨fun _ => .sendServerLogs, rfl⟩)
    [(0, 0), (1, 0), (0, 0), (1, 0), (2, 0), (0, 0), (1, 0), (2, 0)] rfl, rfl, rfl, rfl, rfl⟩

end Wings.Limiter
