import Wings.Library.Fallible

/-!
# Netlink replies

The messages in a datagram of the kernel. What the netlink library decodes and validates is a
parameter, and so is the order of bytes. A slice expression panics when it is out of range.
-/

namespace Wings.NetworkPolicy.Route

open FallibleProgram

abbrev Bytes := List UInt8

structure Message where
  length : UInt32
  kind : UInt16
  flags : UInt16
  sequence : UInt32
  pid : UInt32
  data : Bytes

inductive Failure where
  | message (text : String)
  | outOfRange

structure Netlink where
  uint32 : Bytes → UInt32
  unmarshalBinary : Bytes → Except String Message
  validate : Message → Message → Except String Unit
  errno : Int → String

def error : UInt16 := 2

def done : UInt16 := 3

def overrun : UInt16 := 4

def multi : UInt16 := 2

def acknowledge : UInt16 := 4

def dumpIntr : UInt16 := 0x10

def dump : UInt16 := 0x300

def slice (data : Bytes) (low high : Nat) : Except Failure Bytes :=
  if low ≤ high ∧ high ≤ data.length then .ok ((data.take high).drop low) else .error .outOfRange

def check (condition : Prop) [Decidable condition] (text : String) : Except Failure Unit :=
  require condition (.message text)

variable (netlink : Netlink) (request : Message)

/-- The switch on the kind of a message. -/
def account (message : Message) (messages : List Message) : Except Failure (List Message × Bool) :=
  if message.kind = overrun then .error (.message "Netlink receive overrun")
  else if message.kind = error ∨ message.kind = done then do
    check (message.kind = done → request.flags &&& dump = dump)
      "unexpected Netlink dump completion"
    check (4 ≤ message.data.length) "short Netlink completion"
    let code := (netlink.uint32 (← slice message.data 0 4)).toInt32.toInt
    check (0 ≤ code) ("kernel rejected Netlink request: " ++ netlink.errno (-code))
    check (code = 0) "invalid Netlink error code"
    .ok (messages, decide (message.kind = done ∨ request.flags &&& dump ≠ dump))
  else do
    check (request.flags &&& acknowledge ≠ 0 → request.flags &&& dump = dump)
      "Netlink mutation was not acknowledged"
    check (request.flags &&& dump = dump → message.flags &&& multi ≠ 0)
      "incomplete Netlink multipart reply"
    .ok (messages ++ [message], decide (message.flags &&& multi = 0))

def aligned (length : Nat) : Nat := (length + 3) / 4 * 4

/-- One round of the loop: what is left of the data, the messages, and whether they are complete. -/
def round (data : Bytes) (messages : List Message) (done : Bool) :
    Except Failure (Bytes × List Message × Bool) := do
  check (done = false) "Netlink data after completion"
  check (16 ≤ data.length) "short Netlink header"
  let length := (netlink.uint32 (← slice data 0 4)).toNat
  check (16 ≤ length ∧ length ≤ data.length) "invalid Netlink message length"
  let message ← (netlink.unmarshalBinary (← slice data 0 length)).mapError .message
  (netlink.validate request message).mapError .message
  check (message.flags &&& dumpIntr = 0) "interrupted Netlink dump"
  let result ← account netlink request message messages
  check (aligned length ≤ data.length ∨ length = data.length) "truncated Netlink alignment"
  .ok (← slice data (if aligned length ≤ data.length then aligned length else length) data.length,
    result)

/-- An outcome that is no panic, and meets a condition if it is a success. -/
def Safe (post : α → Prop) : Except Failure α → Prop
  | .ok value => post value
  | .error failure => failure ≠ .outOfRange

theorem Safe.bind {outcome : Except Failure α} {next : α → Except Failure β}
    (first : Safe condition outcome) (rest : ∀ value, condition value → Safe post (next value)) :
    Safe post (outcome >>= next) := by
  cases outcome with
  | error failure => exact first
  | ok value => exact rest value first

theorem Safe.of_ok (safe : Safe post outcome) (ran : outcome = .ok value) : post value := by
  rw [ran] at safe
  exact safe

theorem Safe.mono (safe : Safe condition outcome) (implies : ∀ value, condition value → post value) :
    Safe post outcome := by
  cases outcome with
  | error failure => exact safe
  | ok value => exact implies value safe

theorem safe_check {condition : Prop} [Decidable condition] (text : String) :
    Safe (fun _ => condition) (check condition text) := by
  unfold check require
  split_ifs with holds
  · exact holds
  · exact Failure.noConfusion

theorem safe_slice (ordered : low ≤ high) (within : high ≤ data.length) :
    Safe (· = (data.take high).drop low) (slice data low high) := by
  rw [slice, if_pos ⟨ordered, within⟩]
  rfl

theorem safe_library (outcome : Except String α) :
    Safe (outcome = .ok ·) (outcome.mapError .message) := by
  cases outcome with
  | error text => exact Failure.noConfusion
  | ok value => rfl

/-- Overruns, errors and completions. -/
def isControl (message : Message) : Bool :=
  decide (message.kind = overrun ∨ message.kind = error ∨ message.kind = done)

def completes (message : Message) : Bool :=
  if message.kind = error ∨ message.kind = done then
    decide (message.kind = done ∨ request.flags &&& dump ≠ dump)
  else decide (message.flags &&& multi = 0)

theorem account_safe (message : Message) (messages : List Message) :
    Safe (· = (messages ++ [message].filter (!isControl ·), completes request message))
    (account netlink request message messages) := by
  unfold account
  split_ifs with isOverrun completion
  · exact Failure.noConfusion
  · refine (safe_check _).bind fun _ _ => (safe_check _).bind fun _ long => ?_
    refine (safe_slice (Nat.zero_le 4) long).bind fun _ _ => ?_
    refine (safe_check _).bind fun _ _ => (safe_check _).bind fun _ _ => ?_
    have control : isControl message = true := decide_eq_true (.inr completion)
    simp [Safe, control, completes, completion]
  · refine (safe_check _).bind fun _ _ => (safe_check _).bind fun _ _ => ?_
    have reply : isControl message = false := decide_eq_false (not_or.2 ⟨isOverrun, completion⟩)
    simp [Safe, reply, completes, completion]

/-- The data begin with a message of the announced length, which ends at a multiple of four bytes
or with the data. -/
structure Begins (data : Bytes) (length : Nat) (message : Message) : Prop where
  complete : 16 ≤ length
  within : length ≤ data.length
  announced : (netlink.uint32 (data.take 4)).toNat = length
  decoded : netlink.unmarshalBinary (data.take length) = .ok message
  padded : aligned length ≤ data.length ∨ length = data.length

theorem round_safe (data : Bytes) (messages : List Message) (done : Bool) :
    Safe (fun result => ∃ length message, Begins netlink data length message ∧ done = false ∧
    result = (data.drop (aligned length), messages ++ [message].filter (!isControl ·),
    completes request message)) (round netlink request data messages done) := by
  refine (safe_check _).bind fun _ undone => (safe_check _).bind fun _ long => ?_
  refine (safe_slice (Nat.zero_le 4) (by omega)).bind fun _ first => ?_
  refine (safe_check _).bind fun _ bounds => ?_
  refine (safe_slice (Nat.zero_le _) bounds.2).bind fun _ raw => ?_
  refine (safe_library _).bind fun message decoded => (safe_library _).bind fun _ _ => ?_
  refine (safe_check _).bind fun _ _ => ?_
  refine (account_safe netlink request message messages).bind fun _ result => ?_
  refine (safe_check _).bind fun _ padded => ?_
  subst first raw result
  refine (safe_slice ?_ (Nat.le_refl _)).bind fun rest isRest => ?_
  · split_ifs with fits
    · exact fits
    · exact bounds.2
  · refine ⟨_, message, ⟨bounds.1, bounds.2, rfl, decoded, padded⟩, undone, ?_⟩
    rw [isRest, List.take_length]
    split_ifs with fits
    · rfl
    · rw [List.drop_eq_nil_of_le (Nat.le_of_not_le fits),
        List.drop_eq_nil_of_le (Nat.le_of_eq (padded.resolve_left fits).symm)]

/-- The loop, which ends because every round takes a message off. -/
def decodeLoop (data : Bytes) (messages : List Message) (done : Bool) :
    Except Failure (List Message × Bool) :=
  if data = [] then .ok (messages, done)
  else match ran : round netlink request data messages done with
    | .error failure => .error failure
    | .ok (rest, known, complete) => decodeLoop rest known complete
termination_by data.length
decreasing_by
  obtain ⟨length, message, begins, _, equal⟩ :=
    (round_safe netlink request data messages done).of_ok ran
  have shorter : rest = data.drop (aligned length) := congrArg Prod.fst equal
  rw [shorter, List.length_drop, aligned]
  have := begins.complete
  have := begins.within
  omega

def decodeRouteReply (data : Bytes) : Except Failure (List Message × Bool) :=
  decodeLoop netlink request data [] false

/-- The data are messages one after the other, each at a multiple of four bytes. -/
inductive Framed : Bytes → List Message → Prop
  | nil : Framed [] []
  | cons (begins : Begins netlink data length message)
    (rest : Framed (data.drop (aligned length)) messages) : Framed data (message :: messages)

theorem decodeLoop_safe (data : Bytes) (messages : List Message) (done : Bool) :
    Safe (fun result => ∃ all, Framed netlink data all ∧
    (∀ message ∈ all.dropLast, completes request message = false) ∧ (done = true → all = []) ∧
    result = (messages ++ all.filter (!isControl ·),
    (all.getLast?.map (completes request)).getD done))
    (decodeLoop netlink request data messages done) := by
  fun_induction decodeLoop with
  | case1 messages done => exact ⟨[], .nil, List.forall_mem_nil _, fun _ => rfl, by simp⟩
  | case2 data messages done nonempty failure ran =>
    have safe := round_safe netlink request data messages done
    rw [ran] at safe
    exact safe
  | case3 data messages done nonempty rest known complete ran ih =>
    obtain ⟨length, message, begins, undone, equal⟩ :=
      (round_safe netlink request data messages done).of_ok ran
    cases equal
    refine ih.mono ?_
    rintro _ ⟨all, framed, ends, stops, rfl⟩
    refine ⟨message :: all, .cons begins framed, ?_, by simp [undone], ?_⟩
    · cases all with
      | nil => exact List.forall_mem_nil _
      | cons next all =>
        have incomplete : completes request message = false :=
          Bool.eq_false_iff.2 fun complete => nomatch stops complete
        exact List.forall_mem_cons.2 ⟨incomplete, ends⟩
    · rw [List.append_assoc, ← List.filter_append, List.getLast?_cons]
      cases all.getLast? <;> rfl

end Wings.NetworkPolicy.Route
