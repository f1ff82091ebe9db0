import Mathlib.Data.List.Basic
import Wings.Library.Transition

/-!
# Console output

`Push` sends a message to a channel and after ten milliseconds takes the oldest one out and tries
once more. Calls do not overlap; a receiver takes messages between their steps. A line for a
terminal is cleaned of control characters and escape sequences, except for those that select
colours. Lines are byte strings; `decodeRune` gives the character at the beginning of one.
-/

namespace Wings.Sink

open Transition

inductive Push (Data : Type)
  | idle
  | sending (data : Data)
  | timedOut (data : Data)
  | dropped (data : Data)

def Push.pending {Data : Type} : Push Data → List Data
  | .idle => []
  | .sending data | .timedOut data | .dropped data => [data]

/-- Who took a message out of the channel. A discarded one comes with the channel before. -/
inductive Fate (Data : Type)
  | received
  | discarded (channel : List Data)

/-- The channel and the call, with the messages pushed, put in and taken out. -/
structure State (Data : Type) where
  channel : List Data := []
  push : Push Data := .idle
  pushed : List Data := []
  put : List Data := []
  left : List (Data × Fate Data) := []

inductive Label (Data : Type)
  | push (data : Data)
  | send
  | timeout
  | take
  | retry
  | receive

namespace State

variable {Data : Type}

def send (state : State Data) (data : Data) : State Data :=
  { state with
    channel := state.channel ++ [data], push := .idle, put := state.put ++ [data] }

def step (capacity : Nat) (state : State Data) : Label Data → Option (State Data)
  | .push data =>
    match state.push with
    | .idle => some { state with push := .sending data, pushed := state.pushed ++ [data] }
    | _ => none
  | .send =>
    match state.push with
    | .sending data => if state.channel.length < capacity then some (state.send data) else none
    | _ => none
  | .timeout =>
    match state.push with
    | .sending data => some { state with push := .timedOut data }
    | _ => none
  | .take =>
    match state.push, state.channel with
    | .timedOut data, oldest :: rest => some { state with
        channel := rest, push := .dropped data
        left := state.left ++ [(oldest, .discarded state.channel)] }
    | .timedOut _, [] => some { state with push := .idle }
    | _, _ => none
  | .retry =>
    match state.push with
    | .dropped data => some
        (if state.channel.length < capacity then state.send data else { state with push := .idle })
    | _ => none
  | .receive =>
    match state.channel with
    | oldest :: rest => some { state with
        channel := rest, left := state.left ++ [(oldest, .received)] }
    | [] => none

def Steps (capacity : Nat) (state : State Data) (label : Label Data) (after : State Data) : Prop :=
  state.step capacity label = some after

/-- A call times out while the channel is full, and nothing is received until it has discarded. -/
def Undisturbed (capacity : Nat) (state : State Data) : Label Data → Prop
  | .timeout => state.channel.length = capacity
  | .receive => ∀ data, state.push ≠ .timedOut data
  | _ => True

structure Sound (capacity : Nat) (state : State Data) : Prop where
  order : state.left.map Prod.fst ++ state.channel = state.put
  sent : state.pushed = state.put ++ state.push.pending
  full : ∀ data, state.push = .timedOut data → state.channel.length = capacity
  room : ∀ data, state.push = .dropped data → state.channel.length < capacity
  oldest : ∀ message channel, (message, .discarded channel) ∈ state.left →
    channel.length = capacity ∧ channel.head? = some message

theorem Sound.send {state : State Data} (sound : state.Sound capacity)
    (pending : state.push.pending = [data]) : (state.send data).Sound capacity where
  order := by rw [State.send, ← List.append_assoc, sound.order]
  sent := by
    have sent := sound.sent
    rw [pending] at sent
    simp [State.send, Push.pending, sent]
  full := nofun
  room := nofun
  oldest := sound.oldest

theorem Sound.leave {state : State Data} (sound : state.Sound capacity)
    (isChannel : state.channel = first :: rest) (pending : call.pending = state.push.pending)
    (full : ∀ data, call ≠ .timedOut data)
    (room : ∀ data, call = .dropped data → rest.length < capacity)
    (fits : ∀ channel, fate = .discarded channel →
      channel = state.channel ∧ channel.length = capacity) :
    Sound capacity { state with
      channel := rest, push := call, left := state.left ++ [(first, fate)] } where
  order := by simp [← sound.order, isChannel]
  sent := by simp [sound.sent, pending]
  full := fun data isPush => absurd isPush (full data)
  room := room
  oldest := by
    intro message channel member
    rcases List.mem_append.mp member with member | member
    · exact sound.oldest message channel member
    · obtain ⟨rfl, discarded⟩ := Prod.mk.inj (List.mem_singleton.mp member)
      obtain ⟨rfl, isFull⟩ := fits channel discarded.symm
      exact ⟨isFull, by rw [isChannel]; rfl⟩

theorem Sound.step {state after : State Data} (positive : 0 < capacity)
    (sound : state.Sound capacity) (undisturbed : state.Undisturbed capacity label)
    (taken : state.Steps capacity label after) : after.Sound capacity := by
  unfold Steps at taken
  cases label with
  | push data =>
    simp only [State.step] at taken
    split at taken <;> cases taken
    rename_i idle
    exact ⟨sound.order, by simp [sound.sent, idle, Push.pending], nofun, nofun, sound.oldest⟩
  | send =>
    simp only [State.step] at taken
    split at taken
    · rename_i data sending
      split_ifs at taken
      cases taken
      exact sound.send (by rw [sending]; rfl)
    · cases taken
  | timeout =>
    simp only [State.step] at taken
    split at taken <;> cases taken
    rename_i data sending
    exact ⟨sound.order, by simp [sound.sent, sending, Push.pending], fun _ _ => undisturbed, nofun,
      sound.oldest⟩
  | take =>
    simp only [State.step] at taken
    split at taken <;> cases taken
    · rename_i data oldest rest timedOut isChannel
      have full := sound.full data timedOut
      refine sound.leave isChannel (by rw [timedOut]; rfl) nofun (fun _ _ => ?_) ?_
      · rw [← full, isChannel]
        exact Nat.lt_succ_self _
      · rintro channel discarded
        cases discarded
        exact ⟨rfl, full⟩
    · rename_i data timedOut isChannel
      have full := sound.full data timedOut
      rw [isChannel] at full
      exact absurd full (Nat.ne_of_lt positive)
  | retry =>
    simp only [State.step] at taken
    split at taken <;> cases taken
    rename_i data dropped
    rw [if_pos (sound.room data dropped)]
    exact sound.send (by rw [dropped]; rfl)
  | receive =>
    simp only [State.step] at taken
    split at taken <;> cases taken
    rename_i oldest rest isChannel
    refine sound.leave isChannel rfl undisturbed (fun data dropped => ?_) nofun
    have room := sound.room data dropped
    rw [isChannel] at room
    exact Nat.lt_of_succ_lt room

/-- Every message is in the channel when its call has returned; only the oldest message of a full
channel is discarded. -/
theorem push_drops_oldest {Data : Type} (capacity : Nat) (positive : 0 < capacity)
    (state : State Data)
    (reached : Reachable (· = {}) (Guarded (Undisturbed capacity) (Steps capacity)) state) :
    (state.push = .idle → state.pushed = state.put) ∧
    (∀ message channel, (message, .discarded channel) ∈ state.left →
      channel.length = capacity ∧ channel.head? = some message) ∧
    state.left.map Prod.fst ++ state.channel = state.put := by
  have sound : state.Sound capacity := by
    induction reached with
    | start isInitial =>
      subst isInitial
      exact ⟨rfl, rfl, nofun, nofun, nofun⟩
    | next _ _ taken ih => exact ih.step positive taken.1 taken.2
  refine ⟨fun idle => ?_, sound.oldest, sound.order⟩
  rw [sound.sent, idle]
  exact List.append_nil _

theorem push_drops_oldest_second : ∃ state : State Nat,
    state.left = [(0, .discarded [0])] ∧ state.push = .idle ∧ state.pushed = state.put := by
  have reached : Reachable (· = ({} : State Nat)) (Guarded (Undisturbed 1) (Steps 1)) _ :=
    .next (.next (.next (.next (.next (.next (.start rfl)
      (.push 0) ⟨trivial, rfl⟩) .send ⟨trivial, rfl⟩) (.push 1) ⟨trivial, rfl⟩)
      .timeout ⟨rfl, rfl⟩) .take ⟨trivial, rfl⟩) .retry ⟨trivial, rfl⟩
  exact ⟨_, rfl, rfl, (push_drops_oldest 1 (by decide) _ reached).1 rfl⟩

/-- The receiver empties the channel after the second call has timed out. -/
theorem pushed_message_lost : ∃ state : State Nat, Reachable (· = {}) (Steps 1) state ∧
    state.push = .idle ∧ state.pushed = [0, 1] ∧ state.put = [0] :=
  ⟨_, Reachable.execute (.start rfl)
    [.push 0, .send, .push 1, .timeout, .receive, .take] rfl, rfl, rfl, rfl⟩

end State

end Wings.Sink

namespace Wings.BetterConsole

abbrev Bytes := List UInt8

def decodeRune (input : Bytes) : Option Char := input.toByteArray.utf8DecodeChar? 0

def validSgrParams (params : Bytes) : Bool :=
  params.all fun b => (48 ≤ b && b ≤ 57) || b == 59 || b == 58

/-- The bytes consumed after the introducer, and the colour sequence if it is one. -/
def csiSequence (input : Bytes) : Nat × Bytes :=
  let params := input.takeWhile fun b => b < 0x40 || 0x7e < b
  match input.drop params.length with
  | [] => (input.length, [])
  | b :: _ =>
    if b ≠ 109 ∨ 64 < params.length ∨ validSgrParams params = false then (params.length + 1, [])
    else (params.length + 1, [0x1b, 91] ++ params ++ [109])

def isControlStringStart (r : Char) : Bool :=
  r == '\u0090' || r == '\u0098' || r == '\u009d' || r == '\u009e' || r == '\u009f'

def controlStringLength : Bytes → Nat
  | [] => 0
  | b :: rest =>
    if b = 7 then 1
    else if b = 0x1b ∧ rest.head? = some 92 then 2
    else
      match decodeRune (b :: rest) with
      | none => 1 + controlStringLength rest
      | some r =>
        if r = '\u009c' then r.utf8Size
        else r.utf8Size + controlStringLength (rest.drop (r.utf8Size - 1))
  termination_by input => input.length

def escapeSequence (input : Bytes) : Nat × Bytes :=
  match input with
  | _ :: 91 :: rest => (2 + (csiSequence rest).1, (csiSequence rest).2)
  | _ :: b :: rest =>
    if b = 93 ∨ b = 80 ∨ b = 88 ∨ b = 94 ∨ b = 95 then (2 + controlStringLength rest, [])
    else (2, [])
  | _ => (input.length, [])

def isControl (r : Char) : Bool := r.val < 0x20 || (0x7f ≤ r.val && r.val < 0xa0)

/-- One round: the bytes consumed, those written, and whether they select a colour. -/
def round (line : Bytes) : Nat × Bytes × Bool :=
  if line.head? = some 0x1b then
    let sequence := escapeSequence line
    (max sequence.1 1, sequence.2, !sequence.2.isEmpty)
  else
    match decodeRune line with
    | none => (1, [], false)
    | some r =>
      if r = '\u009b' then
        let sequence := csiSequence (line.drop r.utf8Size)
        (r.utf8Size + sequence.1, sequence.2, !sequence.2.isEmpty)
      else if isControlStringStart r then
        (r.utf8Size + controlStringLength (line.drop r.utf8Size), [], false)
      else if r = '\t' ∨ isControl r = false then (r.utf8Size, line.take r.utf8Size, false)
      else (r.utf8Size, [], false)

theorem round_pos (line : Bytes) : 0 < (round line).1 := by
  unfold round
  have size := Char.utf8Size_pos
  grind

def sanitizeLoop : Bytes → Bytes × Bool
  | [] => ([], false)
  | b :: rest =>
    let next := round (b :: rest)
    let after := sanitizeLoop ((b :: rest).drop next.1)
    (next.2.1 ++ after.1, next.2.2 || after.2)
  termination_by line => line.length
  decreasing_by
    have := round_pos (b :: rest)
    simp
    omega

def sanitizeTerminalLine (line : Bytes) : Bytes :=
  (sanitizeLoop line).1 ++ if (sanitizeLoop line).2 then [0x1b, 91, 48, 109] else []

def encode (text : List Char) : Bytes := text.flatMap String.utf8EncodeChar

def IsPlain (part : List Char) : Prop := ∃ r, part = [r] ∧ (r = '\t' ∨ isControl r = false)

def IsColour (part : List Char) : Prop := ∃ params : List Char, params.length ≤ 64 ∧
  (∀ r ∈ params, r.isDigit = true ∨ r = ';' ∨ r = ':') ∧ part = ['\x1b', '['] ++ params ++ ['m']

theorem ofUInt8_val : (Char.ofUInt8 b).val = b.toUInt32 := rfl

theorem utf8EncodeChar_ascii (ascii : b < 128) : String.utf8EncodeChar (Char.ofUInt8 b) = [b] := by
  have size : (Char.ofUInt8 b).utf8Size = 1 := by
    rw [Char.utf8Size_eq_one_iff, UInt32.le_iff_toNat_le]
    rw [UInt8.lt_iff_toNat_lt] at ascii
    simp [ofUInt8_val] at *
    omega
  rw [String.utf8EncodeChar_eq_singleton size]
  simp [ofUInt8_val]

theorem encode_ascii (params : Bytes) (ascii : ∀ b ∈ params, b < 128) :
    encode (params.map Char.ofUInt8) = params := by
  induction params with
  | nil => rfl
  | cons b params ih =>
    rw [List.forall_mem_cons] at ascii
    rw [encode, List.map_cons, List.flatMap_cons, utf8EncodeChar_ascii ascii.1, ← encode,
      ih ascii.2]
    rfl

theorem take_utf8Size (decoded : decodeRune line = some r) :
    line.take r.utf8Size = String.utf8EncodeChar r := by
  have encoded := String.toByteArray_utf8EncodeChar_of_utf8DecodeChar?_eq_some decoded
  have bytes := congrArg (fun array => array.data.toList) encoded
  simp only [List.data_toByteArray, ByteArray.data_extract] at bytes
  simpa using bytes.symm

theorem sgrParam_ofUInt8 (valid : ((48 ≤ b && b ≤ 57) || b == 59 || b == 58) = true) :
    b < 128 ∧ ((Char.ofUInt8 b).isDigit = true ∨ Char.ofUInt8 b = ';' ∨ Char.ofUInt8 b = ':') := by
  simp only [Bool.or_eq_true, Bool.and_eq_true, decide_eq_true_eq, beq_iff_eq] at valid
  rcases valid with (digit | rfl) | rfl
  · simp [Char.isDigit, ofUInt8_val, UInt32.le_iff_toNat_le, UInt8.le_iff_toNat_le,
      UInt8.lt_iff_toNat_lt] at *
    omega
  · decide
  · decide

theorem csiSequence_written (input : Bytes) : (csiSequence input).2 = [] ∨
    ∃ part, IsColour part ∧ (csiSequence input).2 = encode part := by
  unfold csiSequence
  dsimp only
  generalize input.takeWhile _ = params
  split
  · exact .inl rfl
  · split_ifs with other
    · exact .inl rfl
    · obtain ⟨-, short, valid⟩ : _ ∧ ¬64 < params.length ∧ _ := by simpa only [not_or] using other
      have each : ∀ b ∈ params, _ := fun b member =>
        sgrParam_ofUInt8 (List.all_eq_true.1 (Bool.not_eq_false _ ▸ valid) b member)
      refine .inr ⟨_, ⟨params.map Char.ofUInt8, ?_, ?_, rfl⟩, ?_⟩
      · rw [List.length_map]
        omega
      · rintro r member
        obtain ⟨b, inside, rfl⟩ := List.mem_map.1 member
        exact (each b inside).2
      · have encoded := encode_ascii params fun b member => (each b member).1
        unfold encode at *
        rw [List.flatMap_append, List.flatMap_append, encoded]
        rfl

def Writes (written : Bytes) (colour : Bool) (part : List Char) : Prop :=
  written = encode part ∧ (part = [] ∨ IsPlain part ∨ IsColour part ∧ colour = true)

theorem writes_nil : Writes [] colour [] := ⟨rfl, .inl rfl⟩

theorem csiSequence_writes (input : Bytes) :
    ∃ part, Writes (csiSequence input).2 (!(csiSequence input).2.isEmpty) part := by
  rcases csiSequence_written input with empty | ⟨part, colour, written⟩
  · exact ⟨[], empty, .inl rfl⟩
  · refine ⟨part, written, .inr (.inr ⟨colour, ?_⟩)⟩
    obtain ⟨params, -, -, rfl⟩ := colour
    rw [written]
    rfl

theorem escapeSequence_writes (input : Bytes) :
    ∃ part, Writes (escapeSequence input).2 (!(escapeSequence input).2.isEmpty) part := by
  unfold escapeSequence
  split
  · exact csiSequence_writes _
  · split_ifs <;> exact ⟨[], writes_nil⟩
  · exact ⟨[], writes_nil⟩

/-- A round writes nothing, one printable character or one colour sequence. -/
theorem round_writes (line : Bytes) : ∃ part, Writes (round line).2.1 (round line).2.2 part := by
  unfold round
  split_ifs
  · exact escapeSequence_writes line
  · split
    · exact ⟨[], writes_nil⟩
    · rename_i r decoded
      split_ifs with csi start plain
      · exact csiSequence_writes _
      · exact ⟨[], writes_nil⟩
      · refine ⟨[r], ?_, .inr (.inl ⟨r, rfl, plain⟩)⟩
        rw [take_utf8Size decoded, encode, List.flatMap_singleton]
      · exact ⟨[], writes_nil⟩

theorem IsPlain.not_escape (plain : IsPlain part) : '\x1b' ∉ part := by
  obtain ⟨r, rfl, printable⟩ := plain
  rintro escape
  rw [List.mem_singleton] at escape
  subst escape
  revert printable
  decide

theorem sanitizeLoop_parts (line : Bytes) : ∃ parts : List (List Char),
    (sanitizeLoop line).1 = encode parts.flatten ∧ (∀ part ∈ parts, IsPlain part ∨ IsColour part) ∧
    ('\x1b' ∈ parts.flatten → (sanitizeLoop line).2 = true) := by
  induction line using sanitizeLoop.induct with
  | case1 => exact ⟨[], by simp [sanitizeLoop, encode]⟩
  | case2 b rest next ih =>
    obtain ⟨parts, written, each, colour⟩ := ih
    obtain ⟨part, first, kind⟩ := round_writes (b :: rest)
    rw [sanitizeLoop]
    dsimp only
    rw [written, first]
    have joined : encode part ++ encode parts.flatten = encode (part :: parts).flatten :=
      List.flatMap_append.symm
    rcases kind with rfl | plain | ⟨sgr, coloured⟩
    · exact ⟨parts, rfl, each, fun escape => by rw [colour escape, Bool.or_true]⟩
    · refine ⟨part :: parts, joined, List.forall_mem_cons.2 ⟨.inl plain, each⟩, fun escape => ?_⟩
      rw [List.flatten_cons, List.mem_append] at escape
      rw [colour (escape.resolve_left plain.not_escape), Bool.or_true]
    · refine ⟨part :: parts, joined, List.forall_mem_cons.2 ⟨.inr sgr, each⟩, fun _ => ?_⟩
      rw [coloured, Bool.true_or]

theorem sanitizeTerminalLine_safe (line : Bytes) : ∃ parts : List (List Char),
    sanitizeTerminalLine line = encode parts.flatten ∧
      (∀ part ∈ parts, IsPlain part ∨ IsColour part) ∧
        ('\x1b' ∈ parts.flatten → ['\x1b', '[', '0', 'm'] <:+ parts.flatten) := by
  obtain ⟨parts, written, each, colour⟩ := sanitizeLoop_parts line
  unfold sanitizeTerminalLine
  split_ifs with coloured
  · refine ⟨parts ++ [['\x1b', '[', '0', 'm']], ?_, ?_, fun _ => ?_⟩
    · rw [written, List.flatten_append, encode, encode, List.flatMap_append]
      rfl
    · rw [List.forall_mem_append, List.forall_mem_singleton]
      exact ⟨each, .inr ⟨['0'], by decide, List.forall_mem_singleton.2 (.inl rfl), rfl⟩⟩
    · rw [List.flatten_append]
      exact List.suffix_append _ _
  · refine ⟨parts, ?_, each, fun escape => absurd (colour escape) coloured⟩
    rw [written, List.append_nil]

end Wings.BetterConsole
