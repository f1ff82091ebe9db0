import Mathlib.Data.List.Basic

/-!
# Encoders in front of a destination that may fail

`emitted` is what an encoder has handed over after an input, and `finished` what it has once it is
closed. The sink accepts a limited number of symbols, and the first rejected write makes the encoder
fail for good.
-/

namespace Wings.BufferedEncoder

variable {Plain Coded : Type}

def Accepts (capacity : Option Nat) (length : Nat) : Prop := ∀ limit ∈ capacity, length ≤ limit

instance (capacity : Option Nat) (length : Nat) : Decidable (Accepts capacity length) :=
  match capacity with
  | none => isTrue (by simp [Accepts])
  | some limit => decidable_of_iff (length ≤ limit) (by simp [Accepts])

theorem Accepts.mono (accepts : Accepts capacity long) (le : short ≤ long) :
    Accepts capacity short := by
  intro limit bounded
  exact Nat.le_trans le (accepts limit bounded)

/-- How many symbols it accepts, what it has received, and whether it has rejected one. -/
structure Sink (Coded : Type) where
  capacity : Option Nat
  received : List Coded
  rejected : Bool
  deriving DecidableEq

namespace Sink

def empty (capacity : Option Nat) : Sink Coded := ⟨capacity, [], false⟩

def write (sink : Sink Coded) (symbols : List Coded) : Sink Coded :=
  if Accepts sink.capacity (sink.received.length + symbols.length) then
    { sink with received := sink.received ++ symbols }
  else
    { sink with
      received := sink.received ++ symbols.take (sink.capacity.getD 0 - sink.received.length)
      rejected := true }

/-- Write what is missing of a text of which a beginning has been received. -/
def complete (sink : Sink Coded) (text : List Coded) : Sink Coded :=
  sink.write (text.drop sink.received.length)

theorem write_capacity (sink : Sink Coded) (symbols : List Coded) :
    (sink.write symbols).capacity = sink.capacity := by
  unfold write
  split_ifs <;> rfl

variable {sink : Sink Coded}

theorem complete_of_begun (begun : sink.received <+: text) : sink.complete text =
      if Accepts sink.capacity text.length then { sink with received := text }
      else
        { sink with
          received := sink.received ++ (text.drop sink.received.length).take
            (sink.capacity.getD 0 - sink.received.length)
          rejected := true } := by
  obtain ⟨rest, rfl⟩ := begun
  simp [complete, write]

theorem complete_accepted (begun : sink.received <+: text)
    (accepts : Accepts sink.capacity text.length) :
    sink.complete text = { sink with received := text } := by
  rw [complete_of_begun begun, if_pos accepts]

theorem complete_rejected (begun : sink.received <+: text)
    (refuses : ¬Accepts sink.capacity text.length) : (sink.complete text).rejected = true := by
  rw [complete_of_begun begun, if_neg refuses]

end Sink

/-- What has been handed over after an input, the whole coded text, and its reading. -/
structure Codec (Plain Coded : Type) where
  emitted : List Plain → List Coded
  finished : List Plain → List Coded
  decode : List Coded → Option (List Plain)
  emitted_nil : emitted [] = []
  emitted_grows : ∀ input more, emitted input <+: emitted (input ++ more)
  emitted_begins : ∀ input, emitted input <+: finished input
  decode_finished : ∀ input, decode (finished input) = some input

namespace Codec

theorem emitted_mono (codec : Codec Plain Coded) (begins : short <+: long) :
    codec.emitted short <+: codec.emitted long := by
  obtain ⟨more, rfl⟩ := begins
  exact codec.emitted_grows short more

theorem accepts_emitted_of_begins (codec : Codec Plain Coded) (begins : short <+: long)
    (accepts : Accepts capacity (codec.emitted long).length) :
    Accepts capacity (codec.emitted short).length :=
  accepts.mono (codec.emitted_mono begins).length_le

end Codec

/-- An encoder that has taken an input. Its sink has received what the coding emits for it. -/
structure Encoder (codec : Codec Plain Coded) where
  input : List Plain
  sink : Sink Coded
  faithful : sink.rejected = false → sink.received = codec.emitted input ∧
      Accepts sink.capacity sink.received.length

namespace Encoder

variable {codec : Codec Plain Coded}

def new (codec : Codec Plain Coded) (capacity : Option Nat) : Encoder codec where
  input := []
  sink := .empty capacity
  faithful := by
    intro _
    exact ⟨codec.emitted_nil.symm, fun _ _ => Nat.zero_le _⟩

section

variable (encoder : Encoder codec)

theorem begun (healthy : encoder.sink.rejected = false) (more : List Plain) :
    encoder.sink.received <+: codec.emitted (encoder.input ++ more) := by
  rw [(encoder.faithful healthy).1]
  exact codec.emitted_grows encoder.input more

/-- Write to an encoder, which fails when the sink has rejected a symbol. -/
def write (more : List Plain) : Encoder codec :=
  if healthy : encoder.sink.rejected = false then
    { input := encoder.input ++ more
      sink := encoder.sink.complete (codec.emitted (encoder.input ++ more))
      faithful := by
        intro accepted
        have begins := encoder.begun healthy more
        by_cases accepts : Accepts encoder.sink.capacity
            (codec.emitted (encoder.input ++ more)).length
        · rw [Sink.complete_accepted begins accepts]
          exact ⟨rfl, accepts⟩
        · rw [Sink.complete_rejected begins accepts] at accepted
          exact absurd accepted (by simp) }
  else encoder

def close : Sink Coded :=
  if encoder.sink.rejected then encoder.sink
  else encoder.sink.complete (codec.finished encoder.input)

theorem write_capacity (more : List Plain) :
    (encoder.write more).sink.capacity = encoder.sink.capacity := by
  unfold write
  split_ifs
  · exact Sink.write_capacity _ _
  · rfl

end

variable {encoder : Encoder codec}

theorem write_healthy_iff (healthy : encoder.sink.rejected = false) (more : List Plain) :
    (encoder.write more).sink.rejected = false ↔ Accepts encoder.sink.capacity
    (codec.emitted (encoder.input ++ more)).length := by
  have begins := encoder.begun healthy more
  simp only [write, healthy, dif_pos]
  constructor
  · intro accepted
    by_contra refuses
    rw [Sink.complete_rejected begins refuses] at accepted
    exact absurd accepted (by simp)
  · intro accepts
    rw [Sink.complete_accepted begins accepts]
    exact healthy

/-- Nothing has been rejected after closing exactly when nothing was before and the destination
accepts the whole coded text. -/
theorem close_healthy_iff (encoder : Encoder codec) :
    encoder.close.rejected = false ↔ encoder.sink.rejected = false ∧ Accepts encoder.sink.capacity
    (codec.finished encoder.input).length := by
  unfold close
  cases rejected : encoder.sink.rejected with
  | true => simp [rejected]
  | false =>
    have begins : encoder.sink.received <+: codec.finished encoder.input := by
      rw [(encoder.faithful rejected).1]
      exact codec.emitted_begins encoder.input
    by_cases accepts : Accepts encoder.sink.capacity (codec.finished encoder.input).length
    · simp [Sink.complete_accepted begins accepts, rejected, accepts]
    · simp [Sink.complete_rejected begins accepts, accepts]

theorem close_received (accepted : encoder.close.rejected = false) :
    encoder.close.received = codec.finished encoder.input := by
  obtain ⟨healthy, accepts⟩ := encoder.close_healthy_iff.mp accepted
  have begins : encoder.sink.received <+: codec.finished encoder.input := by
    rw [(encoder.faithful healthy).1]
    exact codec.emitted_begins encoder.input
  simp [close, healthy, Sink.complete_accepted begins accepts]

end Encoder

end Wings.BufferedEncoder
