import Wings.Library.MachineInt
import Wings.Library.Transition

/-!
# Downloads of a fixed size

A `fixedDownloadReader` hands over as many bytes as the file had when it was opened. It keeps an
offset of its own beside that of the file, which others truncate and extend between the calls.
-/

namespace Wings.FixedDownload

open MachineInt Transition

/-- The bytes that a call of `Read` handed over, and the file at that moment. -/
structure Delivery where
  offset : Nat
  bytes : List UInt8
  content : List UInt8

/-- The file with its offset, and the reader. The last three fields are recorded for the statements.
-/
structure State where
  content : List UInt8
  position : Nat := 0
  offset : Nat := 0
  start : Nat := 0
  sent : Nat := 0
  log : List Delivery := []

namespace State

def deliver (state : State) (bytes : List UInt8) (moved : Nat) : State :=
  { state with
    position := state.position + moved
    offset := state.offset + bytes.length
    sent := state.sent + bytes.length
    log := state.log ++ [⟨state.offset, bytes, state.content⟩] }

def read (size : Nat) (state : State) (length short : Nat) : Option (List UInt8 × State) :=
  if state.offset ≥ size then none
  else
    let length := min length (size - state.offset)
    let rest := state.content.drop state.position
    let bytes := rest.take (min length (short + 1))
    if length ≠ 0 ∧ rest = [] then
      some (List.replicate length 0, state.deliver (List.replicate length 0) 0)
    else some (bytes, state.deliver bytes bytes.length)

def seekTarget (size : Nat) (state : State) (offset : Int) : Nat → Except String Int
  | 0 => .ok offset
  | 1 => .ok (wrap (state.offset + offset))
  | 2 => .ok (wrap (size + offset))
  | _ => .error "invalid whence"

def seek (size : Nat) (state : State) (offset : Int) (whence : Nat) (err : Option String) :
    Except String State := do
  let target ← state.seekTarget size offset whence
  if target < 0 then throw "negative position"
  if let some err := err then throw err
  return { state with
    position := target.toNat, offset := target.toNat, start := target.toNat, sent := 0 }

end State

inductive Label
  | read (length short : Nat)
  | failedRead
  | seek (offset : Int) (whence : Nat) (err : Option String)
  | change (content : List UInt8)

def step (size : Nat) (state : State) : Label → Option State
  | .read length short => some (((state.read size length short).map Prod.snd).getD state)
  | .failedRead => some state
  | .seek offset whence err => some ((state.seek size offset whence err).toOption.getD state)
  | .change content => some { state with content := content }

def Steps (size : Nat) (state : State) (label : Label) (after : State) : Prop :=
  step size state label = some after

def Initial (state : State) : Prop := ∃ content, state = { content := content }

/-- Once zeros were handed over, the file stays short up to the next seek. -/
def StaysShort (state : State) : Label → Prop
  | .read _ _ => state.position = state.offset ∨ state.content.length ≤ state.position
  | _ => True

/-- Every byte is that of the file, or zero behind its end. -/
def Delivery.InPlace (delivery : Delivery) : Prop := ∀ index < delivery.bytes.length,
  delivery.bytes[index]? = some (delivery.content.getD (delivery.offset + index) 0)

structure Sound (size : Nat) (state : State) : Prop where
  behind : state.position ≤ state.offset
  sent : state.offset = state.start + state.sent
  within : state.sent ≤ size - state.start
  log : ∀ delivery ∈ state.log, delivery.InPlace

theorem read_eq_some {state : State} (isRead : state.read size length short = some (bytes, after)) :
    state.offset + bytes.length ≤ size ∧ (0 < length → bytes ≠ []) ∧
    ∃ moved ≤ bytes.length, after = state.deliver bytes moved ∧
    (bytes = List.replicate bytes.length 0 ∧ state.content.length ≤ state.position ∨
    ∃ count, bytes = (state.content.drop state.position).take count) := by
  unfold State.read at isRead
  dsimp only at isRead
  split_ifs at isRead with atEnd padded <;>
    obtain ⟨rfl, rfl⟩ := Prod.mk.inj (Option.some.inj isRead)
  · refine ⟨by simp; omega, fun _ => ?_, 0, Nat.zero_le _, rfl, .inl ⟨by simp, ?_⟩⟩
    · rw [Ne, List.replicate_eq_nil_iff]
      exact padded.1
    · exact List.drop_eq_nil_iff.mp padded.2
  · refine ⟨by simp; omega, fun positive => ?_, _, Nat.le_refl _, rfl, .inr ⟨_, rfl⟩⟩
    rw [Ne, List.take_eq_nil_iff]
    rintro (none | none)
    · omega
    · exact padded ⟨by omega, none⟩

theorem Sound.read (sound : Sound size state)
    (short : state.position = state.offset ∨ state.content.length ≤ state.position)
    (isRead : state.read size length count = some (bytes, after)) : Sound size after := by
  obtain ⟨behind, sent, within, log⟩ := sound
  obtain ⟨fits, -, moved, few, rfl, taken⟩ := read_eq_some isRead
  have inPlace : Delivery.InPlace ⟨state.offset, bytes, state.content⟩ := by
    intro index bound
    dsimp only at bound ⊢
    rcases taken with ⟨zeros, ended⟩ | ⟨count, rfl⟩
    · rw [zeros, List.getElem?_replicate_of_lt bound, List.getD_eq_getElem?_getD,
        List.getElem?_eq_none (by omega)]
      rfl
    · simp only [List.length_take, List.length_drop] at bound
      rw [List.getElem?_take_of_lt (by omega), List.getElem?_drop,
        List.getD_eq_getElem?_getD, short.resolve_right (by omega),
        List.getElem?_eq_getElem (by omega)]
      rfl
  refine ⟨Nat.add_le_add behind few, ?_, ?_, ?_⟩
  · dsimp only [State.deliver]
    omega
  · dsimp only [State.deliver]
    omega
  · exact List.forall_mem_append.mpr ⟨log, List.forall_mem_singleton.mpr inPlace⟩

theorem Sound.seek (sound : Sound size state)
    (isSeek : state.seek size offset whence err = .ok after) : Sound size after := by
  unfold State.seek at isSeek
  cases isTarget : state.seekTarget size offset whence with
  | error text => simp [isTarget, bind, Except.bind] at isSeek
  | ok target =>
    simp only [isTarget, bind, Except.bind] at isSeek
    split_ifs at isSeek with negative
    cases err <;> cases isSeek
    exact ⟨Nat.le_refl _, rfl, Nat.zero_le _, sound.log⟩

theorem Sound.step (sound : Sound size state) (short : StaysShort state label)
    (taken : Steps size state label after) : Sound size after := by
  cases label <;> cases taken
  case read length count =>
    cases isRead : state.read size length count with
    | none => exact sound
    | some result => exact sound.read short isRead
  case failedRead => exact sound
  case seek offset whence err =>
    cases isSeek : state.seek size offset whence err with
    | error => exact sound
    | ok after => exact sound.seek isSeek
  case change content => exact { sound with }

/-- Every byte is handed over for its offset in the file, and the end is reported when the bytes up
to the fixed size were handed over. -/
theorem delivered_in_place (size : Nat) (state : State)
    (reached : Reachable Initial (Guarded StaysShort (Steps size)) state) :
    (∀ delivery ∈ state.log, delivery.InPlace) ∧ ∀ length short, 0 < length →
      (state.read size length short = none → state.sent = size - state.start) ∧
      ∀ bytes after, state.read size length short = some (bytes, after) →
        bytes ≠ [] ∧ state.sent + bytes.length ≤ size - state.start := by
  have sound : Sound size state := by
    induction reached with
    | start initial =>
      obtain ⟨content, rfl⟩ := initial
      exact ⟨Nat.le_refl _, rfl, Nat.zero_le _, nofun⟩
    | next _ _ taken ih => exact ih.step taken.1 taken.2
  have sent := sound.sent
  have within := sound.within
  refine ⟨sound.log, fun length short positive => ⟨fun isEnd => ?_, fun bytes after isRead => ?_⟩⟩
  · unfold State.read at isEnd
    dsimp only at isEnd
    split_ifs at isEnd with atEnd
    omega
  · obtain ⟨fits, some, -⟩ := read_eq_some isRead
    exact ⟨some positive, by omega⟩

theorem delivered_in_place_truncated : ∃ state : State, state.offset = 2 ∧
    (∀ delivery ∈ state.log, delivery.InPlace) := by
  have reached : Reachable Initial (Guarded StaysShort (Steps 2)) _ :=
    .next (.next (.next (.start ⟨[1, 2], rfl⟩) (.read 1 0) ⟨.inl rfl, rfl⟩)
      (.change []) ⟨trivial, rfl⟩) (.read 1 0) ⟨.inl rfl, rfl⟩
  exact ⟨_, rfl, (delivered_in_place 2 _ reached).1⟩

/-- A file that is truncated for one read and then has its bytes again. -/
theorem delivered_out_of_place : ∃ state : State, Reachable Initial (Steps 2) state ∧
    ⟨1, [1], [1, 2]⟩ ∈ state.log ∧ ¬Delivery.InPlace ⟨1, [1], [1, 2]⟩ :=
  ⟨_, Reachable.execute (.start ⟨[1, 2], rfl⟩)
    [.change [], .read 1 0, .change [1, 2], .read 1 0] rfl, .tail _ (.head _),
    fun inPlace => absurd (inPlace 0 (by decide)) (by decide)⟩

end Wings.FixedDownload
