import Wings.Library.TextOperation

/-!
# Splices

Splices replace ranges of a text at once, in the order of their offsets and without overlap. They
describe the same changes as operations, also on an encoding that works symbol by symbol.
-/

namespace Wings.TextOperation

variable {Symbol Code : Type}

/-- The replacement of `length` symbols from `offset` on. -/
structure Splice (Symbol : Type) where
  offset : Nat
  length : Nat
  inserted : List Symbol

theorem applyComponents_retain_eq_some :
    applyComponents (.retain n :: rest) text = some after ↔ ∃ kept following tail,
    text = kept ++ following ∧ kept.length = n ∧
    applyComponents rest following = some tail ∧ after = kept ++ tail := by
  constructor
  · intro applied
    rw [applyComponents] at applied
    split_ifs at applied with short
    obtain ⟨tail, walked, rfl⟩ := Option.map_eq_some_iff.mp applied
    exact ⟨text.take n, text.drop n, tail, (List.take_append_drop n text).symm,
      List.length_take_of_le short, walked, rfl⟩
  · rintro ⟨kept, following, tail, rfl, rfl, walked, rfl⟩
    simp [applyComponents, walked]

theorem applyComponents_delete_eq_some :
    applyComponents (.delete n :: rest) text = some after ↔ ∃ gone following,
    text = gone ++ following ∧ gone.length = n ∧ applyComponents rest following = some after := by
  constructor
  · intro applied
    rw [applyComponents] at applied
    split_ifs at applied with short
    exact ⟨text.take n, text.drop n, (List.take_append_drop n text).symm,
      List.length_take_of_le short, applied⟩
  · rintro ⟨gone, following, rfl, rfl, walked⟩
    simp [applyComponents, walked]

namespace Splice

def stop (splice : Splice Symbol) : Nat := splice.offset + splice.length

def applyFrom : Nat → List (Splice Symbol) → List Symbol → Option (List Symbol)
  | _, [], text => some text
  | position, splice :: rest, text =>
    if position ≤ splice.offset ∧ splice.stop ≤ position + text.length then
      (applyFrom splice.stop rest (text.drop (splice.stop - position))).map
        fun after =>
          text.take (splice.offset - position) ++ (splice.inserted ++ after)
    else none

variable {rest : List (Splice Symbol)}

theorem applyFrom_cons_eq_some :
    applyFrom position (splice :: rest) text = some after ↔ ∃ before removed following tail,
    text = before ++ (removed ++ following) ∧ position + before.length = splice.offset ∧
    removed.length = splice.length ∧ applyFrom splice.stop rest following = some tail ∧
    after = before ++ (splice.inserted ++ tail) := by
  constructor
  · intro applied
    rw [applyFrom] at applied
    split_ifs at applied with inside
    obtain ⟨tail, walked, rfl⟩ := Option.map_eq_some_iff.mp applied
    unfold stop at inside
    refine ⟨text.take (splice.offset - position),
      (text.drop (splice.offset - position)).take splice.length,
      text.drop (splice.stop - position), tail, ?_, ?_, ?_, walked, rfl⟩
    · have joined : splice.stop - position = splice.offset - position + splice.length := by
        rw [stop]
        omega
      rw [joined, ← List.drop_drop, List.take_append_drop, List.take_append_drop]
    · rw [List.length_take]
      omega
    · rw [List.length_take, List.length_drop]
      omega
  · rintro ⟨before, removed, following, tail, rfl, starts, removes, applied, rfl⟩
    have ends : splice.stop - position = before.length + removed.length := by
      rw [stop]
      omega
    have offset : splice.offset - position = before.length := by omega
    have inside : position ≤ splice.offset ∧ splice.stop ≤
          position + (before ++ (removed ++ following)).length := by
      rw [stop, List.length_append, List.length_append]
      omega
    rw [applyFrom, if_pos inside, ends, offset, ← List.drop_drop,
      List.drop_left, List.drop_left, List.take_left, applied]
    rfl

variable {splices : List (Splice Symbol)}

theorem applyFrom_append (kept : List Symbol)
    (applied : applyFrom (position + kept.length) splices text = some after) :
    applyFrom position splices (kept ++ text) = some (kept ++ after) := by
  cases splices with
  | nil =>
    rw [← Option.some.inj applied]
    rfl
  | cons splice rest =>
    obtain ⟨before, removed, following, tail, rfl, starts, removes, walked,
      rfl⟩ := applyFrom_cons_eq_some.mp applied
    apply applyFrom_cons_eq_some.mpr
    refine ⟨kept ++ before, removed, following, tail, ?_, ?_, removes, walked, ?_⟩
    · rw [List.append_assoc]
    · rw [List.length_append]
      omega
    · rw [List.append_assoc]

theorem pairwise_of_applyFrom (applied : applyFrom position splices text = some after) :
    splices.Pairwise (fun first second => first.stop ≤ second.offset) ∧ ∀ splice ∈ splices,
    position ≤ splice.offset ∧ splice.stop ≤ position + text.length := by
  induction splices generalizing position text after with
  | nil => simp
  | cons splice rest ih =>
    obtain ⟨before, removed, following, tail, rfl, starts, removes, walked,
      rfl⟩ := applyFrom_cons_eq_some.mp applied
    obtain ⟨ordered, inside⟩ := ih walked
    simp only [List.length_append]
    unfold stop at inside ⊢
    refine ⟨List.pairwise_cons.mpr ⟨fun other member =>
      (inside other member).1, ordered⟩, ?_⟩
    intro other member
    rcases List.mem_cons.mp member with rfl | member
    · omega
    · have := inside other member
      omega

def components (total : Nat) : Nat → List (Splice Symbol) → List (Component Symbol)
  | position, [] => [.retain (total - position)]
  | position, splice :: rest =>
    .retain (splice.offset - position) :: .delete splice.length ::
      .insert splice.inserted :: components total splice.stop rest

theorem applyComponents_components (applied : applyFrom position splices text = some after)
    (covers : position + text.length = total) :
    applyComponents (components total position splices) text = some after := by
  induction splices generalizing position text after with
  | nil =>
    have rest : total - position = text.length := by omega
    rw [← Option.some.inj applied, components, rest]
    simp [applyComponents]
  | cons splice rest ih =>
    obtain ⟨before, removed, following, tail, rfl, starts, removes, walked,
      rfl⟩ := applyFrom_cons_eq_some.mp applied
    have skipped : splice.offset - position = before.length := by omega
    have rests := ih walked (by
      simp only [List.length_append] at covers
      unfold stop
      omega)
    rw [components, skipped, ← removes]
    simp [applyComponents, rests]

def flushed (pending : Splice Symbol) : List (Splice Symbol) :=
  if pending.length ≠ 0 ∨ pending.inserted ≠ [] then [pending] else []

def emptyAt (position : Nat) : Splice Symbol := ⟨position, 0, []⟩

/-- Neighbouring insertions and deletions are joined to one splice. -/
def ofComponents : Splice Symbol → List (Component Symbol) → List (Splice Symbol)
  | pending, [] => pending.flushed
  | pending, .retain n :: rest =>
    pending.flushed ++ ofComponents (emptyAt (pending.stop + n)) rest
  | pending, .insert text :: rest =>
    ofComponents { pending with inserted := pending.inserted ++ text } rest
  | pending, .delete n :: rest =>
    ofComponents { pending with length := pending.length + n } rest

variable {pending : Splice Symbol}

theorem applyFrom_flushed (removes : removed.length = pending.length)
    (applied : applyFrom pending.stop rest text = some tail) :
    applyFrom pending.offset (pending.flushed ++ rest) (removed ++ text) =
    some (pending.inserted ++ tail) := by
  unfold flushed
  split_ifs with changes
  · exact applyFrom_cons_eq_some.mpr ⟨[], removed, text, tail, rfl, rfl, removes, applied, rfl⟩
  · simp only [not_or, not_not] at changes
    rw [changes.1, List.length_eq_zero_iff] at removes
    rw [stop, changes.1, Nat.add_zero] at applied
    rw [removes, changes.2]
    exact applied

theorem applyFrom_ofComponents {components : List (Component Symbol)}
    (removes : removed.length = pending.length)
    (applied : applyComponents components text = some after) :
    applyFrom pending.offset (ofComponents pending components) (removed ++ text) =
    some (pending.inserted ++ after) := by
  induction components generalizing pending removed text after with
  | nil =>
    cases text with
    | cons symbol text => simp [applyComponents] at applied
    | nil =>
      rw [ofComponents, ← List.append_nil pending.flushed]
      exact applyFrom_flushed removes applied
  | cons component rest ih =>
    cases component with
    | retain n =>
      obtain ⟨kept, following, tail, rfl, rfl, walked, rfl⟩ :=
        applyComponents_retain_eq_some.mp applied
      have nothing : ([] : List Symbol).length =
          (emptyAt (pending.stop + kept.length) : Splice Symbol).length := rfl
      have rests := ih nothing walked
      exact applyFrom_flushed removes (applyFrom_append kept rests)
    | insert inserted =>
      obtain ⟨tail, walked, rfl⟩ := Option.map_eq_some_iff.mp applied
      have same : removed.length =
          ({ pending with
            inserted := pending.inserted ++ inserted } : Splice Symbol).length := removes
      rw [ofComponents, ← List.append_assoc]
      exact ih same walked
    | delete n =>
      obtain ⟨gone, following, rfl, rfl, walked⟩ := applyComponents_delete_eq_some.mp applied
      have more : (removed ++ gone).length =
          ({ pending with
            length := pending.length + gone.length } : Splice Symbol).length := by
        rw [List.length_append, removes]
      rw [ofComponents, ← List.append_assoc]
      exact ih more walked

/-- Whether an operation applies to a text depends on its length. -/
theorem isSome_applyComponents {components : List (Component Symbol)}
    {other text : List Symbol} (sameLength : other.length = text.length) :
    (applyComponents components other).isSome = (applyComponents components text).isSome := by
  induction components generalizing text other with
  | nil =>
    cases text with
    | nil => rw [List.length_eq_zero_iff.mp sameLength]
    | cons symbol text =>
      obtain ⟨first, others, rfl⟩ := List.exists_cons_of_length_eq_add_one sameLength
      rfl
  | cons component rest ih =>
    cases component with
    | retain n | delete n =>
      have shorter : (other.drop n).length = (text.drop n).length := by
        rw [List.length_drop, List.length_drop, sameLength]
      simp only [applyComponents, sameLength]
      split_ifs
      · simp only [Option.isSome_map, ih shorter]
      · rfl
    | insert inserted => simp only [applyComponents, Option.isSome_map, ih sameLength]

section Encoding

variable (encode : Symbol → List Code)

def encodedLength (text : List Symbol) (count : Nat) : Nat :=
  ((text.take count).flatMap encode).length

def encoded (text : List Symbol) (splice : Splice Symbol) : Splice Code where
  offset := encodedLength encode text splice.offset
  length := encodedLength encode text splice.stop - encodedLength encode text splice.offset
  inserted := splice.inserted.flatMap encode

/-- Encoding and splicing commute. -/
theorem applyFrom_encoded (applied : applyFrom before.length splices text = some after) :
    applyFrom (before.flatMap encode).length (splices.map (encoded encode (before ++ text)))
    (text.flatMap encode) = some (after.flatMap encode) := by
  induction splices generalizing before text after with
  | nil =>
    rw [← Option.some.inj applied]
    rfl
  | cons splice rest ih =>
    obtain ⟨kept, removed, following, tail, rfl, starts, removes, walked,
      rfl⟩ := applyFrom_cons_eq_some.mp applied
    have split : before ++ (kept ++ (removed ++ following)) =
        before ++ kept ++ removed ++ following := by
      simp only [List.append_assoc]
    have offset : splice.offset = (before ++ kept).length := by
      rw [List.length_append]
      omega
    have ends : splice.stop = (before ++ kept ++ removed).length := by
      rw [stop, List.length_append, offset, removes]
    have starting : encodedLength encode
        (before ++ (kept ++ (removed ++ following))) splice.offset =
          ((before ++ kept).flatMap encode).length := by
      rw [offset, split, List.append_assoc (before ++ kept), encodedLength, List.take_left]
    have ending : encodedLength encode (before ++ (kept ++ (removed ++ following))) splice.stop =
          ((before ++ kept ++ removed).flatMap encode).length := by
      rw [ends, split, encodedLength, List.take_left]
    have grows : ((before ++ kept ++ removed).flatMap encode).length =
        ((before ++ kept).flatMap encode).length + (removed.flatMap encode).length := by
      rw [List.flatMap_append, List.length_append]
    rw [ends] at walked
    have rests := ih walked
    rw [← split] at rests
    refine applyFrom_cons_eq_some.mpr ⟨kept.flatMap encode,
      removed.flatMap encode, following.flatMap encode, tail.flatMap encode, ?_, ?_, ?_, ?_, ?_⟩
    · simp only [List.flatMap_append]
    · rw [encoded, starting, List.flatMap_append, List.length_append]
    · rw [encoded, starting, ending, grows, Nat.add_sub_cancel_left]
    · have stops : (encoded encode (before ++ (kept ++ (removed ++ following))) splice).stop =
            ((before ++ kept ++ removed).flatMap encode).length := by
        rw [stop, encoded, starting, ending, grows, Nat.add_sub_cancel_left]
      rw [stops]
      exact rests
    · simp only [List.flatMap_append, encoded]

end Encoding

end Splice

end Wings.TextOperation
