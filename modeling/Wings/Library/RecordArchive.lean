import Mathlib.Data.List.Induction

/-!
# Archives of records of announced size

A record is a header, which announces a number of symbols, those symbols, and padding. A record that
is given up can only be the last, and what was written up to there is no archive.
-/

namespace Wings.RecordArchive

/-- How headers are written and records padded. Headers can be told from what follows. -/
structure Format (Header Symbol : Type) where
  size : Header → Nat
  encode : Header → List Symbol
  padding : Nat → List Symbol
  trailer : List Symbol
  encode_cancel : ∀ first second rest other,
    encode first ++ rest = encode second ++ other → first = second ∧ rest = other
  encode_ne_trailer : ∀ header rest, encode header ++ rest ≠ trailer

variable {Header Symbol : Type} (format : Format Header Symbol)

structure Attempt where
  header : Header
  content : List Symbol
  fits : content.length ≤ format.size header

variable {format}

namespace Attempt

def Complete (attempt : Attempt format) : Prop :=
  attempt.content.length = format.size attempt.header

instance (attempt : Attempt format) : Decidable attempt.Complete :=
  inferInstanceAs (Decidable (_ = _))

section

variable (attempt : Attempt format)

def missing : Nat := format.size attempt.header - attempt.content.length

theorem missing_eq_zero_iff : attempt.missing = 0 ↔ attempt.Complete := by
  have fits := attempt.fits
  unfold missing Complete
  omega

def opened : List Symbol := format.encode attempt.header ++ attempt.content

def closed : List Symbol := attempt.opened ++ format.padding (format.size attempt.header)

end

end Attempt

section

variable (attempts : List (Attempt format))

def closedBytes : List Symbol := attempts.flatMap Attempt.closed

def openBytes : List Symbol :=
  closedBytes attempts.dropLast ++ attempts.getLast?.elim [] Attempt.opened

def lastPadding : List Symbol := attempts.getLast?.elim []
    fun attempt => format.padding (format.size attempt.header)

def lastMissing : Nat := attempts.getLast?.elim 0 Attempt.missing

def archiveBytes : List Symbol := closedBytes attempts ++ format.trailer

def InnerComplete : Prop := ∀ attempt ∈ attempts.dropLast, attempt.Complete

def LastComplete : Prop := ∀ attempt ∈ attempts.getLast?, attempt.Complete

end

variable (format) in
def IsArchive (text : List Symbol) : Prop := ∃ attempts : List (Attempt format),
    (∀ attempt ∈ attempts, attempt.Complete) ∧ text = archiveBytes attempts

@[simp] theorem openBytes_concat (attempts : List (Attempt format)) (last : Attempt format) :
    openBytes (attempts ++ [last]) = closedBytes attempts ++ last.opened := by
  simp [openBytes]

@[simp] theorem lastMissing_concat (attempts : List (Attempt format)) (last : Attempt format) :
    lastMissing (attempts ++ [last]) = last.missing := by
  simp [lastMissing]

@[simp] theorem lastPadding_concat (attempts : List (Attempt format)) (last : Attempt format) :
    lastPadding (attempts ++ [last]) = format.padding (format.size last.header) := by
  simp [lastPadding]

@[simp] theorem innerComplete_concat (attempts : List (Attempt format)) (last : Attempt format) :
    InnerComplete (attempts ++ [last]) ↔ ∀ attempt ∈ attempts, attempt.Complete := by
  simp [InnerComplete]

@[simp] theorem closedBytes_nil : closedBytes ([] : List (Attempt format)) = [] := rfl

@[simp] theorem closedBytes_cons (first : Attempt format) (rest : List (Attempt format)) :
    closedBytes (first :: rest) = first.closed ++ closedBytes rest := by
  simp [closedBytes]

section

variable (attempts : List (Attempt format))

theorem closedBytes_concat (last : Attempt format) :
    closedBytes (attempts ++ [last]) = closedBytes attempts ++ last.closed := by
  simp [closedBytes]

theorem openBytes_append_lastPadding :
    openBytes attempts ++ lastPadding attempts = closedBytes attempts := by
  induction attempts using List.reverseRecOn with
  | nil => rfl
  | append_singleton front last _ =>
    rw [openBytes_concat, lastPadding_concat, closedBytes_concat, Attempt.closed, List.append_assoc]

theorem lastMissing_eq_zero_iff : lastMissing attempts = 0 ↔ LastComplete attempts := by
  unfold lastMissing LastComplete
  cases attempts.getLast? with
  | none => simp
  | some last => simp [Attempt.missing_eq_zero_iff]

theorem complete_iff :
    (∀ attempt ∈ attempts, attempt.Complete) ↔ InnerComplete attempts ∧ LastComplete attempts := by
  induction attempts using List.reverseRecOn with
  | nil => simp [InnerComplete, LastComplete]
  | append_singleton front last _ =>
    rw [innerComplete_concat]
    simp only [LastComplete, List.getLast?_concat, Option.mem_def,
      Option.some.injEq, forall_eq', List.mem_append, List.mem_singleton]
    constructor
    · intro complete
      exact ⟨fun attempt member => complete attempt (.inl member), complete last (.inr rfl)⟩
    · rintro ⟨inner, complete⟩ attempt (member | rfl)
      · exact inner attempt member
      · exact complete

end

variable {attempts : List (Attempt format)}

theorem InnerComplete.of_append (inner : InnerComplete (attempts ++ more)) :
    InnerComplete attempts := by
  intro attempt member
  apply inner
  cases more with
  | nil => simpa using member
  | cons next rest =>
    rw [List.dropLast_append_cons]
    exact List.mem_append_left _ ((List.dropLast_sublist attempts).subset member)

theorem openBytes_begins (attempts more : List (Attempt format)) :
    openBytes attempts <+: openBytes (attempts ++ more) := by
  induction more using List.reverseRecOn with
  | nil => simp
  | append_singleton front last _ =>
    rw [← List.append_assoc, openBytes_concat]
    have begins : openBytes attempts <+: closedBytes attempts :=
      ⟨_, openBytes_append_lastPadding attempts⟩
    apply begins.trans
    simp [closedBytes]

variable {first second : Attempt format}

theorem closed_cancel (firstComplete : first.Complete) (secondComplete : second.Complete)
    (equal : first.closed ++ rest = second.closed ++ other) : rest = other := by
  simp only [Attempt.closed, Attempt.opened, List.append_assoc] at equal
  obtain ⟨headers, contents⟩ := format.encode_cancel _ _ _ _ equal
  rw [Attempt.Complete, ← headers] at secondComplete
  obtain ⟨_, following⟩ := List.append_inj contents (firstComplete.trans secondComplete.symm)
  rw [headers] at following
  exact List.append_cancel_left following

theorem closed_injective (firstComplete : first.Complete) (secondComplete : second.Complete)
    (equal : first.closed ++ rest = second.closed ++ other) : first = second := by
  simp only [Attempt.closed, Attempt.opened, List.append_assoc] at equal
  obtain ⟨headers, contents⟩ := format.encode_cancel _ _ _ _ equal
  rw [Attempt.Complete, ← headers] at secondComplete
  obtain ⟨same, _⟩ := List.append_inj contents (firstComplete.trans secondComplete.symm)
  cases first
  cases second
  subst headers same
  rfl

theorem opened_ne_closed_append {short whole : Attempt format}
    (incomplete : ¬short.Complete) (complete : whole.Complete)
    (rest : List Symbol) : short.opened ≠ whole.closed ++ rest := by
  intro equal
  simp only [Attempt.closed, Attempt.opened, List.append_assoc] at equal
  obtain ⟨headers, contents⟩ := format.encode_cancel _ _ _ _ equal
  have lengths := congrArg List.length contents
  have fits := short.fits
  rw [List.length_append] at lengths
  rw [Attempt.Complete] at incomplete complete
  rw [← headers] at complete
  omega

theorem closed_append_ne_trailer (attempt : Attempt format)
    (rest : List Symbol) : attempt.closed ++ rest ≠ format.trailer := by
  rw [Attempt.closed, Attempt.opened, List.append_assoc, List.append_assoc]
  exact format.encode_ne_trailer attempt.header _

/-- Complete records can be read back from an archive. -/
theorem archiveBytes_injective {first second : List (Attempt format)}
    (firstComplete : ∀ attempt ∈ first, attempt.Complete)
    (secondComplete : ∀ attempt ∈ second, attempt.Complete)
    (equal : archiveBytes first = archiveBytes second) : first = second := by
  rw [archiveBytes, archiveBytes] at equal
  induction first generalizing second with
  | nil =>
    cases second with
    | nil => rfl
    | cons other others =>
      rw [closedBytes_nil, closedBytes_cons, List.append_assoc] at equal
      exact absurd equal.symm (closed_append_ne_trailer _ _)
  | cons attempt attempts ih =>
    cases second with
    | nil =>
      rw [closedBytes_nil, closedBytes_cons, List.append_assoc] at equal
      exact absurd equal (closed_append_ne_trailer _ _)
    | cons other others =>
      rw [List.forall_mem_cons] at firstComplete secondComplete
      rw [closedBytes_cons, closedBytes_cons, List.append_assoc, List.append_assoc] at equal
      rw [closed_injective firstComplete.1 secondComplete.1 equal,
        ih firstComplete.2 secondComplete.2 (closed_cancel firstComplete.1 secondComplete.1 equal)]

theorem not_isArchive_of_short {front : List (Attempt format)}
    {last : Attempt format} (inner : ∀ attempt ∈ front, attempt.Complete)
    (incomplete : ¬last.Complete) : ¬IsArchive format (closedBytes front ++ last.opened) := by
  rintro ⟨attempts, complete, equal⟩
  rw [archiveBytes] at equal
  induction front generalizing attempts with
  | nil =>
    cases attempts with
    | nil => exact format.encode_ne_trailer _ _ equal
    | cons first rest =>
      rw [closedBytes_cons, List.append_assoc] at equal
      exact opened_ne_closed_append incomplete (complete first List.mem_cons_self) _ equal
  | cons first rest ih =>
    rw [closedBytes_cons, List.append_assoc] at equal
    cases attempts with
    | nil => exact closed_append_ne_trailer _ _ equal
    | cons other others =>
      rw [closedBytes_cons, List.append_assoc] at equal
      rw [List.forall_mem_cons] at inner complete
      exact ih inner.2 others complete.2 (closed_cancel inner.1 complete.1 equal)

theorem not_isArchive_openBytes (inner : InnerComplete attempts) (short : ¬LastComplete attempts) :
    ¬IsArchive format (openBytes attempts) := by
  induction attempts using List.reverseRecOn with
  | nil => exact absurd (by simp [LastComplete]) short
  | append_singleton front last _ =>
    rw [openBytes_concat]
    apply not_isArchive_of_short
    · exact (innerComplete_concat front last).mp inner
    · intro complete
      exact short (by simpa [LastComplete] using complete)

end Wings.RecordArchive
