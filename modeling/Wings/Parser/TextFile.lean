import Mathlib.Data.List.Forall2
import Wings.Filesystem.DiskSpace

/-!
# Replacement in text files

A line of a text file that begins with some match strings becomes their values, one after the other.
`rewrite` checks that the new content fits, truncates the file and writes the content, while other
writers of the server take and return space.
-/

namespace Wings.Parser

abbrev Bytes := List UInt8

def maxConfigFileSize : Nat := 64 * 1024 * 1024

def maxTextScanTokenSize : Nat := 64 * 1024 * 1024

structure Replacement where
  matched : Bytes
  replaceWith : Bytes
  deriving DecidableEq

/-- The lines that a scanner finds after `line` was read, without their newlines. -/
def scanLines (line : Bytes) : Bytes → List Bytes
  | [] => if line = [] then [] else [line]
  | b :: rest => if b = 10 then line :: scanLines [] rest else scanLines (line ++ [b]) rest

def dropCR (line : Bytes) : Bytes := if line.getLast? = some 13 then line.dropLast else line

/-- The inner loop: what is written for a line, and whether it was replaced. -/
def replaceLine (line : Bytes) : List Replacement → Bytes → Bool → Bytes × Bool
  | [], b, replaced => (b, replaced)
  | entry :: replace, b, replaced =>
    if entry.matched.isPrefixOf line then
      replaceLine line replace (b ++ entry.replaceWith) true
    else replaceLine line replace b replaced

def writtenLine (replace : List Replacement) (line : Bytes) : Bytes :=
  if (replaceLine line replace [] false).2 then (replaceLine line replace [] false).1 else line

def replaceLines (replace : List Replacement) (name : String) :
    List Bytes → Bytes → Except String Bytes
  | [], b => .ok b
  | line :: rest, b =>
    if maxTextScanTokenSize ≤ line.length then
      .error ("parser: failed to scan text file for configuration update: " ++
        "bufio.Scanner: token too long")
    else if maxConfigFileSize < (b ++ writtenLine replace (dropCR line) ++ [10]).length then
      .error ("parser: refusing to write configuration file \"" ++ name ++
        "\": result exceeds limit of " ++ toString maxConfigFileSize ++ " bytes")
    else replaceLines replace name rest (b ++ writtenLine replace (dropCR line) ++ [10])

/-- The new content of a file, as it is handed to `rewrite`. -/
def parseTextFile (replace : List Replacement) (name : String) (file : Bytes) :
    Except String Bytes :=
  replaceLines replace name (scanLines [] (file.take maxConfigFileSize)) []

def lines (file : Bytes) : List Bytes := (scanLines [] file).map dropCR

theorem scanLines_append (free : 10 ∉ text) :
    scanLines line (text ++ 10 :: rest) = (line ++ text) :: scanLines [] rest := by
  induction text generalizing line with
  | nil => rw [List.nil_append, scanLines, if_pos rfl, List.append_nil]
  | cons b text ih =>
    rw [List.mem_cons, not_or] at free
    rw [List.cons_append, scanLines, if_neg (Ne.symm free.1), ih free.2, List.append_assoc]
    rfl

theorem scanLines_flatMap (written : List Bytes) (free : ∀ line ∈ written, 10 ∉ line) :
    scanLines [] (written.flatMap (· ++ [10])) = written := by
  induction written with
  | nil => rfl
  | cons line written ih =>
    rw [List.forall_mem_cons] at free
    rw [List.flatMap_cons, List.append_assoc, List.singleton_append, scanLines_append free.1,
      ih free.2, List.nil_append]

theorem free_of_mem_scanLines (free : 10 ∉ line) : ∀ found ∈ scanLines line text, 10 ∉ found := by
  induction text generalizing line with
  | nil =>
    rw [scanLines]
    split_ifs
    · exact List.forall_mem_nil _
    · exact List.forall_mem_singleton.2 free
  | cons b text ih =>
    rw [scanLines]
    split_ifs with newline
    · exact List.forall_mem_cons.2 ⟨free, ih List.not_mem_nil⟩
    · exact ih (by simp [free, Ne.symm newline])

theorem free_of_mem_lines (member : line ∈ lines file) : 10 ∉ line := by
  obtain ⟨found, isFound, rfl⟩ := List.mem_map.1 member
  have free := free_of_mem_scanLines List.not_mem_nil found isFound
  unfold dropCR
  split_ifs
  · exact fun inside => free (List.dropLast_subset _ inside)
  · exact free

theorem replaceLine_eq (replace : List Replacement) : replaceLine line replace b replaced =
    (b ++ (replace.filter (·.matched.isPrefixOf line)).flatMap Replacement.replaceWith,
    replaced || replace.any (·.matched.isPrefixOf line)) := by
  induction replace generalizing b replaced with
  | nil => simp [replaceLine]
  | cons entry replace ih =>
    rw [replaceLine]
    split_ifs with begins
    · simp [ih, begins]
    · simp [ih, begins]

/-- The line that is to be written for a line of the file. -/
def Edited (replace : List Replacement) (line written : Bytes) : Prop :=
  (written = line ∧ ∀ entry ∈ replace, ¬entry.matched <+: line) ∨
    ∃ entry ∈ replace, entry.matched <+: line ∧ written = entry.replaceWith

def Single (replace : List Replacement) (line : Bytes) : Prop :=
  replace.Pairwise fun first second => ¬(first.matched <+: line ∧ second.matched <+: line)

theorem edited_writtenLine (single : Single replace line) :
    Edited replace line (writtenLine replace line) := by
  rw [writtenLine, replaceLine_eq, List.nil_append, Bool.false_or]
  split_ifs with replaced
  · obtain ⟨entry, member, begins⟩ := List.any_eq_true.1 replaced
    have apart := List.Pairwise.filter (·.matched.isPrefixOf line) single
    have each : ∀ other, other ∈ replace.filter (·.matched.isPrefixOf line) ↔
        other ∈ replace ∧ other.matched <+: line := by
      intro other
      rw [List.mem_filter, List.isPrefixOf_iff_prefix]
    have known := (each entry).2 ⟨member, List.isPrefixOf_iff_prefix.1 begins⟩
    generalize replace.filter (·.matched.isPrefixOf line) = found at apart each known ⊢
    match found with
    | [first] =>
      obtain ⟨listed, begins⟩ := (each first).1 List.mem_cons_self
      exact .inr ⟨first, listed, begins, List.flatMap_singleton ..⟩
    | first :: second :: _ =>
      refine absurd ⟨((each first).1 ?_).2, ((each second).1 ?_).2⟩
        ((List.pairwise_cons.1 apart).1 second ?_)
      all_goals simp
  · refine .inl ⟨rfl, fun entry member begins => replaced ?_⟩
    exact List.any_eq_true.2 ⟨entry, member, List.isPrefixOf_iff_prefix.2 begins⟩

theorem replaceLines_eq (short : ∀ line ∈ found, line.length < maxTextScanTokenSize)
    (small : (b ++ (found.map dropCR).flatMap (writtenLine replace · ++ [10])).length ≤
    maxConfigFileSize) : replaceLines replace name found b =
    .ok (b ++ (found.map dropCR).flatMap (writtenLine replace · ++ [10])) := by
  induction found generalizing b with
  | nil => rw [replaceLines, List.map_nil, List.flatMap_nil, List.append_nil]
  | cons line found ih =>
    rw [List.forall_mem_cons] at short
    rw [List.map_cons, List.flatMap_cons, ← List.append_assoc, ← List.append_assoc] at small ⊢
    rw [replaceLines, if_neg (by omega), if_neg, ih short.2 small]
    rw [List.length_append] at small
    omega

end Wings.Parser

namespace Wings.Parser.Rewrite

open Filesystem Transition

inductive Failure where
  | tooLarge
  | diskSpace
  | systemCall

/-- The next call of `rewrite`; a write reserves, writes and releases. -/
inductive Phase where
  | checkSize
  | seek
  | truncate
  | reserve
  | write (reserved : Int)
  | release (reserved : Int) (n : Nat) (fails : Bool)
  | returned (failure : Option Failure)

/-- The file with the size that its quota file keeps, which a truncation leaves as it is. -/
structure State where
  ledger : Ledger
  content : Bytes
  size : Nat
  phase : Phase

inductive Writer where
  | reserveDisk (size : Int)
  | releaseDisk (reserved used : Int)

def Writer.move (ledger : Ledger) : Writer → Ledger
  | .reserveDisk size => (ledger.reserveDisk size).getD ledger
  | .releaseDisk reserved used => ledger.releaseDisk reserved used

/-- A call of the rewriting, whose system call fails or writes `n` bytes, or another writer. -/
inductive Label where
  | proceed (fails : Bool) (n : Nat)
  | other (writer : Writer)

/-- The space that `CheckSize` and `writeAtLocked` want for the content. -/
def State.growth (data : Bytes) (state : State) : Int := data.length - state.size

def State.returned (state : State) (failure : Option Failure) : State :=
  { state with phase := .returned failure }

def State.proceed (data : Bytes) (fails : Bool) (n : Nat) (state : State) : Option State :=
  match state.phase with
  | .checkSize =>
    if maxConfigFileSize < data.length then some (state.returned (some .tooLarge))
    else if state.growth data ≤ 0 ∨ state.ledger.hasSpaceFor (state.growth data) then
      some { state with phase := .seek }
    else some (state.returned (some .diskSpace))
  | .seek =>
    if fails then some (state.returned (some .systemCall))
    else some { state with phase := .truncate }
  | .truncate =>
    if fails then some (state.returned (some .systemCall))
    else some { state with content := [], phase := .reserve }
  | .reserve =>
    if state.growth data ≤ 0 then some { state with phase := .write 0 }
    else
      match state.ledger.reserveDisk (state.growth data) with
      | none => some (state.returned (some .diskSpace))
      | some ledger => some { state with ledger, phase := .write (state.growth data) }
  | .write reserved =>
    some { state with
      content := data.take n, phase := .release reserved (min n data.length) fails }
  | .release reserved n fails =>
    let used := max ((n : Int) - state.size) 0
    some { state with
      ledger := if 0 < reserved then state.ledger.releaseDisk reserved used else state.ledger
      size := max state.size n
      phase := .returned (if fails then some .systemCall else none) }
  | .returned _ => none

def State.step (data : Bytes) (state : State) : Label → Option State
  | .proceed fails n => state.proceed data fails n
  | .other writer => some { state with ledger := writer.move state.ledger }

abbrev Steps (data : Bytes) (state : State) (label : Label) (after : State) : Prop :=
  state.step data label = some after

def Initial (content : Bytes) (state : State) : Prop :=
  state.content = content ∧ state.phase = .checkSize

/-- Between the check and the reservation of its space. -/
def Phase.between : Phase → Prop
  | .seek | .truncate | .reserve => True
  | _ => False

/-- Between the check and the reservation, no other writer takes room away. -/
def Undisturbed (state : State) : Label → Prop
  | .proceed _ _ => True
  | .other writer => state.phase.between → ∀ size, state.ledger.hasSpaceFor size = true →
      (writer.move state.ledger).hasSpaceFor size = true

structure Sound (content data : Bytes) (state : State) : Prop where
  room : state.phase.between →
    state.growth data ≤ 0 ∨ state.ledger.hasSpaceFor (state.growth data) = true
  kept : (state.phase = .checkSize ∨ state.phase = .seek ∨ state.phase = .truncate ∨
    state.phase = .returned (some .diskSpace)) → state.content = content

theorem Sound.proceed (sound : Sound content data state)
    (taken : state.proceed data fails n = some after) : Sound content data after := by
  obtain ⟨room, kept⟩ := sound
  unfold State.proceed at taken
  cases isPhase : state.phase with
  | checkSize =>
    simp only [isPhase] at taken
    have same := kept (.inl isPhase)
    split_ifs at taken with large fits <;> cases taken
    · exact ⟨False.elim, fun _ => same⟩
    · exact ⟨fun _ => fits, fun _ => same⟩
    · exact ⟨False.elim, fun _ => same⟩
  | seek =>
    simp only [isPhase] at taken
    have same := kept (.inr (.inl isPhase))
    split_ifs at taken <;> cases taken
    · exact ⟨False.elim, fun _ => same⟩
    · exact ⟨fun _ => room (by rw [isPhase]; trivial), fun _ => same⟩
  | truncate =>
    simp only [isPhase] at taken
    have same := kept (.inr (.inr (.inl isPhase)))
    split_ifs at taken <;> cases taken
    · exact ⟨False.elim, fun _ => same⟩
    · exact ⟨fun _ => room (by rw [isPhase]; trivial), by simp⟩
  | reserve =>
    simp only [isPhase] at taken
    split_ifs at taken with shrinks
    · cases taken
      exact ⟨False.elim, by simp⟩
    · have fits := (room (by rw [isPhase]; trivial)).resolve_left shrinks
      rw [Ledger.reserveDisk, if_neg shrinks, if_pos fits] at taken
      cases taken
      exact ⟨False.elim, by simp⟩
  | write reserved =>
    simp only [isPhase] at taken
    cases taken
    exact ⟨False.elim, by simp⟩
  | release reserved n fails =>
    simp only [isPhase] at taken
    cases taken
    cases fails <;> exact ⟨False.elim, by simp⟩
  | returned failure => simp [isPhase] at taken

theorem Sound.step (sound : Sound content data state) (undisturbed : Undisturbed state label)
    (taken : Steps data state label after) : Sound content data after := by
  cases label with
  | proceed fails n => exact sound.proceed taken
  | other writer =>
    cases taken
    exact ⟨fun between => (sound.room between).imp_right (undisturbed between _), sound.kept⟩

/-- A rewriting refused for space leaves the file, unless another writer takes room after the check.
-/
theorem refused_rewrite_keeps_content (content data : Bytes) (state : State)
    (reached : Reachable (Initial content) (Guarded Undisturbed (Steps data)) state)
    (refused : state.phase = .returned (some .diskSpace)) : state.content = content := by
  have sound : Sound content data state := by
    refine reached.invariant ?_ ?_
    · rintro state ⟨same, begins⟩
      exact ⟨by simp [begins, Phase.between], fun _ => same⟩
    · exact fun _ _ _ sound taken => sound.step taken.1 taken.2
  exact sound.kept (.inr (.inr (.inr refused)))

def fiveBytes : State := ⟨⟨⟨10, 5⟩, 0, false, 0⟩, [1, 2, 3, 4, 5], 5, .checkSize⟩

theorem refused_rewrite_keeps_five_bytes : ∃ state : State,
    state.phase = .returned (some .diskSpace) ∧ state.content = [1, 2, 3, 4, 5] := by
  have start : Reachable (Initial fiveBytes.content)
      (Guarded Undisturbed (Steps (List.replicate 11 0))) fiveBytes := .start ⟨rfl, rfl⟩
  have refused := start.next (.proceed false 0) ⟨trivial, rfl⟩
  exact ⟨_, rfl, refused_rewrite_keeps_content _ _ _ refused rfl⟩

/-- Another writer reserves four bytes after the check, and the truncated file stays empty. -/
theorem refused_rewrite_empties_file : ∃ state,
    Reachable (Initial fiveBytes.content) (Steps (List.replicate 8 0)) state ∧
      state.phase = .returned (some .diskSpace) ∧ state.content = [] := by
  have start : Reachable (Initial fiveBytes.content) (Steps (List.replicate 8 0)) fiveBytes :=
    .start ⟨rfl, rfl⟩
  exact ⟨_, start.execute [.proceed false 0, .other (.reserveDisk 4), .proceed false 0,
    .proceed false 0, .proceed false 0] rfl, rfl, rfl⟩

end Wings.Parser.Rewrite
