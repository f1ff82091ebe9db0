import Wings.Library.Fallible
import Wings.Library.Transition

/-!
# Resumable uploads

A request takes the lock of its target, compares its offset with the size of the file and streams
its body into the file; if anything fails before the file is closed, the file is cut back. What a
step cannot decide is an answer in its label. Cutting an open file back succeeds.
-/

namespace Wings.Uploads

open FallibleProgram (require require_eq_ok_iff bind_eq_ok_iff)
open Processes Transition

abbrev Bytes := List UInt8

structure Request where
  contentType : String
  uploadOffset : String
  uploadLength : String
  uploadComplete : String
  /-- The announced length of the body, negative if there is none. -/
  contentLength : Int
  /-- The configured limit in megabytes. -/
  uploadLimit : Int
  deriving DecidableEq

inductive Response where
  | ok (uploadOffset : Nat)
  | abort (status : Nat) (error : String) (uploadOffset : Option Nat)
  /-- An error that the middleware answers. -/
  | captured (uploadOffset : Option Nat)
  deriving DecidableEq

namespace Response

def notFound : Response := .abort 404 "The requested resource was not found on this server." none

def isOk : Response → Bool
  | .ok _ => true
  | _ => false

end Response

def digitsValue (digits : List Char) : Option Nat :=
  if digits.isEmpty || !digits.all Char.isDigit then none
  else some (digits.foldl (fun value digit => 10 * value + (digit.toNat - '0'.toNat)) 0)

def parseInt (value : String) : Option Int :=
  match value.toList with
  | '-' :: digits => do
    let magnitude ← digitsValue digits
    if magnitude ≤ 9223372036854775808 then some (-magnitude) else none
  | '+' :: digits => do
    let magnitude ← digitsValue digits
    if magnitude < 9223372036854775808 then some magnitude else none
  | digits => do
    let magnitude ← digitsValue digits
    if magnitude < 9223372036854775808 then some magnitude else none

def parseUploadInteger (value name : String) (required : Bool) : Except Response Nat := do
  require (¬(value = "" ∧ required)) (.abort 400 (name ++ " header is required.") none)
  match parseInt value with
  | none =>
    .error (.abort 400 (name ++ " must be a non-negative integer.") none)
  | some parsed => do
    require (0 ≤ parsed) (.abort 400 (name ++ " must be a non-negative integer.") none)
    .ok parsed.toNat

def parseOptionalUploadInteger (value name : String) : Except Response (Option Nat) :=
  if value = "" then .ok none
  else do
    let parsed ← parseUploadInteger value name false
    .ok (some parsed)

def parseUploadComplete (value : String) : Except Response Bool :=
  if value = "" ∨ value = "?0" then .ok false
  else if value = "?1" then .ok true
  else .error (.abort 400 "Upload-Complete must be ?0 or ?1." none)

def maxMegabytes : Int := Int64.maxValue.toInt / (1024 * 1024)

def resumableUploadLimit (megabytes : Int) : Except Response Nat := do
  require (0 < megabytes ∧ megabytes ≤ maxMegabytes)
    (.abort 500 "Upload limit is not configured correctly." none)
  .ok (megabytes * 1024 * 1024).toNat

structure Answers where
  authorised : Bool
  targetAllowed : Bool
  bound : Bool
  admitted : Bool

structure Offer where
  requestedOffset : Nat
  uploadLength : Option Nat
  complete : Bool
  maxSize : Nat
  contentLength : Int
  deriving DecidableEq

def checkRequest (request : Request) (answers : Answers) : Except Response Offer := do
  require answers.authorised .notFound
  require answers.targetAllowed .notFound
  require (request.contentType = "application/offset+octet-stream")
    (.abort 415 "Content-Type must be application/offset+octet-stream." none)
  let requestedOffset ← parseUploadInteger request.uploadOffset "Upload-Offset" true
  let uploadLength ← parseOptionalUploadInteger request.uploadLength "Upload-Length"
  let complete ← parseUploadComplete request.uploadComplete
  let maxSize ← resumableUploadLimit request.uploadLimit
  require (uploadLength.all (· ≤ maxSize))
    (.abort 413 "The upload exceeds the configured upload limit." none)
  require answers.bound .notFound
  require answers.admitted (.abort 429 "Too many resumable uploads are currently active." none)
  .ok ⟨requestedOffset, uploadLength, complete, maxSize, request.contentLength⟩

def allowedBytes (offer : Offer) (current : Nat) : Nat :=
  let allowed := offer.maxSize - current
  match offer.uploadLength with
  | none => allowed
  | some uploadLength =>
    if uploadLength - current < allowed then uploadLength - current
    else allowed

def allow (offer : Offer) (current : Nat) : Except Response Nat := do
  require (offer.requestedOffset = current)
    (.abort 409 "Upload offset does not match the current file size." (some current))
  require (¬(offer.maxSize < current ∨ offer.uploadLength.any fun length =>
      length < current || length < offer.requestedOffset))
    (.abort 409 "Upload length is inconsistent with the current file size." (some current))
  require (¬(0 ≤ offer.contentLength ∧ allowedBytes offer current < offer.contentLength))
    (.abort 413 "The upload chunk exceeds the remaining upload length." (some current))
  .ok (allowedBytes offer current)

def maxResumableUploadLocks : Nat := 64 + 64

structure Target where
  active : List String
  file : Option Bytes

def content (file : Option Bytes) : Bytes := file.getD []

namespace Target

def acquire (target : Target) (key : String) : Option Target :=
  if target.active.contains key ||
      decide (maxResumableUploadLocks ≤ target.active.length) then none
  else some { target with active := key :: target.active }

def release (target : Target) (key : String) : Target :=
  { target with active := target.active.filter (· ≠ key) }

end Target

structure Turn where
  offer : Offer
  /-- What the file was when the lock was taken. -/
  found : Option Bytes
  current : Nat
  allowed : Nat
  deriving DecidableEq

inductive CopyError where
  | diskSpace
  | idleTimeout
  | other
  deriving DecidableEq

inductive Phase where
  | idle
  | started (request : Request)
  | checked (offer : Offer)
  | locked (offer : Offer) (found : Option Bytes)
  | measured (turn : Turn)
  | copying (turn : Turn) (received : Bytes) (written : Nat)
  | copied (turn : Turn) (received : Bytes) (written : Nat) (copyErr : Option CopyError)
  | failing (turn : Turn) (received : Bytes) (written : Nat) (response : Response)
  | rolledBack (turn : Turn) (response : Response)
  | closing (turn : Turn) (received : Bytes) (newOffset : Nat)
  | closed (turn : Turn) (received : Bytes) (newOffset : Nat)
  | finished (offer : Offer) (found : Option Bytes) (received : Bytes)
      (written : Bool) (response : Response)
  | done (response : Response)
  /-- A request for the offset has the lock. -/
  | looking
  /-- A request for another target has its lock. -/
  | elsewhere (key : String)
  deriving DecidableEq

/-- What the file system says before the body is read. A failed open may create the file. -/
structure Preparation where
  space : Bool
  directory : Bool
  touched : Bool
  created : Bool

inductive ReadEnd where
  | more
  | eof
  | failed (error : CopyError)
  deriving DecidableEq

inductive Action where
  | patch (request : Request)
  | check (answers : Answers)
  | lock
  | measure (readable : Bool)
  | touch (preparation : Preparation)
  /-- One round of copying: what was read, how much of it was written. -/
  | copy (bytes : Bytes) (readEnd : ReadEnd) (accepted : Nat) (writeError : Option CopyError)
  | settle (cleared : Bool)
  | rollback
  | closeRolledBack
  | close (succeeded : Bool)
  | chown (succeeded : Bool)
  | release
  | head
  | leave
  | acquireOther (key : String)
  | releaseOther

def bufferSize : Nat := 64 * 1024

def remaining (turn : Turn) (received : Bytes) : Nat := turn.allowed + 1 - received.length

def readable (turn : Turn) (received bytes : Bytes) (readEnd : ReadEnd) : Bool :=
  if remaining turn received = 0 then bytes.isEmpty && readEnd = .eof
  else bytes.length ≤ min bufferSize (remaining turn received)

def afterCopy (turn : Turn) (received : Bytes) (written : Nat) (bytes : Bytes)
    (readEnd : ReadEnd) (accepted : Nat) (writeError : Option CopyError) : Phase :=
  let received := received ++ bytes
  let written := written + min accepted bytes.length
  if bytes ≠ [] ∧ writeError.isSome then
    .copied turn received written writeError
  else if accepted < bytes.length then
    .copied turn received written (some .other)
  else
    match readEnd with
    | .more => .copying turn received written
    | .eof => .copied turn received written none
    | .failed error => .copied turn received written (some error)

def copyResponse (turn : Turn) (written : Nat) (copyErr : Option CopyError) : Response :=
  if copyErr = some .diskSpace then
    .abort 507 "The server does not have enough disk space for this upload." (some turn.current)
  else if turn.allowed < written then
    .abort 413 "The upload chunk exceeds the remaining upload length." (some turn.current)
  else if copyErr = some .idleTimeout then
    .abort 408 "The upload body was idle for too long." (some turn.current)
  else .captured (some turn.current)

def settledError (copyErr : Option CopyError) (cleared : Bool) : Option CopyError :=
  if copyErr = none ∧ cleared = false then some .other else copyErr

def afterSettle (turn : Turn) (received : Bytes) (written : Nat)
    (copyErr : Option CopyError) (cleared : Bool) : Phase :=
  let copyErr := settledError copyErr cleared
  if copyErr ≠ none ∨ turn.allowed < written then
    .failing turn received written (copyResponse turn written copyErr)
  else if turn.offer.complete ∧ turn.offer.uploadLength.any
      (· ≠ turn.current + written) then
    .failing turn received written (.abort 409 "Final upload length does not match Upload-Length."
        (some turn.current))
  else .closing turn received (turn.current + written)

section Move

variable (key : String)

def prepare (turn : Turn) (preparation : Preparation) (target : Target) : Target × Phase :=
  if !preparation.space then
    (target, .finished turn.offer turn.found [] false
      (.abort 507 "The server does not have enough disk space for this upload."
        (some turn.current)))
  else if !preparation.directory then
    (target, .finished turn.offer turn.found [] false (.captured (some turn.current)))
  else if !preparation.touched then
    (if preparation.created then
        { target with file := some (content target.file) }
      else target,
      .finished turn.offer turn.found [] false (.captured (some turn.current)))
  else
    ({ target with file := some (content target.file) }, .copying turn [] 0)

def move (_process : Nat) (action : Action) (target : Target)
    (phase : Phase) : Option (Target × Phase) :=
  match action, phase with
  | .patch request, .idle => some (target, .started request)
  | .check answers, .started request =>
    match checkRequest request answers with
    | .error response => some (target, .done response)
    | .ok offer => some (target, .checked offer)
  | .lock, .checked offer =>
    match target.acquire key with
    | none => some (target, .done (.abort 409 "An upload is already active for this file." none))
    | some after => some (after, .locked offer target.file)
  | .measure false, .locked offer found =>
    some (target, .finished offer found [] false .notFound)
  | .measure true, .locked offer found =>
    match allow offer (content target.file).length with
    | .error response =>
      some (target, .finished offer found [] false response)
    | .ok allowed =>
      some (target, .measured ⟨offer, found, (content target.file).length, allowed⟩)
  | .touch preparation, .measured turn =>
    some (prepare turn preparation target)
  | .copy bytes readEnd accepted writeError,
      .copying turn received written =>
      if readable turn received bytes readEnd then
        some ({ target with
          file := some (content target.file ++ bytes.take accepted) },
          afterCopy turn received written bytes readEnd accepted writeError)
      else none
  | .settle cleared, .copied turn received written copyErr =>
    some (target, afterSettle turn received written copyErr cleared)
  | .rollback, .failing turn _ _ response =>
    some ({ target with
        file := some ((content target.file).take turn.current) },
      .rolledBack turn response)
  | .closeRolledBack, .rolledBack turn response =>
    some (target, .finished turn.offer turn.found [] false response)
  | .close true, .closing turn received newOffset =>
    some (target, .closed turn received newOffset)
  | .close false, .closing turn received _ =>
    some (target, .finished turn.offer turn.found received true (.captured (some turn.current)))
  | .chown true, .closed turn received newOffset =>
    some (target, .finished turn.offer turn.found received true (.ok newOffset))
  | .chown false, .closed turn received _ =>
    some (target, .finished turn.offer turn.found received true (.captured (some turn.current)))
  | .release, .finished _ _ _ _ response =>
    some (target.release key, .done response)
  | .head, .idle =>
    match target.acquire key with
    | none => some (target, .done (.abort 503 "Too many uploads are currently active." none))
    | some after => some (after, .looking)
  | .leave, .looking =>
    some (target.release key, .done (.ok (content target.file).length))
  | .acquireOther other, .idle =>
    if other = key then none
    else (target.acquire other).map fun after => (after, .elsewhere other)
  | .releaseOther, .elsewhere other => some (target.release other, .idle)
  | _, _ => none

def Initial (config : Config Target Phase) : Prop :=
  config.shared.active = [] ∧ ∀ process, config.own process = .idle

end Move

def Phase.holdsLock : Phase → Bool
  | .idle | .started _ | .checked _ | .done _ | .elsewhere _ => false
  | _ => true

/-- The turn has measured what it found, and may add no more than the limits
leave. -/
structure Turn.Fits (turn : Turn) : Prop where
  current_eq : turn.current = (content turn.found).length
  limited : turn.current + turn.allowed ≤ turn.offer.maxSize
  announced : ∀ length, turn.offer.uploadLength = some length → turn.current + turn.allowed ≤ length

structure Answered (file : Option Bytes) (offer : Offer) (found : Option Bytes)
    (received : Bytes) (written : Bool) (response : Response) : Prop where
  /-- A success gives the size of the file. -/
  success : ∀ offset, response = .ok offset → written = true ∧ offset = (content file).length
  /-- A file that was closed has all that was received. -/
  grown : written = true → content file = content found ++ received
  /-- Otherwise the file holds what it did. -/
  kept : written = false → content file = content found
  /-- The limits are kept. -/
  limited : written = true → (content file).length ≤ offer.maxSize
  announced : written = true → ∀ length, offer.uploadLength = some length →
    (content file).length ≤ length

def Consistent (file : Option Bytes) : Phase → Prop
  | .locked _ found => file = found
  | .measured turn => file = turn.found ∧ turn.Fits
  | .copying turn received written =>
    turn.Fits ∧ content file = content turn.found ++ received ∧ written = received.length
  | .copied turn received written copyErr =>
    turn.Fits ∧ content file = content turn.found ++ received.take written ∧
      (copyErr = none → written = received.length)
  | .failing turn received written response =>
    turn.Fits ∧ content file = content turn.found ++ received.take written ∧ response.isOk = false
  | .rolledBack turn response =>
    content file = content turn.found ∧ response.isOk = false
  | .closing turn received newOffset =>
    turn.Fits ∧ content file = content turn.found ++ received ∧ received.length ≤ turn.allowed ∧
        newOffset = turn.current + received.length
  | .closed turn received newOffset =>
    turn.Fits ∧ content file = content turn.found ++ received ∧ received.length ≤ turn.allowed ∧
        newOffset = turn.current + received.length
  | .finished offer found received written response =>
    Answered file offer found received written response
  | _ => True

theorem answered_of_kept (kept : content file = content found) (refused : response.isOk = false) :
    Answered file offer found received false response where
  success offset isOk := by
    rw [isOk] at refused
    cases refused
  grown impossible := Bool.noConfusion impossible
  kept _ := kept
  limited impossible := Bool.noConfusion impossible
  announced impossible := Bool.noConfusion impossible

variable {turn : Turn}

theorem answered_of_grown (fits : turn.Fits) (grown : content file = content turn.found ++ received)
    (few : received.length ≤ turn.allowed)
    (offset : ∀ newOffset, response = .ok newOffset → newOffset = turn.current + received.length) :
    Answered file turn.offer turn.found received true response := by
  have size : (content file).length = turn.current + received.length := by
    rw [grown, List.length_append, fits.current_eq]
  refine ⟨fun newOffset isOk => ⟨rfl, ?_⟩, fun _ => grown,
    fun impossible => Bool.noConfusion impossible, fun _ => ?_, fun _ length given => ?_⟩
  · rw [offset newOffset isOk, size]
  · have limited := fits.limited
    omega
  · have announced := fits.announced length given
    omega

theorem add_allowedBytes_le (below : current ≤ offer.maxSize) :
    current + allowedBytes offer current ≤ offer.maxSize ∧
    ∀ length, offer.uploadLength = some length → current ≤ length →
    current + allowedBytes offer current ≤ length := by
  rw [allowedBytes]
  cases given : offer.uploadLength with
  | none =>
    refine ⟨?_, fun length impossible => by cases impossible⟩
    dsimp only
    omega
  | some uploadLength =>
    dsimp only
    split
    · refine ⟨by omega, fun length same fewer => ?_⟩
      cases same
      omega
    · refine ⟨by omega, fun length same fewer => ?_⟩
      cases same
      omega

theorem fits_of_allow (admitted : allow offer (content found).length = .ok allowed) :
    (Turn.mk offer found (content found).length allowed).Fits := by
  obtain ⟨_, _, admitted⟩ := bind_eq_ok_iff.1 admitted
  obtain ⟨_, consistent, admitted⟩ := bind_eq_ok_iff.1 admitted
  obtain ⟨_, _, admitted⟩ := bind_eq_ok_iff.1 admitted
  cases admitted
  obtain ⟨small, long⟩ := not_or.1 (require_eq_ok_iff.1 consistent)
  obtain ⟨limited, announced⟩ := add_allowedBytes_le (Nat.not_lt.1 small)
  refine ⟨rfl, limited, fun length given => announced length given ?_⟩
  rw [given, Option.any_some, Bool.or_eq_true, decide_eq_true_iff] at long
  exact Nat.not_lt.1 (not_or.1 long).1

variable {target : Target}

theorem consistent_prepare (preparation : Preparation)
    (consistent : Consistent target.file (.measured turn)) :
    Consistent (prepare turn preparation target).1.file (prepare turn preparation target).2 := by
  obtain ⟨same, fits⟩ := consistent
  rw [prepare]
  split
  · exact answered_of_kept (by rw [same]) rfl
  · split
    · exact answered_of_kept (by rw [same]) rfl
    · split
      · refine answered_of_kept ?_ rfl
        split
        · rw [← same]
          rfl
        · rw [same]
      · refine ⟨fits, ?_, rfl⟩
        rw [List.append_nil, ← same]
        rfl

theorem consistent_afterCopy (consistent : Consistent file (.copying turn received written))
    (bytes : Bytes) (readEnd : ReadEnd) (accepted : Nat) (writeError : Option CopyError) :
    Consistent (some (content file ++ bytes.take accepted))
    (afterCopy turn received written bytes readEnd accepted writeError) := by
  obtain ⟨fits, holds, rfl⟩ := consistent
  have added : content (some (content file ++ bytes.take accepted)) =
      content turn.found ++ (received ++ bytes).take
        (received.length + min accepted bytes.length) := by
    have taken : bytes.take (min accepted bytes.length) = bytes.take accepted := by
      rw [List.take_eq_take_iff]
      omega
    rw [List.take_length_add_append, taken, ← List.append_assoc, ← holds]
    rfl
  simp only [afterCopy]
  split
  · rename_i failed
    refine ⟨fits, added, fun none => ?_⟩
    rw [none] at failed
    cases failed.2
  · split
    · exact ⟨fits, added, fun impossible => by cases impossible⟩
    · rename_i all
      have whole : received.length + min accepted bytes.length = (received ++ bytes).length := by
        rw [List.length_append]
        omega
      cases readEnd with
      | more =>
        refine ⟨fits, ?_, whole⟩
        rw [added, whole, List.take_length]
      | eof => exact ⟨fits, added, fun _ => whole⟩
      | failed error => exact ⟨fits, added, fun impossible => by cases impossible⟩

theorem isOk_copyResponse (turn : Turn) (written : Nat) (copyErr : Option CopyError) :
    (copyResponse turn written copyErr).isOk = false := by
  rw [copyResponse]
  split
  · rfl
  · split
    · rfl
    · split <;> rfl

theorem consistent_afterSettle (consistent :
    Consistent file (.copied turn received written copyErr)) (cleared : Bool) :
    Consistent file (afterSettle turn received written copyErr cleared) := by
  obtain ⟨fits, holds, whole⟩ := consistent
  simp only [afterSettle]
  split
  · exact ⟨fits, holds, isOk_copyResponse turn written _⟩
  · rename_i copied
    split
    · exact ⟨fits, holds, rfl⟩
    · obtain ⟨noError, few⟩ := not_or.1 copied
      have clean : copyErr = none := by
        rw [not_not, settledError] at noError
        split at noError
        · cases noError
        · exact noError
      obtain rfl := whole clean
      rw [List.take_length] at holds
      exact ⟨fits, holds, Nat.not_lt.1 few, rfl⟩

theorem consistent_rollback
    (consistent : Consistent file (.failing turn received written response)) :
    Consistent (some ((content file).take turn.current)) (.rolledBack turn response) := by
  obtain ⟨fits, holds, refused⟩ := consistent
  refine ⟨?_, refused⟩
  rw [holds, fits.current_eq]
  exact List.take_left

theorem isOk_of_allow (refused : allow offer current = .error response) :
    response.isOk = false := by
  simp only [allow, require] at refused
  split_ifs at refused <;> cases refused <;> rfl

theorem prepare_keeps (turn : Turn) (preparation : Preparation) (target : Target) :
    (prepare turn preparation target).2.holdsLock = true ∧
    (prepare turn preparation target).1.active = target.active := by
  rw [prepare]
  split
  · exact ⟨rfl, rfl⟩
  · split
    · exact ⟨rfl, rfl⟩
    · split
      · refine ⟨rfl, ?_⟩
        split <;> rfl
      · exact ⟨rfl, rfl⟩

theorem holdsLock_afterCopy (turn : Turn) (received : Bytes) (written : Nat)
    (bytes : Bytes) (readEnd : ReadEnd) (accepted : Nat) (writeError : Option CopyError) :
    (afterCopy turn received written bytes readEnd accepted writeError).holdsLock = true := by
  simp only [afterCopy]
  split
  · rfl
  · split
    · rfl
    · cases readEnd <;> rfl

theorem holdsLock_afterSettle (turn : Turn) (received : Bytes) (written : Nat)
    (copyErr : Option CopyError) (cleared : Bool) :
    (afterSettle turn received written copyErr cleared).holdsLock = true := by
  simp only [afterSettle]
  split
  · rfl
  · split <;> rfl

inductive Effect (key : String) (target : Target) (phase : Phase) : Target → Phase → Prop
  /-- Without the lock the file is left alone. -/
  | outside {after : Target} {next : Phase} (before : phase.holdsLock = false)
      (still : next.holdsLock = false) (apart : next ≠ .elsewhere key)
      (file : after.file = target.file)
      (lock : after.active.contains key = target.active.contains key) :
      Effect key target phase after next
  | acquires {next : Phase} (before : phase.holdsLock = false) (comes : next.holdsLock = true)
      (free : target.active.contains key = false) (consistent : Consistent target.file next) :
      Effect key target phase { target with active := key :: target.active }
        next
  | inside {after : Target} {next : Phase} (before : phase.holdsLock = true)
      (still : next.holdsLock = true) (lock : after.active = target.active)
      (consistent : Consistent target.file phase → Consistent after.file next) :
      Effect key target phase after next
  | releases {next : Phase} (before : phase.holdsLock = true) (leaves : next.holdsLock = false)
      (apart : next ≠ .elsewhere key) : Effect key target phase (target.release key) next

theorem acquire_eq_some (acquired : target.acquire key = some after) :
    target.active.contains key = false ∧
      after = { target with active := key :: target.active } := by
  rw [Target.acquire] at acquired
  split at acquired
  · cases acquired
  · rename_i free
    rw [Bool.or_eq_true, not_or, Bool.not_eq_true] at free
    exact ⟨free.1, (Option.some.inj acquired).symm⟩

theorem effect_of_move (apart : phase ≠ .elsewhere key)
    (moved : move key process action target phase = some (after, next)) :
    Effect key target phase after next := by
  unfold move at moved
  split at moved
  · cases moved
    exact .outside rfl rfl (by simp) rfl rfl
  · split at moved <;>
      cases moved
    · exact .outside rfl rfl (by simp) rfl rfl
    · exact .outside rfl rfl (by simp) rfl rfl
  · split at moved
    · cases moved
      exact .outside rfl rfl (by simp) rfl rfl
    · rename_i acquired
      obtain ⟨free, rfl⟩ := acquire_eq_some acquired
      cases moved
      exact .acquires rfl rfl free rfl
  · cases moved
    exact .inside rfl rfl rfl fun same =>
      answered_of_kept (congrArg content same) rfl
  · rename_i offer found
    split at moved
    · rename_i response refused
      cases moved
      exact .inside rfl rfl rfl fun same =>
        answered_of_kept (congrArg content same) (isOk_of_allow refused)
    · rename_i allowed admitted
      cases moved
      refine .inside rfl rfl rfl fun same => ?_
      cases same
      exact ⟨rfl, fits_of_allow admitted⟩
  · obtain ⟨rfl, rfl⟩ := Prod.ext_iff.1 (Option.some.inj moved)
    exact .inside rfl (prepare_keeps _ _ _).1 (prepare_keeps _ _ _).2 (consistent_prepare _)
  · split at moved
    · cases moved
      exact .inside rfl (holdsLock_afterCopy _ _ _ _ _ _ _) rfl
        fun consistent => consistent_afterCopy consistent _ _ _ _
    · cases moved
  · cases moved
    exact .inside rfl (holdsLock_afterSettle _ _ _ _ _) rfl
      fun consistent => consistent_afterSettle consistent _
  · cases moved
    exact .inside rfl rfl rfl consistent_rollback
  · cases moved
    exact .inside rfl rfl rfl fun consistent =>
      answered_of_kept consistent.1 consistent.2
  · cases moved
    exact .inside rfl rfl rfl fun consistent => consistent
  · cases moved
    refine .inside rfl rfl rfl fun consistent => ?_
    exact answered_of_grown consistent.1 consistent.2.1 consistent.2.2.1
      fun _ impossible => by cases impossible
  · cases moved
    refine .inside rfl rfl rfl fun consistent => ?_
    exact answered_of_grown consistent.1 consistent.2.1 consistent.2.2.1
      fun _ same => by cases same; exact consistent.2.2.2
  · cases moved
    refine .inside rfl rfl rfl fun consistent => ?_
    exact answered_of_grown consistent.1 consistent.2.1 consistent.2.2.1
      fun _ impossible => by cases impossible
  · cases moved
    exact .releases rfl rfl (by simp)
  · split at moved
    · cases moved
      exact .outside rfl rfl (by simp) rfl rfl
    · rename_i acquired
      obtain ⟨free, rfl⟩ := acquire_eq_some acquired
      cases moved
      exact .acquires rfl rfl free trivial
  · cases moved
    exact .releases rfl rfl (by simp)
  · split at moved
    · cases moved
    · rename_i different
      obtain ⟨_, acquired, equal⟩ := Option.map_eq_some_iff.1 moved
      obtain ⟨_, rfl⟩ := acquire_eq_some acquired
      obtain ⟨rfl, rfl⟩ := Prod.ext_iff.1 equal
      refine .outside rfl rfl (fun same => different ?_) rfl ?_
      · exact Phase.elsewhere.inj same
      · rw [List.contains_cons, beq_eq_false_iff_ne.2 (Ne.symm different), Bool.false_or]
  · rename_i other
    have different : key ≠ other := by
      rintro rfl
      exact apart rfl
    cases moved
    refine .outside rfl rfl (by simp) rfl ?_
    simp [Target.release, different]
  · cases moved

section Runs

def Holds (key : String) (_process : Nat) (target : Target) (phase : Phase) : Prop :=
  phase ≠ .elsewhere key ∧ Consistent target.file phase ∧
    (phase.holdsLock = true → target.active.contains key = true)

theorem holds_of_not_holdsLock (apart : phase ≠ .elsewhere key)
    (free : phase.holdsLock = false) : Holds key process target phase := by
  refine ⟨apart, ?_, fun has => ?_⟩
  · cases phase <;> trivial
  · rw [free] at has
    cases has

/-- Processes fit the file, and one at most has the lock. -/
structure Orderly (key : String) (config : Config Target Phase) : Prop where
  each : config.Each (Holds key)
  unique : ∀ first second, (config.own first).holdsLock = true →
    (config.own second).holdsLock = true → first = second

theorem orderly_initial (initial : Initial config) : Orderly key config := by
  obtain ⟨_, idle⟩ := initial
  refine ⟨fun process => ?_, fun first second holds => ?_⟩
  · rw [idle process]
    exact holds_of_not_holdsLock (by simp) rfl
  · rw [idle first] at holds
    cases holds

theorem holds_mover (effect : Effect key target phase after next)
    (holds : Holds key process target phase) : Holds key process after next := by
  obtain ⟨_, consistent, locked⟩ := holds
  cases effect with
  | outside before still apart => exact holds_of_not_holdsLock apart still
  | acquires before comes free known =>
    refine ⟨?_, known, fun _ => ?_⟩
    · rintro rfl
      cases comes
    · rw [List.contains_cons, BEq.rfl, Bool.true_or]
  | inside before still lock kept =>
    refine ⟨?_, kept consistent, fun _ => ?_⟩
    · rintro rfl
      cases still
    · rw [lock]
      exact locked before
  | releases before leaves apart => exact holds_of_not_holdsLock apart leaves

theorem holds_other (effect : Effect key target phase after next)
    (alone : phase.holdsLock = true → other.holdsLock = false)
    (holds : Holds key process target other) : Holds key process after other := by
  obtain ⟨apart, consistent, locked⟩ := holds
  cases effect with
  | outside before still _ file lock =>
    refine ⟨apart, ?_, ?_⟩
    · rw [file]
      exact consistent
    · rw [lock]
      exact locked
  | acquires before comes free =>
    refine holds_of_not_holdsLock apart ?_
    rw [← Bool.not_eq_true]
    intro has
    rw [locked has] at free
    cases free
  | inside before | releases before => exact holds_of_not_holdsLock apart (alone before)

theorem Orderly.step {after : Config Target Phase} {label : Nat × Action}
    (orderly : Orderly key config)
    (taken : config.Steps (move key) label after) : Orderly key after where
  each := by
    refine orderly.each.step taken ?_ ?_
    · intro target next moved
      have known := orderly.each label.1
      exact holds_mover (effect_of_move known.1 moved) known
    · intro target next moved process other
      refine holds_other (effect_of_move (orderly.each label.1).1 moved) ?_
      intro has
      rw [← Bool.not_eq_true]
      exact fun alsoHas => other (orderly.unique process label.1 alsoHas has)
  unique := by
    refine Config.unique_step orderly.unique taken ?_
    intro target next moved comes
    cases effect_of_move (orderly.each label.1).1 moved with
    | outside before still =>
      rw [still] at comes
      cases comes
    | acquires before _ free =>
      refine .inr fun process => ?_
      rw [← Bool.not_eq_true]
      intro has
      rw [(orderly.each process).2.2 has] at free
      cases free
    | inside before | releases before => exact .inl before

theorem orderly_of_reachable (reached : Reachable Initial (Config.Steps (move key)) config) :
    Orderly key config := reached.invariant (fun _ initial => orderly_initial initial)
    fun _ _ _ orderly taken => orderly.step taken

/-- A success reports the size of the file. A request that was refused or aborted has left the file
as it was, the limit is kept, and only the holder of the lock changes the file. -/
theorem upload_atomic (key : String) (config : Config Target Phase)
    (reached : Reachable Initial (Config.Steps (move key)) config) :
    (∀ process offer found received written response, config.own process =
          .finished offer found received written response →
        (∀ offset, response = .ok offset → offset = (content config.shared.file).length ∧
            offset = (content found).length + received.length ∧
              content config.shared.file = content found ++ received) ∧
        (written = false → content config.shared.file = content found) ∧
        ((content config.shared.file).length ≤ offer.maxSize ∨
          offer.maxSize < (content found).length) ∧
        ∀ length, offer.uploadLength = some length → (content config.shared.file).length ≤ length ∨
            length < (content found).length) ∧
    (∀ first second, (config.own first).holdsLock = true →
      (config.own second).holdsLock = true → first = second) ∧
    ∀ label after, config.Steps (move key) label after →
      (config.own label.1).holdsLock = false → after.shared.file = config.shared.file := by
  have orderly := orderly_of_reachable reached
  refine ⟨?_, orderly.unique, ?_⟩
  · intro process offer found received written response finished
    have answered : Answered config.shared.file offer found received written
        response := by
      have known := (orderly.each process).2.1
      rw [finished] at known
      exact known
    refine ⟨fun offset isOk => ?_, answered.kept, ?_, fun length given => ?_⟩
    · obtain ⟨closed, size⟩ := answered.success offset isOk
      have grown := answered.grown closed
      refine ⟨size, ?_, grown⟩
      rw [size, grown, List.length_append]
    · cases written with
      | true => exact .inl (answered.limited rfl)
      | false =>
        rw [answered.kept rfl]
        exact (Nat.lt_or_ge _ _).symm
    · cases written with
      | true => exact .inl (answered.announced rfl length given)
      | false =>
        rw [answered.kept rfl]
        exact (Nat.lt_or_ge _ _).symm
  · intro label after taken without
    obtain ⟨target, next, moved, rfl⟩ := Config.steps_iff.1 taken
    cases effect_of_move (orderly.each label.1).1 moved with
    | outside _ _ _ file => exact file
    | acquires => rfl
    | inside before =>
      rw [without] at before
      cases before
    | releases => rfl

def twoBytes : Request := ⟨"application/offset+octet-stream", "1", "3", "?1", -1, 1⟩

def twoBytesOffer : Offer := ⟨1, some 3, true, 1048576, -1⟩

def twoBytesSteps : List (Nat × Action) :=
  [(0, .patch twoBytes), (0, .check ⟨true, true, true, true⟩), (0, .lock),
    (0, .measure true), (0, .touch ⟨true, true, true, true⟩),
    (0, .copy [2] .more 1 none), (0, .copy [3] .eof 1 none),
    (0, .settle true), (0, .close true), (0, .chown true)]

theorem two_bytes_uploaded : ∃ config : Config Target Phase,
      Reachable Initial (Config.Steps (move "file")) config ∧ config.own 0 =
            .finished twoBytesOffer (some [1]) [2, 3] true (.ok 3) ∧
          content config.shared.file = [1] ++ [2, 3] := by
  have start : Reachable Initial (Config.Steps (move "file"))
      ⟨⟨[], some [1]⟩, fun _ => .idle⟩ := .start ⟨rfl, fun _ => rfl⟩
  have ran : (execute (Config.step (move "file"))
      ⟨⟨[], some [1]⟩, fun _ => .idle⟩ twoBytesSteps).any (fun config => decide (config.own 0 =
          .finished twoBytesOffer (some [1]) [2, 3] true (.ok 3))) =
        true := by
    decide +kernel
  obtain ⟨config, executed, finished⟩ := (Option.any_eq_true _ _).1 ran
  have reached := start.execute twoBytesSteps executed
  have answered := of_decide_eq_true finished
  refine ⟨config, reached, answered, ?_⟩
  exact (((upload_atomic "file" config reached).1 0 _ _ _ _ _ answered).1 3
    rfl).2.2

/-- The turn that may go back to what it found. -/
def Phase.turn? : Phase → Option Turn
  | .measured turn | .copying turn _ _ | .copied turn _ _ _ | .failing turn _ _ _ => some turn
  | _ => none

/-- The file starts with the bytes, also if it is cut back. -/
def Keeps (bytes : Bytes) (_process : Nat) (target : Target) (phase : Phase) : Prop :=
  bytes <+: content target.file ∧ ∀ turn, phase.turn? = some turn → bytes <+: content turn.found

theorem Keeps.mover (keeps : Keeps bytes process target phase)
    (consistent : Consistent target.file phase)
    (moved : move key process action target phase = some (after, next)) :
    Keeps bytes process after next := by
  obtain ⟨front, turns⟩ := keeps
  unfold move at moved
  split at moved
  case h_5 =>
    cases consistent
    grind [Keeps, Phase.turn?]
  case h_9 =>
    cases moved
    obtain ⟨fits, held, _⟩ := consistent
    refine ⟨?_, nofun⟩
    rw [content, Option.getD_some, held, fits.current_eq, List.take_left]
    exact turns _ rfl
  all_goals
    try cases ‹ReadEnd›
    all_goals grind [Keeps, Phase.turn?, prepare, afterCopy, afterSettle, content, Target.acquire,
      Target.release]

theorem holdsLock_of_turn? {phase : Phase} (hasTurn : phase.turn? = some turn) :
    phase.holdsLock = true := by
  cases phase <;> first | rfl | cases hasTurn

theorem keeps_of_reachable (orderly : Orderly key config) (each : config.Each (Keeps bytes))
    (reached : Reachable (· = config) (Config.Steps (move key)) later) :
    Orderly key later ∧ later.Each (Keeps bytes) := by
  induction reached with
  | start same =>
    subst same
    exact ⟨orderly, each⟩
  | next _ label taken ih =>
    obtain ⟨orderly, each⟩ := ih
    refine ⟨orderly.step taken, each.step taken ?_ ?_⟩
    · intro target next moved
      exact (each label.1).mover (orderly.each label.1).2.1 moved
    · intro target next moved process _ known
      exact ⟨((each label.1).mover (orderly.each label.1).2.1 moved).1, known.2⟩

end Runs

end Wings.Uploads
