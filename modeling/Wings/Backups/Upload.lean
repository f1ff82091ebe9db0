import Mathlib.Algebra.Order.Floor.Div
import Wings.Backups.Report

/-!
# The upload of a backup in parts

The body of the request for a part is a limited reader on the archive, with which a repeated request
continues. Every attempt offers the bytes of its part exactly when every retried failure comes
before the first byte was read.
-/

namespace Wings.Backups.S3

inductive Reply where
  /-- The deadline of the context is exceeded, or it is canceled. -/
  | stopped (error : Error)
  | failed (error : Error)
  | answered (code : Nat) (status : String) (etag : String)

/-- How the function that is retried returns; an error is permanent or not. -/
def Reply.verdict : Reply → Except (Error × Bool) String
  | .stopped error => .error (error, true)
  | .failed error =>
    .error (.wrapped "backup: S3 HTTP request failed" error, false)
  | .answered code status etag =>
    if code ≠ 200 then
      let error := .new ("backup: failed to put S3 object: [HTTP/" ++ toString code ++ "] " ++
          status)
      if 500 ≤ code then .error (error, false) else .error (error, true)
    else .ok etag

/-- The bytes that the client reads of the body and the reply. A reply of 200 has the whole body. -/
structure Attempt where
  read : Nat
  reply : Reply

def Attempt.isStored (attempt : Attempt) : Bool := attempt.reply.verdict.isOk

def Attempt.isRetryable (attempt : Attempt) : Bool :=
  match attempt.reply.verdict with
  | .error (_, isPermanent) => !isPermanent
  | .ok _ => false

def Attempt.taken (attempt : Attempt) (length : Nat) : Nat :=
  if attempt.isStored then length else min attempt.read length

structure PartUrl where
  requestFailure : Option Error
  first : Attempt
  further : List Attempt

structure UploadUrls where
  parts : List PartUrl
  partSize : Int

/-- The offset of the file, the rest of the limited reader, and what was offered and stored. -/
structure Upload where
  position : Nat
  remaining : Nat
  offered : List (Nat × Bytes)
  stored : List Bytes

def newS3FileUploader : Upload := ⟨0, 0, [], []⟩

variable (archive : Bytes)

def Upload.body (upload : Upload) : Bytes := (archive.drop upload.position).take upload.remaining

def Upload.attempt (part : Nat) (attempt : Attempt) (upload : Upload) : Upload :=
  let body := upload.body archive
  { position := upload.position + attempt.taken body.length
    remaining := upload.remaining - attempt.taken body.length
    offered := upload.offered ++ [(part, body)]
    stored :=
      if attempt.isStored then upload.stored ++ [body] else upload.stored }

def retry (part : Nat) (attempt : Attempt) (further : List Attempt)
    (upload : Upload) : Except Error String × Upload :=
  let upload := upload.attempt archive part attempt
  match attempt.reply.verdict with
  | .ok etag => (.ok etag, upload)
  | .error (error, true) => (.error error, upload)
  | .error (error, false) =>
    match further with
    | [] => (.error error, upload)
    | next :: rest => retry part next rest upload

def uploadPart (part : Nat) (url : PartUrl) (size : Int) (upload : Upload) :
    Except Error String × Upload :=
  match url.requestFailure with
  | some error =>
    (.error (.wrapped "backup: could not create request for S3" error), upload)
  | none =>
    retry archive part url.first url.further { upload with remaining := size.toNat }

def sizeOfPart (size : Int) (urls : UploadUrls) (i : Nat) : Int :=
  if i + 1 < urls.parts.length then urls.partSize
  else size - i * urls.partSize

def uploadParts (size : Int) (urls : UploadUrls) :
    Nat → List PartUrl → List BackupPart → Upload → Except Error (List BackupPart) × Upload
  | _, [], uploadedParts, upload => (.ok uploadedParts, upload)
  | i, url :: rest, uploadedParts, upload =>
    match uploadPart archive i url (sizeOfPart size urls i) upload with
    | (.error error, upload) => (.error error, upload)
    | (.ok etag, upload) =>
      uploadParts size urls (i + 1) rest (uploadedParts ++ [⟨etag, i + 1⟩]) upload

def generateRemoteRequest (size : Except Error Int)
    (getBackupRemoteUploadURLs : Int → Except Error UploadUrls) :
    Except Error (List BackupPart) × Upload :=
  match size with
  | .error error => (.error error, newS3FileUploader)
  | .ok size =>
    match getBackupRemoteUploadURLs size with
    | .error error => (.error error, newS3FileUploader)
    | .ok urls =>
      uploadParts archive size urls 0 urls.parts [] newS3FileUploader

def retried (attempt : Attempt) : List Attempt → List Attempt
  | [] => []
  | next :: rest =>
    if attempt.isRetryable then attempt :: retried next rest else []

def stores (attempt : Attempt) : List Attempt → Bool
  | [] => attempt.isStored
  | next :: rest =>
    attempt.isStored || (attempt.isRetryable && stores next rest)

def bodies (attempt : Attempt) : List Attempt → Bytes → List Bytes
  | [], body => [body]
  | next :: rest, body =>
    body :: if attempt.isRetryable then
        bodies next rest (body.drop (attempt.taken body.length))
      else []

def PartUrl.retried (url : PartUrl) : List Attempt :=
  match url.requestFailure with
  | some _ => []
  | none => S3.retried url.first url.further

def PartUrl.stores (url : PartUrl) : Bool :=
  url.requestFailure.isNone && S3.stores url.first url.further

def reached : List PartUrl → List PartUrl
  | [] => []
  | url :: rest => url :: if url.stores then reached rest else []

theorem Attempt.taken_le (attempt : Attempt) (length : Nat) : attempt.taken length ≤ length := by
  unfold Attempt.taken
  split
  · exact le_rfl
  · exact Nat.min_le_right ..

theorem Upload.body_attempt (part : Nat) (attempt : Attempt) (upload : Upload) :
    (upload.attempt archive part attempt).body archive = (upload.body archive).drop
    (attempt.taken (upload.body archive).length) := by
  simp only [Upload.body, Upload.attempt]
  rw [List.drop_take, List.drop_drop]

variable (part : Nat) (attempt : Attempt) (further : List Attempt)

theorem retry_offered (upload : Upload) : (retry archive part attempt further upload).2.offered =
    upload.offered ++ (bodies attempt further (upload.body archive)).map (Prod.mk part) := by
  induction further generalizing attempt upload with
  | nil =>
    unfold retry bodies
    cases attempt.reply.verdict with
    | ok etag => rfl
    | error failure =>
      obtain ⟨error, isPermanent⟩ := failure
      cases isPermanent <;> rfl
  | cons next rest ih =>
    unfold retry bodies Attempt.isRetryable
    cases attempt.reply.verdict with
    | ok etag => rfl
    | error failure =>
      obtain ⟨error, isPermanent⟩ := failure
      cases isPermanent with
      | true => rfl
      | false =>
        rw [ih, Upload.body_attempt]
        simp [Upload.attempt]

theorem retry_stores (upload : Upload) : (retry archive part attempt further upload).1.isOk =
    stores attempt further ∧
    (stores attempt further = true → (retry archive part attempt further upload).2.position =
    upload.position + (upload.body archive).length ∧
    ∃ body ∈ bodies attempt further (upload.body archive),
    (retry archive part attempt further upload).2.stored = upload.stored ++ [body]) := by
  induction further generalizing attempt upload with
  | nil =>
    unfold retry bodies stores
    cases verdict : attempt.reply.verdict with
    | ok etag =>
      simp [Attempt.isStored, verdict, Upload.attempt, Attempt.taken, Except.isOk, Except.toBool]
    | error failure =>
      obtain ⟨error, isPermanent⟩ := failure
      cases isPermanent <;>
        simp [Attempt.isStored, verdict, Except.isOk, Except.toBool]
  | cons next rest ih =>
    unfold retry bodies stores
    cases verdict : attempt.reply.verdict with
    | ok etag =>
      simp [Attempt.isStored, verdict, Upload.attempt, Attempt.taken, Except.isOk, Except.toBool]
    | error failure =>
      obtain ⟨error, isPermanent⟩ := failure
      cases isPermanent with
      | true =>
        simp [Attempt.isStored, Attempt.isRetryable, verdict, Except.isOk, Except.toBool]
      | false =>
        obtain ⟨result, consumed⟩ := ih next (upload.attempt archive part attempt)
        have unstored : attempt.isStored = false := by
          simp [Attempt.isStored, verdict, Except.isOk, Except.toBool]
        have retryable : attempt.isRetryable = true := by
          simp [Attempt.isRetryable, verdict]
        rw [unstored, retryable, Bool.false_or, Bool.true_and]
        refine ⟨result, fun stored => ?_⟩
        obtain ⟨position, body, offered, kept⟩ := consumed stored
        rw [Upload.body_attempt] at position offered
        have bound := attempt.taken_le (upload.body archive).length
        refine ⟨?_, body, ?_, ?_⟩
        · rw [position, List.length_drop]
          simp only [Upload.attempt]
          omega
        · rw [if_pos rfl]
          exact List.mem_cons_of_mem _ offered
        · rw [kept]
          simp [Upload.attempt, unstored]

theorem Attempt.taken_eq_zero_iff {attempt : Attempt} {body : Bytes}
    (retryable : attempt.isRetryable = true) (nonempty : body ≠ []) :
    attempt.taken body.length = 0 ↔ attempt.read = 0 := by
  have unstored : attempt.isStored = false := by
    unfold Attempt.isRetryable at retryable
    unfold Attempt.isStored
    cases verdict : attempt.reply.verdict with
    | ok etag => simp [verdict] at retryable
    | error failure => rfl
  have positive := List.length_pos_iff.mpr nonempty
  unfold Attempt.taken
  rw [unstored, if_neg Bool.false_ne_true]
  omega

theorem mem_bodies (body : Bytes) : body ∈ bodies attempt further body := by
  cases further <;> exact List.mem_cons_self

theorem bodies_eq_iff {body : Bytes} (nonempty : body ≠ []) :
    (∀ offered ∈ bodies attempt further body, offered = body) ↔
    ∀ again ∈ retried attempt further, again.read = 0 := by
  induction further generalizing attempt body with
  | nil => simp [bodies, retried]
  | cons next rest ih =>
    unfold bodies retried
    by_cases retryable : attempt.isRetryable = true
    · rw [if_pos retryable, if_pos retryable, List.forall_mem_cons,
        List.forall_mem_cons, ← Attempt.taken_eq_zero_iff retryable nonempty]
      by_cases unread : attempt.taken body.length = 0
      · rw [unread, List.drop_zero, ih next nonempty]
        simp
      · refine iff_of_false ?_ fun same => unread same.1
        intro same
        have next := congrArg List.length (same.2 _ (mem_bodies next rest _))
        have positive := List.length_pos_iff.mpr nonempty
        rw [List.length_drop] at next
        omega
    · simp [retryable]

def partBytes (partSize part : Nat) : Bytes := archive.extract (part * partSize)
    (min ((part + 1) * partSize) archive.length)

def Right (partSize : Nat) (offered : List (Nat × Bytes)) : Prop :=
  ∀ entry ∈ offered, entry.2 = partBytes archive partSize entry.1

structure Parted (urls : UploadUrls) (partSize : Nat) : Prop where
  positive : 0 < partSize
  size : urls.partSize = partSize
  count : urls.parts.length = archive.length ⌈/⌉ partSize

namespace Parted

variable {archive}

section

variable (parted : Parted archive urls partSize)
include parted

theorem length_le : archive.length ≤ urls.parts.length * partSize := by
  have bound := (ceilDiv_le_iff_le_mul parted.positive).mp parted.count.ge
  rwa [Nat.mul_comm]

theorem start_lt {i : Nat} (within : i < urls.parts.length) : i * partSize < archive.length := by
  by_contra outside
  have bound : archive.length ≤ partSize * i := by
    rw [Nat.mul_comm]
    omega
  have few := (ceilDiv_le_iff_le_mul parted.positive).mpr bound
  rw [← parted.count] at few
  omega

theorem body_eq {i : Nat}
    (within : i < urls.parts.length) {upload : Upload} (position : upload.position = i * partSize) :
    ({ upload with
        remaining := (sizeOfPart archive.length urls i).toNat } : Upload).body archive =
      partBytes archive partSize i := by
  have bound := parted.length_le
  unfold Upload.body partBytes List.extract sizeOfPart
  dsimp only
  rw [position, parted.size]
  split
  · rename_i inner
    have next := parted.start_lt inner
    congr 1
    rw [Nat.min_eq_left next.le, Nat.add_mul]
    omega
  · rename_i last
    have all : urls.parts.length = i + 1 := by omega
    rw [all] at bound
    congr 1
    omega

theorem partBytes_length {i : Nat}
    (within : i < urls.parts.length) : (partBytes archive partSize i).length =
    min ((i + 1) * partSize) archive.length - i * partSize ∧ partBytes archive partSize i ≠ [] := by
  have start := parted.start_lt within
  have positive := parted.positive
  have length : (partBytes archive partSize i).length =
        min ((i + 1) * partSize) archive.length - i * partSize := by
    simp only [partBytes, List.extract, List.length_take, List.length_drop]
    omega
  refine ⟨length, ?_⟩
  rw [← List.length_pos_iff, length, Nat.add_mul]
  omega

end

theorem partBytes_append (partSize i : Nat) :
    partBytes archive partSize i ++ archive.drop ((i + 1) * partSize) =
    archive.drop (i * partSize) := by
  have split := List.take_append_drop partSize (archive.drop (i * partSize))
  rw [List.drop_drop, ← Nat.succ_mul] at split
  rw [← split]
  congr 1
  unfold partBytes List.extract
  rw [List.take_eq_take_iff, List.length_drop, Nat.add_mul]
  omega

end Parted

section

variable {archive} (parted : Parted archive urls partSize)

include parted

theorem uploadPart_spec {i : Nat} (within : i < urls.parts.length)
    {upload : Upload} (position : upload.position = i * partSize) (url : PartUrl) :
    let result := uploadPart archive i url (sizeOfPart archive.length urls i) upload
    (∃ offered, result.2.offered = upload.offered ++ offered ∧
        (Right archive partSize offered ↔ ∀ again ∈ url.retried, again.read = 0) ∧
        (url.stores = true → Right archive partSize offered → result.2.stored =
              upload.stored ++ [partBytes archive partSize i])) ∧ result.1.isOk = url.stores ∧
      (url.stores = true → result.2.position = min ((i + 1) * partSize) archive.length) := by
  intro result
  have start := parted.start_lt within
  have whole := parted.body_eq within position
  obtain ⟨length, nonempty⟩ := parted.partBytes_length within
  unfold result uploadPart PartUrl.retried PartUrl.stores
  cases url.requestFailure with
  | some error =>
    refine ⟨⟨[], (List.append_nil _).symm, ?_, ?_⟩, rfl, ?_⟩
    · simp [Right]
    · simp
    · simp
  | none =>
    have offered := retry_offered archive i url.first url.further
        { upload with
          remaining := (sizeOfPart archive.length urls i).toNat }
    obtain ⟨result, consumed⟩ := retry_stores archive i url.first url.further
        { upload with
          remaining := (sizeOfPart archive.length urls i).toNat }
    rw [whole] at offered consumed
    refine ⟨⟨_, offered, ?_, ?_⟩, by simpa using result, ?_⟩
    · rw [← bodies_eq_iff url.first url.further nonempty]
      simp [Right]
    · intro stored right
      obtain ⟨-, body, among, kept⟩ := consumed (by simpa using stored)
      have same : body = partBytes archive partSize i := right (i, body) (List.mem_map_of_mem among)
      rw [kept, same]
    · intro stored
      obtain ⟨behind, -⟩ := consumed (by simpa using stored)
      rw [behind, length, position]
      rw [Nat.add_mul]
      omega

theorem uploadParts_spec (rest : List PartUrl) {i : Nat}
    (count : i + rest.length = urls.parts.length)
    (uploadedParts : List BackupPart) (upload : Upload)
    (position : rest ≠ [] → upload.position = i * partSize) :
    let result := uploadParts archive archive.length urls i rest uploadedParts upload
    ∃ offered, result.2.offered = upload.offered ++ offered ∧ (Right archive partSize offered ↔
          ∀ url ∈ reached rest, ∀ again ∈ url.retried, again.read = 0) ∧
        (result.1.isOk = true → Right archive partSize offered → result.2.stored.flatten =
              upload.stored.flatten ++ archive.drop (i * partSize)) := by
  induction rest generalizing i uploadedParts upload with
  | nil =>
    refine ⟨[], (List.append_nil _).symm, ?_, fun _ _ => ?_⟩
    · simp [Right, reached]
    · have bound := parted.length_le
      rw [← count, List.length_nil, Nat.add_zero] at bound
      rw [List.drop_eq_nil_of_le bound, List.append_nil]
      rfl
  | cons url rest ih =>
    rw [List.length_cons] at count
    obtain ⟨⟨offered, log, right, kept⟩, isOk, behind⟩ :=
      uploadPart_spec parted (by omega : i < urls.parts.length)
        (position (List.cons_ne_nil _ _)) url
    unfold uploadParts reached
    rcases outcome :
        uploadPart archive i url (sizeOfPart archive.length urls i) upload with
      ⟨result, next⟩
    rw [outcome] at log kept isOk behind
    cases result with
    | error error =>
      have unstored : url.stores = false := isOk.symm
      refine ⟨offered, log, ?_, fun ok => nomatch ok⟩
      simpa [unstored] using right
    | ok etag =>
      have stored : url.stores = true := isOk.symm
      have after : rest ≠ [] → next.position = (i + 1) * partSize := by
        intro more
        have length := List.length_pos_iff.mpr more
        have start := parted.start_lt (by omega : i + 1 < _)
        rw [behind stored, Nat.min_eq_left start.le]
      obtain ⟨later, laterLog, laterRight, laterKept⟩ :=
        ih (by omega) (uploadedParts ++ [⟨etag, i + 1⟩]) next after
      refine ⟨offered ++ later, ?_, ?_, fun ok all => ?_⟩
      · rw [laterLog, log, List.append_assoc]
      · rw [if_pos stored, List.forall_mem_cons, ← right, ← laterRight]
        exact List.forall_mem_append
      · have both := List.forall_mem_append.mp all
        rw [laterKept ok both.2, kept stored both.1, List.flatten_append,
          List.flatten_singleton, List.append_assoc, Parted.partBytes_append]

end

/-- A part whose first request is answered with 503 after some bytes, the second with 200. -/
def unavailableOnce (read : Nat) : UploadUrls where
  parts :=
    [{ requestFailure := none
       first := ⟨read, .answered 503 "503 Service Unavailable" ""⟩
       further := [⟨0, .answered 200 "200 OK" "etag"⟩] }]
  partSize := 2

end Wings.Backups.S3
