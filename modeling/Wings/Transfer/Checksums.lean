import Wings.Library.Fallible

/-!
# The parts of a received transfer

Every byte that is read of an archive goes into one running hash, with which a checksum is compared
when it comes. What is read after the last checksum is not compared with anything.
-/

namespace Wings.Transfer.Checksums

open FallibleProgram

def hexValue (character : UInt8) : Option UInt8 :=
  if 48 ≤ character ∧ character ≤ 57 then some (character - 48)
  else if 97 ≤ character ∧ character ≤ 102 then some (character - 87)
  else if 65 ≤ character ∧ character ≤ 70 then some (character - 55)
  else none

def hexDecode : List UInt8 → Option (List UInt8)
  | [] => some []
  | [_] => none
  | high :: low :: rest =>
    match hexValue high, hexValue low, hexDecode rest with
    | some upper, some lower, some bytes => some ((16 * upper + lower) :: bytes)
    | _, _, _ => none

theorem hexDecode_length (decoded : hexDecode text = some bytes) :
    text.length = 2 * bytes.length := by
  fun_induction hexDecode text generalizing bytes with
  | case1 =>
    cases decoded
    rfl
  | case2 => cases decoded
  | case3 high low rest upper lower others isRest _ _ ih =>
    cases decoded
    rw [List.length_cons, List.length_cons, List.length_cons, ih isRest]
    omega
  | case4 => cases decoded

/-- Why a transfer is aborted: an error with a text, or the error of
`hex.Decode`. -/
inductive Abort where
  | text (error : String)
  | hex
  deriving DecidableEq

structure Sha256 where
  sum : List UInt8 → List UInt8
  length_sum : ∀ bytes, (sum bytes).length = 32

/-- An archive part: its bytes, how many of them the extraction reads, and the errors. -/
structure Archive where
  content : List UInt8
  taken : Nat
  ensureDataDirectoryExists : Except Abort Unit
  extractTransfer : Except Abort Unit

def Archive.read (archive : Archive) : List UInt8 := archive.content.take archive.taken

structure Checksum where
  content : List UInt8
  readAll : Except Abort Unit

def checksumLimit : Nat := 128

inductive Part where
  | archive (archive : Archive)
  | checksum (checksum : Checksum)
  | other

structure Progress where
  hasArchive : Bool
  hasChecksum : Bool
  checksumVerified : Bool
  hashed : List UInt8

def Progress.start : Progress := ⟨false, false, false, []⟩

inductive Ending where
  | eof
  | done
  | failed (error : Abort)

/-- A request: its media type, its parts, how the loop ends, and the error of the environment. -/
structure Request where
  mediaType : Except Abort String
  parts : List Part
  ending : Ending
  createEnvironment : Except Abort Unit

section Receiving

variable (sha256 : Sha256)

def receive (progress : Progress) : Part → Except Abort Progress
  | .archive archive => do
    archive.ensureDataDirectoryExists
    archive.extractTransfer
    .ok { progress with
      hasArchive := true
      hashed := progress.hashed ++ archive.read }
  | .checksum checksum =>
    if progress.hasArchive = false then
      .error (.text "archive must be sent before the checksum")
    else do
      checksum.readAll
      match hexDecode (checksum.content.take checksumLimit) with
      | none => .error .hex
      | some expected =>
        if expected = sha256.sum progress.hashed then
          .ok { progress with
            hasChecksum := true
            checksumVerified := true }
        else .error (.text "checksums don't match")
  | .other => .ok progress

def receiveAll (progress : Progress) (parts : List Part) : Except Abort Progress :=
  parts.foldlM (receive sha256) progress

/-- No error means that the transfer is marked successful. -/
def postTransfers (request : Request) : Except Abort Unit := do
  let mediaType ← request.mediaType
  if "multipart/".isPrefixOf mediaType = false then
    .error (.text ("invalid content type \"" ++ mediaType ++
      "\", expected \"multipart/form-data\""))
  else
    let progress ← receiveAll sha256 .start request.parts
    match request.ending with
    | .failed error => .error error
    | _ =>
      if progress.hasArchive = false ∨ progress.hasChecksum = false then
        .error (.text "missing archive or checksum")
      else if progress.checksumVerified = false then
        .error (.text "checksums don't match")
      else request.createEnvironment

end Receiving

def Part.read : Part → List UInt8
  | .archive sent => sent.read
  | _ => []

def received (parts : List Part) : List UInt8 := parts.flatMap Part.read

def Matches (sha256 : Sha256) (before : List Part) (checksum : Checksum) : Prop :=
  hexDecode checksum.content = some (sha256.sum (received before))

/-- Every checksum among the parts is the hash of what was received before it. -/
def Checked (sha256 : Sha256) (parts : List Part) : Prop :=
  ∀ before checksum after, parts = before ++ .checksum checksum :: after →
    Matches sha256 before checksum

/-- Every byte that is read of an archive is covered by a later checksum. -/
def Verified (sha256 : Sha256) (parts : List Part) : Prop :=
  ∀ before archive after, parts = before ++ .archive archive :: after →
    archive.read ≠ [] → ∃ between checksum rest, after = between ++ .checksum checksum :: rest ∧
      Matches sha256 (before ++ .archive archive :: between) checksum

def ChecksumFollows (parts : List Part) : Prop :=
  ∀ before archive after, parts = before ++ .archive archive :: after →
    archive.read ≠ [] → ∃ checksum, .checksum checksum ∈ after

section Loop

@[simp] theorem received_append (first second : List Part) :
    received (first ++ second) = received first ++ received second := by
  simp [received]

@[simp] theorem received_singleton (part : Part) : received [part] = part.read := by
  simp [received]

theorem hexDecode_take_limit (decoded : hexDecode (content.take checksumLimit) = some bytes)
    (length : bytes.length = 32) : hexDecode content = some bytes := by
  have short : content.length ≤ checksumLimit := by
    have same := hexDecode_length decoded
    rw [List.length_take, length] at same
    unfold checksumLimit at same ⊢
    omega
  rwa [List.take_of_length_le short] at decoded

theorem receive_spec (isNext : receive sha256 progress part = .ok next) :
    next.hashed = progress.hashed ++ part.read ∧ ∀ checksum, part = .checksum checksum →
    hexDecode checksum.content = some (sha256.sum progress.hashed) := by
  cases part with
  | archive archive =>
    obtain ⟨_, -, extracts⟩ := bind_eq_ok_iff.1 isNext
    obtain ⟨_, -, same⟩ := bind_eq_ok_iff.1 extracts
    cases same
    exact ⟨rfl, fun _ same => nomatch same⟩
  | checksum checksum =>
    unfold receive at isNext
    split_ifs at isNext
    obtain ⟨_, -, isNext⟩ := bind_eq_ok_iff.1 isNext
    split at isNext
    · cases isNext
    · rename_i expected decoded
      split_ifs at isNext with same
      cases isNext
      subst same
      refine ⟨(List.append_nil _).symm, ?_⟩
      intro other isOther
      obtain rfl := Part.checksum.inj isOther
      exact hexDecode_take_limit decoded (sha256.length_sum _)
  | other =>
    cases isNext
    exact ⟨(List.append_nil _).symm, fun _ same => nomatch same⟩

theorem Checked.concat (checked : Checked sha256 seen)
    (matching : ∀ checksum, part = .checksum checksum →
    Matches sha256 seen checksum) : Checked sha256 (seen ++ [part]) := by
  intro before checksum after isSplit
  rcases List.append_eq_append_iff.mp isSplit with
    ⟨more, isBefore, isRest⟩ | ⟨more, isSeen, isRest⟩
  · cases more with
    | nil =>
      rw [List.append_nil] at isBefore
      subst isBefore
      exact matching checksum (List.cons.inj isRest).1
    | cons first others =>
      have empty := (List.cons.inj isRest).2
      simp at empty
  · cases more with
    | nil =>
      rw [List.append_nil] at isSeen
      subst isSeen
      exact matching checksum (List.cons.inj isRest).1.symm
    | cons first others =>
      obtain ⟨rfl, -⟩ := List.cons.inj isRest
      exact checked before checksum others isSeen

theorem receiveAll_spec (isNext : receiveAll sha256 progress parts = .ok next)
    (hashed : progress.hashed = received seen) (checked : Checked sha256 seen) :
    Checked sha256 (seen ++ parts) := by
  induction parts generalizing progress seen with
  | nil =>
    rw [List.append_nil]
    exact checked
  | cons part rest ih =>
    rw [receiveAll, List.foldlM_cons] at isNext
    obtain ⟨middle, received, isNext⟩ := bind_eq_ok_iff.1 isNext
    obtain ⟨isHashed, matching⟩ := receive_spec received
    rw [hashed] at isHashed matching
    rw [← List.singleton_append, ← List.append_assoc]
    apply ih isNext
    · rw [isHashed, received_append, received_singleton]
    · exact checked.concat matching

end Loop

theorem receiveAll_of_accepted (accepted : postTransfers sha256 request = .ok ()) :
    ∃ progress, receiveAll sha256 .start request.parts = .ok progress := by
  obtain ⟨mediaType, -, accepted⟩ := bind_eq_ok_iff.1 accepted
  split_ifs at accepted
  obtain ⟨progress, received, -⟩ := bind_eq_ok_iff.1 accepted
  exact ⟨progress, received⟩

/-- An accepted request is verified exactly when a checksum comes after every archive. -/
theorem accepted_verified_iff (sha256 : Sha256) (request : Request)
    (accepted : postTransfers sha256 request = .ok ()) :
    Verified sha256 request.parts ↔ ChecksumFollows request.parts := by
  obtain ⟨progress, isReceived⟩ := receiveAll_of_accepted accepted
  have nothing : Checked sha256 [] := by
    intro before checksum after isSplit
    simp at isSplit
  have checked : Checked sha256 request.parts := receiveAll_spec isReceived rfl nothing
  constructor
  · intro verified before archive after isSplit something
    obtain ⟨between, checksum, rest, rfl, -⟩ := verified before archive after isSplit something
    exact ⟨checksum, by simp⟩
  · intro follows before archive after isSplit something
    obtain ⟨checksum, member⟩ := follows before archive after isSplit something
    obtain ⟨between, rest, rfl⟩ := List.append_of_mem member
    refine ⟨between, checksum, rest, rfl, checked _ _ rest ?_⟩
    rw [isSplit, List.append_assoc, List.cons_append]

def sampleSha256 : Sha256 where
  sum bytes := (bytes ++ List.replicate 32 0).take 32
  length_sum bytes := by
    rw [List.length_take, List.length_append, List.length_replicate]
    omega

def sampleArchive (byte : UInt8) : Part := .archive ⟨[byte], 1, .ok (), .ok ()⟩

def sampleChecksum : Part := .checksum ⟨48 :: 49 :: List.replicate 62 48, .ok ()⟩

def sampleRequest (parts : List Part) : Request := ⟨.ok "multipart/form-data", parts, .eof, .ok ()⟩

theorem single_archive_verified : postTransfers sampleSha256
        (sampleRequest [sampleArchive 1, sampleChecksum]) = .ok () ∧ Verified sampleSha256
        (sampleRequest [sampleArchive 1, sampleChecksum]).parts := by
  have accepted : postTransfers sampleSha256
      (sampleRequest [sampleArchive 1, sampleChecksum]) = .ok () := by
    decide +kernel
  refine ⟨accepted, (accepted_verified_iff _ _ accepted).mpr ?_⟩
  intro before archive after isSplit _
  cases before with
  | nil =>
    obtain rfl := (List.cons.inj isSplit).2
    exact ⟨_, List.mem_singleton_self _⟩
  | cons first others =>
    cases others with
    | nil => cases (List.cons.inj (List.cons.inj isSplit).2).1
    | cons second others =>
      have ended := (List.cons.inj (List.cons.inj isSplit).2).2
      simp at ended

/-- A second archive after the checksum is extracted and accepted. -/
theorem second_archive_unverified : postTransfers sampleSha256
        (sampleRequest [sampleArchive 1, sampleChecksum, sampleArchive 2]) = .ok () ∧
    ¬Verified sampleSha256 (sampleRequest
        [sampleArchive 1, sampleChecksum, sampleArchive 2]).parts := by
  constructor
  · decide +kernel
  · intro verified
    obtain ⟨between, checksum, rest, isRest, -⟩ :=
      verified [sampleArchive 1, sampleChecksum] _ [] rfl (by decide)
    simp at isRest

end Wings.Transfer.Checksums
