import Wings.Library.Fallible
import Wings.NetworkPolicy.Policy

/-!
# Addresses that users may not reach

`IsInternal` for downloads, `isBlockedGitIP` for remotes of repositories and `isPublicIP` for
imports are tables of ranges. An IPv4 address that is written as an IPv6 address is the IPv4
address.
-/

namespace Wings.Network

open NetworkPolicy (Addr Family Prefix)

def v4 (first second third last : Nat) : Addr :=
  ⟨.ip, BitVec.ofNat 32 (((first * 256 + second) * 256 + third) * 256 + last)⟩

def v6 (first second third last : Nat) : Addr := ⟨.ip6, BitVec.ofNat 128
    (((first * 65536 + second) * 65536 + third) <<< 80 + last)⟩

def embedded (address : Addr) : Addr := ⟨.ip, BitVec.ofNat 32 address.bits.toNat⟩

def unmap (address : Addr) : Addr := if address.is4In6 then embedded address else address

def within (ranges : List Prefix) (address : Addr) : Bool :=
  ranges.any fun range => range.contains address

def loopback : List Prefix := [⟨v4 127 0 0 0, 8⟩, ⟨v6 0 0 0 1, 128⟩]

def unspecified : List Prefix := [⟨v4 0 0 0 0, 32⟩, ⟨v6 0 0 0 0, 128⟩]

def privateUse : List Prefix := [⟨v4 10 0 0 0, 8⟩, ⟨v4 172 16 0 0, 12⟩, ⟨v4 192 168 0 0, 16⟩,
    ⟨v6 0xfc00 0 0 0, 7⟩]

def linkLocalUnicast : List Prefix := [⟨v4 169 254 0 0, 16⟩, ⟨v6 0xfe80 0 0 0, 10⟩]

def multicast : List Prefix := [⟨v4 224 0 0 0, 4⟩, ⟨v6 0xff00 0 0 0, 8⟩]

def scopedMulticast (scope : Nat) : List Prefix :=
  (List.range 16).map fun flags => ⟨v6 (0xff00 + 16 * flags + scope) 0 0 0, 16⟩

def linkLocalMulticast : List Prefix := ⟨v4 224 0 0 0, 24⟩ :: scopedMulticast 2

def interfaceLocalMulticast : List Prefix := scopedMulticast 1

def broadcast : Prefix := ⟨v4 255 255 255 255, 32⟩

def notGlobalUnicast : List Prefix :=
  broadcast :: unspecified ++ loopback ++ multicast ++ linkLocalUnicast

def nat64Prefix : Prefix := ⟨v6 0x64 0xff9b 0 0, 96⟩

def specialPurposePrefixes : List Prefix :=
  [⟨v4 0 0 0 0, 8⟩, ⟨v4 100 64 0 0, 10⟩, ⟨v4 192 0 0 0, 24⟩,
    ⟨v4 192 0 2 0, 24⟩, ⟨v4 192 88 99 0, 24⟩, ⟨v4 198 18 0 0, 15⟩,
    ⟨v4 198 51 100 0, 24⟩, ⟨v4 203 0 113 0, 24⟩, ⟨v4 240 0 0 0, 4⟩,
    ⟨v6 0 0 0 0, 96⟩, ⟨v6 0x64 0xff9b 1 0, 48⟩, ⟨v6 0x100 0 0 0, 64⟩,
    ⟨v6 0x2001 0 0 0, 23⟩, ⟨v6 0x2001 0xdb8 0 0, 32⟩, ⟨v6 0x2002 0 0 0, 16⟩,
    ⟨v6 0x3fff 0 0 0, 20⟩, ⟨v6 0x5f00 0 0 0, 16⟩, ⟨v6 0xfec0 0 0 0, 10⟩]

theorem family_of_contains {range : Prefix} {address : Addr}
    (inRange : range.contains address = true) : range.addr.family = address.family := by
  rw [Prefix.contains, Bool.and_eq_true, decide_eq_true_eq] at inRange
  exact inRange.1

theorem unmap_of_ip {address : Addr} (isIP : address.family = .ip) : unmap address = address := by
  rw [unmap, if_neg]
  simp [Addr.is4In6, isIP]

def isInternalAddr (address : Addr) : Bool :=
  if within notGlobalUnicast (unmap address) || within privateUse (unmap address) then true
  else if nat64Prefix.contains (unmap address) then
    isInternalAddr (embedded (unmap address))
  else within specialPurposePrefixes (unmap address)
termination_by if address.family = .ip6 then 1 else 0
decreasing_by
  rename_i translated
  have family := family_of_contains translated
  have isIP6 : address.family = .ip6 := by
    cases isFamily : address.family with
    | ip =>
      rw [unmap_of_ip isFamily, isFamily] at family
      cases family
    | ip6 => rfl
  rw [if_pos isIP6]
  exact Nat.zero_lt_one

structure Zoned where
  addr : Addr
  zone : String

/-- `IsInternal`; an invalid address is internal. -/
def isInternal : Option Zoned → Bool
  | none => true
  | some address => isInternalAddr address.addr

/-- The ranges of `gitBlockedNetworks`, which are those of `blockedCIDRs`. -/
def blockedNetworks : List Prefix := [⟨v4 0 0 0 0, 8⟩, ⟨v4 10 0 0 0, 8⟩, ⟨v4 100 64 0 0, 10⟩,
    ⟨v4 127 0 0 0, 8⟩, ⟨v4 169 254 0 0, 16⟩, ⟨v4 172 16 0 0, 12⟩,
    ⟨v4 192 0 0 0, 24⟩, ⟨v4 192 0 2 0, 24⟩, ⟨v4 192 168 0 0, 16⟩,
    ⟨v4 198 18 0 0, 15⟩, ⟨v4 198 51 100 0, 24⟩, ⟨v4 203 0 113 0, 24⟩,
    ⟨v4 224 0 0 0, 4⟩, ⟨v4 240 0 0 0, 4⟩, ⟨v4 255 255 255 255, 32⟩,
    ⟨v6 0 0 0 0, 128⟩, ⟨v6 0 0 0 1, 128⟩, ⟨v6 0x2001 0xdb8 0 0, 32⟩,
    ⟨v6 0xfc00 0 0 0, 7⟩, ⟨v6 0xfe80 0 0 0, 10⟩, ⟨v6 0xfec0 0 0 0, 10⟩, ⟨v6 0xff00 0 0 0, 8⟩]

def gitBlockedNetworks : List Prefix := blockedNetworks

def blockedCIDRs : List Prefix := blockedNetworks

def isBlockedGitIP : Option Addr → Bool
  | none => true
  | some ip =>
    if within loopback (unmap ip) || within privateUse (unmap ip) ||
        within linkLocalUnicast (unmap ip) || within linkLocalMulticast (unmap ip) ||
        within interfaceLocalMulticast (unmap ip) ||
        within multicast (unmap ip) || within unspecified (unmap ip) then
      true
    else within gitBlockedNetworks (unmap ip)

def isPublicIP : Option Addr → Bool
  | none => false
  | some ip =>
    if within loopback (unmap ip) || within privateUse (unmap ip) ||
        within linkLocalUnicast (unmap ip) || within linkLocalMulticast (unmap ip) ||
        within multicast (unmap ip) || within unspecified (unmap ip) then
      false
    else !within blockedCIDRs (unmap ip)

/-- A parsed URL.  `withRawPath` is its text with another raw path. -/
structure URL where
  scheme : String
  hasUser : Bool
  rawQuery : String
  fragment : String
  path : String
  hostname : String
  port : String
  escapedPath : String
  string : String
  withRawPath : String → String

structure Libraries where
  trimSpace : String → String
  /-- `strings.Trim` of zeros, returns, line feeds, tabs and blanks. -/
  trimControls : String → String
  toLower : String → String
  parseURL : String → Option URL
  parseIP : String → Option Addr
  lookupIP : String → Except String (List (Option Addr))
  /-- The text of an address. -/
  string : Addr → String
  newGitRemoteName : Except String String

def resolve (refused : Option Addr → Bool)
    (resolved : Option Addr) : List (Option Addr) → Option (Option Addr)
  | [] => some resolved
  | ip :: rest =>
    if refused ip then none else resolve refused (resolved.or ip) rest

structure ValidatedGitRepositoryURL where
  url : String
  curlOptResolve : String
  remoteName : String
  deriving DecidableEq

section Validation

variable (go : Libraries)

def gitCanonicalRepositoryURL (parsed : URL) : String :=
  if '=' ∉ parsed.escapedPath.toList then parsed.string
  else parsed.withRawPath (String.ofList
    (parsed.escapedPath.toList.flatMap fun character =>
      if character = '=' then "%3D".toList else [character]))

def bracketed (text : String) : String := if ':' ∈ text.toList then "[" ++ text ++ "]" else text

def gitCurlOptResolve (host port : String) (ip : Addr) : String :=
  bracketed host ++ ":" ++ (if port = "" then "443" else port) ++ ":" ++ bracketed (go.string ip)

def newValidatedGitRepositoryURL (repositoryURL curlOptResolve : String) :
    Except String ValidatedGitRepositoryURL := do
  let remoteName ← go.newGitRemoteName
  .ok ⟨repositoryURL, curlOptResolve, remoteName⟩

def gitAddress (host : String) : Except String Addr :=
  match go.parseIP host with
  | some ip =>
    if isBlockedGitIP (some ip) then
      .error "Repository host resolves to an internal network."
    else .ok ip
  | none =>
    match go.lookupIP host with
    | .error _ | .ok [] => .error "Repository host could not be resolved."
    | .ok addrs =>
      match resolve isBlockedGitIP none addrs with
      | none => .error "Repository host resolves to an internal network."
      | some none => .error "Repository host could not be resolved."
      | some (some ip) => .ok ip

def validateParsedURL (parsed : URL) : Except String ValidatedGitRepositoryURL :=
  let host := go.toLower parsed.hostname
  if parsed.scheme ≠ "https" then
    .error "Only HTTPS Git remotes are allowed."
  else if parsed.hasUser then
    .error "Credentials in Git remote URLs are not allowed."
  else if parsed.rawQuery ≠ "" ∨ parsed.fragment ≠ "" then
    .error "Repository URL must not include query strings or fragments."
  else if parsed.path = "" ∨ parsed.path = "/" then
    .error "Repository URL is missing a repository path."
  else if host = "" ∨ host = "localhost" ∨ ".localhost".toList.isSuffixOf host.toList then
    .error "Repository host is not allowed."
  else do
    let ip ← gitAddress go host
    newValidatedGitRepositoryURL go (gitCanonicalRepositoryURL parsed)
      (gitCurlOptResolve go host parsed.port ip)

def validateGitRepositoryURL (raw : String) : Except String ValidatedGitRepositoryURL :=
  let cleaned := go.trimControls (go.trimSpace raw)
  if cleaned.toList.any fun character =>
      character ∈ [Char.ofNat 0, '\n', '\r', '\t'] then
    .error "Repository URL is invalid."
  else if cleaned = "" ∨ cleaned.utf8ByteSize > 2048 then
    .error "Repository URL is invalid."
  else
    match go.parseURL cleaned with
    | none => .error "Repository URL is invalid."
    | some parsed => validateParsedURL go parsed

def withoutBrackets (host : String) : String :=
  if host.toList.head? = some '[' ∧ host.toList.getLast? = some ']' then
    String.ofList (host.toList.tail.dropLast)
  else host

def remoteAddress (normalized : String) : Except String Addr :=
  match go.parseIP normalized with
  | some ip =>
    if isPublicIP (some ip) = false then
      .error "host resolves to a non-public IP address"
    else .ok ip
  | none =>
    match go.lookupIP normalized with
    | .error error => .error error
    | .ok [] => .error "host does not resolve to any IPs"
    | .ok ips =>
      match resolve (fun ip => !isPublicIP ip) none ips with
      | none => .error "host resolves to a non-public IP address"
      | some none => .error "host does not resolve to any public IPs"
      | some (some ip) => .ok ip

def validateRemoteHost (host : String) : Except String String :=
  let normalized := go.trimSpace host
  if normalized = "" then .error "host is required"
  else do
    let ip ← remoteAddress go (withoutBrackets normalized)
    .ok (go.string ip)

end Validation

section Ranges

variable {range other : Prefix}

theorem within_append : within (ranges ++ others) address =
    (within ranges address || within others address) := by
  rw [within, List.any_append]
  rfl

theorem within_eq_true_iff :
    within ranges address = true ↔ ∃ range ∈ ranges, range.contains address = true := by
  rw [within, List.any_eq_true]

theorem within_of_subset (inside : within ranges address = true)
    (subset : ∀ range ∈ ranges, range ∈ others) : within others address = true := by
  obtain ⟨range, member, inRange⟩ := within_eq_true_iff.mp inside
  exact within_eq_true_iff.mpr ⟨range, subset range member, inRange⟩

theorem contains_of_contains (inRange : range.contains address = true)
    (inOther : other.contains address = true)
    (larger : range.bits ≤ other.bits) : range.contains other.addr = true := by
  have family := family_of_contains inRange
  have otherFamily := family_of_contains inOther
  rw [Prefix.contains, Bool.and_eq_true, decide_eq_true_eq, decide_eq_true_eq] at inRange inOther ⊢
  refine ⟨family.trans otherFamily.symm, inRange.2.trans ?_⟩
  have width : range.addr.family.width - range.bits = (other.addr.family.width - other.bits) +
        ((other.addr.family.width - range.bits) - (other.addr.family.width - other.bits)) := by
    rw [family, otherFamily]
    omega
  rw [width, Nat.shiftRight_add, Nat.shiftRight_add, inOther.2]

def Apart (range other : Prefix) : Prop :=
  range.contains other.addr = false ∧ other.contains range.addr = false

instance : Decidable (Apart range other) := inferInstanceAs (Decidable (_ ∧ _))

theorem Apart.not_contains (apart : Apart range other) (inRange : range.contains address = true) :
    ¬other.contains address = true := by
  intro inOther
  rcases Nat.le_total range.bits other.bits with larger | larger
  · have common := contains_of_contains inRange inOther larger
    rw [apart.1] at common
    cases common
  · have common := contains_of_contains inOther inRange larger
    rw [apart.2] at common
    cases common

theorem not_within_of_apart (inside : within ranges address = true)
    (outside : within exceptions address = false) (apart : ∀ range ∈ ranges, ∀ other ∈ others,
    Apart range other ∨ other ∈ exceptions) : within others address = false := by
  obtain ⟨range, member, inRange⟩ := within_eq_true_iff.mp inside
  rw [← Bool.not_eq_true, within_eq_true_iff]
  rintro ⟨other, otherMember, inOther⟩
  rcases apart range member other otherMember with isApart | excepted
  · exact isApart.not_contains inRange inOther
  · have excluded := within_eq_true_iff.mpr ⟨other, excepted, inOther⟩
    rw [outside] at excluded
    cases excluded

end Ranges

/-- The ranges that only `IsInternal` knows. -/
def uncoveredRanges : List Prefix := [⟨v4 192 88 99 0, 24⟩, ⟨v6 0 0 0 0, 96⟩, nat64Prefix,
    ⟨v6 0x64 0xff9b 1 0, 48⟩, ⟨v6 0x100 0 0 0, 64⟩, ⟨v6 0x2001 0 0 0, 23⟩,
    ⟨v6 0x2002 0 0 0, 16⟩, ⟨v6 0x3fff 0 0 0, 20⟩, ⟨v6 0x5f00 0 0 0, 16⟩]

def coveredAddresses : List Prefix := [⟨v6 0 0 0 0, 128⟩, ⟨v6 0 0 0 1, 128⟩]

/-- The address is in a range that only `IsInternal` knows. -/
def Uncovered (ip : Addr) : Prop := within uncoveredRanges (unmap ip) = true ∧
    within coveredAddresses (unmap ip) = false

instance (ip : Addr) : Decidable (Uncovered ip) := inferInstanceAs (Decidable (_ ∧ _))

def internalRanges : List Prefix :=
  notGlobalUnicast ++ privateUse ++ [nat64Prefix] ++ specialPurposePrefixes

def blockedRanges : List Prefix :=
  loopback ++ privateUse ++ linkLocalUnicast ++ linkLocalMulticast ++
    multicast ++ unspecified ++ blockedNetworks

section Tables

theorem within_internalRanges (internal : isInternalAddr ip = true) :
    within internalRanges (unmap ip) = true := by
  rw [internalRanges, within_append, within_append, within_append]
  rw [isInternalAddr] at internal
  split_ifs at internal with special translated
  · rw [special, Bool.true_or, Bool.true_or]
  · have inRange : within [nat64Prefix] (unmap ip) = true :=
      within_eq_true_iff.mpr ⟨_, List.mem_singleton_self _, translated⟩
    rw [inRange, Bool.or_true, Bool.true_or]
  · rw [internal, Bool.or_true]

theorem isPublicIP_eq : isPublicIP (some ip) = !within blockedRanges (unmap ip) := by
  simp only [isPublicIP, blockedRanges, within_append]
  split_ifs with special
  · rw [special, Bool.true_or, Bool.not_true]
  · rw [Bool.not_eq_true] at special
    rw [special, Bool.false_or]
    rfl

theorem isBlockedGitIP_eq : isBlockedGitIP (some ip) =
    within (interfaceLocalMulticast ++ blockedRanges) (unmap ip) := by
  rw [Bool.eq_iff_iff]
  simp only [isBlockedGitIP, blockedRanges, gitBlockedNetworks, within_append,
    Bool.or_eq_true, Bool.if_true_left, decide_eq_true_eq]
  tauto

theorem within_blockedRanges_of_internal (internal : within internalRanges (unmap ip) = true)
    (covered : ¬Uncovered ip) : within blockedRanges (unmap ip) = true := by
  have inside : within (uncoveredRanges ++ blockedRanges) (unmap ip) = true :=
    within_of_subset internal (by decide +kernel)
  rw [within_append, Bool.or_eq_true] at inside
  rcases inside with uncovered | blocked
  · have exception : within coveredAddresses (unmap ip) = true := by
      by_contra outside
      exact covered ⟨uncovered, Bool.eq_false_iff.mpr outside⟩
    exact within_of_subset exception (by decide +kernel)
  · exact blocked

theorem Uncovered.not_within (uncovered : Uncovered ip) :
    within (interfaceLocalMulticast ++ blockedRanges) (unmap ip) = false :=
  not_within_of_apart uncovered.1 uncovered.2 (by decide +kernel)

theorem blocked_iff_of_internal (internal : isInternal (some ⟨ip, zone⟩) = true) :
    (isBlockedGitIP (some ip) = true ↔ ¬Uncovered ip) ∧
    (isPublicIP (some ip) = false ↔ ¬Uncovered ip) := by
  have inside := within_internalRanges internal
  rw [isBlockedGitIP_eq, isPublicIP_eq]
  by_cases uncovered : Uncovered ip
  · have outside := uncovered.not_within
    have both := outside
    rw [within_append, Bool.or_eq_false_iff] at both
    simp [outside, both.2, uncovered]
  · have blocked := within_blockedRanges_of_internal inside uncovered
    simp [within_append, blocked, uncovered]

end Tables

theorem resolve_accepted (accepted : ∀ known, resolved = some known → refused (some known) = false)
    (isResolved : resolve refused resolved ips = some (some ip)) : refused (some ip) = false := by
  induction ips generalizing resolved with
  | nil => exact accepted ip (Option.some.inj isResolved)
  | cons first rest ih =>
    rw [resolve] at isResolved
    split_ifs at isResolved with isRefused
    refine ih ?_ isResolved
    intro known isKnown
    cases resolved with
    | some earlier => exact accepted known isKnown
    | none =>
      rw [← isKnown]
      exact Bool.eq_false_iff.mpr isRefused

section Pinned

theorem gitAddress_accepted (found : gitAddress go host = .ok ip) :
    isBlockedGitIP (some ip) = false := by
  unfold gitAddress at found
  split at found
  · split_ifs at found with blocked
    cases found
    exact Bool.eq_false_iff.mpr blocked
  · split at found
    · cases found
    · cases found
    · split at found
      · cases found
      · cases found
      · rename_i isResolved
        cases found
        exact resolve_accepted (fun _ known => by cases known) isResolved

theorem remoteAddress_accepted (found : remoteAddress go host = .ok ip) :
    isPublicIP (some ip) = true := by
  unfold remoteAddress at found
  split at found
  · split_ifs at found with refused
    cases found
    exact Bool.not_eq_false _ ▸ refused
  · split at found
    · cases found
    · cases found
    · split at found
      · cases found
      · cases found
      · rename_i isResolved
        cases found
        have accepted := resolve_accepted (fun _ known => by cases known) isResolved
        simpa using accepted

theorem validateGitRepositoryURL_pins (validated : validateGitRepositoryURL go raw = .ok result) :
    ∃ host port ip, result.curlOptResolve = gitCurlOptResolve go host port ip ∧
    isBlockedGitIP (some ip) = false := by
  unfold validateGitRepositoryURL at validated
  dsimp only at validated
  split_ifs at validated
  split at validated
  · cases validated
  · rename_i parsed _
    unfold validateParsedURL at validated
    dsimp only at validated
    split_ifs at validated
    obtain ⟨ip, found, made⟩ := FallibleProgram.bind_eq_ok_iff.mp validated
    obtain ⟨remoteName, _, isResult⟩ := FallibleProgram.bind_eq_ok_iff.mp made
    cases isResult
    exact ⟨_, _, ip, rfl, gitAddress_accepted found⟩

theorem validateRemoteHost_pins (validated : validateRemoteHost go host = .ok text) :
    ∃ ip, text = go.string ip ∧ isPublicIP (some ip) = true := by
  unfold validateRemoteHost at validated
  dsimp only at validated
  split_ifs at validated
  obtain ⟨ip, found, isText⟩ := FallibleProgram.bind_eq_ok_iff.mp validated
  cases isText
  exact ⟨ip, rfl, remoteAddress_accepted found⟩

end Pinned

/-- An internal address is refused for repositories and imports exactly when it is not in one of the
ranges that only `IsInternal` knows. -/
theorem internal_addresses_refused_iff (go : Libraries) :
    (∀ ip zone, isInternal (some ⟨ip, zone⟩) = true →
      (isBlockedGitIP (some ip) = true ↔ ¬Uncovered ip) ∧
        (isPublicIP (some ip) = false ↔ ¬Uncovered ip)) ∧
    (∀ raw result, validateGitRepositoryURL go raw = .ok result → ∃ host port ip,
        result.curlOptResolve = gitCurlOptResolve go host port ip ∧
          (¬Uncovered ip → ∀ zone, isInternal (some ⟨ip, zone⟩) = false)) ∧
    (∀ host text, validateRemoteHost go host = .ok text → ∃ ip, text = go.string ip ∧
        (¬Uncovered ip → ∀ zone, isInternal (some ⟨ip, zone⟩) = false)) := by
  refine ⟨fun ip zone => blocked_iff_of_internal, ?_, ?_⟩
  · intro raw result validated
    obtain ⟨host, port, ip, isResult, accepted⟩ := validateGitRepositoryURL_pins validated
    refine ⟨host, port, ip, isResult, fun covered zone => ?_⟩
    by_contra internal
    have blocked := (blocked_iff_of_internal (Bool.not_eq_false _ ▸ internal)).1.mpr covered
    rw [accepted] at blocked
    cases blocked
  · intro host text validated
    obtain ⟨ip, isText, accepted⟩ := validateRemoteHost_pins validated
    refine ⟨ip, isText, fun covered zone => ?_⟩
    by_contra internal
    have blocked := (blocked_iff_of_internal (Bool.not_eq_false _ ▸ internal)).2.mpr covered
    rw [accepted] at blocked
    cases blocked

/-- The address `2002:a00:1::` of a relay to `10.0.0.1`. -/
def relayed : Addr := v6 0x2002 0xa00 1 0

def relayingLibraries : Libraries where
  trimSpace text := text
  trimControls text := text
  toLower text := text
  parseURL _ := some
    { scheme := "https", hasUser := false, rawQuery := "", fragment := "",
      path := "/r", hostname := "h", port := "", escapedPath := "/r",
      string := "https://h/r", withRawPath := fun _ => "https://h/r" }
  parseIP _ := none
  lookupIP _ := .ok [some relayed]
  string _ := "2002:a00:1::"
  newGitRemoteName := .ok "wings"

theorem isInternal_relayed : isInternal (some ⟨relayed, ""⟩) = true := by
  decide +kernel

/-- The relayed address is internal, and repositories and imports reach it. -/
theorem relayed_address_pinned : isInternal (some ⟨relayed, ""⟩) = true ∧
      isBlockedGitIP (some relayed) = false ∧ isPublicIP (some relayed) = true ∧ (∃ result,
        validateGitRepositoryURL relayingLibraries "https://h/r" = .ok result ∧
          result.curlOptResolve = gitCurlOptResolve relayingLibraries "h" "" relayed) ∧
      validateRemoteHost relayingLibraries "h" = .ok (relayingLibraries.string relayed) := by
  refine ⟨isInternal_relayed, by decide +kernel, by decide +kernel, ?_, ?_⟩
  · exact ⟨⟨"https://h/r", "h:443:[2002:a00:1::]", "wings"⟩, by decide +kernel, by decide +kernel⟩
  · decide +kernel

end Wings.Network
