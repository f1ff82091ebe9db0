import Mathlib.Data.UInt
import Wings.Library.PrefixAutomaton

/-!
# Fingerprints and searches of files

`curseForgeFingerprint` reads a file twice, for the number of bytes that count and for the hash. A
search keeps the state of a prefix automaton from one read to the next. An index that is out of
range is no result.
-/

namespace Wings.Fingerprint

inductive Read
  | data (bytes : List UInt8)
  | eof (bytes : List UInt8)
  | failed (err : String)
  | cancelled (err : String)

def readLoop {State : Type} (add : State → UInt8 → State) :
    State → List Read → ExceptT String Option State
  | _, [] => ExceptT.mk none
  | state, .data bytes :: rest => readLoop add (bytes.foldl add state) rest
  | state, .eof bytes :: _ => pure (bytes.foldl add state)
  | _, .failed err :: _ | _, .cancelled err :: _ => throw err

def curseForgeIgnoredByte (value : UInt8) : Bool :=
  value == 9 || value == 10 || value == 13 || value == 32

def multiplier : UInt32 := 1540483477

structure Hasher where
  hashValue : UInt32
  tail : UInt32 := 0
  shift : UInt32 := 0

namespace Hasher

def absorb (hasher : Hasher) (value : UInt8) : Hasher :=
  let tail := hasher.tail ||| value.toUInt32 <<< hasher.shift
  let shift := hasher.shift + 8
  if shift = 32 then
    let mixed := tail * multiplier
    let mixed := (mixed ^^^ mixed >>> 24) * multiplier
    { hashValue := hasher.hashValue * multiplier ^^^ mixed }
  else { hasher with tail := tail, shift := shift }

def add (hasher : Hasher) (value : UInt8) : Hasher :=
  if curseForgeIgnoredByte value then hasher else hasher.absorb value

def endTail (hasher : Hasher) : UInt32 :=
  if 0 < hasher.shift then (hasher.hashValue ^^^ hasher.tail) * multiplier else hasher.hashValue

end Hasher

def finish (hashValue : UInt32) : UInt32 :=
  let hashValue := (hashValue ^^^ hashValue >>> 13) * multiplier
  hashValue ^^^ hashValue >>> 15

def count (normalizedLength : UInt32) (value : UInt8) : UInt32 :=
  if curseForgeIgnoredByte value then normalizedLength else normalizedLength + 1

def curseForgeFingerprint (first : List Read) (seek : ExceptT String Option Unit)
    (second : List Read) : ExceptT String Option String := do
  let normalizedLength ← readLoop count 0 first
  seek
  let hasher ← readLoop Hasher.add { hashValue := 1 ^^^ normalizedLength } second
  return toString (finish hasher.endTail).toNat

/-- MurmurHash2 of the blocks of four bytes and of the one to three bytes that are left. -/
def murmurBlocks (hash : UInt32) : List UInt8 → UInt32
  | a :: b :: c :: d :: rest =>
    let k := a.toUInt32 ||| b.toUInt32 <<< 8 ||| c.toUInt32 <<< 16 ||| d.toUInt32 <<< 24
    let k := k * multiplier
    let k := k ^^^ k >>> 24
    murmurBlocks (hash * multiplier ^^^ k * multiplier) rest
  | [a, b, c] =>
    (hash ^^^ c.toUInt32 <<< 16 ^^^ b.toUInt32 <<< 8 ^^^ a.toUInt32) * multiplier
  | [a, b] => (hash ^^^ b.toUInt32 <<< 8 ^^^ a.toUInt32) * multiplier
  | [a] => (hash ^^^ a.toUInt32) * multiplier
  | [] => hash

def murmurHash2 (seed : UInt32) (data : List UInt8) : UInt32 :=
  finish (murmurBlocks (seed ^^^ UInt32.ofNat data.length) data)

/-- The bytes of a file that count. -/
def normalized (content : List UInt8) : List UInt8 :=
  content.filter fun value => !curseForgeIgnoredByte value

/-- The reads hand over the content piece by piece, and then report its end. -/
def Delivers (reads : List Read) (content : List UInt8) : Prop :=
  ∃ (parts : List (List UInt8)) (last : List UInt8), reads = parts.map .data ++ [.eof last] ∧
    content = parts.flatten ++ last

theorem Delivers.readLoop {State : Type} (delivers : Delivers reads content)
    (add : State → UInt8 → State) (state : State) :
    readLoop add state reads = pure (content.foldl add state) := by
  obtain ⟨parts, last, rfl, rfl⟩ := delivers
  induction parts generalizing state with
  | nil => rfl
  | cons part parts ih =>
    rw [List.flatten_cons, List.append_assoc, List.foldl_append, ← ih]
    rfl

theorem foldl_count (content : List UInt8) (start : UInt32) :
    content.foldl count start = start + UInt32.ofNat (normalized content).length := by
  induction content generalizing start with
  | nil => simp [normalized]
  | cons value content ih =>
    rw [List.foldl_cons, ih, count]
    cases ignored : curseForgeIgnoredByte value with
    | true => simp [normalized, ignored]
    | false => simp [normalized, ignored, UInt32.add_assoc, UInt32.add_comm 1]

theorem foldl_add (content : List UInt8) (hasher : Hasher) :
    content.foldl Hasher.add hasher = (normalized content).foldl Hasher.absorb hasher := by
  rw [normalized, List.foldl_filter]
  congr
  funext hasher value
  rw [Hasher.add]
  cases curseForgeIgnoredByte value <;> rfl

theorem or_eq_xor (a b c : UInt8) : a.toUInt32 ||| b.toUInt32 <<< 8 ||| c.toUInt32 <<< 16 =
    c.toUInt32 <<< 16 ^^^ b.toUInt32 <<< 8 ^^^ a.toUInt32 := by
  apply UInt32.toBitVec_inj.1
  ext index bound
  simp
  grind

theorem endTail_foldl_absorb (data : List UInt8) (hash : UInt32) :
    (data.foldl Hasher.absorb { hashValue := hash }).endTail = murmurBlocks hash data := by
  fun_induction murmurBlocks hash data with
  | case1 hash a b c d rest k k' k'' ih =>
    rw [← ih]
    simp [Hasher.absorb, k, k', k'']
  | case2 hash a b c => simp [Hasher.absorb, Hasher.endTail, or_eq_xor, UInt32.xor_assoc]
  | case3 hash a b =>
    have two : a.toUInt32 ||| b.toUInt32 <<< 8 = b.toUInt32 <<< 8 ^^^ a.toUInt32 := by
      simpa using or_eq_xor a b 0
    simp [Hasher.absorb, Hasher.endTail, two, UInt32.xor_assoc]
  | case4 hash a => simp [Hasher.absorb, Hasher.endTail]
  | case5 hash => rfl

/-- The text is that of the MurmurHash2 of the bytes that count, however the file is read. -/
theorem fingerprint_eq_murmurHash2 {content : List UInt8} {first second : List Read}
    (counted : Delivers first content) (hashed : Delivers second content) :
    curseForgeFingerprint first (pure ()) second =
      pure (toString (murmurHash2 1 (normalized content)).toNat) := by
  rw [curseForgeFingerprint, counted.readLoop, pure_bind, pure_bind, hashed.readLoop, pure_bind,
    foldl_count, foldl_add, endTail_foldl_absorb, murmurHash2, UInt32.zero_add]

theorem fingerprint_of_space : curseForgeFingerprint [.data [97, 98], .eof [32, 99]] (pure ())
    [.data [97], .data [98, 32, 99], .eof []] =
      pure (toString (murmurHash2 1 [97, 98, 99]).toNat) :=
  @fingerprint_eq_murmurHash2 [97, 98, 32, 99] _ _ ⟨[[97, 98]], _, rfl, rfl⟩
    ⟨[[97], [98, 32, 99]], _, rfl, rfl⟩

end Wings.Fingerprint

namespace Wings.Search

open PrefixAutomaton

def searchV2LowerASCII (value : UInt8) : UInt8 :=
  if 'A'.toUInt8 ≤ value ∧ value ≤ 'Z'.toUInt8 then
    value + 'a'.toUInt8 - 'A'.toUInt8
  else value

def fold (caseInsensitive : Bool) (value : UInt8) : UInt8 :=
  if caseInsensitive then searchV2LowerASCII value else value

structure SearchV2Matcher where
  pattern : List UInt8
  failure : List Nat
  caseInsensitive : Bool

def newSearchV2Matcher (query : List UInt8) (caseInsensitive : Bool) : Option SearchV2Matcher := do
  let pattern := query.map (fold caseInsensitive)
  let failure ← failureTable pattern
  return { pattern, failure, caseInsensitive }

inductive StreamError where
  | eof
  | noProgress
  | failed (message : String)
  deriving DecidableEq

/-- A stream: what its context reports at each look, and how it serves each call. -/
structure Reader where
  content : List UInt8
  ctxErr : Nat → Option String
  readErr : Nat → Option String
  ready : Nat → Nat
  eager : Nat → Bool

def bufferSize : Nat := 64 * 1024

def Reader.read (reader : Reader) (call : Nat) (rest : List UInt8)
    (limit : Int) : List UInt8 × Option StreamError :=
  if limit ≤ 0 then ([], some .eof)
  else
    let length := min (min bufferSize limit.toNat) (reader.ready call + 1)
    let ends := rest.isEmpty || (reader.eager call && rest.length ≤ length)
    (rest.take length, ((reader.readErr call).map .failed).or (if ends then some .eof else none))

/-- Go through the bytes of a read. The second component says whether the
pattern was found. -/
def scan (matcher : SearchV2Matcher) : List UInt8 → Nat → Option (Nat × Bool)
  | [], state => some (state, false)
  | value :: values, state => do
    let next ← advance matcher.pattern matcher.failure (fold matcher.caseInsensitive value) state
    if next = matcher.pattern.length then some (next, true)
    else scan matcher values next

/-- Read and go through what was read, at most `bound` times. -/
def rounds (reader : Reader) (matcher : SearchV2Matcher) (bound call : Nat)
    (rest : List UInt8) (limit : Int) (state : Nat) : Option (Except StreamError Bool) :=
  match bound with
  | 0 => none
  | bound + 1 =>
    match reader.ctxErr (2 * call + 1) with
    | some message => some (.error (.failed message))
    | none =>
      let (chunk, readErr) := reader.read call rest limit
      match reader.ctxErr (2 * call + 2), scan matcher chunk state with
      | some message, _ => some (.error (.failed message))
      | none, none => none
      | none, some (_, true) => some (.ok true)
      | none, some (next, false) =>
        match readErr with
        | some .eof => some (.ok false)
        | some err => some (.error err)
        | none =>
          if chunk = [] then some (.error .noProgress)
          else rounds reader matcher bound (call + 1) (rest.drop chunk.length)
            (limit - chunk.length) next

def streamSearchV2Text (reader : Reader) (limit : Int)
    (matcher : SearchV2Matcher) : Option (Except StreamError Bool) :=
  match reader.ctxErr 0 with
  | some message => some (.error (.failed message))
  | none =>
    if matcher.pattern.length = 0 then some (.ok true)
    else rounds reader matcher (reader.content.length + 1) 0 reader.content limit 0

structure Unmatched (pattern text : List UInt8) (state : Nat) : Prop where
  longest : Longest pattern text state
  absent : ¬pattern <:+: text

theorem Longest.eq_length_iff (longest : Longest pattern text state) :
    state = pattern.length ↔ pattern <:+ text := by
  constructor
  · rintro rfl
    simpa using longest.suffix
  · intro suffix
    refine Nat.le_antisymm longest.bounded (longest.most _ (Nat.le_refl _) ?_)
    rwa [List.take_length]

theorem Unmatched.short (unmatched : Unmatched pattern text state) : state < pattern.length := by
  refine unmatched.longest.bounded.lt_of_ne fun whole => unmatched.absent ?_
  exact ((Longest.eq_length_iff unmatched.longest).1 whole).isInfix

theorem scan_spec (table : Table matcher.pattern matcher.failure matcher.pattern.length)
    (values : List UInt8) (unmatched : Unmatched matcher.pattern text state) :
    ∃ last found, scan matcher values state = some (last, found) ∧ if found then
        matcher.pattern <:+: text ++ values.map (fold matcher.caseInsensitive)
      else Unmatched matcher.pattern (text ++ values.map (fold matcher.caseInsensitive)) last := by
  induction values generalizing text state with
  | nil => exact ⟨state, false, rfl, by simpa using unmatched⟩
  | cons value values ih =>
    obtain ⟨next, advanced, longest⟩ := advance_spec table
      (fold matcher.caseInsensitive value) unmatched.short.le unmatched.short unmatched.longest
    rw [scan, advanced, Option.bind_eq_bind, Option.bind_some, List.map_cons, List.append_cons]
    split_ifs with whole
    · refine ⟨next, true, rfl, ?_⟩
      exact ((Longest.eq_length_iff longest).1 whole).isInfix.trans (List.prefix_append _ _).isInfix
    · refine ih ⟨longest, fun found => ?_⟩
      rcases List.infix_concat_iff.1 found with suffix | before
      · exact whole ((Longest.eq_length_iff longest).2 suffix)
      · exact unmatched.absent before

def Reader.Quiet (reader : Reader) : Prop :=
  (∀ look, reader.ctxErr look = none) ∧ ∀ call, reader.readErr call = none

variable {reader : Reader}

theorem Reader.Quiet.read (quiet : reader.Quiet) (call : Nat) (rest : List UInt8) (limit : Int) :
    ∃ chunk later, rest = chunk ++ later ∧ chunk.length ≤ limit.toNat ∧
    (reader.read call rest limit = (chunk, some .eof) ∧
    later.take (limit.toNat - chunk.length) = [] ∨
    reader.read call rest limit = (chunk, none) ∧ chunk ≠ []) := by
  rw [Reader.read]
  split_ifs with spent
  · refine ⟨[], rest, rfl, Nat.zero_le _, .inl ⟨rfl, ?_⟩⟩
    rw [Int.toNat_of_nonpos spent]
    rfl
  · dsimp only
    rw [quiet.2 call]
    generalize isLength : min (min bufferSize limit.toNat) (reader.ready call + 1) = length
    have bounded : 0 < length ∧ length ≤ limit.toNat := by
      rw [bufferSize] at isLength
      omega
    refine ⟨rest.take length, rest.drop length, (List.take_append_drop length rest).symm,
      (List.length_take_le _ _).trans bounded.2, ?_⟩
    split_ifs with ends
    · refine .inl ⟨rfl, ?_⟩
      have last : rest.length ≤ length := by
        simp only [Bool.or_eq_true, List.isEmpty_iff, Bool.and_eq_true, decide_eq_true_eq] at ends
        rcases ends with rfl | ⟨_, last⟩
        · exact Nat.zero_le _
        · exact last
      rw [List.drop_eq_nil_of_le last, List.take_nil]
    · refine .inr ⟨rfl, fun nothing => ends ?_⟩
      rcases List.take_eq_nil_iff.1 nothing with zero | rfl
      · exact absurd zero bounded.1.ne'
      · rfl

theorem rounds_spec (quiet : reader.Quiet)
    (table : Table matcher.pattern matcher.failure matcher.pattern.length)
    (enough : rest.length < bound) (unmatched : Unmatched matcher.pattern text state) :
    ∃ found, rounds reader matcher bound call rest limit state = some (.ok found) ∧
    (found = true ↔ matcher.pattern <:+: text ++
    (rest.take limit.toNat).map (fold matcher.caseInsensitive)) := by
  induction bound generalizing call rest limit text state with
  | zero => omega
  | succ bound ih =>
    obtain ⟨chunk, later, rfl, within, served⟩ := quiet.read call rest limit
    obtain ⟨last, found, scanned, outcome⟩ := scan_spec table chunk unmatched
    rw [List.take_append, List.take_of_length_le within, List.map_append, ← List.append_assoc]
    simp only [rounds, quiet.1]
    rcases served with ⟨read, ended⟩ | ⟨read, nonempty⟩
    all_goals
      simp only [read, scanned]
      cases found with
      | true =>
        exact ⟨true, rfl, iff_of_true rfl
          (List.IsInfix.trans outcome (List.prefix_append _ _).isInfix)⟩
      | false => ?_
    · rw [ended, List.map_nil, List.append_nil]
      exact ⟨false, rfl, iff_of_false Bool.false_ne_true (Unmatched.absent outcome)⟩
    · have fewer := List.length_pos_iff.2 nonempty
      rw [List.length_append] at enough
      have left : limit.toNat - chunk.length = (limit - chunk.length).toNat := by omega
      obtain ⟨found, searched, exact⟩ : ∃ found, rounds reader matcher bound
          (call + 1) later (limit - chunk.length) last = some (.ok found) ∧ _ :=
        ih (by omega) outcome
      refine ⟨found, ?_, left ▸ exact⟩
      simp [nonempty, searched]

theorem stream_search_exact (query : List UInt8) (caseInsensitive : Bool)
    (reader : Reader) (limit : Int) (quiet : reader.Quiet) :
    ∃ matcher, newSearchV2Matcher query caseInsensitive = some matcher ∧
      ∃ found, streamSearchV2Text reader limit matcher = some (.ok found) ∧
        (found = true ↔ query.map (fold caseInsensitive) <:+:
          (reader.content.take limit.toNat).map (fold caseInsensitive)) := by
  obtain ⟨failure, filled, table⟩ := failureTable_spec (query.map (fold caseInsensitive))
  refine ⟨⟨query.map (fold caseInsensitive), failure, caseInsensitive⟩, ?_, ?_⟩
  · rw [newSearchV2Matcher, filled]
    rfl
  · rw [streamSearchV2Text, quiet.1 0]
    dsimp only
    split_ifs with empty
    · rw [List.length_eq_zero_iff.1 empty]
      exact ⟨true, rfl, iff_of_true rfl List.nil_infix⟩
    · refine rounds_spec quiet table (Nat.lt_succ_self _) ⟨longest_nil, ?_⟩
      intro found
      exact empty (List.length_eq_zero_iff.2 (List.infix_nil.1 found))

private def byteReader : Reader :=
  ⟨[120, 97, 65, 98], fun _ => none, fun _ => none, fun _ => 0, fun _ => false⟩

theorem query_found_across_reads : ∃ matcher, newSearchV2Matcher [97, 66] true = some matcher ∧
      ∃ found, streamSearchV2Text byteReader 4 matcher = some (.ok found) ∧
        (found = true ↔ [97, 66].map (fold true) <:+:
          (byteReader.content.take 4).map (fold true)) :=
  stream_search_exact _ _ _ _ ⟨fun _ => rfl, fun _ => rfl⟩

end Wings.Search
