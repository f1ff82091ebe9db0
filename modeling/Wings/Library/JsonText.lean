import Mathlib.Data.List.DropRight
import Wings.Library.Json

/-!
# JSON texts

Reading splits a text into the raw texts of its parts, as decoders with raw messages do. A lone
surrogate escape denotes the replacement character. A printer is given by how it escapes characters.
Of the number literals that are read as integers only `-0` is not what is printed for the integer.
-/

namespace Wings.Json

def isSpace (character : Char) : Bool := character = ' ' || character = '\t' || character = '\n' ||
    character = '\r'

def skipSpace (text : Text) : Text := text.dropWhile isSpace

def trim (text : Text) : Text := (skipSpace text).rdropWhile isSpace

def hexValue (digit : Char) : Option Nat :=
  if '0' ≤ digit ∧ digit ≤ '9' then some (digit.toNat - '0'.toNat)
  else if 'a' ≤ digit ∧ digit ≤ 'f' then
    some (digit.toNat - 'a'.toNat + 10)
  else if 'A' ≤ digit ∧ digit ≤ 'F' then
    some (digit.toNat - 'A'.toNat + 10)
  else none

/-- The number given by so many hexadecimal digits, and what follows. -/
def readHex : Nat → Nat → Text → Option (Nat × Text)
  | 0, number, text => some (number, text)
  | _ + 1, _, [] => none
  | count + 1, number, digit :: text =>
    (hexValue digit).bind fun value =>
      readHex count (number * 16 + value) text

/-- The second code unit of a surrogate pair, written as an escape. -/
def readLowUnit (text : Text) : Option (Nat × Text) :=
  if text.take 2 = ['\\', 'u'] then readHex 4 0 (text.drop 2) else none

/-- The character that stands for what no character can be read from. -/
def replacement : Char := Char.ofNat 0xFFFD

/-- The character of a code unit and of what may complete a pair. -/
def readUnits (unit : Nat) (text : Text) : Char × Text :=
  if 0xD800 ≤ unit ∧ unit < 0xE000 then
    match readLowUnit text with
    | none => (replacement, text)
    | some (low, rest) =>
      if unit < 0xDC00 ∧ 0xDC00 ≤ low ∧ low < 0xE000 then
        (Char.ofNat (0x10000 + (unit - 0xD800) * 0x400 + (low - 0xDC00)), rest)
      else (replacement, text)
  else (Char.ofNat unit, text)

def shortEscapes : List (Char × Char) :=
  [('"', '"'), ('\\', '\\'), ('/', '/'), ('b', '\x08'), ('f', '\x0c'),
    ('n', '\n'), ('r', '\r'), ('t', '\t')]

def readEscape : Text → Option (Char × Text)
  | [] => none
  | character :: text =>
    if character = 'u' then
      (readHex 4 0 text).map fun unit => readUnits unit.1 unit.2
    else
      (shortEscapes.lookup character).map fun escaped => (escaped, text)

def readCharacter : Text → Option (Char × Text)
  | [] => none
  | character :: text =>
    if character = '\\' then readEscape text
    else if character.toNat < 0x20 then none
    else some (character, text)

/-- The characters of a string up to its closing quote. -/
def readCharacters : Nat → Text → Option (Text × Text)
  | 0, _ => none
  | fuel + 1, text =>
    if text.head? = some '"' then some ([], text.tail)
    else
      (readCharacter text).bind fun character =>
        (readCharacters fuel character.2).map fun characters =>
          (character.1 :: characters.1, characters.2)

def readString (text : Text) : Option (Text × Text) := readCharacters text.length text

def readDigits (text : Text) : Option (Text × Text) :=
  if text.takeWhile Char.isDigit = [] then none
  else some (text.takeWhile Char.isDigit, text.dropWhile Char.isDigit)

def readInteger (text : Text) : Option (Text × Text) :=
  if text.head? = some '0' then some (['0'], text.tail)
  else readDigits text

def readMarked (marks : List Char) (scan : Text → Option (Text × Text)) :
    Text → Option (Text × Text)
  | [] => some ([], [])
  | character :: text =>
    if character ∈ marks then
      (scan text).map fun part => (character :: part.1, part.2)
    else some ([], character :: text)

def readSigned (signs : List Char) (scan : Text → Option (Text × Text)) :
    Text → Option (Text × Text)
  | [] => scan []
  | character :: text =>
    if character ∈ signs then
      (scan text).map fun part => (character :: part.1, part.2)
    else scan (character :: text)

def readBoth (first second : Text → Option (Text × Text)) (text : Text) : Option (Text × Text) :=
  (first text).bind fun part =>
    (second part.2).map fun next => (part.1 ++ next.1, next.2)

def readFraction : Text → Option (Text × Text) := readMarked ['.'] readDigits

def readExponent : Text → Option (Text × Text) :=
  readMarked ['e', 'E'] (readSigned ['+', '-'] readDigits)

def readUnsigned : Text → Option (Text × Text) :=
  readBoth readInteger (readBoth readFraction readExponent)

def readNumber : Text → Option (Text × Text) := readSigned ['-'] readUnsigned

/-- The words of JSON and the values they stand for. -/
def words : List (Text × Value) :=
  [(['n', 'u', 'l', 'l'], .null), (['t', 'r', 'u', 'e'], .bool true),
    (['f', 'a', 'l', 's', 'e'], .bool false)]

def findWord (text : Text) : Option (Text × Value) :=
  words.find? fun word => text.take word.1.length = word.1

def readScalar (text : Text) : Option (Value × Text) :=
  match findWord text with
  | some word => some (word.2, text.drop word.1.length)
  | none =>
    (readNumber text).map fun number => (.number number.1, number.2)

/-- Parts up to a closing character, separated by commas. -/
def readSeparated (read : Text → Option (α × Text)) (close : Char) :
    Nat → Text → Option (List α × Text)
  | 0, _ => none
  | fuel + 1, text =>
    (read (skipSpace text)).bind fun part =>
      let next := skipSpace part.2
      if next.head? = some ',' then
        (readSeparated read close fuel next.tail).map fun parts =>
          (part.1 :: parts.1, parts.2)
      else if next.head? = some close then some ([part.1], next.tail)
      else none

/-- The parts of an array or an object after its opening character. -/
def readList (read : Text → Option (α × Text)) (close : Char) (text : Text) :
    Option (List α × Text) :=
  let start := skipSpace text
  if start.head? = some close then some ([], start.tail)
  else readSeparated read close start.length start

def readRaw (skip : Text → Option Text) (text : Text) : Option (Text × Text) :=
  (skip text).map fun rest =>
    (text.take (text.length - rest.length), rest)

def readMember (skip : Text → Option Text) (text : Text) : Option ((Text × Text) × Text) :=
  if text.head? = some '"' then
    (readString text.tail).bind fun key =>
      let colon := skipSpace key.2
      if colon.head? = some ':' then
        (readRaw skip (skipSpace colon.tail)).map fun value =>
          ((key.1, value.1), value.2)
      else none
  else none

def skipValue : Nat → Text → Option Text
  | 0, _ => none
  | fuel + 1, text =>
    if text.head? = some '\x7b' then
      (readList (readMember (skipValue fuel)) '\x7d' text.tail).map Prod.snd
    else if text.head? = some '[' then
      (readList (readRaw (skipValue fuel)) ']' text.tail).map Prod.snd
    else if text.head? = some '"' then
      (readString text.tail).map Prod.snd
    else (readScalar text).map Prod.snd

def whole (part : Option (α × Text)) : Option α :=
  part.bind fun read =>
    if read.2.all isSpace then some read.1 else none

def rawMembers (text : Text) : Option (List (Text × Text)) :=
  let start := skipSpace text
  if start.head? = some '\x7b' then
    whole (readList (readMember (skipValue start.length)) '\x7d' start.tail)
  else none

def rawItems (text : Text) : Option (List Text) :=
  let start := skipSpace text
  if start.head? = some '[' then
    whole (readList (readRaw (skipValue start.length)) ']' start.tail)
  else none

def rawString (text : Text) : Option Text :=
  let start := skipSpace text
  if start.head? = some '"' then whole (readString start.tail) else none

/-- The value of a text nested less deeply than the bound. -/
def denoteWithin : Nat → Text → Option Value
  | 0, _ => none
  | bound + 1, text =>
    let data := trim text
    if data.head? = some '\x7b' then
      (rawMembers data).bind fun members =>
        (members.mapM fun member =>
          (denoteWithin bound member.2).map fun value =>
            (member.1, value)).map .object
    else if data.head? = some '[' then
      (rawItems data).bind fun items =>
        (items.mapM (denoteWithin bound)).map .array
    else if data.head? = some '"' then (rawString data).map .string
    else whole (readScalar data)

def denote (text : Text) : Option Value := denoteWithin (text.length + 1) text

def join (texts : List Text) : Text := [','].intercalate texts

section

variable (escape : Char → Text)

def quote (text : Text) : Text := '"' :: text.flatMap escape ++ ['"']

def printing : Value.Algebra Text where
  null := ['n', 'u', 'l', 'l']
  bool := fun value =>
    if value then ['t', 'r', 'u', 'e'] else ['f', 'a', 'l', 's', 'e']
  number := id
  string := quote escape
  array := fun items => '[' :: join items ++ [']']
  object := fun members =>
    '\x7b' :: join (members.map fun member =>
      quote escape member.1 ++ ':' :: member.2) ++ ['\x7d']

/-- The compact text of a value, with its members in the order given. -/
def print : Value → Text := Value.fold (printing escape)

def printMember (member : Text × Value) : Text :=
  quote escape member.1 ++ ':' :: print escape member.2

theorem print_null : print escape .null = ['n', 'u', 'l', 'l'] := rfl

theorem print_bool (value : Bool) : print escape (.bool value) =
      if value then ['t', 'r', 'u', 'e'] else ['f', 'a', 'l', 's', 'e'] := rfl

theorem print_string (text : Text) : print escape (.string text) = quote escape text := rfl

theorem print_array (items : List Value) : print escape (.array items) =
      '[' :: join (items.map (print escape)) ++ [']'] := Value.fold_array _ items

theorem print_object (members : List (Text × Value)) : print escape (.object members) =
    '\x7b' :: join (members.map (printMember escape)) ++ ['\x7d'] := by
  rw [print, Value.fold_object]
  dsimp only [printing]
  rw [List.map_map]
  rfl

end

structure Escaping (escape : Char → Text) : Prop where
  reads : ∀ (character : Char) (rest : Text),
    readCharacter (escape character ++ rest) = some (character, rest)
  opens : ∀ character : Char, (escape character).head? ≠ some '"'

def hexDigits (unit : Nat) : Text :=
  [Nat.digitChar (unit / 4096 % 16), Nat.digitChar (unit / 256 % 16),
    Nat.digitChar (unit / 16 % 16), Nat.digitChar (unit % 16)]

inductive Written (character : Char) : Text → Prop
  | short {letter : Char} (known : (letter, character) ∈ shortEscapes) :
      Written character ['\\', letter]
  | unit (small : character.toNat < 0x10000) :
      Written character ('\\' :: 'u' :: hexDigits character.toNat)
  | plain (backslash : character ≠ '\\')
      (mark : character ≠ '"')
      (visible : 0x20 ≤ character.toNat) :
      Written character [character]

theorem hexValue_digitChar : ∀ digit < 16, hexValue (Nat.digitChar digit) = some digit := by
  decide

theorem readHex_hexDigits (small : unit < 0x10000) (rest : Text) :
    readHex 4 0 (hexDigits unit ++ rest) = some (unit, rest) := by
  have digit : ∀ number, hexValue (Nat.digitChar (number % 16)) =
      some (number % 16) := fun number =>
    hexValue_digitChar _ (Nat.mod_lt number (by decide))
  simp only [hexDigits, List.cons_append, List.nil_append, readHex, digit,
    Option.bind_some, Option.some.injEq, Prod.mk.injEq, and_true]
  omega

theorem readUnits_toNat (character : Char) (rest : Text) :
    readUnits character.toNat rest = (character, rest) := by
  have valid : character.toNat < 0xD800 ∨ 0xDFFF < character.toNat :=
    character.valid.imp id And.left
  rw [readUnits, if_neg (by omega), Char.ofNat_toNat]

theorem readCharacter_of_written (written : Written character text)
    (rest : Text) : readCharacter (text ++ rest) = some (character, rest) := by
  cases written with
  | short known =>
    have lookup : ∀ entry ∈ shortEscapes, entry.1 ≠ 'u' ∧
        shortEscapes.lookup entry.1 = some entry.2 := by
      decide
    obtain ⟨other, found⟩ := lookup _ known
    simp [readCharacter, readEscape, other, found]
  | unit small =>
    simp [readCharacter, readEscape, readHex_hexDigits small, readUnits_toNat]
  | plain backslash mark visible =>
    simp [readCharacter, backslash, visible]

theorem Written.head?_ne (written : Written character text) : text.head? ≠ some '"' := by
  cases written with
  | short | unit => exact (by decide : some '\\' ≠ some '"')
  | plain backslash mark visible => simpa using mark

theorem Escaping.of_written (written : ∀ character, Written character (escape character)) :
    Escaping escape where
  reads character rest := readCharacter_of_written (written character) rest
  opens character := (written character).head?_ne

namespace Escaping

section

variable (escaping : Escaping escape)
include escaping

theorem ne_nil (character : Char) : escape character ≠ [] := by
  intro empty
  have read := escaping.reads character []
  rw [empty] at read
  cases read

theorem length_le_flatMap (text : Text) : text.length ≤ (text.flatMap escape).length := by
  induction text with
  | nil => exact Nat.le_refl 0
  | cons character text ih =>
    have positive := List.length_pos_iff.2 (escaping.ne_nil character)
    rw [List.flatMap_cons, List.length_append, List.length_cons]
    omega

theorem readCharacters_flatMap (text rest : Text) (fuel : Nat) (enough : text.length < fuel) :
    readCharacters fuel (text.flatMap escape ++ '"' :: rest) = some (text, rest) := by
  induction text generalizing fuel with
  | nil =>
    obtain ⟨fuel, rfl⟩ := Nat.exists_eq_add_one_of_ne_zero (Nat.ne_of_gt enough)
    rfl
  | cons character text ih =>
    obtain ⟨fuel, rfl⟩ := Nat.exists_eq_add_one_of_ne_zero
      (Nat.ne_of_gt (Nat.lt_of_le_of_lt (Nat.zero_le _) enough))
    rw [List.flatMap_cons, List.append_assoc, readCharacters, if_neg,
      escaping.reads, Option.bind_some, ih, Option.map_some]
    · rw [List.length_cons] at enough
      omega
    · rw [List.head?_append_of_ne_nil _ (escaping.ne_nil character)]
      exact escaping.opens character

theorem readString_flatMap (text rest : Text) :
    readString (text.flatMap escape ++ '"' :: rest) = some (text, rest) := by
  apply escaping.readCharacters_flatMap
  have longer := escaping.length_le_flatMap text
  rw [List.length_append, List.length_cons]
  omega

end

end Escaping

def isNumeric (character : Char) : Bool :=
  character.isDigit || character = '.' || character = 'e' ||
    character = 'E' || character = '+' || character = '-'

/-- The text does not go on with a number literal. -/
def Stops (text : Text) : Prop :=
  ∀ character, text.head? = some character → isNumeric character = false

theorem Stops.nil : Stops [] := nofun

theorem Stops.cons (other : isNumeric character = false) (text : Text) :
    Stops (character :: text) := by
  intro first head
  cases head
  exact other

theorem Stops.takeWhile_append (stops : Stops rest) (text : Text) :
    (text ++ rest).takeWhile Char.isDigit = text.takeWhile Char.isDigit ∧
    (text ++ rest).dropWhile Char.isDigit = text.dropWhile Char.isDigit ++ rest := by
  induction text with
  | nil =>
    cases rest with
    | nil => exact ⟨rfl, rfl⟩
    | cons character rest =>
      have other := stops character rfl
      simp only [isNumeric, Bool.or_eq_false_iff] at other
      simp [other]
  | cons character text ih =>
    by_cases digit : character.isDigit = true
    · simp [digit, ih]
    · simp [digit]

structure Scans (scan : Text → Option (Text × Text)) : Prop where
  splits : ∀ {text literal left : Text}, scan text = some (literal, left) → text = literal ++ left ∧
        ∀ character ∈ literal, isNumeric character = true
  extended : ∀ {text literal left rest : Text}, scan text = some (literal, left) → Stops rest →
      scan (text ++ rest) = some (literal, left ++ rest)

theorem scans_readDigits : Scans readDigits where
  splits := by
    intro text literal left read
    rw [readDigits] at read
    split at read
    · cases read
    · cases read
      refine ⟨(List.takeWhile_append_dropWhile).symm, ?_⟩
      intro character member
      have digit := List.mem_takeWhile_imp member
      simp [isNumeric, digit]
  extended := by
    intro text literal left rest read stops
    obtain ⟨taken, dropped⟩ := stops.takeWhile_append text
    rw [readDigits] at read ⊢
    rw [taken, dropped]
    split at read
    · cases read
    · cases read
      rw [if_neg (by assumption)]

theorem scans_readInteger : Scans readInteger where
  splits := by
    intro text literal left read
    rw [readInteger] at read
    split at read
    case isTrue head =>
      cases read
      cases text with
      | nil => cases head
      | cons character text =>
        cases head
        exact ⟨rfl, by simp [isNumeric]⟩
    case isFalse => exact scans_readDigits.splits read
  extended := by
    intro text literal left rest read stops
    cases text with
    | nil => cases read
    | cons character text =>
      rw [readInteger] at read
      rw [List.cons_append, readInteger, List.head?_cons]
      rw [List.head?_cons] at read
      by_cases zero : some character = some '0'
      · rw [if_pos zero] at read ⊢
        cases read
        rfl
      · rw [if_neg zero] at read ⊢
        exact scans_readDigits.extended read stops

def readEither (marks : List Char) (marked plain : Text → Option (Text × Text)) :
    Text → Option (Text × Text)
  | [] => plain []
  | character :: text =>
    if character ∈ marks then
      (marked text).map fun part => (character :: part.1, part.2)
    else plain (character :: text)

section

variable {marks : List Char} (numeric : ∀ mark ∈ marks, isNumeric mark = true)
include numeric

theorem Scans.readEither (scansMarked : Scans marked) (scansPlain : Scans plain) :
    Scans (readEither marks marked plain) where
  splits := by
    intro text literal left read
    cases text with
    | nil => exact scansPlain.splits read
    | cons character text =>
      rw [Json.readEither] at read
      split at read
      case isTrue mark =>
        obtain ⟨part, known, equal⟩ := Option.map_eq_some_iff.1 read
        cases equal
        obtain ⟨splits, each⟩ := scansMarked.splits known
        refine ⟨by rw [splits, List.cons_append], ?_⟩
        exact List.forall_mem_cons.2 ⟨numeric _ mark, each⟩
      case isFalse => exact scansPlain.splits read
  extended := by
    intro text literal left rest read stops
    cases text with
    | nil =>
      have extended := scansPlain.extended read stops
      cases rest with
      | nil => exact extended
      | cons character rest =>
        rw [List.nil_append, Json.readEither, if_neg]
        · exact extended
        · intro mark
          have other := stops character rfl
          rw [numeric _ mark] at other
          cases other
    | cons character text =>
      rw [Json.readEither] at read
      rw [List.cons_append, Json.readEither]
      by_cases mark : character ∈ marks
      · rw [if_pos mark] at read ⊢
        obtain ⟨part, known, equal⟩ := Option.map_eq_some_iff.1 read
        cases equal
        rw [scansMarked.extended known stops]
        rfl
      · rw [if_neg mark] at read ⊢
        exact scansPlain.extended read stops

theorem Scans.readMarked (scans : Scans scan) : Scans (readMarked marks scan) := by
  have same : Json.readMarked marks scan = Json.readEither marks scan fun text =>
      some ([], text) := by
    funext text
    cases text <;> rfl
  rw [same]
  refine scans.readEither numeric ⟨?_, ?_⟩
  · rintro text literal left ⟨⟩
    exact ⟨rfl, nofun⟩
  · rintro text literal left rest ⟨⟩ _
    rfl

theorem Scans.readSigned (scans : Scans scan) : Scans (readSigned marks scan) := by
  have same : Json.readSigned marks scan = Json.readEither marks scan scan := by
    funext text
    cases text <;> rfl
  rw [same]
  exact scans.readEither numeric scans

end

theorem Scans.readBoth (scansFirst : Scans first) (scansSecond : Scans second) :
    Scans (readBoth first second) where
  splits := by
    intro text literal left read
    obtain ⟨part, known, read⟩ := Option.bind_eq_some_iff.1 read
    obtain ⟨next, after, equal⟩ := Option.map_eq_some_iff.1 read
    cases equal
    obtain ⟨splits, each⟩ := scansFirst.splits known
    obtain ⟨splitsNext, eachNext⟩ := scansSecond.splits after
    refine ⟨by rw [splits, splitsNext, List.append_assoc], ?_⟩
    intro character member
    rcases List.mem_append.1 member with inFirst | inNext
    · exact each character inFirst
    · exact eachNext character inNext
  extended := by
    intro text literal left rest read stops
    obtain ⟨part, known, read⟩ := Option.bind_eq_some_iff.1 read
    obtain ⟨next, after, equal⟩ := Option.map_eq_some_iff.1 read
    cases equal
    rw [Json.readBoth, scansFirst.extended known stops, Option.bind_some,
      scansSecond.extended after stops, Option.map_some]

theorem scans_readNumber : Scans readNumber := by
  apply Scans.readSigned (by simp [isNumeric])
  apply Scans.readBoth scans_readInteger
  apply Scans.readBoth
  · exact Scans.readMarked (by simp [isNumeric]) scans_readDigits
  · apply Scans.readMarked (by simp [isNumeric])
    exact Scans.readSigned (by simp [isNumeric]) scans_readDigits

def IsNumber (literal : Text) : Prop := readNumber literal = some (literal, [])

instance (literal : Text) : Decidable (IsNumber literal) := inferInstanceAs (Decidable (_ = _))

theorem IsNumber.ne_nil (number : IsNumber literal) : literal ≠ [] := by
  intro empty
  rw [empty] at number
  cases number

theorem IsNumber.isNumeric (number : IsNumber literal) :
    ∀ character ∈ literal, isNumeric character = true := (scans_readNumber.splits number).2

namespace Value

def Valid : Value → Prop :=
  fold {
    null := True
    bool := fun _ => True
    number := IsNumber
    string := fun _ => True
    array := fun items => ∀ item ∈ items, item
    object := fun members => ∀ member ∈ members, member.2 }

@[simp] theorem valid_number (literal : Text) : Valid (.number literal) ↔ IsNumber literal :=
  Iff.rfl

@[simp] theorem valid_string (text : Text) : Valid (.string text) := trivial

@[simp] theorem valid_array (items : List Value) :
    Valid (.array items) ↔ ∀ item ∈ items, item.Valid := by
  simp only [Valid, fold_array, List.forall_mem_map]

@[simp] theorem valid_object (members : List (Text × Value)) :
    Valid (.object members) ↔ ∀ member ∈ members, member.2.Valid := by
  simp only [Valid, fold_object, List.forall_mem_map]

theorem Valid.sorted {value : Value} (valid : value.Valid) : value.sorted.Valid := by
  induction value with
  | null | bool | string => exact trivial
  | number => exact valid
  | array items ih =>
    rw [valid_array] at valid
    rw [sorted_array, valid_array, List.forall_mem_map]
    intro item member
    exact ih item member (valid item member)
  | object members ih =>
    rw [valid_object] at valid
    rw [sorted_object, valid_object]
    intro member known
    obtain ⟨original, there, equal⟩ := List.mem_map.1 ((sortByKey_perm _).mem_iff.1 known)
    rw [← equal]
    exact ih original there (valid original there)

end Value

def natText (number : Nat) : Text := Nat.toDigits 10 number

def intText (number : Int) : Text :=
  if number < 0 then '-' :: natText number.natAbs else natText number.natAbs

def readNat (text : Text) : Option Nat :=
  if text ≠ [] ∧ text.all Char.isDigit then some (Nat.ofDigitChars 10 text 0)
  else none

/-- The integer that digits with an optional sign stand for. -/
def readInt (text : Text) : Option Int :=
  if text.head? = some '-' then
    (readNat text.tail).map fun number => -Int.ofNat number
  else (readNat text).map Int.ofNat

theorem isDigit_natText (number : Nat) : (natText number).all Char.isDigit = true := by
  rw [List.all_eq_true]
  intro digit member
  exact Nat.isDigit_of_mem_toDigits (by decide) (by decide) member

theorem natText_ne_nil (number : Nat) : natText number ≠ [] := Nat.toDigits_ne_nil

theorem readNat_natText (number : Nat) : readNat (natText number) = some number := by
  rw [readNat, if_pos ⟨natText_ne_nil number, isDigit_natText number⟩,
    natText, Nat.ofDigitChars_ten_toDigits]

theorem head?_natText_ne (number : Nat) : (natText number).head? ≠ some '-' := by
  intro head
  have digit := List.all_eq_true.1 (isDigit_natText number) '-' (List.mem_of_head? head)
  exact absurd digit (by decide)

theorem readInt_intText (number : Int) : readInt (intText number) = some number := by
  rw [intText, readInt]
  by_cases negative : number < 0
  · rw [if_pos negative, List.head?_cons, if_pos rfl, List.tail_cons,
      readNat_natText, Option.map_some, Int.ofNat_eq_natCast]
    congr
    omega
  · rw [if_neg negative, if_neg (head?_natText_ne _), readNat_natText,
      Option.map_some, Int.ofNat_eq_natCast]
    congr
    omega

theorem digitChar_sub (isDigit : digit.isDigit = true) :
    Nat.digitChar (digit.toNat - '0'.toNat) = digit ∧ digit.toNat - '0'.toNat < 10 := by
  obtain ⟨lower, upper⟩ := Char.isDigit_iff_toNat.1 isDigit
  have small : digit.toNat - '0'.toNat < 10 := by
    have nine : '9'.toNat = '0'.toNat + 9 := rfl
    omega
  refine ⟨?_, small⟩
  apply Char.toNat_inj.1
  rw [Nat.toNat_digitChar_of_lt_ten small]
  exact Nat.add_sub_cancel' lower

theorem natText_append (positive : 0 < number) (digits : text.all Char.isDigit = true) :
    natText number ++ text = natText (Nat.ofDigitChars 10 text number) := by
  induction text generalizing number with
  | nil => rw [List.append_nil, Nat.ofDigitChars_nil]
  | cons digit text ih =>
    rw [List.all_cons, Bool.and_eq_true] at digits
    obtain ⟨rebuilt, small⟩ := digitChar_sub digits.1
    have next := Nat.toDigits_append_toDigits (by decide) positive small
    rw [Nat.toDigits_of_lt_base small, rebuilt] at next
    rw [Nat.ofDigitChars_cons, ← ih (by omega) digits.2, natText,
      natText, ← next, List.append_assoc]
    rfl

theorem natText_ofDigitChars (digits : (first :: text).all Char.isDigit = true)
    (leading : first = '0' → text = []) :
    natText (Nat.ofDigitChars 10 (first :: text) 0) = first :: text := by
  rw [List.all_cons, Bool.and_eq_true] at digits
  obtain ⟨rebuilt, small⟩ := digitChar_sub digits.1
  have single : natText (first.toNat - '0'.toNat) = [first] := by
    rw [natText, Nat.toDigits_of_lt_base small, rebuilt]
  rw [Nat.ofDigitChars_cons, Nat.mul_zero, Nat.zero_add]
  by_cases zero : first = '0'
  · rw [leading zero, Nat.ofDigitChars_nil, single]
  · rw [← natText_append _ digits.2, single]
    · rfl
    · obtain ⟨lower, _⟩ := Char.isDigit_iff_toNat.1 digits.1
      have different : first.toNat ≠ '0'.toNat := fun same =>
        zero (Char.toNat_inj.1 same)
      omega

theorem readMarked_of_digits (marked : marks.all (fun mark => !mark.isDigit) = true)
    (scan : Text → Option (Text × Text))
    (digits : text.all Char.isDigit = true) : readMarked marks scan text = some ([], text) := by
  cases text with
  | nil => rfl
  | cons digit text =>
    rw [readMarked, if_neg]
    intro member
    have other := List.all_eq_true.1 marked digit member
    rw [List.all_cons, Bool.and_eq_true] at digits
    rw [digits.1] at other
    cases other

theorem readDigits_of_digits (nonempty : text ≠ []) (digits : text.all Char.isDigit = true) :
    readDigits text = some (text, []) := by
  have taken : text.takeWhile Char.isDigit = text :=
    List.takeWhile_eq_self_iff.2 (List.all_eq_true.1 digits)
  have dropped : text.dropWhile Char.isDigit = [] :=
    List.dropWhile_eq_nil_iff.2 (List.all_eq_true.1 digits)
  rw [readDigits, taken, dropped, if_neg nonempty]

theorem readUnsigned_of_digits (digits : (first :: text).all Char.isDigit = true) :
    readUnsigned (first :: text) =
      if first = '0' then some (['0'], text)
      else some (first :: text, []) := by
  have tail : text.all Char.isDigit = true := by
    rw [List.all_cons, Bool.and_eq_true] at digits
    exact digits.2
  rw [readUnsigned, readBoth, readInteger, List.head?_cons]
  by_cases zero : first = '0'
  · rw [if_pos zero, if_pos (by rw [zero]), Option.bind_some]
    rw [List.tail_cons, readBoth, readFraction,
      readMarked_of_digits (by decide) _ tail, Option.bind_some]
    rw [readExponent, readMarked_of_digits (by decide) _ tail]
    rfl
  · rw [if_neg zero, if_neg (by rwa [Option.some.injEq]),
      readDigits_of_digits (List.cons_ne_nil _ _) digits]
    simp [readBoth, readFraction, readExponent, readMarked]

theorem readUnsigned_eq_self_iff (digits : (first :: text).all Char.isDigit = true) :
    readUnsigned (first :: text) = some (first :: text, []) ↔ (first = '0' → text = []) := by
  rw [readUnsigned_of_digits digits]
  by_cases zero : first = '0'
  · simp [zero]
  · simp [zero]

theorem head?_natText_ne_zero (positive : 0 < number) : (natText number).head? ≠ some '0' := by
  induction number using Nat.strong_induction_on with
  | h number ih =>
    by_cases small : number < 10
    · rw [natText, Nat.toDigits_of_lt_base small, List.head?_cons, ne_eq,
        Option.some.injEq, Nat.digitChar_eq_zero]
      omega
    · have shorter := ih (number / 10) (by omega) (by omega)
      rw [natText, Nat.toDigits_of_base_le (by decide) (by omega),
        List.head?_append_of_ne_nil _ Nat.toDigits_ne_nil]
      exact shorter

theorem readUnsigned_natText (number : Nat) :
    readUnsigned (natText number) = some (natText number, []) := by
  by_cases zero : number = 0
  · rw [zero]
    rfl
  have leading := head?_natText_ne_zero (Nat.pos_of_ne_zero zero)
  have digits := isDigit_natText number
  cases text : natText number with
  | nil => exact absurd text (natText_ne_nil number)
  | cons first rest =>
    rw [text] at digits leading
    rw [readUnsigned_eq_self_iff digits]
    intro head
    exact absurd (congrArg some head) leading

theorem isNumber_intText (number : Int) : IsNumber (intText number) := by
  have unsigned := readUnsigned_natText number.natAbs
  rw [IsNumber, intText, readNumber]
  by_cases negative : number < 0
  · rw [if_pos negative, readSigned, if_pos (List.mem_singleton.2 rfl), unsigned]
    rfl
  · rw [if_neg negative]
    have head := head?_natText_ne number.natAbs
    cases text : natText number.natAbs with
    | nil => exact absurd text (natText_ne_nil _)
    | cons first rest =>
      rw [text] at unsigned head
      rw [readSigned, if_neg, unsigned]
      intro sign
      exact head (congrArg some (List.mem_singleton.1 sign))

theorem eq_natText_of_readNat (read : readNat text = some number)
    (whole : readUnsigned text = some (text, [])) : text = natText number := by
  rw [readNat] at read
  split at read
  case isFalse => cases read
  case isTrue digits =>
    cases read
    cases text with
    | nil => exact absurd rfl digits.1
    | cons first rest =>
      rw [readUnsigned_eq_self_iff digits.2] at whole
      rw [natText_ofDigitChars digits.2 whole]

theorem IsNumber.readUnsigned (isNumber : IsNumber literal) (unsigned : literal.head? ≠ some '-') :
    Json.readUnsigned literal = some (literal, []) := by
  cases literal with
  | nil => cases isNumber
  | cons first text =>
    rw [IsNumber, readNumber, readSigned, if_neg] at isNumber
    · exact isNumber
    · intro sign
      exact unsigned (congrArg some (List.mem_singleton.1 sign))

theorem eq_natText_of_isNumber (isNumber : IsNumber literal)
    (read : readNat literal = some number) : literal = natText number := by
  apply eq_natText_of_readNat read
  apply isNumber.readUnsigned
  intro sign
  rw [readNat] at read
  split at read
  case isFalse => cases read
  case isTrue digits =>
    have digit := List.all_eq_true.1 digits.2 '-' (List.mem_of_head? sign)
    exact absurd digit (by decide)

theorem eq_intText_of_readInt {number : Int} (isNumber : IsNumber literal)
    (read : readInt literal = some number) :
    literal = intText number ∨ literal = ['-', '0'] ∧ number = 0 := by
  rw [readInt] at read
  by_cases sign : literal.head? = some '-'
  · rw [if_pos sign] at read
    obtain ⟨natural, known, equal⟩ := Option.map_eq_some_iff.1 read
    cases literal with
    | nil => cases sign
    | cons first text =>
      cases sign
      obtain ⟨⟨part, left⟩, whole, same⟩ := Option.map_eq_some_iff.1 isNumber
      cases same
      have digits : part = natText natural := eq_natText_of_readNat known whole
      rw [← equal]
      by_cases zero : natural = 0
      · right
        rw [digits, zero]
        exact ⟨rfl, rfl⟩
      · left
        rw [intText, if_pos (by rw [Int.ofNat_eq_natCast]; omega),
          Int.natAbs_neg, Int.ofNat_eq_natCast, Int.natAbs_natCast, ← digits]
  · rw [if_neg sign] at read
    obtain ⟨natural, known, equal⟩ := Option.map_eq_some_iff.1 read
    left
    rw [eq_natText_of_isNumber isNumber known, ← equal, intText, if_neg (by simp)]
    simp

theorem intText_ne_negativeZero (number : Int) : intText number ≠ ['-', '0'] := by
  intro equal
  have read := readInt_intText number
  rw [equal] at read
  cases read
  cases equal

end Wings.Json
