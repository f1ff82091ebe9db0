import Wings.Library.Fallible
import Wings.Library.JsonRoundTrip

/-!
# Canonical JSON of policy envelopes

`appendCanonical` splits a text into raw messages and appends compact JSON with sorted keys. The
nesting of a text is bounded by its length, which bounds the recursion.
-/

namespace Wings.NetworkPolicy.Canonical

open Json FallibleProgram

inductive Failure where
  | emptyValue
  | decoding

def Failure.message : Failure → String
  | .emptyValue => "invalid empty JSON value"
  | .decoding => "invalid JSON"

def escapeRune (rune : Char) : Text :=
  if rune = '"' ∨ rune = '\\' then ['\\', rune]
  else if rune = '\x08' then ['\\', 'b']
  else if rune = '\x0c' then ['\\', 'f']
  else if rune = '\n' then ['\\', 'n']
  else if rune = '\r' then ['\\', 'r']
  else if rune = '\t' then ['\\', 't']
  else if rune.toNat < 0x20 then
    ['\\', 'u', '0', '0', Nat.digitChar (rune.toNat / 16), Nat.digitChar (rune.toNat % 16)]
  else [rune]

def appendJSONString (out value : Text) : Text :=
  value.foldl (fun out rune => out ++ escapeRune rune) (out ++ ['"']) ++ ['"']

def appendSeparated (append : Text → α → Except Failure Text) (out : Text) :
    List α → Except Failure Text
  | [] => .ok out
  | part :: parts => do
    let out ← append out part
    parts.foldlM (fun out part => append (out ++ [',']) part) out

def appendCanonicalObject (appendCanonical : Text → Text → Except Failure Text)
    (out : Text) (object : List (Text × Text)) :
    Except Failure Text := do
  let out ← appendSeparated
    (fun out entry =>
      appendCanonical (appendJSONString out entry.1 ++ [':']) entry.2)
    (out ++ ['\x7b']) (sortByKey object)
  return out ++ ['\x7d']

def appendCanonical : Nat → Text → Text → Except Failure Text
  | 0, _, _ => .error .decoding
  | bound + 1, out, raw =>
    let data := trim raw
    match data.head? with
    | none => .error .emptyValue
    | some first =>
      if first = '\x7b' then do
        let object ← orError (rawMembers data) .decoding
        appendCanonicalObject (appendCanonical bound) out (toMap object)
      else if first = '[' then do
        let items ← orError (rawItems data) .decoding
        let out ← appendSeparated (appendCanonical bound) (out ++ ['[']) items
        return out ++ [']']
      else if first = '"' then do
        let value ← orError (rawString data) .decoding
        return appendJSONString out value
      else return out ++ data

def canonical (text : Text) : Except Failure Text := appendCanonical (text.length + 1) [] text

theorem written_escapeRune (rune : Char) : Written rune (escapeRune rune) := by
  rw [escapeRune]
  by_cases quoted : rune = '"' ∨ rune = '\\'
  · rw [if_pos quoted]
    rcases quoted with rfl | rfl
    · exact .short (by decide)
    · exact .short (by decide)
  rw [if_neg quoted]
  by_cases backspace : rune = '\x08'
  · rw [if_pos backspace, backspace]
    exact .short (by decide)
  rw [if_neg backspace]
  by_cases feed : rune = '\x0c'
  · rw [if_pos feed, feed]
    exact .short (by decide)
  rw [if_neg feed]
  by_cases line : rune = '\n'
  · rw [if_pos line, line]
    exact .short (by decide)
  rw [if_neg line]
  by_cases carriage : rune = '\r'
  · rw [if_pos carriage, carriage]
    exact .short (by decide)
  rw [if_neg carriage]
  by_cases tab : rune = '\t'
  · rw [if_pos tab, tab]
    exact .short (by decide)
  rw [if_neg tab]
  by_cases control : rune.toNat < 0x20
  · rw [if_pos control]
    have digits : hexDigits rune.toNat = ['0', '0', Nat.digitChar (rune.toNat / 16),
          Nat.digitChar (rune.toNat % 16)] := by
      have first : rune.toNat / 4096 % 16 = 0 := by omega
      have second : rune.toNat / 256 % 16 = 0 := by omega
      have third : rune.toNat / 16 % 16 = rune.toNat / 16 := by omega
      rw [hexDigits, first, second, third]
      rfl
    rw [← digits]
    exact .unit (by omega)
  · rw [if_neg control]
    rw [not_or] at quoted
    exact .plain quoted.2 quoted.1 (Nat.le_of_not_lt control)

theorem escaping_escapeRune : Escaping escapeRune := .of_written written_escapeRune

theorem appendJSONString_eq (out value : Text) :
    appendJSONString out value = out ++ quote escapeRune value := by
  have appended : ∀ before : Text, value.foldl (fun out rune => out ++ escapeRune rune) before =
        before ++ value.flatMap escapeRune := by
    induction value with
    | nil => simp
    | cons rune value ih =>
      intro before
      rw [List.foldl_cons, ih, List.flatMap_cons, List.append_assoc]
  rw [appendJSONString, appended, quote]
  simp

theorem appendSeparated_eq (each : List.Forall₂ (fun part text =>
    ∀ out, append out part = .ok (out ++ text)) parts texts) (out : Text) :
    appendSeparated append out parts = .ok (out ++ join texts) := by
  cases each with
  | nil => simp [appendSeparated, join]
  | @cons part text parts texts first rest =>
    rw [appendSeparated, first, ok_bind]
    clear first
    induction rest generalizing out text with
    | nil => simp [join, pure, Except.pure]
    | @cons next following parts texts appended _ ih =>
      rw [List.foldlM_cons, appended, ok_bind, join_cons_cons]
      have shape : out ++ text ++ [','] ++ following = (out ++ text ++ [',']) ++ following := rfl
      rw [shape, ih]
      simp

theorem keys_eq {bound : Nat} {raws : List (Text × Text)} {members : List (Text × Value)}
    (each : List.Forall₂ (fun raw member => raw.1 = member.1 ∧
    denoteWithin bound raw.2 = some member.2) raws members) :
    raws.map Prod.fst = members.map Prod.fst := by
  rw [← List.forall₂_eq_eq_eq, List.forall₂_map_left_iff, List.forall₂_map_right_iff]
  exact each.imp fun _ _ known => known.1

section Values

variable
  (ih : ∀ {raw : Text} {value : Value}, denoteWithin bound raw = some value → value.Distinct →
    ∀ out, appendCanonical bound out raw = .ok (out ++ print escapeRune value.sorted))

include ih

theorem appendItems_eq (each : List.Forall₂ (fun raw item =>
    denoteWithin bound raw = some item) raws items) (distinct : ∀ item ∈ items, item.Distinct)
    (out : Text) : appendSeparated (appendCanonical bound) out raws =
    .ok (out ++ join ((items.map Value.sorted).map (print escapeRune))) := by
  apply appendSeparated_eq
  rw [List.map_map, List.forall₂_map_right_iff]
  refine (forall₂_and_right each distinct).imp ?_
  intro raw item known
  exact ih known.2 known.1

theorem appendMembers_eq (each : List.Forall₂ (fun raw member => raw.1 = member.1 ∧
    denoteWithin bound raw.2 = some member.2) raws members)
    (distinct : (Value.object members).Distinct) (out : Text) :
    appendCanonicalObject (appendCanonical bound) out raws =
    .ok (out ++ print escapeRune (Value.object members).sorted) := by
  rw [Value.distinct_object] at distinct
  have inOrder := sortByKey_forall₂ (fun _ _ known => known.2.1) (forall₂_and_right each distinct.2)
  have appended : List.Forall₂ (fun entry text => ∀ out,
        appendCanonical bound (appendJSONString out entry.1 ++ [':']) entry.2 = .ok (out ++ text))
      (sortByKey raws)
      ((sortByKey members).map fun member =>
        printMember escapeRune (member.1, member.2.sorted)) := by
    rw [List.forall₂_map_right_iff]
    refine inOrder.imp ?_
    intro raw member known out
    rw [ih known.2.2 known.1, appendJSONString_eq, known.2.1, printMember]
    simp
  rw [appendCanonicalObject, appendSeparated_eq appended, ok_bind,
    Value.sorted_object, sortByKey_map_value, print_object, List.map_map]
  simp [pure, Except.pure, Function.comp_def]

end Values

theorem appendCanonical_eq {bound : Nat} {raw : Text} {value : Value}
    (denotes : denoteWithin bound raw = some value) (distinct : value.Distinct) (out : Text) :
    appendCanonical bound out raw = .ok (out ++ print escapeRune value.sorted) := by
  induction bound generalizing raw value out with
  | zero => cases denotes
  | succ bound ih =>
    rw [appendCanonical]
    rcases denoteWithin_succ_eq_some denotes with
      ⟨head, raws, members, split, each, rfl⟩ |
      ⟨head, raws, items, split, each, rfl⟩ |
      ⟨head, content, split, rfl⟩ | ⟨other, scalar⟩
    · rw [head]
      dsimp only
      have nodup := ((Value.distinct_object members).1 distinct).1
      rw [if_pos rfl, split, orError, ok_bind, toMap_of_nodup (keys_eq each ▸ nodup),
        appendMembers_eq ih each distinct]
    · rw [head]
      dsimp only
      rw [if_neg (by decide), if_pos rfl, split, orError, ok_bind,
        appendItems_eq ih each ((Value.distinct_array _).1 distinct),
        ok_bind, Value.sorted_array, print_array]
      simp [pure, Except.pure]
    · rw [head]
      dsimp only
      rw [if_neg (by decide), if_neg (by decide), if_pos rfl, split,
        orError, ok_bind, appendJSONString_eq]
      rfl
    · obtain ⟨form, valid, printed⟩ := whole_readScalar escapeRune scalar
      obtain ⟨_, first, rest, equal, _⟩ := print_scalar escapeRune form valid
      have head : (trim raw).head? = some first := by
        rw [← printed, equal]
        rfl
      have same : value.sorted = value := by
        cases form <;> rfl
      simp only [List.forall_mem_cons, head, ne_eq, Option.some.injEq] at other
      rw [head]
      dsimp only
      rw [if_neg other.1, if_neg other.2.1, if_neg other.2.2.1, same, printed]
      rfl

theorem canonical_eq (denotes : denote text = some value) (distinct : value.Distinct) :
    canonical text = .ok (print escapeRune value.sorted) := appendCanonical_eq denotes distinct []

/-- Texts without repeated keys have the same canonical text exactly when they denote the same
value, and canonical texts stay as they are. -/
theorem canonical_faithful {text other : Text} {value otherValue : Value}
    (denotes : denote text = some value)
    (otherDenotes : denote other = some otherValue) (distinct : value.Distinct)
    (otherDistinct : otherValue.Distinct) : ∃ output otherOutput, canonical text = .ok output ∧
      canonical other = .ok otherOutput ∧ (value.Same otherValue ↔ output = otherOutput) ∧
      canonical output = .ok output := by
  have valid := valid_of_denoteWithin denotes
  have otherValid := valid_of_denoteWithin otherDenotes
  refine ⟨_, _, canonical_eq denotes distinct, canonical_eq otherDenotes otherDistinct, ?_, ?_⟩
  · rw [Value.same_iff_sorted_eq distinct otherDistinct,
      print_inj escaping_escapeRune valid.sorted otherValid.sorted]
  · rw [canonical_eq (denote_print escaping_escapeRune valid.sorted)
      distinct.sorted, Value.sorted_sorted distinct]

def sampleValue : Value := .object [(['b'], .array [.number ['1']]), (['a'], .string ['A'])]

def reorderedValue : Value := .object [(['a'], .string ['A']), (['b'], .array [.number ['1']])]

theorem sample_texts_canonical : ∃ output otherOutput,
      canonical "\x7b\"b\":[1],\"a\":\"\\u0041\"\x7d".toList = .ok output ∧
      canonical " \x7b \"a\" : \"A\", \"b\" : [ 1 ] \x7d".toList = .ok otherOutput ∧
      (sampleValue.Same reorderedValue ↔ output = otherOutput) ∧ canonical output = .ok output := by
  have number : IsNumber ['1'] := by decide
  apply canonical_faithful
  · apply denote_eq_some_of_print escaping_escapeRune
    · simp [sampleValue, number]
    · decide +kernel
  · apply denote_eq_some_of_print escaping_escapeRune
    · simp [reorderedValue, number]
    · decide +kernel
  · simp [sampleValue]
  · simp [reorderedValue]

end Wings.NetworkPolicy.Canonical
