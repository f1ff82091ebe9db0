import Wings.Library.JsonText

/-!
# Round trips of JSON values

A printed value is skipped up to what follows it, splits into the printed parts it is made of, and
denotes the value again.
-/

namespace Wings.Json

/-- A value that is neither a string nor made of other values. -/
inductive Scalar : Value → Prop
  | null : Scalar .null
  | bool (value : Bool) : Scalar (.bool value)
  | number (literal : Text) : Scalar (.number literal)

/-- The characters that stand outside of number literals. -/
def reserved : List Char :=
  ['n', 't', 'f', '"', '[', ']', '\x7b', '\x7d', ',', ':', ' ', '\t', '\n', '\r']

theorem isNumeric_of_reserved : ∀ character ∈ reserved, isNumeric character = false := by
  simp [reserved, isNumeric]

theorem isSpace_of_isNumeric (numeric : isNumeric character = true) :
    isSpace character = false := by
  by_contra space
  have member : character ∈ reserved := by
    simp only [isSpace, Bool.not_eq_false, Bool.or_eq_true, decide_eq_true_eq] at space
    simp only [reserved, List.mem_cons]
    tauto
  rw [isNumeric_of_reserved character member] at numeric
  cases numeric

theorem head?_ne_of_isNumeric (numeric : isNumeric character = true) (member : mark ∈ reserved) :
    some character ≠ some mark := by
  intro equal
  cases equal
  rw [isNumeric_of_reserved character member] at numeric
  cases numeric

theorem word_begins : ∀ word ∈ words, ∃ first ∈ reserved, word.1.head? = some first := by
  simp [words, reserved]

theorem findWord_eq_none (numeric : isNumeric character = true) (text : Text) :
    findWord (character :: text) = none := by
  rw [findWord, List.find?_eq_none]
  intro word member taken
  obtain ⟨first, known, begins⟩ := word_begins word member
  have taken := of_decide_eq_true taken
  rw [← taken] at begins
  cases length : word.1.length with
  | zero =>
    rw [length] at begins
    cases begins
  | succ length' =>
    rw [length] at begins
    exact head?_ne_of_isNumeric numeric known begins

theorem readScalar_print (escape : Char → Text) (scalar : Scalar value)
    (valid : value.Valid) (stops : Stops rest) :
    readScalar (print escape value ++ rest) = some (value, rest) := by
  cases scalar with
  | null => rfl
  | bool value => cases value <;> rfl
  | number literal =>
    have number : IsNumber literal := valid
    have read := scans_readNumber.extended number stops
    obtain ⟨character, text, rfl⟩ := List.exists_cons_of_ne_nil number.ne_nil
    have none := findWord_eq_none (number.isNumeric character List.mem_cons_self) (text ++ rest)
    change readScalar (character :: (text ++ rest)) = _
    rw [readScalar, none]
    rw [← List.cons_append, read]
    rfl

def Begins (text : Text) : Prop := ∃ (first : Char) (rest : Text),
    text = first :: rest ∧ isSpace first = false

def Finishes (text : Text) : Prop := ∃ (before : Text) (last : Char),
    text = before ++ [last] ∧ isSpace last = false

theorem Begins.skipSpace (begins : Begins text) (rest : Text) :
    Json.skipSpace (text ++ rest) = text ++ rest := by
  obtain ⟨first, after, rfl, visible⟩ := begins
  rw [List.cons_append, Json.skipSpace, List.dropWhile_cons_of_neg]
  rw [visible]
  exact Bool.false_ne_true

theorem trim_eq_self (begins : Begins text) (finishes : Finishes text) : trim text = text := by
  have skipped := begins.skipSpace []
  rw [List.append_nil] at skipped
  obtain ⟨before, last, equal, visible⟩ := finishes
  rw [trim, skipped, equal, List.rdropWhile_concat_neg]
  rw [visible]
  exact Bool.false_ne_true

theorem print_scalar (escape : Char → Text) (scalar : Scalar value) (valid : value.Valid) :
    (∀ character ∈ print escape value, isSpace character = false) ∧
    ∃ first rest, print escape value = first :: rest ∧
    ∀ mark ∈ ['\x7b', '[', '"', ']'], some first ≠ some mark := by
  cases scalar with
  | null =>
    rw [print_null]
    exact ⟨by simp [isSpace], _, _, rfl, by simp⟩
  | bool value =>
    rw [print_bool]
    cases value with
    | true | false => exact ⟨by simp [isSpace], _, _, rfl, by simp⟩
  | number literal =>
    have number : IsNumber literal := valid
    refine ⟨fun character member =>
      isSpace_of_isNumeric (number.isNumeric character member), ?_⟩
    obtain ⟨first, rest, equal⟩ := List.exists_cons_of_ne_nil number.ne_nil
    refine ⟨first, rest, equal, ?_⟩
    intro mark member
    apply head?_ne_of_isNumeric (number.isNumeric first _)
    · have known : ['\x7b', '[', '"', ']'] ⊆ reserved := by
        simp [reserved]
      exact known member
    · rw [equal]
      exact List.mem_cons_self

theorem scalar_or (value : Value) : Scalar value ∨ (∃ text, value = .string text) ∨
    (∃ items, value = .array items) ∨ ∃ members, value = .object members := by
  cases value with
  | null => exact .inl .null
  | bool value => exact .inl (.bool value)
  | number literal => exact .inl (.number literal)
  | string text => exact .inr (.inl ⟨text, rfl⟩)
  | array items => exact .inr (.inr (.inl ⟨items, rfl⟩))
  | object members => exact .inr (.inr (.inr ⟨members, rfl⟩))

theorem begins_print (escape : Char → Text) (valid : value.Valid) :
    Begins (print escape value) ∧ (print escape value).head? ≠ some ']' := by
  rcases scalar_or value with scalar | ⟨text, rfl⟩ | ⟨items, rfl⟩ | ⟨members, rfl⟩
  · obtain ⟨visible, first, rest, equal, other⟩ := print_scalar escape scalar valid
    refine ⟨⟨first, rest, equal, visible first ?_⟩, ?_⟩
    · rw [equal]
      exact List.mem_cons_self
    · rw [equal]
      exact other ']' (by decide)
  · exact ⟨⟨_, _, rfl, rfl⟩, (by decide : some '"' ≠ some ']')⟩
  · rw [print_array]
    exact ⟨⟨_, _, rfl, rfl⟩, (by decide : some '[' ≠ some ']')⟩
  · rw [print_object]
    exact ⟨⟨_, _, rfl, rfl⟩, (by decide : some '\x7b' ≠ some ']')⟩

theorem finishes_print (escape : Char → Text) (valid : value.Valid) :
    Finishes (print escape value) := by
  rcases scalar_or value with scalar | ⟨text, rfl⟩ | ⟨items, rfl⟩ | ⟨members, rfl⟩
  · obtain ⟨visible, first, rest, equal, _⟩ := print_scalar escape scalar valid
    have nonempty : print escape value ≠ [] := by
      rw [equal]
      exact List.cons_ne_nil first rest
    refine ⟨_, _, (List.dropLast_append_getLast nonempty).symm, ?_⟩
    exact visible _ (List.getLast_mem nonempty)
  · exact ⟨_, _, rfl, rfl⟩
  · rw [print_array]
    exact ⟨_, _, rfl, rfl⟩
  · rw [print_object]
    exact ⟨_, _, rfl, rfl⟩

theorem trim_print (valid : value.Valid) : trim (print escape value) = print escape value :=
  trim_eq_self (begins_print escape valid).1 (finishes_print escape valid)

theorem join_cons_cons (first second : Text) (texts : List Text) : join (first :: second :: texts) =
    first ++ ',' :: join (second :: texts) := by
  simp [join, List.intercalate_cons_cons]

theorem join_cons (first : Text) (texts : List Text) :
    ∃ more, join (first :: texts) = first ++ more := by
  cases texts with
  | nil => exact ⟨[], by simp [join]⟩
  | cons second texts => exact ⟨_, join_cons_cons first second texts⟩

theorem length_le_join (member : text ∈ texts) : text.length ≤ (join texts).length := by
  induction texts with
  | nil => cases member
  | cons first texts ih =>
    cases texts with
    | nil =>
      cases List.mem_singleton.1 member
      exact Nat.le_of_eq (by simp [join])
    | cons second texts =>
      rw [join_cons_cons, List.length_append, List.length_cons]
      rcases List.mem_cons.1 member with rfl | later
      · omega
      · have bound := ih later
        omega

theorem count_le_length_join (nonempty : ∀ text ∈ texts, text ≠ []) :
    texts.length ≤ (join texts).length := by
  induction texts with
  | nil => exact Nat.zero_le _
  | cons first texts ih =>
    rw [List.forall_mem_cons] at nonempty
    have positive := List.length_pos_iff.2 nonempty.1
    have bound := ih nonempty.2
    cases texts with
    | nil =>
      have single : join [first] = first := by simp [join]
      rw [single]
      exact positive
    | cons second texts =>
      rw [join_cons_cons, List.length_append, List.length_cons, List.length_cons (a := ',')]
      omega

section Separated

variable {read : Text → Option (α × Text)} {parts : List β}

theorem readSeparated_join (closes : close ∈ [']', '\x7d']) (nonempty : parts ≠ [])
    (begins : ∀ part ∈ parts, Begins (write part))
    (reads : ∀ part ∈ parts, ∀ rest, Stops rest →
      read (write part ++ rest) = some (parse part, rest)) (rest : Text) (fuel : Nat)
    (enough : parts.length ≤ fuel) : readSeparated read close fuel
        (join (parts.map write) ++ close :: rest) = some (parts.map parse, rest) := by
  have visible : isNumeric close = false ∧ isSpace close = false ∧ some close ≠ some ',' := by
    rcases List.mem_pair.1 closes with rfl | rfl <;> decide
  have skipped : skipSpace (close :: rest) = close :: rest :=
    Begins.skipSpace ⟨close, [], rfl, visible.2.1⟩ rest
  induction parts generalizing fuel with
  | nil => exact absurd rfl nonempty
  | cons part parts ih =>
    obtain ⟨fuel, rfl⟩ := Nat.exists_eq_add_one_of_ne_zero
      (Nat.ne_of_gt (Nat.lt_of_lt_of_le (Nat.succ_pos _) enough))
    rw [List.forall_mem_cons] at begins reads
    cases parts with
    | nil =>
      have single : join ([part].map write) = write part := by
        simp [join]
      rw [single, readSeparated, begins.1.skipSpace,
        reads.1 _ (Stops.cons visible.1 rest), Option.bind_some]
      dsimp only
      rw [skipped, List.head?_cons, if_neg visible.2.2, if_pos rfl]
      rfl
    | cons next parts =>
      rw [List.map_cons, List.map_cons, join_cons_cons,
        List.append_assoc, readSeparated, begins.1.skipSpace,
        List.cons_append, reads.1 _ (Stops.cons (by decide) _), Option.bind_some]
      dsimp only
      have comma : ∀ text : Text, skipSpace (',' :: text) = ',' :: text := fun _ => rfl
      rw [comma, List.head?_cons, if_pos rfl, List.tail_cons,
        ← List.map_cons, ih (List.cons_ne_nil _ _) begins.2
          reads.2 fuel (Nat.le_of_succ_le_succ enough), Option.map_some]
      rfl

theorem readList_join (closes : close ∈ [']', '\x7d'])
    (begins : ∀ part ∈ parts, Begins (write part))
    (other : ∀ part ∈ parts, (write part).head? ≠ some close)
    (reads : ∀ part ∈ parts, ∀ rest, Stops rest →
      read (write part ++ rest) = some (parse part, rest)) (rest : Text) :
    readList read close (join (parts.map write) ++ close :: rest) =
      some (parts.map parse, rest) := by
  have visible : isSpace close = false := by
    rcases List.mem_pair.1 closes with rfl | rfl <;> decide
  cases parts with
  | nil =>
    have skipped : skipSpace (close :: rest) = close :: rest :=
      Begins.skipSpace ⟨close, [], rfl, visible⟩ rest
    change readList read close (close :: rest) = _
    rw [readList, skipped]
    exact if_pos rfl
  | cons part parts =>
    have nonempty : ∀ text ∈ (part :: parts).map write, text ≠ [] := by
      intro text member
      obtain ⟨written, known, rfl⟩ := List.mem_map.1 member
      obtain ⟨first, after, equal, _⟩ := begins written known
      rw [equal]
      exact List.cons_ne_nil first after
    have first : Begins (join ((part :: parts).map write)) ∧
        (join ((part :: parts).map write)).head? ≠ some close := by
      obtain ⟨more, joined⟩ := join_cons (write part) (parts.map write)
      obtain ⟨character, after, equal, visible⟩ := begins part List.mem_cons_self
      have head := other part List.mem_cons_self
      rw [List.map_cons, joined, equal]
      rw [equal] at head
      exact ⟨⟨character, after ++ more, rfl, visible⟩, head⟩
    have count := count_le_length_join nonempty
    rw [readList, first.1.skipSpace, if_neg,
      readSeparated_join closes (List.cons_ne_nil part parts) begins reads]
    · rw [List.length_append]
      rw [List.length_map] at count
      omega
    · rw [List.head?_append_of_ne_nil]
      · exact first.2
      · obtain ⟨character, after, equal, _⟩ := first.1
        rw [equal]
        exact List.cons_ne_nil character after

end Separated

theorem length_print_item_lt (escape : Char → Text) (member : item ∈ items) :
    (print escape item).length < (print escape (.array items)).length := by
  have bound := length_le_join (List.mem_map_of_mem (f := print escape) member)
  rw [print_array, List.length_append, List.length_cons]
  omega

theorem length_print_member_lt (escape : Char → Text) (member : entry ∈ members) :
    (print escape entry.2).length < (print escape (.object members)).length := by
  have bound := length_le_join (List.mem_map_of_mem (f := printMember escape) member)
  rw [printMember, List.length_append, List.length_cons] at bound
  rw [print_object, List.length_append, List.length_cons]
  omega

theorem readRaw_of_skip (skips : skip (text ++ rest) = some rest) :
    readRaw skip (text ++ rest) = some (text, rest) := by
  rw [readRaw, skips, Option.map_some, List.length_append, Nat.add_sub_cancel, List.take_left]

section Printed

theorem readMember_printMember (escaping : Escaping escape)
    (valid : entry.2.Valid) (skips : skip (print escape entry.2 ++ rest) = some rest) :
    readMember skip (printMember escape entry ++ rest) =
    some ((entry.1, print escape entry.2), rest) := by
  have shape : printMember escape entry ++ rest = '"' :: (entry.1.flatMap escape ++
        '"' :: ':' :: (print escape entry.2 ++ rest)) := by
    simp [printMember, quote]
  have colon : ∀ text : Text, skipSpace (':' :: text) = ':' :: text := fun _ => rfl
  rw [shape, readMember, List.head?_cons, if_pos rfl, List.tail_cons,
    escaping.readString_flatMap, Option.bind_some]
  dsimp only
  rw [colon, List.head?_cons, if_pos rfl, List.tail_cons,
    (begins_print escape valid).1.skipSpace, readRaw_of_skip skips, Option.map_some]

theorem begins_printMember (entry : Text × Value) : Begins (printMember escape entry) ∧
    (printMember escape entry).head? ≠ some '\x7d' :=
  ⟨⟨'"', _, rfl, rfl⟩, (by decide : some '"' ≠ some '\x7d')⟩

variable {items : List Value}

theorem readList_items (valid : ∀ item ∈ items, item.Valid)
    (skips : ∀ item ∈ items, ∀ rest, Stops rest → skip (print escape item ++ rest) = some rest)
    (rest : Text) : readList (readRaw skip) ']' (join (items.map (print escape)) ++ ']' :: rest) =
      some (items.map (print escape), rest) := by
  apply readList_join (by decide)
  · intro item member
    exact (begins_print escape (valid item member)).1
  · intro item member
    exact (begins_print escape (valid item member)).2
  · intro item member rest stops
    exact readRaw_of_skip (skips item member rest stops)

variable {members : List (Text × Value)}

section

variable (escaping : Escaping escape)
include escaping

theorem readList_members (valid : ∀ entry ∈ members, entry.2.Valid)
    (skips : ∀ entry ∈ members, ∀ rest, Stops rest →
    skip (print escape entry.2 ++ rest) = some rest) (rest : Text) :
    readList (readMember skip) '\x7d' (join (members.map (printMember escape)) ++ '\x7d' :: rest) =
    some (members.map fun entry => (entry.1, print escape entry.2), rest) := by
  apply readList_join (by decide)
  · intro entry _
    exact (begins_printMember entry).1
  · intro entry _
    exact (begins_printMember entry).2
  · intro entry member rest stops
    exact readMember_printMember escaping (valid entry member) (skips entry member rest stops)

theorem skipValue_print (valid : value.Valid) (fuel : Nat)
    (enough : (print escape value).length ≤ fuel) (rest : Text)
    (stops : Stops rest) : skipValue fuel (print escape value ++ rest) = some rest := by
  induction fuel generalizing value rest with
  | zero =>
    obtain ⟨first, after, equal, _⟩ := (begins_print escape valid).1
    rw [equal] at enough
    cases enough
  | succ fuel ih =>
    rcases scalar_or value with scalar | ⟨text, rfl⟩ | ⟨items, rfl⟩ | ⟨members, rfl⟩
    · obtain ⟨_, first, after, equal, other⟩ := print_scalar escape scalar valid
      have read := readScalar_print escape scalar valid stops
      rw [equal] at read ⊢
      rw [List.cons_append] at read ⊢
      rw [skipValue, List.head?_cons, if_neg (other _ (by decide)),
        if_neg (other _ (by decide)), if_neg (other _ (by decide)), read]
      rfl
    · have shape : print escape (.string text) ++ rest =
          '"' :: (text.flatMap escape ++ '"' :: rest) := by
        simp [print_string, quote]
      rw [shape, skipValue, List.head?_cons, if_neg (by decide),
        if_neg (by decide), if_pos rfl, List.tail_cons, escaping.readString_flatMap]
      rfl
    · rw [Value.valid_array] at valid
      have shape : print escape (.array items) ++ rest =
          '[' :: (join (items.map (print escape)) ++ ']' :: rest) := by
        simp [print_array]
      rw [shape, skipValue, List.head?_cons, if_neg (by decide),
        if_pos rfl, List.tail_cons, readList_items valid]
      · rfl
      · intro item member rest stops
        apply ih (valid item member) _ rest stops
        have shorter := length_print_item_lt escape member
        omega
    · rw [Value.valid_object] at valid
      have shape : print escape (.object members) ++ rest =
          '\x7b' :: (join (members.map (printMember escape)) ++ '\x7d' :: rest) := by
        simp [print_object]
      rw [shape, skipValue, List.head?_cons, if_pos rfl, List.tail_cons,
        readList_members escaping valid]
      · rfl
      · intro entry member rest stops
        apply ih (valid entry member) _ rest stops
        have shorter := length_print_member_lt escape member
        omega

theorem rawItems_print (valid : ∀ item ∈ items, item.Valid) :
    rawItems (print escape (.array items)) = some (items.map (print escape)) := by
  have skipped : skipSpace (print escape (.array items)) =
      '[' :: (join (items.map (print escape)) ++ [']']) := by
    rw [print_array]
    rfl
  rw [rawItems, skipped, List.head?_cons, if_pos rfl, List.tail_cons, readList_items valid]
  · rfl
  · intro item member rest stops
    apply skipValue_print escaping (valid item member) _ _ rest stops
    have shorter := length_print_item_lt escape member
    rw [print_array, List.cons_append] at shorter
    exact Nat.le_of_lt shorter

theorem rawMembers_print (valid : ∀ entry ∈ members, entry.2.Valid) :
    rawMembers (print escape (.object members)) =
    some (members.map fun entry => (entry.1, print escape entry.2)) := by
  have skipped : skipSpace (print escape (.object members)) =
      '\x7b' :: (join (members.map (printMember escape)) ++ ['\x7d']) := by
    rw [print_object]
    rfl
  rw [rawMembers, skipped, List.head?_cons, if_pos rfl, List.tail_cons,
    readList_members escaping valid]
  · rfl
  · intro entry member rest stops
    apply skipValue_print escaping (valid entry member) _ _ rest stops
    have shorter := length_print_member_lt escape member
    rw [print_object, List.cons_append] at shorter
    exact Nat.le_of_lt shorter

theorem rawString_quote (text : Text) : rawString (quote escape text) = some text := by
  have skipped : skipSpace (quote escape text) = '"' :: (text.flatMap escape ++ ['"']) := rfl
  rw [rawString, skipped, List.head?_cons, if_pos rfl, List.tail_cons, escaping.readString_flatMap]
  rfl

end

end Printed

theorem mapM_eq_some_iff : elements.mapM convert = some results ↔
    List.Forall₂ (fun element result => convert element = some result) elements results := by
  induction elements generalizing results with
  | nil => simp [eq_comm]
  | cons element elements ih =>
    rw [List.mapM_cons, List.forall₂_cons_left_iff]
    simp only [Option.bind_eq_bind, Option.bind_eq_some_iff, ih, Option.pure_def, Option.some.injEq]
    constructor
    · rintro ⟨result, converted, rest, each, rfl⟩
      exact ⟨result, rest, converted, each, rfl⟩
    · rintro ⟨result, rest, converted, each, rfl⟩
      exact ⟨result, converted, rest, each, rfl⟩

variable {related : α → β → Prop}

theorem forall₂_mem_right (each : List.Forall₂ related elements others)
    (member : other ∈ others) : ∃ element, related element other := by
  have found : List.Forall₂ (fun other _ => (∃ element, related element other) ∧ True)
      others elements := each.flip.imp fun _ element known => ⟨⟨element, known⟩, trivial⟩
  exact ((List.forall₂_and_left _ _).1 found).1 other member

theorem forall₂_and_right (each : List.Forall₂ related elements others)
    {property : β → Prop} (holds : ∀ other ∈ others, property other) :
    List.Forall₂ (fun element other => property other ∧ related element other) elements others :=
  ((List.forall₂_and_left _ _).2 ⟨holds, each.flip⟩).flip

section Denoted

/-- A printed value denotes that value. -/
theorem denoteWithin_print (escaping : Escaping escape) (valid : value.Valid)
    (bound : Nat) (enough : (print escape value).length ≤ bound) :
    denoteWithin bound (print escape value) = some value := by
  induction bound generalizing value with
  | zero =>
    obtain ⟨first, after, equal, _⟩ := (begins_print escape valid).1
    rw [equal] at enough
    cases enough
  | succ bound ih =>
    rw [denoteWithin, trim_print valid]
    rcases scalar_or value with scalar | ⟨text, rfl⟩ | ⟨items, rfl⟩ | ⟨members, rfl⟩
    · obtain ⟨_, first, after, equal, other⟩ := print_scalar escape scalar valid
      have read := readScalar_print escape scalar valid Stops.nil
      rw [List.append_nil] at read
      rw [equal] at read ⊢
      rw [List.head?_cons, if_neg (other _ (by decide)),
        if_neg (other _ (by decide)), if_neg (other _ (by decide)), read]
      rfl
    · have head : (print escape (.string text)).head? = some '"' := rfl
      rw [head, if_neg (by decide), if_neg (by decide), if_pos rfl,
        print_string, rawString_quote escaping]
      rfl
    · rw [Value.valid_array] at valid
      have head : (print escape (.array items)).head? = some '[' := by
        rfl
      have each : (items.map (print escape)).mapM (denoteWithin bound) = some items := by
        rw [mapM_eq_some_iff, List.forall₂_map_left_iff, List.forall₂_same]
        intro item member
        apply ih (valid item member)
        have shorter := length_print_item_lt escape member
        omega
      rw [head, if_neg (by decide), if_pos rfl,
        rawItems_print escaping valid, Option.bind_some, each]
      rfl
    · rw [Value.valid_object] at valid
      have head : (print escape (.object members)).head? = some '\x7b' := by
        rfl
      rw [head, if_pos rfl, rawMembers_print escaping valid,
        Option.bind_some, mapM_eq_some_iff.2, Option.map_some]
      rw [List.forall₂_map_left_iff, List.forall₂_same]
      intro entry member
      rw [ih (valid entry member)]
      · rfl
      · have shorter := length_print_member_lt escape member
        omega

theorem print_inj (escaping : Escaping escape) (valid : value.Valid) (otherValid : other.Valid) :
    print escape value = print escape other ↔ value = other := by
  constructor
  · intro equal
    have denoted := denoteWithin_print escaping valid _ (Nat.le_refl _)
    rw [equal, denoteWithin_print escaping otherValid _ (Nat.le_refl _)] at denoted
    exact (Option.some.inj denoted).symm
  · intro equal
    rw [equal]

theorem denote_print (escaping : Escaping escape) (valid : value.Valid) :
    denote (print escape value) = some value := denoteWithin_print escaping valid _ (Nat.le_succ _)

end Denoted

theorem eq_nil_of_trim_eq (trimmed : trim text = before ++ rest)
    (space : rest.all isSpace = true) : rest = [] := by
  by_contra nonempty
  have ends : trim text ≠ [] := by
    rw [trimmed]
    exact List.append_ne_nil_of_right_ne_nil before nonempty
  have visible := List.rdropWhile_last_not isSpace (skipSpace text) ends
  have last : (trim text).getLast ends = rest.getLast nonempty := by
    simp only [trimmed]
    exact List.getLast_append_of_ne_nil _ nonempty
  rw [List.all_eq_true] at space
  exact visible (last ▸ space _ (List.getLast_mem nonempty))

theorem word_prints (escape : Char → Text) : ∀ word ∈ words, Scalar word.2 ∧ word.2.Valid ∧
    print escape word.2 = word.1 := by
  simp only [words, List.forall_mem_cons]
  exact ⟨⟨.null, trivial, rfl⟩, ⟨.bool true, trivial, rfl⟩, ⟨.bool false, trivial, rfl⟩, nofun⟩

theorem whole_readScalar (escape : Char → Text)
    (read : whole (readScalar (trim text)) = some value) :
    Scalar value ∧ value.Valid ∧ print escape value = trim text := by
  obtain ⟨⟨result, rest⟩, scanned, outcome⟩ := Option.bind_eq_some_iff.1 read
  split at outcome
  case isFalse => cases outcome
  case isTrue space =>
    cases outcome
    rw [readScalar] at scanned
    cases found : findWord (trim text) with
    | some word =>
      rw [found] at scanned
      cases scanned
      have member := List.mem_of_find?_eq_some found
      have matched := List.find?_some found
      have taken := of_decide_eq_true matched
      have splits := (List.take_append_drop word.1.length (trim text)).symm
      have finished := eq_nil_of_trim_eq splits space
      rw [finished, List.append_nil, taken] at splits
      rw [splits]
      exact word_prints escape _ member
    | none =>
      rw [found] at scanned
      obtain ⟨⟨literal, left⟩, known, equal⟩ := Option.map_eq_some_iff.1 scanned
      cases equal
      have splits := (scans_readNumber.splits known).1
      have finished := eq_nil_of_trim_eq splits space
      rw [finished] at known splits
      rw [List.append_nil] at splits
      rw [splits] at known
      exact ⟨.number literal, known, splits.symm⟩

theorem denoteWithin_succ_eq_some (denotes : denoteWithin (bound + 1) text = some value) :
    ((trim text).head? = some '\x7b' ∧ ∃ raws members, rawMembers (trim text) = some raws ∧
        List.Forall₂ (fun raw member => raw.1 = member.1 ∧
          denoteWithin bound raw.2 = some member.2) raws members ∧ value = .object members) ∨
    ((trim text).head? = some '[' ∧ ∃ raws items, rawItems (trim text) = some raws ∧
        List.Forall₂ (fun raw item =>
          denoteWithin bound raw = some item) raws items ∧
        value = .array items) ∨
    ((trim text).head? = some '"' ∧ ∃ content,
      rawString (trim text) = some content ∧ value = .string content) ∨
    (∀ mark ∈ ['\x7b', '[', '"'], (trim text).head? ≠ some mark) ∧
      whole (readScalar (trim text)) = some value := by
  rw [denoteWithin] at denotes
  by_cases brace : (trim text).head? = some '\x7b'
  · rw [if_pos brace] at denotes
    obtain ⟨raws, split, denotes⟩ := Option.bind_eq_some_iff.1 denotes
    obtain ⟨members, each, equal⟩ := Option.map_eq_some_iff.1 denotes
    refine .inl ⟨brace, raws, members, split, ?_, equal.symm⟩
    refine (mapM_eq_some_iff.1 each).imp ?_
    intro raw member converted
    obtain ⟨value, denoted, rfl⟩ := Option.map_eq_some_iff.1 converted
    exact ⟨rfl, denoted⟩
  · rw [if_neg brace] at denotes
    by_cases bracket : (trim text).head? = some '['
    · rw [if_pos bracket] at denotes
      obtain ⟨raws, split, denotes⟩ := Option.bind_eq_some_iff.1 denotes
      obtain ⟨items, each, equal⟩ := Option.map_eq_some_iff.1 denotes
      exact .inr (.inl ⟨bracket, raws, items, split, mapM_eq_some_iff.1 each, equal.symm⟩)
    · rw [if_neg bracket] at denotes
      by_cases mark : (trim text).head? = some '"'
      · rw [if_pos mark] at denotes
        obtain ⟨content, known, equal⟩ := Option.map_eq_some_iff.1 denotes
        exact .inr (.inr (.inl ⟨mark, content, known, equal.symm⟩))
      · rw [if_neg mark] at denotes
        refine .inr (.inr (.inr ⟨?_, denotes⟩))
        simpa using ⟨brace, bracket, mark⟩

theorem valid_of_denoteWithin (denotes : denoteWithin bound text = some value) : value.Valid := by
  induction bound generalizing text value with
  | zero => cases denotes
  | succ bound ih =>
    rcases denoteWithin_succ_eq_some denotes with
      ⟨_, raws, members, _, each, rfl⟩ | ⟨_, raws, items, _, each, rfl⟩ |
      ⟨_, content, _, rfl⟩ | ⟨_, scalar⟩
    · rw [Value.valid_object]
      intro member known
      obtain ⟨raw, _, denoted⟩ := forall₂_mem_right each known
      exact ih denoted
    · rw [Value.valid_array]
      intro item known
      obtain ⟨raw, denoted⟩ := forall₂_mem_right each known
      exact ih denoted
    · exact trivial
    · exact (whole_readScalar List.singleton scalar).2.1

theorem denote_eq_some_of_print (escaping : Escaping escape) (valid : value.Valid)
    (printed : (denote text).map (print escape) = some (print escape value)) :
    denote text = some value := by
  obtain ⟨denoted, known, equal⟩ := Option.map_eq_some_iff.1 printed
  rw [known, (print_inj escaping (valid_of_denoteWithin known) valid).1 equal]

end Wings.Json
