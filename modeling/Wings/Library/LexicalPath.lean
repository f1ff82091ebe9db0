import Mathlib.Data.List.DropRight

/-!
# Words and slash-separated paths

When no word contains the separator, one text begins another exactly when its words begin those of
the other. Cleaning drops empty words and dots and takes back one word for every double dot, as far
as there are words.
-/

namespace Wings.SeparatedText

variable {Symbol : Type}

def separated (separator : Symbol) : List (List Symbol) → List Symbol
  | [] => []
  | first :: rest => first ++ rest.flatMap (separator :: ·)

def terminated (separator : Symbol) (words : List (List Symbol)) : List Symbol :=
  words.flatMap (· ++ [separator])

theorem separated_cons_cons (first second : List Symbol) (rest : List (List Symbol)) :
    separated separator (first :: second :: rest) =
    first ++ separator :: separated separator (second :: rest) := by
  simp [separated]

theorem separated_concat (nonempty : words ≠ []) (last : List Symbol) :
    separated separator (words ++ [last]) = separated separator words ++ separator :: last := by
  cases words with
  | nil => exact absurd rfl nonempty
  | cons first rest => simp [separated]

theorem separated_append (nonempty : words ≠ [])
    (moreNonempty : more ≠ []) : separated separator (words ++ more) =
    separated separator words ++ separator :: separated separator more := by
  obtain ⟨first, rest, rfl⟩ := List.exists_cons_of_ne_nil nonempty
  obtain ⟨second, others, rfl⟩ := List.exists_cons_of_ne_nil moreNonempty
  simp [separated]

theorem separated_append_separator (nonempty : words ≠ []) :
    separated separator words ++ [separator] = terminated separator words := by
  induction words with
  | nil => exact absurd rfl nonempty
  | cons first rest ih =>
    cases rest with
    | nil => simp [separated, terminated]
    | cons second rest =>
      have following := ih (by simp)
      rw [separated_cons_cons, List.append_assoc, List.cons_append, following]
      simp [terminated]

theorem word_begins_iff (firstFree : separator ∉ first) (secondFree : separator ∉ second)
    (rest other : List Symbol) : first ++ separator :: rest <+: second ++ separator :: other ↔
    first = second ∧ rest <+: other := by
  induction first generalizing second with
  | nil =>
    cases second with
    | nil => simp [List.cons_prefix_cons]
    | cons symbol symbols =>
      have different : separator ≠ symbol := fun same => secondFree (by simp [same])
      simp [List.cons_prefix_cons, different]
  | cons symbol symbols ih =>
    rw [List.mem_cons, not_or] at firstFree
    cases second with
    | nil =>
      have different : symbol ≠ separator := Ne.symm firstFree.1
      simp [List.cons_prefix_cons, different]
    | cons head tail =>
      rw [List.mem_cons, not_or] at secondFree
      simp only [List.cons_append, List.cons_prefix_cons, List.cons.injEq,
        ih firstFree.2 secondFree.2, and_assoc]

theorem terminated_begins_iff (firstFree : ∀ word ∈ first, separator ∉ word)
    (secondFree : ∀ word ∈ second, separator ∉ word) :
    terminated separator first <+: terminated separator second ↔ first <+: second := by
  induction first generalizing second with
  | nil => simp [terminated]
  | cons word words ih =>
    rw [List.forall_mem_cons] at firstFree
    cases second with
    | nil => simp [terminated]
    | cons head tail =>
      rw [List.forall_mem_cons] at secondFree
      have first := word_begins_iff firstFree.1 secondFree.1
        (terminated separator words) (terminated separator tail)
      rw [ih firstFree.2 secondFree.2] at first
      simpa [terminated, List.cons_prefix_cons] using first

theorem separated_injective (firstNonempty : first ≠ []) (secondNonempty : second ≠ [])
    (firstFree : ∀ word ∈ first, separator ∉ word) (secondFree : ∀ word ∈ second, separator ∉ word)
    (equal : separated separator first = separated separator second) : first = second := by
  have terminatedEqual : terminated separator first = terminated separator second := by
    rw [← separated_append_separator firstNonempty, equal,
      separated_append_separator secondNonempty]
  have forth := (terminated_begins_iff firstFree secondFree).mp (terminatedEqual ▸ List.prefix_rfl)
  have back := (terminated_begins_iff secondFree firstFree).mp (terminatedEqual ▸ List.prefix_rfl)
  exact forth.eq_of_length_le back.length_le

end Wings.SeparatedText

namespace Wings.LexicalPath

open SeparatedText

abbrev Text := List Char

/-- A word that names something: not empty, without a slash, and not one or two
dots. -/
structure Proper (word : Text) : Prop where
  nonempty : word ≠ []
  noSlash : '/' ∉ word
  notDot : word ≠ ['.']
  notDotDot : word ≠ ['.', '.']

/-- Two dots take back the last word, which is the first of the stack. -/
def takeBack (rooted : Bool) : List Text → List Text
  | [] => if rooted then [] else [['.', '.']]
  | top :: rest =>
    if top = ['.', '.'] then ['.', '.'] :: top :: rest else rest

/-- One word of a path, with the words before it from the last on. -/
def cleanStep (rooted : Bool) (stack : List Text) (word : Text) : List Text :=
  if word = [] ∨ word = ['.'] then stack
  else if word = ['.', '.'] then takeBack rooted stack
  else word :: stack

def normalize (rooted : Bool) (words : List Text) : List Text :=
  (words.foldl (cleanStep rooted) []).reverse

def clean (path : Text) : Text :=
  let rooted := path.head? == some '/'
  let body := separated '/' (normalize rooted (path.splitOn '/'))
  if rooted then '/' :: body else if body = [] then ['.'] else body

def join (first second : Text) : Text :=
  if first ≠ [] then clean (first ++ '/' :: second)
  else if second ≠ [] then clean second
  else []

def base (path : Text) : Text :=
  let trimmed := path.rdropWhile (· == '/')
  if path = [] then ['.'] else if trimmed = [] then ['/'] else trimmed.rtakeWhile (· != '/')

def dir (path : Text) : Text := clean (path.rdropWhile (· != '/'))

theorem separated_eq_intercalate (words : List Text) :
    separated '/' words = ['/'].intercalate words := by
  induction words with
  | nil => rfl
  | cons first rest ih =>
    cases rest with
    | nil => simp [separated]
    | cons second rest =>
      rw [separated_cons_cons, ih, List.intercalate_cons_cons]
      simp

variable {words : List Text}

theorem splitOn_separated (free : ∀ word ∈ words, '/' ∉ word)
    (nonempty : words ≠ []) : (separated '/' words).splitOn '/' = words := by
  rw [separated_eq_intercalate, List.splitOn_intercalate _ free nonempty]

theorem splitOn_slash_cons (path : Text) : ('/' :: path).splitOn '/' = [] :: path.splitOn '/' :=
  List.splitOn_append_cons_self_of_not_mem List.not_mem_nil path

theorem splitOn_free (path : Text) : ∀ word ∈ path.splitOn '/', '/' ∉ word := by
  induction path with
  | nil => simp
  | cons symbol path ih =>
    rw [List.splitOn_cons_eq_if_modifyHead]
    by_cases slash : symbol = '/'
    · simp [slash]
      exact ih
    · rw [if_neg (by simpa using slash)]
      obtain ⟨first, rest, split⟩ := List.exists_cons_of_ne_nil (List.splitOn_ne_nil '/' path)
      rw [split] at ih ⊢
      obtain ⟨firstFree, restFree⟩ := List.forall_mem_cons.mp ih
      rw [List.modifyHead_cons, List.forall_mem_cons]
      refine ⟨?_, restFree⟩
      rw [List.mem_cons, not_or]
      exact ⟨Ne.symm slash, firstFree⟩

theorem cleanStep_proper (proper : Proper word) (rooted : Bool)
    (stack : List Text) : cleanStep rooted stack word = word :: stack := by
  rw [cleanStep, if_neg (by simp [proper.nonempty, proper.notDot]), if_neg proper.notDotDot]

theorem foldl_cleanStep_proper (proper : ∀ word ∈ words, Proper word)
    (rooted : Bool) (stack : List Text) :
    words.foldl (cleanStep rooted) stack = words.reverse ++ stack := by
  induction words generalizing stack with
  | nil => rfl
  | cons word rest ih =>
    obtain ⟨first, others⟩ := List.forall_mem_cons.mp proper
    rw [List.foldl_cons, cleanStep_proper first, ih others, List.reverse_cons, List.append_assoc,
      List.singleton_append]

theorem normalize_append_proper (proper : ∀ word ∈ words, Proper word)
    (rooted : Bool) (before : List Text) :
    normalize rooted (before ++ words) = normalize rooted before ++ words := by
  rw [normalize, List.foldl_append, foldl_cleanStep_proper proper,
    List.reverse_append, List.reverse_reverse, normalize]

@[simp] theorem normalize_nil (rooted : Bool) : normalize rooted [] = [] := rfl

theorem normalize_proper (proper : ∀ word ∈ words, Proper word)
    (rooted : Bool) : normalize rooted words = words := normalize_append_proper proper rooted []

theorem normalize_append_nil_cons (rooted : Bool) (before after : List Text) :
    normalize rooted (before ++ [] :: after) = normalize rooted (before ++ after) := by
  simp [normalize, cleanStep]

theorem normalize_nil_cons (rooted : Bool) (words : List Text) :
    normalize rooted ([] :: words) = normalize rooted words :=
  normalize_append_nil_cons rooted [] words

theorem proper_of_mem_normalize (free : ∀ word ∈ words, '/' ∉ word) :
    ∀ word ∈ normalize true words, Proper word := by
  have folded :
      ∀ stack : List Text, (∀ word ∈ stack, Proper word) →
        ∀ word ∈ words.foldl (cleanStep true) stack, Proper word := by
    induction words with
    | nil => exact fun stack proper => proper
    | cons next rest ih =>
      intro stack proper
      obtain ⟨noSlash, others⟩ := List.forall_mem_cons.mp free
      apply ih others
      unfold cleanStep
      split_ifs with blank dots
      · exact proper
      · cases stack with
        | nil => simp [takeBack]
        | cons top below =>
          obtain ⟨topProper, belowProper⟩ := List.forall_mem_cons.mp proper
          rw [takeBack, if_neg topProper.notDotDot]
          exact belowProper
      · rw [not_or] at blank
        exact List.forall_mem_cons.mpr ⟨⟨blank.1, noSlash, blank.2, dots⟩, proper⟩
  intro word member
  exact folded [] (by simp) word (List.mem_reverse.mp member)

theorem clean_slash (path : Text) : clean ('/' :: path) =
    '/' :: separated '/' (normalize true (path.splitOn '/')) := by
  simp only [clean, List.head?_cons, beq_self_eq_true, if_true,
    splitOn_slash_cons, normalize_nil_cons]

section

variable (proper : ∀ word ∈ words, Proper word)
include proper

theorem clean_slash_separated :
    clean ('/' :: separated '/' words) = '/' :: separated '/' words := by
  rw [clean_slash]
  by_cases empty : words = []
  · subst empty
    rfl
  · rw [splitOn_separated (fun word member => (proper word member).noSlash)
      empty, normalize_proper proper]

theorem head?_separated_ne : (separated '/' words).head? ≠ some '/' := by
  cases words with
  | nil => exact fun same => by cases same
  | cons first rest =>
    have firstProper := proper first List.mem_cons_self
    obtain ⟨symbol, symbols, rfl⟩ := List.exists_cons_of_ne_nil firstProper.nonempty
    intro slash
    apply firstProper.noSlash
    rw [Option.some.inj slash]
    exact List.mem_cons_self

theorem separated_ne_nil (nonempty : words ≠ []) : separated '/' words ≠ [] := by
  obtain ⟨first, rest, rfl⟩ := List.exists_cons_of_ne_nil nonempty
  exact List.append_ne_nil_of_left_ne_nil (proper first List.mem_cons_self).nonempty _

end

theorem dir_word (free : '/' ∉ word) : dir word = ['.'] := by
  have nothing : word.rdropWhile (· != '/') = [] := by
    rw [List.rdropWhile_eq_nil_iff]
    intro symbol member
    rw [bne_iff_ne]
    intro slash
    exact free (slash ▸ member)
  rw [dir, nothing]
  rfl

theorem dir_append_word (path : Text) (free : '/' ∉ word) :
    dir (path ++ '/' :: word) = clean (path ++ ['/']) := by
  have dropped : (path ++ '/' :: word).rdropWhile (· != '/') = path ++ ['/'] := by
    have passed : ∀ symbol ∈ word.reverse, (symbol != '/') = true := by
      intro symbol member
      rw [bne_iff_ne]
      intro slash
      exact free (slash ▸ List.mem_reverse.mp member)
    rw [List.rdropWhile, List.reverse_append, List.reverse_cons,
      List.append_assoc, List.dropWhile_append_of_pos passed]
    simp
  rw [dir, dropped]

/-- The length of words with a slash after each of them. -/
def weight : List Text → Nat
  | [] => 0
  | word :: words => word.length + 1 + weight words

@[simp] theorem weight_nil : weight [] = 0 := rfl

@[simp] theorem weight_cons (word : Text) (words : List Text) :
    weight (word :: words) = word.length + 1 + weight words :=
  rfl

theorem weight_concat (words : List Text) (word : Text) :
    weight (words ++ [word]) = weight words + (word.length + 1) := by
  induction words with
  | nil => simp
  | cons first rest ih =>
    rw [List.cons_append, weight_cons, ih, weight_cons]
    omega

theorem weight_reverse (words : List Text) : weight words.reverse = weight words := by
  induction words with
  | nil => rfl
  | cons word rest ih =>
    rw [List.reverse_cons, weight_concat, ih, weight_cons, Nat.add_comm]

theorem weight_eq (nonempty : words ≠ []) : weight words = (separated '/' words).length + 1 := by
  induction words with
  | nil => exact absurd rfl nonempty
  | cons first rest ih =>
    cases rest with
    | nil => simp [separated]
    | cons second rest =>
      rw [weight_cons, ih (by simp), separated_cons_cons]
      simp
      omega

theorem weight_splitOn (path : Text) : weight (path.splitOn '/') = path.length + 1 := by
  rw [weight_eq (List.splitOn_ne_nil '/' path), separated_eq_intercalate, List.intercalate_splitOn]

theorem weight_cleanStep_le (rooted : Bool) (stack : List Text) (word : Text) :
    weight (cleanStep rooted stack word) ≤ weight stack + (word.length + 1) := by
  unfold cleanStep
  split_ifs with blank dots
  · omega
  · subst dots
    cases stack with
    | nil => cases rooted <;> simp [takeBack]
    | cons top rest =>
      rw [takeBack, weight_cons]
      by_cases dotted : top = ['.', '.']
      · rw [if_pos dotted, weight_cons, weight_cons]
        omega
      · rw [if_neg dotted]
        omega
  · rw [weight_cons]
    omega

theorem weight_normalize_le (rooted : Bool) (words : List Text) :
    weight (normalize rooted words) ≤ weight words := by
  have folded : ∀ stack : List Text, weight (words.foldl (cleanStep rooted) stack) ≤
          weight stack + weight words := by
    induction words with
    | nil => simp
    | cons word rest ih =>
      intro stack
      rw [List.foldl_cons, weight_cons]
      have first := weight_cleanStep_le rooted stack word
      have others := ih (cleanStep rooted stack word)
      omega
  rw [normalize, weight_reverse]
  simpa using folded []

theorem length_clean_slash_le (path : Text) : (clean ('/' :: path)).length ≤ path.length + 1 := by
  rw [clean_slash, List.length_cons]
  by_cases empty : normalize true (path.splitOn '/') = []
  · simp [empty, separated]
  · have bound := weight_normalize_le true (path.splitOn '/')
    rw [weight_eq empty, weight_splitOn] at bound
    omega

def Below (base path : Text) : Prop :=
  ∃ before after, (∀ word ∈ before ++ after, Proper word) ∧ after ≠ [] ∧
    base = '/' :: separated '/' before ∧ path = '/' :: separated '/' (before ++ after)

theorem exists_words (rooted : path.head? = some '/') (cleaned : clean path = path) :
    ∃ words, (∀ word ∈ words, Proper word) ∧ path = '/' :: separated '/' words := by
  obtain ⟨rest, rfl⟩ := List.head?_eq_some_iff.1 rooted
  exact ⟨_, proper_of_mem_normalize (splitOn_free rest), cleaned.symm⟩

theorem exists_normalize_false (free : ∀ word ∈ words, '/' ∉ word) :
    ∃ count kept, normalize false words = List.replicate count ['.', '.'] ++ kept ∧
    ∀ word ∈ kept, Proper word := by
  induction words using List.reverseRecOn with
  | nil => exact ⟨0, [], rfl, by simp⟩
  | append_singleton words word ih =>
    rw [List.forall_mem_append, List.forall_mem_singleton] at free
    obtain ⟨count, kept, left, proper⟩ := ih free.1
    have stack := congrArg List.reverse left
    rw [normalize, List.reverse_reverse] at stack
    rw [normalize, List.foldl_append, stack, List.foldl_cons, List.foldl_nil, cleanStep]
    split_ifs with blank dots
    · exact ⟨count, kept, by simp, proper⟩
    · obtain rfl | ⟨kept, last, rfl⟩ := kept.eq_nil_or_concat'
      · refine ⟨count + 1, [], ?_, by simp⟩
        cases count with
        | zero => rfl
        | succ count =>
          rw [List.append_nil, List.reverse_replicate, List.replicate_succ, takeBack, if_pos rfl,
            ← List.replicate_succ, ← List.replicate_succ, List.reverse_replicate, List.append_nil]
      · rw [List.forall_mem_append, List.forall_mem_singleton] at proper
        refine ⟨count, kept, ?_, proper.1⟩
        simp [takeBack, proper.2.notDotDot]
    · rw [not_or] at blank
      refine ⟨count, kept ++ [word], by simp, ?_⟩
      rw [List.forall_mem_append, List.forall_mem_singleton]
      exact ⟨proper, blank.1, free.2, blank.2, dots⟩

theorem foldl_splitOn_separated (proper : ∀ word ∈ words, Proper word) (stack : List Text) :
    ((separated '/' words).splitOn '/').foldl (cleanStep true) stack = words.reverse ++ stack := by
  by_cases empty : words = []
  · subst empty
    rfl
  · rw [splitOn_separated (fun word member => (proper word member).noSlash) empty,
      foldl_cleanStep_proper proper]

theorem join_separated (before after : List Text) (proper : ∀ word ∈ before ++ after, Proper word) :
    join ('/' :: separated '/' before) (separated '/' after) =
    '/' :: separated '/' (before ++ after) := by
  rw [List.forall_mem_append] at proper
  rw [join, if_pos (List.cons_ne_nil _ _), List.cons_append, clean_slash,
    List.splitOn_append_cons_self, normalize, List.foldl_append,
    foldl_splitOn_separated proper.1, foldl_splitOn_separated proper.2]
  simp

theorem base_append_word (path : Text) (proper : Proper word) :
    base (path ++ '/' :: word) = word := by
  have passed : ∀ symbol ∈ word.reverse, (symbol != '/') = true := by
    intro symbol member
    rw [bne_iff_ne]
    intro slash
    exact proper.noSlash (slash ▸ List.mem_reverse.mp member)
  have kept : (path ++ '/' :: word).rdropWhile (· == '/') = path ++ '/' :: word := by
    rw [List.rdropWhile_eq_self_iff]
    intro nonempty
    rw [List.getLast_append_of_right_ne_nil _ _ (by simp), List.getLast_cons proper.nonempty]
    simpa using passed _ (List.mem_reverse.mpr (List.getLast_mem proper.nonempty))
  rw [base, kept, if_neg (by simp), if_neg (by simp), List.rtakeWhile, List.reverse_append,
    List.reverse_cons, List.append_assoc, List.takeWhile_append_of_pos passed]
  simp

theorem dir_base_concat (proper : ∀ word ∈ before ++ [last], Proper word) :
    dir ('/' :: separated '/' (before ++ [last])) = '/' :: separated '/' before ∧
    base ('/' :: separated '/' (before ++ [last])) = last := by
  rw [List.forall_mem_append, List.forall_mem_singleton] at proper
  obtain ⟨front, split, cleaned⟩ : ∃ front,
      '/' :: separated '/' (before ++ [last]) = front ++ '/' :: last ∧
        clean (front ++ ['/']) = '/' :: separated '/' before := by
    by_cases empty : before = []
    · subst empty
      exact ⟨[], by simp [separated], rfl⟩
    · refine ⟨'/' :: separated '/' before, by rw [separated_concat empty]; rfl, ?_⟩
      have joined := join_separated before [] (by simpa using proper.1)
      rwa [join, if_pos (List.cons_ne_nil _ _), List.append_nil] at joined
  rw [split, dir_append_word _ proper.2.noSlash, cleaned, base_append_word _ proper.2]
  exact ⟨rfl, rfl⟩

/-- The path of some words, relative to the current directory. -/
def relative (words : List Text) : Text := if words = [] then ['.'] else separated '/' words

section

variable (plain : ∀ word ∈ words, word ≠ [] ∧ '/' ∉ word)
include plain

theorem head?_relative (more : Text) :
    relative words ≠ [] ∧ (relative words ++ more).head? ≠ some '/' := by
  cases words with
  | nil => exact ⟨List.cons_ne_nil _ _, fun slash => absurd (Option.some.inj slash) (by decide)⟩
  | cons first rest =>
    obtain ⟨nonempty, free⟩ := plain first List.mem_cons_self
    obtain ⟨symbol, symbols, rfl⟩ := List.exists_cons_of_ne_nil nonempty
    refine ⟨List.cons_ne_nil _ _, fun slash => free ?_⟩
    rw [← Option.some.inj slash]
    exact List.mem_cons_self

theorem clean_eq_relative (unrooted : path.head? ≠ some '/')
    (left : normalize false (path.splitOn '/') = words) : clean path = relative words := by
  have rooted : (path.head? == some '/') = false := beq_false_of_ne unrooted
  simp only [clean, rooted, left, Bool.false_eq_true, if_false, relative]
  by_cases empty : words = []
  · rw [empty]
    rfl
  · have nonempty := (head?_relative plain []).1
    rw [relative, if_neg empty] at nonempty
    rw [if_neg empty, if_neg nonempty]

theorem normalize_splitOn_relative (more : List Text) :
    normalize false ((relative words).splitOn '/' ++ more) = normalize false (words ++ more) := by
  by_cases empty : words = []
  · subst empty
    rfl
  · rw [relative, if_neg empty, splitOn_separated (fun word member => (plain word member).2) empty]

end

/-- The words of a clean relative path. -/
structure Settled (words : List Text) : Prop where
  plain : ∀ word ∈ words, word ≠ [] ∧ '/' ∉ word
  normal : normalize false words = words

namespace Settled

section

variable (settled : Settled words)
include settled

theorem append (proper : ∀ word ∈ more, Proper word) : Settled (words ++ more) where
  plain := List.forall_mem_append.2 ⟨settled.plain, fun word member =>
    ⟨(proper word member).nonempty, (proper word member).noSlash⟩⟩
  normal := by rw [normalize_append_proper proper, settled.normal]

theorem concat (proper : Proper word) : Settled (words ++ [word]) :=
  settled.append (List.forall_mem_singleton.2 proper)

theorem clean_relative : clean (relative words) = relative words := by
  apply clean_eq_relative settled.plain
  · simpa using (head?_relative settled.plain []).2
  · simpa [settled.normal] using normalize_splitOn_relative settled.plain []

theorem clean_append (finished : Settled all)
    (left : normalize false (words ++ rest.splitOn '/') = all) :
    join (relative words) rest = relative all := by
  rw [join, if_pos (head?_relative settled.plain []).1]
  apply clean_eq_relative finished.plain (head?_relative settled.plain _).2
  rw [List.splitOn_append_cons_self, normalize_splitOn_relative settled.plain, left]

theorem join_nil : join (relative words) [] = relative words := by
  apply settled.clean_append settled
  rw [List.splitOn_nil, normalize_append_nil_cons, List.append_nil, settled.normal]

theorem join_word (proper : Proper word) :
    join (relative words) word = relative (words ++ [word]) := by
  apply settled.clean_append (settled.concat proper)
  rw [List.splitOn_eq_singleton proper.noSlash, (settled.concat proper).normal]

theorem dir_concat (proper : Proper word) : dir (relative (words ++ [word])) = relative words := by
  rw [relative, if_neg (by simp)]
  by_cases empty : words = []
  · subst empty
    simpa [separated, relative] using dir_word proper.noSlash
  · have isDirectory := settled.join_nil
    rw [join, if_pos (head?_relative settled.plain []).1] at isDirectory
    rw [separated_concat empty, dir_append_word _ proper.noSlash, ← isDirectory]
    simp only [relative, if_neg empty]

end

theorem of_proper (proper : ∀ word ∈ words, Proper word) : Settled words where
  plain word member := ⟨(proper word member).nonempty, (proper word member).noSlash⟩
  normal := normalize_proper proper false

theorem of_clean (cleaned : clean path = path) (unrooted : path.head? ≠ some '/') :
    ∃ words, Settled words ∧ path = relative words := by
  obtain ⟨count, kept, left, proper⟩ := exists_normalize_false (splitOn_free path)
  have plain : ∀ word ∈ normalize false (path.splitOn '/'), word ≠ [] ∧ '/' ∉ word := by
    rw [left, List.forall_mem_append]
    refine ⟨fun word dots => ?_, fun word member => ⟨(proper word member).1, (proper word member).2⟩⟩
    rw [List.eq_of_mem_replicate dots]
    decide
  have isPath := cleaned.symm.trans (clean_eq_relative plain unrooted rfl)
  have normal := normalize_splitOn_relative plain []
  rw [← isPath, List.append_nil, List.append_nil] at normal
  exact ⟨_, ⟨plain, normal.symm⟩, isPath⟩

end Settled

end Wings.LexicalPath
