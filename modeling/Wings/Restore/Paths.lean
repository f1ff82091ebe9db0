import Wings.Archives.Naming

/-!
# Paths inside the sandbox

`unsafePath` takes the path of the root on the host off the start of a path, and fails or leaves a
relative path without double dots. An absolute path inside the server may start with the same text.
-/

namespace Wings.Restore

open Archives SeparatedText
open LexicalPath hiding Text

def errBadPathResolution : Failure := .message "bad path resolution"

def unsafeIsPathInsideOfBase (basePath path : Text) : Bool :=
  hasPrefix (trimSlash path ++ ['/']) (basePath ++ ['/'])

def unsafePath (basePath path : Text) : Except Failure Text :=
  let r := clean (join basePath (trimPrefix path basePath))
  if unsafeIsPathInsideOfBase basePath r then
    let r := trimPrefix (trimPrefix r basePath) ['/']
    .ok (if r = [] then ['.'] else r)
  else .error errBadPathResolution

def nameOf (word : Text) : Option Name :=
  if proper :
      word ≠ [] ∧ '/' ∉ word ∧ word ≠ ['.'] ∧ word ≠ ['.', '.'] then
    some ⟨word, proper.1, proper.2.1, proper.2.2.1, proper.2.2.2⟩
  else none

def pathOf (name : Text) : Path := (name.splitOn '/').filterMap nameOf

def absolute (path : Path) : Text := '/' :: separated '/' (path.map Name.text)

theorem proper_words (path : Path) : ∀ word ∈ path.map Name.text, Proper word := by
  intro word member
  obtain ⟨name, _, rfl⟩ := List.mem_map.mp member
  exact ⟨name.nonempty, name.noSlash, name.notDot, name.notDotDot⟩

theorem exists_path (proper : ∀ word ∈ words, Proper word) :
    ∃ path : Path, path.map Name.text = words := by
  induction words with
  | nil => exact ⟨[], rfl⟩
  | cons word rest ih =>
    obtain ⟨first, others⟩ := List.forall_mem_cons.mp proper
    obtain ⟨path, equal⟩ := ih others
    refine ⟨⟨word, first.nonempty, first.noSlash, first.notDot, first.notDotDot⟩ :: path, ?_⟩
    rw [List.map_cons, equal]

theorem absolute_eq (nonempty : path ≠ []) : absolute path = '/' :: pathText path := by
  rw [absolute, pathText_eq_separated nonempty]

theorem splitOn_pathText (nonempty : path ≠ []) :
    (pathText path).splitOn '/' = path.map Name.text := by
  rw [pathText_eq_separated nonempty]
  exact splitOn_separated (words_free path) (by simpa using nonempty)

theorem nameOf_text (name : Name) : nameOf name.text = some name := by
  rw [nameOf, dif_pos ⟨name.nonempty, name.noSlash, name.notDot, name.notDotDot⟩]

theorem pathOf_pathText (path : Path) : pathOf (pathText path) = path := by
  by_cases empty : path = []
  · subst empty
    rfl
  · rw [pathOf, splitOn_pathText empty, List.filterMap_map,
      show nameOf ∘ Name.text = some from funext nameOf_text,
      List.filterMap_some]

theorem normalize_append_pathText (before : List Text) (path : Path) :
    normalize true (before ++ (pathText path).splitOn '/') =
    normalize true before ++ path.map Name.text := by
  by_cases empty : path = []
  · subst empty
    rw [List.map_nil, List.append_nil]
    change normalize true (before ++ [['.']]) = _
    simp [LexicalPath.normalize, cleanStep]
  · rw [splitOn_pathText empty, normalize_append_proper (proper_words path)]

theorem normalize_append_absolute (before : List Text) (path : Path) :
    normalize true (before ++ (absolute path).splitOn '/') =
    normalize true before ++ path.map Name.text := by
  rw [absolute, splitOn_slash_cons, normalize_append_nil_cons]
  by_cases empty : path = []
  · subst empty
    exact (normalize_append_nil_cons true before []).trans (by simp)
  · rw [splitOn_separated (words_free path) (by simpa using empty),
      normalize_append_proper (proper_words path)]

theorem join_slash_pathText (path : Path) : join ['/'] (pathText path) = absolute path := by
  rw [join, if_pos (List.cons_ne_nil _ _), List.singleton_append, clean_slash,
    splitOn_slash_cons, normalize_nil_cons, absolute]
  have words := normalize_append_pathText [] path
  rw [List.nil_append] at words
  rw [words]
  rfl

theorem pathText_eq_relative (path : Path) : pathText path = relative (path.map Name.text) := by
  cases path <;> rfl

theorem settled_words (path : Path) : Settled (path.map Name.text) := .of_proper (proper_words path)

theorem dir_pathText_concat (way : Path) (name : Name) :
    dir (pathText (way ++ [name])) = pathText way := by
  rw [pathText_eq_relative, pathText_eq_relative, List.map_append]
  exact (settled_words way).dir_concat (proper_words [name] _ List.mem_cons_self)

section

variable (root : RelativePath)

def basePath : Text := absolute root.1

theorem join_basePath (rest : Text) : join (basePath root) rest = '/' :: separated '/'
    (normalize true (root.1.map Name.text ++ rest.splitOn '/')) := by
  rw [basePath, absolute, join, if_pos (List.cons_ne_nil _ _), List.cons_append,
    clean_slash, List.splitOn_append_cons_self,
    splitOn_separated (words_free root.1) (by simpa using root.2)]

theorem basePath_begins_iff (path : Path) :
    unsafeIsPathInsideOfBase (basePath root) (absolute path) = true ↔ root.1 <+: path := by
  rw [unsafeIsPathInsideOfBase, hasPrefix_iff, basePath, absolute_eq root.2]
  by_cases empty : path = []
  · subst empty
    have none : ¬ root.1 <+: [] := by
      rw [List.prefix_nil]
      exact root.2
    refine iff_of_false ?_ none
    intro begins
    have bound := begins.length_le
    obtain ⟨first, rest, equal⟩ := List.exists_cons_of_ne_nil root.2
    obtain ⟨symbol, symbols, spelled, _⟩ := first.exists_text_eq_cons
    simp [absolute, separated, trimSlash, equal, pathText, spelled] at bound
  · have ends : trimSlash ('/' :: pathText path) = '/' :: pathText path := by
      rw [trimSlash, if_neg]
      rw [List.getLast?_cons, Option.some.injEq]
      intro last
      cases inner : (pathText path).getLast? with
      | none =>
        obtain ⟨first, rest, rfl⟩ := List.exists_cons_of_ne_nil empty
        obtain ⟨symbol, symbols, spelled, _⟩ := first.exists_text_eq_cons
        simp [pathText, separated, spelled] at inner
      | some symbol =>
        rw [inner, Option.getD_some] at last
        exact getLast?_pathText_ne empty (last ▸ inner)
    rw [absolute_eq empty, ends, List.cons_append, List.cons_append,
      List.cons_prefix_cons, pathText_eq_separated root.2, pathText_eq_separated empty,
      separated_append_separator (by simpa using root.2),
      separated_append_separator (by simpa using empty),
      terminated_begins_iff (words_free _) (words_free _), words_begins_iff]
    simp

theorem trimPrefix_append (start rest : Text) : trimPrefix (start ++ rest) start = rest := by
  have begins : hasPrefix (start ++ rest) start = true := by
    rw [hasPrefix_iff]
    exact List.prefix_append start rest
  rw [trimPrefix, if_pos begins, List.drop_left]

theorem absolute_append (nonempty : path ≠ []) :
    absolute (root.1 ++ path) = basePath root ++ '/' :: pathText path := by
  rw [absolute, List.map_append, separated_append (by simpa using root.2)
    (by simpa using nonempty), ← pathText_eq_separated nonempty, basePath,
    absolute, List.cons_append]

theorem unsafePath_of_normalize (words :
    normalize true (root.1.map Name.text ++ (trimPrefix path (basePath root)).splitOn '/') =
    (root.1 ++ below).map Name.text) : unsafePath (basePath root) path = .ok (pathText below) := by
  have joined : clean (join (basePath root) (trimPrefix path (basePath root))) =
        absolute (root.1 ++ below) := by
    rw [join_basePath, words, clean_slash_separated (proper_words _)]
    rfl
  have inside := (basePath_begins_iff root (root.1 ++ below)).mpr (List.prefix_append _ _)
  simp only [unsafePath, joined, if_pos inside]
  by_cases empty : below = []
  · subst empty
    have same : absolute (root.1 ++ []) = basePath root ++ [] := by
      simp [basePath]
    rw [same, trimPrefix_append]
    rfl
  · have some : pathText below ≠ [] := by
      intro none
      exact absurd (pathText_eq_separated empty ▸ none) (by
        obtain ⟨first, rest, rfl⟩ := List.exists_cons_of_ne_nil empty
        simp [separated, first.nonempty])
    rw [absolute_append root empty, trimPrefix_append,
      show '/' :: pathText below = ['/'] ++ pathText below from rfl,
      trimPrefix_append, if_neg some]

theorem unsafePath_pathText (path : Path) :
    unsafePath (basePath root) (pathText path) = .ok (pathText path) := by
  have relative : trimPrefix (pathText path) (basePath root) = pathText path := by
    rw [trimPrefix, if_neg]
    by_cases empty : path = []
    · subst empty
      simp [hasPrefix, pathText, basePath, absolute]
    · rw [basePath, absolute, hasPrefix_pathText_root empty]
      exact Bool.false_ne_true
  apply unsafePath_of_normalize
  rw [relative, normalize_append_pathText, normalize_proper (proper_words _), List.map_append]

theorem unsafePath_absolute (outside : ¬ basePath root <+: absolute path) :
    unsafePath (basePath root) (absolute path) = .ok (pathText path) := by
  have kept : trimPrefix (absolute path) (basePath root) = absolute path := by
    rw [trimPrefix, if_neg (mt (hasPrefix_iff _ _).mp outside)]
  apply unsafePath_of_normalize
  rw [kept, normalize_append_absolute, normalize_proper (proper_words _), List.map_append]

theorem exists_path_of_unsafePath (resolved : unsafePath (basePath root) path = .ok name) :
    ∃ below : Path, name = pathText below ∧
    (below ≠ [] → (pathText below).length ≤ (trimPrefix path (basePath root)).length) := by
  have free : ∀ word ∈ root.1.map Name.text ++
          (trimPrefix path (basePath root)).splitOn '/', '/' ∉ word := by
    intro word member
    rcases List.mem_append.mp member with first | second
    · exact words_free root.1 word first
    · exact splitOn_free _ word second
  obtain ⟨whole, words⟩ := exists_path (proper_of_mem_normalize free)
  have joined : clean (join (basePath root) (trimPrefix path (basePath root))) =
        absolute whole := by
    rw [join_basePath, ← words, clean_slash_separated (proper_words _)]
    rfl
  have inside : unsafeIsPathInsideOfBase (basePath root) (absolute whole) = true := by
    by_contra outside
    simp [unsafePath, joined, outside] at resolved
  obtain ⟨below, rfl⟩ := (basePath_begins_iff root whole).mp inside
  refine ⟨below, ?_, fun nonempty => ?_⟩
  · rw [unsafePath_of_normalize root words.symm, Except.ok.injEq] at resolved
    exact resolved.symm
  · have bound := length_clean_slash_le (separated '/' (root.1.map Name.text) ++
        '/' :: trimPrefix path (basePath root))
    have equal : clean ('/' :: (separated '/' (root.1.map Name.text) ++
            '/' :: trimPrefix path (basePath root))) = absolute (root.1 ++ below) := by
      rw [← joined, join_basePath, clean_slash_separated
        (words ▸ proper_words _), clean_slash, List.splitOn_append_cons_self,
        splitOn_separated (words_free root.1) (by simpa using root.2)]
    have length : (basePath root).length = (separated '/' (root.1.map Name.text)).length + 1 := by
      rw [basePath, absolute, List.length_cons]
    rw [equal, absolute_append root nonempty] at bound
    simp only [List.length_append, List.length_cons] at bound
    omega

theorem two_le_length_basePath : 2 ≤ (basePath root).length := by
  obtain ⟨first, rest, equal⟩ := List.exists_cons_of_ne_nil root.2
  obtain ⟨symbol, symbols, spelled, _⟩ := first.exists_text_eq_cons
  simp [basePath, absolute, equal, separated, spelled]

theorem length_pathText_le (nonempty : upper ≠ []) (begins : upper <+: path) :
    (pathText upper).length ≤ (pathText path).length := by
  obtain ⟨lower, rfl⟩ := begins
  by_cases empty : lower = []
  · simp [empty]
  · rw [pathText_eq_separated nonempty, pathText_eq_separated (by simp [nonempty]),
      List.map_append, separated_append (by simpa using nonempty)
        (by simpa using empty), List.length_append]
    omega

theorem not_begins_of_unsafePath (inside : basePath root <+: absolute way)
    (resolved : unsafePath (basePath root) (absolute way) =
    .ok (pathText below)) : ¬ way <+: below := by
  intro begins
  have long := two_le_length_basePath root
  have nonempty : way ≠ [] := by
    rintro rfl
    have short := inside.length_le
    simp only [absolute, List.map_nil, separated, List.length_singleton] at short
    omega
  obtain ⟨other, same, bound⟩ := exists_path_of_unsafePath root resolved
  have equal : below = other := by
    have parsed := congrArg pathOf same
    rwa [pathOf_pathText, pathOf_pathText] at parsed
  subst equal
  have belowNonempty : below ≠ [] := by
    rintro rfl
    exact nonempty (List.prefix_nil.mp begins)
  have shorter := bound belowNonempty
  have stripped : (trimPrefix (absolute way) (basePath root)).length =
        (absolute way).length - (basePath root).length := by
    rw [trimPrefix, if_pos ((hasPrefix_iff _ _).mpr inside), List.length_drop]
  rw [stripped, absolute_eq nonempty, List.length_cons] at shorter
  have longer := length_pathText_le nonempty begins
  have bounded := inside.length_le
  rw [absolute_eq nonempty, List.length_cons] at bounded
  omega

end

structure IsBase (base : Text) : Prop where
  cleaned : clean base = base
  absolute : base.head? = some '/'
  notRoot : base ≠ ['/']

def Within (base path : Text) : Prop := path = base ∨ ∃ rest, rest ≠ [] ∧ path = base ++ '/' :: rest

/-- A clean path without a slash at its start that never goes up. -/
structure Confined (path : Text) : Prop where
  nonempty : path ≠ []
  cleaned : clean path = path
  relative : path.head? ≠ some '/'
  words : ∀ word ∈ path.splitOn '/', word ≠ [] ∧ word ≠ ['.', '.']

theorem IsBase.exists_root {base : Text} (isBase : IsBase base) :
    ∃ root : RelativePath, base = basePath root := by
  obtain ⟨rest, rfl⟩ := List.head?_eq_some_iff.1 isBase.absolute
  have cleaned := isBase.cleaned
  rw [clean_slash] at cleaned
  obtain ⟨path, words⟩ := exists_path (proper_of_mem_normalize (splitOn_free rest))
  have nonempty : path ≠ [] := by
    rintro rfl
    rw [← words] at cleaned
    exact isBase.notRoot cleaned.symm
  refine ⟨⟨path, nonempty⟩, ?_⟩
  rw [basePath, Restore.absolute, words, cleaned]

section

variable (root : RelativePath)

theorem exists_absolute (rest : Text) :
    ∃ whole : Path, clean (join (basePath root) rest) = absolute whole := by
  have free : ∀ word ∈ root.1.map Name.text ++ rest.splitOn '/', '/' ∉ word := by
    intro word member
    rcases List.mem_append.mp member with first | second
    · exact words_free root.1 word first
    · exact splitOn_free _ word second
  obtain ⟨whole, words⟩ := exists_path (proper_of_mem_normalize free)
  refine ⟨whole, ?_⟩
  rw [join_basePath, ← words, clean_slash_separated (proper_words _)]
  rfl

theorem within_absolute (below : Path) : Within (basePath root) (absolute (root.1 ++ below)) := by
  by_cases empty : below = []
  · rw [empty, List.append_nil]
    exact .inl rfl
  · rw [absolute_append root empty]
    refine .inr ⟨_, ?_, rfl⟩
    rw [pathText_eq_separated empty]
    exact separated_ne_nil (proper_words below) (by simpa using empty)

theorem join_pathText (below : Path) :
    join (basePath root) (pathText below) = absolute (root.1 ++ below) := by
  rw [join_basePath, normalize_append_pathText,
    normalize_proper (proper_words _), absolute, List.map_append]

end

theorem confined_pathText (path : Path) : pathText path = ['.'] ∨ Confined (pathText path) := by
  by_cases empty : path = []
  · rw [empty]
    exact .inl rfl
  · right
    have settled := settled_words path
    constructor
    case words =>
      rw [splitOn_pathText empty]
      intro word member
      have proper := proper_words path word member
      exact ⟨proper.nonempty, proper.notDotDot⟩
    all_goals rw [pathText_eq_relative]
    · exact (head?_relative settled.plain []).1
    · exact settled.clean_relative
    · simpa using (head?_relative settled.plain []).2

/-- A path is resolved inside the base path or not at all. -/
theorem unsafePath_confined (base path : Text) (isBase : IsBase base) :
    (∀ name, unsafePath base path = .ok name →
      (name = ['.'] ∨ Confined name) ∧ Within base (join base name) ∧
        unsafePath base name = .ok name) ∧
      (¬ Within base (clean (join base (trimPrefix path base))) →
        unsafePath base path = .error errBadPathResolution) := by
  obtain ⟨root, rfl⟩ := isBase.exists_root
  constructor
  · intro name resolved
    obtain ⟨below, rfl, _⟩ := exists_path_of_unsafePath root resolved
    refine ⟨confined_pathText below, ?_, unsafePath_pathText root below⟩
    rw [join_pathText]
    exact within_absolute root below
  · intro outside
    obtain ⟨whole, joined⟩ := exists_absolute root (trimPrefix path (basePath root))
    have unsafeOutside : unsafeIsPathInsideOfBase (basePath root) (absolute whole) ≠ true := by
      rw [ne_eq, basePath_begins_iff]
      rintro ⟨below, rfl⟩
      apply outside
      rw [joined]
      exact within_absolute root below
    simp only [unsafePath, joined]
    exact if_neg unsafeOutside

private def srvBase : Text := "/srv/data".toList

theorem srv_path_confined : unsafePath srvBase "/srv/database/../x/./y".toList = .ok "x/y".toList ∧
      Confined "x/y".toList ∧ unsafePath srvBase "../y".toList = .error errBadPathResolution := by
  have isBase : IsBase srvBase := ⟨by decide, rfl, by decide⟩
  have resolved : unsafePath srvBase "/srv/database/../x/./y".toList = .ok "x/y".toList := by
    decide +kernel
  refine ⟨resolved, ?_, ?_⟩
  · obtain ⟨confined, _⟩ := (unsafePath_confined srvBase
      "/srv/database/../x/./y".toList isBase).1 "x/y".toList resolved
    exact confined.resolve_left (by decide)
  · refine (unsafePath_confined srvBase "../y".toList isBase).2 ?_
    have joined : clean (join srvBase (trimPrefix "../y".toList srvBase)) = "/srv/y".toList := by
      decide +kernel
    rw [joined]
    rintro (same | ⟨rest, _, same⟩)
    · exact absurd same (by decide)
    · have long := congrArg List.length same
      have short : "/srv/y".toList.length < srvBase.length := by
        decide +kernel
      rw [long, List.length_append] at short
      omega

end Wings.Restore
