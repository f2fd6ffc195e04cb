import Bacs.Foundation.LexicalPath

/-!
# Generic path names

A path is a text.  It has a root name (two separators and a name), a root
directory (a separator), both or neither, and then names.  Repeated
separators count as one, except that exactly two at the start begin a root
name.  A separator at the end stands for an element `.`.
-/

namespace Bacs.PathGrammar

open LexicalPath

abbrev Path := List Char

def separator : Path := ['/']

def dot : Path := ['.']

def dotDot : Path := ['.', '.']

def pieces (text : Path) : List Path :=
  (text.splitOn '/').filter (! ·.isEmpty)

def rootName : Path → Option Path
  | '/' :: '/' :: rest =>
      if rest.head? = some '/' then none
      else some (rest.takeWhile (· ≠ '/'))
  | _ => none

def afterRootName : Path → Path
  | '/' :: '/' :: rest =>
      if rest.head? = some '/' then '/' :: '/' :: rest
      else rest.dropWhile (· ≠ '/')
  | path => path

def hasRootDirectory (path : Path) : Bool :=
  (afterRootName path).head? = some '/'

def names (path : Path) : List Path :=
  pieces (afterRootName path)

def rootElements (path : Path) : List Path :=
  ((rootName path).map (separator ++ separator ++ ·)).toList ++
    if hasRootDirectory path then [separator] else []

/-- A separator at the end that is no root directory. -/
def trailing (path : Path) : List Path :=
  if names path ≠ [] ∧ path.getLast? = some '/' then [dot] else []

/-- The elements that the iterators of a path visit. -/
def elements (path : Path) : List Path :=
  rootElements path ++ names path ++ trailing path

/-- `operator/=` -/
def append (path more : Path) : Path :=
  if more = [] then path
  else if more.head? = some '/' ∨ path = [] ∨ path.getLast? = some '/' then
    path ++ more
  else path ++ '/' :: more

def anchor (path : Path) : Option Path :=
  (rootElements path).head?

def step (element : Path) : Step Path :=
  if element = dotDot then .up
  else if element = dot then .stay
  else .down element

structure Plain (name : Path) : Prop where
  filled : name ≠ []
  unseparated : '/' ∉ name
  notDot : name ≠ dot
  notDotDot : name ≠ dotDot

theorem Plain.step {name : Path} (plain : Plain name) :
    step name = .down name := by
  rw [PathGrammar.step, if_neg plain.notDotDot, if_neg plain.notDot]

theorem Plain.head {name : Path} (plain : Plain name) :
    name.head? ≠ some '/' := by
  intro first
  exact plain.unseparated (List.mem_of_head? first)

theorem step_separated {element : Path}
    (separated : element.head? = some '/') : step element = .down element := by
  obtain ⟨rest, rfl⟩ := List.head?_eq_some_iff.1 separated
  rw [step, if_neg (by simp [dotDot]), if_neg (by simp [dot])]

theorem map_step_plain {plainNames : List Path}
    (plain : ∀ name ∈ plainNames, Plain name) :
    plainNames.map step = plainNames.map .down :=
  List.map_congr_left fun name member => (plain name member).step

/-! ## Pieces -/

@[simp] theorem pieces_nil : pieces [] = [] :=
  rfl

theorem pieces_append_separator (left right : Path) :
    pieces (left ++ '/' :: right) = pieces left ++ pieces right := by
  rw [pieces, List.splitOn_append_cons_self, List.filter_append]
  rfl

@[simp] theorem pieces_separator_cons (text : Path) :
    pieces ('/' :: text) = pieces text :=
  pieces_append_separator [] text

theorem pieces_unseparated {name : Path} (unseparated : '/' ∉ name) :
    pieces name = if name = [] then [] else [name] := by
  rw [pieces, List.splitOn_eq_singleton unseparated]
  cases name <;> rfl

theorem mem_pieces {name text : Path} (member : name ∈ pieces text) :
    name ≠ [] ∧ '/' ∉ name := by
  obtain ⟨inside, filled⟩ := List.mem_filter.1 member
  refine ⟨by simpa using filled, ?_⟩
  clear filled member
  induction text generalizing name with
  | nil =>
      rw [List.splitOn_nil, List.mem_singleton] at inside
      simp [inside]
  | cons character rest ih =>
      rw [List.splitOn_cons_eq_if_modifyHead] at inside
      split at inside
      · rcases List.mem_cons.1 inside with rfl | later
        · simp
        · exact ih later
      case isFalse other =>
        cases split : rest.splitOn '/' with
        | nil => exact absurd split (List.splitOn_ne_nil _ _)
        | cons first others =>
            rw [split, List.modifyHead_cons] at inside
            rcases List.mem_cons.1 inside with rfl | later
            · have here := @ih first (by simp [split])
              simp only [List.mem_cons, not_or]
              refine ⟨?_, here⟩
              rintro rfl
              simp at other
            · exact ih (by simp [split, later])

def joined (plainNames : List Path) : Path :=
  separator.intercalate plainNames

theorem joined_cons_cons (name next : Path) (rest : List Path) :
    joined (name :: next :: rest) = name ++ '/' :: joined (next :: rest) := by
  rw [joined, List.intercalate_cons_cons, List.append_assoc]
  rfl

theorem pieces_joined {plainNames : List Path}
    (plain : ∀ name ∈ plainNames, Plain name) :
    pieces (joined plainNames) = plainNames := by
  induction plainNames with
  | nil => rfl
  | cons name rest ih =>
      have here := plain name List.mem_cons_self
      have alone : pieces name = [name] := by
        rw [pieces_unseparated here.unseparated, if_neg here.filled]
      cases rest with
      | nil => rwa [joined, List.intercalate_singleton]
      | cons next others =>
          rw [joined_cons_cons, pieces_append_separator, alone,
            ih fun other member => plain other (List.mem_cons_of_mem _ member)]
          rfl

theorem joined_ne_nil {plainNames : List Path}
    (plain : ∀ name ∈ plainNames, Plain name) (some : plainNames ≠ []) :
    joined plainNames ≠ [] := by
  intro empty
  refine some ?_
  rw [← pieces_joined plain, empty, pieces_nil]

theorem joined_head {plainNames : List Path}
    (plain : ∀ name ∈ plainNames, Plain name) :
    (joined plainNames).head? ≠ some '/' := by
  cases plainNames with
  | nil => simp [joined]
  | cons name rest =>
      have here := plain name List.mem_cons_self
      obtain ⟨character, characters, rfl⟩ :=
        List.exists_cons_of_ne_nil here.filled
      have first := here.head
      cases rest with
      | nil => simpa [joined] using first
      | cons next others =>
          rw [joined_cons_cons]
          simpa using first

theorem joined_getLast {plainNames : List Path}
    (plain : ∀ name ∈ plainNames, Plain name) :
    (joined plainNames).getLast? ≠ some '/' := by
  induction plainNames with
  | nil => simp [joined]
  | cons name rest ih =>
      have here := plain name List.mem_cons_self
      cases rest with
      | nil =>
          intro last
          refine here.unseparated (List.mem_of_getLast? ?_)
          simpa [joined] using last
      | cons next others =>
          have plainRest : ∀ other ∈ next :: others, Plain other :=
            fun other member => plain other (List.mem_cons_of_mem _ member)
          rw [joined_cons_cons, List.getLast?_append_of_ne_nil _ (by simp),
            List.getLast?_cons_of_ne_nil (joined_ne_nil plainRest (by simp))]
          exact ih plainRest

/-! ## Roots -/

theorem rootName_relative {path : Path} (relative : path.head? ≠ some '/') :
    rootName path = none ∧ afterRootName path = path := by
  match path with
  | [] => exact ⟨rfl, rfl⟩
  | character :: rest =>
      have other : character ≠ '/' := by simpa using relative
      constructor
      · simp [rootName, other]
      · simp [afterRootName, other]

theorem rootName_directory {rest : Path} (single : rest.head? ≠ some '/') :
    rootName ('/' :: rest) = none ∧ afterRootName ('/' :: rest) = '/' :: rest := by
  match rest with
  | [] => exact ⟨rfl, rfl⟩
  | character :: others =>
      have other : character ≠ '/' := by simpa using single
      constructor
      · simp [rootName, other]
      · simp [afterRootName, other]

theorem rootName_many (rest : Path) :
    rootName ('/' :: '/' :: '/' :: rest) = none ∧
      afterRootName ('/' :: '/' :: '/' :: rest) =
        '/' :: '/' :: '/' :: rest :=
  ⟨rfl, rfl⟩

/-- Two separators, a name, and nothing more or a third separator. -/
theorem rootName_net {name rest : Path} (unseparated : '/' ∉ name)
    (ends : rest = [] ∨ name ≠ [] ∧ rest.head? = some '/') :
    rootName ('/' :: '/' :: (name ++ rest)) = some name ∧
      afterRootName ('/' :: '/' :: (name ++ rest)) = rest := by
  have different : ∀ character ∈ name, decide (character ≠ '/') = true := by
    intro character member
    refine decide_eq_true ?_
    rintro rfl
    exact unseparated member
  have stops : rest.takeWhile (· ≠ '/') = [] ∧
      rest.dropWhile (· ≠ '/') = rest := by
    rcases ends with rfl | ⟨_, first⟩
    · exact ⟨rfl, rfl⟩
    · cases rest with
      | nil => cases first
      | cons character others =>
          obtain rfl : character = '/' := by simpa using first
          exact ⟨rfl, rfl⟩
  have notThird : (name ++ rest).head? ≠ some '/' := by
    rcases ends with rfl | ⟨filled, _⟩
    · rw [List.append_nil]
      exact fun first => unseparated (List.mem_of_head? first)
    · obtain ⟨character, characters, rfl⟩ := List.exists_cons_of_ne_nil filled
      intro first
      exact unseparated (List.mem_of_head? (by simpa using first))
  constructor
  · rw [rootName, if_neg notThird, List.takeWhile_append_of_pos different,
      stops.1, List.append_nil]
  · rw [afterRootName, if_neg notThird, List.dropWhile_append_of_pos different,
      stops.2]

theorem exists_name (text : Path) :
    ∃ name rest, text = name ++ rest ∧ '/' ∉ name ∧
      (rest = [] ∨ rest.head? = some '/') := by
  induction text with
  | nil => exact ⟨[], [], rfl, by simp, .inl rfl⟩
  | cons character others ih =>
      by_cases separates : character = '/'
      · exact ⟨[], character :: others, rfl, by simp,
          .inr (congrArg some separates)⟩
      · obtain ⟨name, rest, rfl, unseparated, ends⟩ := ih
        refine ⟨character :: name, rest, rfl, ?_, ends⟩
        simp [unseparated, Ne.symm separates]

theorem root_cases (path : Path) :
    path.head? ≠ some '/' ∨
    (∃ rest, path = '/' :: rest ∧ rest.head? ≠ some '/') ∨
    (∃ rest, path = '/' :: '/' :: '/' :: rest) ∨
    ∃ name rest, path = '/' :: '/' :: (name ++ rest) ∧ '/' ∉ name ∧
      (rest = [] ∨ name ≠ [] ∧ rest.head? = some '/') := by
  match path with
  | [] => exact .inl (by simp)
  | character :: rest =>
  by_cases first : character = '/'
  swap
  · exact .inl (by simpa using first)
  subst first
  match rest with
  | [] => exact .inr (.inl ⟨[], rfl, by simp⟩)
  | character :: rest =>
  by_cases second : character = '/'
  swap
  · exact .inr (.inl ⟨_, rfl, by simpa using second⟩)
  subst second
  by_cases third : rest.head? = some '/'
  · cases rest with
    | nil => cases third
    | cons character rest =>
        obtain rfl : character = '/' := by simpa using third
        exact .inr (.inr (.inl ⟨rest, rfl⟩))
  · obtain ⟨name, more, rfl, unseparated, ends⟩ := exists_name rest
    refine .inr (.inr (.inr ⟨name, more, rfl, unseparated, ?_⟩))
    rcases ends with rfl | first
    · exact .inl rfl
    · refine .inr ⟨?_, first⟩
      rintro rfl
      exact third first

theorem rootElements_separated {path element : Path}
    (member : element ∈ rootElements path) : element.head? = some '/' := by
  rcases List.mem_append.1 member with isName | isDirectory
  · obtain ⟨name, _, rfl⟩ : ∃ name, rootName path = some name ∧
        separator ++ separator ++ name = element := by
      simpa using isName
    rfl
  · split at isDirectory
    · rw [List.mem_singleton.1 isDirectory]
      rfl
    · cases isDirectory

theorem rootElements_net {name rest : Path} (unseparated : '/' ∉ name)
    (ends : rest = [] ∨ name ≠ [] ∧ rest.head? = some '/') :
    rootElements ('/' :: '/' :: (name ++ rest)) =
      ('/' :: '/' :: name) :: if rest = [] then [] else [separator] := by
  obtain ⟨isName, after⟩ := rootName_net unseparated ends
  rw [rootElements, hasRootDirectory, isName, after]
  rcases ends with rfl | ⟨_, first⟩
  · rfl
  · have some : rest ≠ [] := by
      rintro rfl
      cases first
    rw [first, if_neg some]
    rfl

theorem rootElements_relative {path : Path}
    (relative : path.head? ≠ some '/') : rootElements path = [] := by
  obtain ⟨noName, whole⟩ := rootName_relative relative
  simp [rootElements, hasRootDirectory, noName, whole, relative]

theorem rootElements_directory {rest : Path}
    (single : rest.head? ≠ some '/') :
    rootElements ('/' :: rest) = [separator] := by
  obtain ⟨noName, whole⟩ := rootName_directory single
  simp [rootElements, hasRootDirectory, noName, whole]

theorem rootElements_many (rest : Path) :
    rootElements ('/' :: '/' :: '/' :: rest) = [separator] :=
  rfl

theorem anchor_relative {path : Path} (relative : path.head? ≠ some '/') :
    anchor path = none ∧ names path = pieces path := by
  rw [anchor, rootElements_relative relative, names,
    (rootName_relative relative).2]
  exact ⟨rfl, rfl⟩

theorem anchor_directory {rest : Path} (single : rest.head? ≠ some '/') :
    anchor ('/' :: rest) = some separator ∧
      names ('/' :: rest) = pieces rest := by
  rw [anchor, rootElements_directory single, names,
    (rootName_directory single).2]
  exact ⟨rfl, pieces_separator_cons rest⟩

theorem anchor_many (rest : Path) :
    anchor ('/' :: '/' :: '/' :: rest) = some separator ∧
      names ('/' :: '/' :: '/' :: rest) = pieces rest := by
  rw [anchor, rootElements_many, names, (rootName_many rest).2]
  exact ⟨rfl, by simp⟩

theorem anchor_net {name rest : Path} (unseparated : '/' ∉ name)
    (ends : rest = [] ∨ name ≠ [] ∧ rest.head? = some '/') :
    anchor ('/' :: '/' :: (name ++ rest)) = some ('/' :: '/' :: name) ∧
      names ('/' :: '/' :: (name ++ rest)) = pieces rest := by
  rw [anchor, rootElements_net unseparated ends, names,
    (rootName_net unseparated ends).2]
  exact ⟨rfl, rfl⟩

/-! ## Appending -/

theorem pieces_append {left right : Path}
    (joint : left = [] ∨ right = [] ∨ right.head? = some '/' ∨
      left.getLast? = some '/') :
    pieces (left ++ right) = pieces left ++ pieces right := by
  rcases joint with rfl | rfl | first | last
  · rfl
  · simp
  · obtain ⟨rest, rfl⟩ := List.head?_eq_some_iff.1 first
    rw [pieces_append_separator, pieces_separator_cons]
  · obtain ⟨rest, rfl⟩ := List.getLast?_eq_some_iff.1 last
    rw [List.append_assoc, List.singleton_append, pieces_append_separator,
      pieces_append_separator, pieces_nil, List.append_nil]

/-- A text that follows a path, where the root of the path stays its root. -/
theorem anchor_extend {path more : Path} (filled : path ≠ [])
    (notNet : path ≠ ['/', '/'])
    (single : path = separator →
      more.head? ≠ some '/' ∨ ∃ rest, more = '/' :: '/' :: rest)
    (joint : more = [] ∨ more.head? = some '/' ∨
      path.getLast? = some '/') :
    anchor (path ++ more) = anchor path ∧
      names (path ++ more) = names path ++ pieces more := by
  rcases root_cases path with relative | ⟨rest, rfl, alone⟩ | ⟨rest, rfl⟩ |
    ⟨name, rest, rfl, unseparated, ends⟩
  · have still : (path ++ more).head? ≠ some '/' := by
      rwa [List.head?_append_of_ne_nil _ filled]
    rw [(anchor_relative relative).1, (anchor_relative relative).2,
      (anchor_relative still).1, (anchor_relative still).2]
    exact ⟨rfl, pieces_append (.inr joint)⟩
  · rw [(anchor_directory alone).1, (anchor_directory alone).2]
    by_cases bare : rest = []
    · subst bare
      rcases single rfl with still | ⟨others, rfl⟩
      · exact anchor_directory still
      · simpa using anchor_many others
    · have still : (rest ++ more).head? ≠ some '/' := by
        rwa [List.head?_append_of_ne_nil _ bare]
      rw [List.cons_append, (anchor_directory still).1,
        (anchor_directory still).2]
      refine ⟨rfl, pieces_append (.inr ?_)⟩
      rwa [List.getLast?_cons_of_ne_nil bare] at joint
  · rw [(anchor_many rest).1, (anchor_many rest).2]
    simp only [List.cons_append]
    rw [(anchor_many _).1, (anchor_many _).2]
    refine ⟨rfl, pieces_append ?_⟩
    by_cases bare : rest = []
    · exact .inl bare
    · refine .inr ?_
      rwa [List.getLast?_cons_cons, List.getLast?_cons_cons,
        List.getLast?_cons_of_ne_nil bare] at joint
  · rw [(anchor_net unseparated ends).1, (anchor_net unseparated ends).2]
    simp only [List.cons_append, List.append_assoc]
    rcases ends with rfl | ⟨named, first⟩
    · have named : name ≠ [] := by
        rintro rfl
        exact notNet rfl
      have ends : more = [] ∨ name ≠ [] ∧ more.head? = some '/' := by
        rcases joint with rfl | first | last
        · exact .inl rfl
        · exact .inr ⟨named, first⟩
        · rw [List.append_nil, List.getLast?_cons_cons,
            List.getLast?_cons_of_ne_nil named] at last
          exact absurd (List.mem_of_getLast? last) unseparated
      simpa using anchor_net unseparated ends
    · have still : (rest ++ more).head? = some '/' := by
        rw [List.head?_append, first]
        rfl
      have some : rest ≠ [] := by
        rintro rfl
        cases first
      rw [(anchor_net unseparated (.inr ⟨named, still⟩)).1,
        (anchor_net unseparated (.inr ⟨named, still⟩)).2]
      refine ⟨rfl, pieces_append (.inr ?_)⟩
      rwa [List.getLast?_cons_cons,
        List.getLast?_cons_of_ne_nil (by simp [some]),
        List.getLast?_append_of_ne_nil _ some] at joint

/-- What is appended leads on from the names of a path, unless the path
consists of one or two separators that the appended ones join. -/
theorem anchor_append {path more : Path} (filled : path ≠ [])
    (notNet : path ≠ ['/', '/'])
    (single : path = separator →
      more.head? ≠ some '/' ∨ ∃ rest, more = '/' :: '/' :: rest) :
    anchor (append path more) = anchor path ∧
      names (append path more) = names path ++ pieces more := by
  unfold append
  split
  case isTrue empty => simp [empty]
  split
  case isTrue direct =>
    apply anchor_extend filled notNet single
    rcases direct with first | empty | last
    · exact .inr (.inl first)
    · exact absurd empty filled
    · exact .inr (.inr last)
  case isFalse between =>
    have notSeparator : path ≠ separator := by
      rintro rfl
      exact between (.inr (.inr rfl))
    have extended := anchor_extend filled notNet
      (fun same => absurd same notSeparator)
      (.inr (.inl rfl) : '/' :: more = [] ∨ _ ∨ _)
    rwa [pieces_separator_cons] at extended

end Bacs.PathGrammar
