import Bacs.Common.Confining

/-!
# Confinement in a root

A path is kept in its root unless a root name `//.` or `//..` stays on the
stack, or the root is too short to be told from the separators that follow
it.
-/

namespace Bacs.Common

open LexicalPath PathGrammar

/-- The root, followed by names none of which is `.` or `..`. -/
def Below (root file : Path) : Prop :=
  anchor file = anchor root ∧
    ∃ below, names file = names root ++ below ∧
      ∀ name ∈ below, name ≠ dot ∧ name ≠ dotDot

/-- Equal once `.` is dropped and `..` resolved, wherever the paths start. -/
def SamePlace (first second : Path) : Prop :=
  anchor first = anchor second ∧
    ∀ start, walk start ((names first).map step) =
      walk start ((names second).map step)

/-- What is expected of a path that is kept in a root. -/
structure Confined (path root : Path) : Prop where
  below : Below root (keepInRoot path root)
  again : keepInRoot (stripped path) root = keepInRoot path root
  place : path.head? ≠ some '/' →
    climbs 0 ((elements path).map step) = false →
      SamePlace (keepInRoot path root) (append root path)
  served : ∀ {Content : Type} (regularFile : Path → Option Content)
    (mimeTypeByName : Path → String) response,
    StatementServer.get regularFile mimeTypeByName path root =
      some response → Below root response.opened

/-- The paths and roots that the code gets right. -/
structure Keepable (path root : Path) : Prop where
  name : Rooted path → rootName path ≠ some dot ∧ rootName path ≠ some dotDot
  empty : root = [] → ¬ Rooted path
  directory : root = separator → Rooted path → rootName path ≠ none
  net : root = ['/', '/'] →
    walk [] ((elements path).map step) = [] ∧
      (path = [] ∨ path.head? = some '/' ∨
        climbs 0 ((elements path).map step) = true)

/-! ## Short roots -/

theorem anchor_eq_none_iff {path : Path} :
    anchor path = none ↔ path.head? ≠ some '/' := by
  constructor
  · intro none first
    rcases root_cases path with relative | ⟨rest, rfl, alone⟩ | ⟨rest, rfl⟩ |
      ⟨name, rest, rfl, unseparated, ends⟩
    · exact relative first
    · rw [(anchor_directory alone).1] at none
      cases none
    · rw [(anchor_many rest).1] at none
      cases none
    · rw [(anchor_net unseparated ends).1] at none
      cases none
  · exact fun relative => (anchor_relative relative).1

/-- A text after two separators becomes part of the root name. -/
theorem anchor_double {text : Path} (single : text.head? ≠ some '/') :
    ∃ name, anchor ('/' :: '/' :: text) = some ('/' :: '/' :: name) ∧
      (text ≠ [] → name ≠ []) := by
  obtain ⟨name, rest, rfl, unseparated, ends⟩ := exists_name text
  have filled : rest ≠ [] → name ≠ [] := by
    rintro some rfl
    exact single (ends.resolve_left some)
  refine ⟨name, (anchor_net unseparated ?_).1, ?_⟩
  · by_cases some : rest = []
    · exact .inl some
    · exact .inr ⟨filled some, ends.resolve_left some⟩
  · rintro some rfl
    rw [List.nil_append] at some
    exact filled some rfl

theorem not_below_double {text : Path} (some : text ≠ []) :
    anchor (append ['/', '/'] text) ≠ anchor ['/', '/'] := by
  have appended : append ['/', '/'] text = '/' :: '/' :: text := by
    rw [append, if_neg some, if_pos (.inr (.inr rfl))]
    rfl
  have here : anchor ['/', '/'] = Option.some ['/', '/'] := rfl
  rw [appended, here]
  by_cases first : text.head? = Option.some '/'
  · obtain ⟨rest, rfl⟩ := List.head?_eq_some_iff.1 first
    rw [(anchor_many rest).1]
    decide
  · obtain ⟨name, found, filled⟩ := anchor_double first
    rw [found]
    simpa using filled some

section Stripped

variable {path : Path}

theorem stripped_unrooted (unrooted : ¬ Rooted path) :
    stripped path = joined (left path) := by
  rcases stripped_cases path with ⟨_, text⟩ | ⟨rooted, _⟩ | ⟨_, rooted, _⟩
  · exact text
  · exact absurd rooted unrooted
  · exact absurd rooted unrooted

theorem stripped_head (rooted : Rooted path) :
    (stripped path).head? = some '/' := by
  rcases stripped_cases path with ⟨unrooted, _⟩ | ⟨_, _, text⟩ |
    ⟨name, _, _, _, ⟨_, text⟩ | ⟨_, text⟩⟩
  · exact absurd rooted unrooted
  · rw [text]
    rfl
  · rw [text]
    rfl
  · rw [text]
    rfl

theorem pieces_stripped_unrooted (unrooted : ¬ Rooted path) :
    pieces (stripped path) = left path := by
  rw [stripped_unrooted unrooted, pieces_joined left_plain]

theorem mem_pieces_stripped {name : Path} :
    name ∈ pieces (stripped path) ↔
      name ∈ left path ∨
        Rooted path ∧ rootName path = some name ∧ name ≠ [] := by
  have plain := @left_plain path
  rcases stripped_cases path with ⟨unrooted, text⟩ | ⟨_, noName, text⟩ |
    ⟨net, rooted, isName, unseparated, ⟨bare, text⟩ | ⟨filled, text⟩⟩
  · rw [text, pieces_joined plain]
    exact (or_iff_left fun named => unrooted named.1).symm
  · rw [text, pieces_separator_cons, pieces_joined plain, noName]
    simp
  · rw [text, pieces_separator_cons, pieces_separator_cons,
      pieces_unseparated unseparated, bare, isName]
    by_cases empty : net = []
    · simp [empty, eq_comm]
    · rw [if_neg empty]
      constructor
      · intro member
        rw [List.mem_singleton.1 member]
        exact .inr ⟨rooted, rfl, empty⟩
      · rintro (impossible | ⟨_, same, _⟩)
        · cases impossible
        · rw [Option.some.inj same]
          exact List.mem_singleton_self name
  · rw [text, pieces_separator_cons, pieces_separator_cons,
      pieces_append_separator, pieces_unseparated unseparated, if_neg filled,
      pieces_joined plain, isName, List.singleton_append, List.mem_cons]
    constructor
    · rintro (rfl | member)
      · exact .inr ⟨rooted, rfl, filled⟩
      · exact .inl member
    · rintro (member | ⟨_, same, _⟩)
      · exact .inr member
      · exact .inl (Option.some.inj same).symm

end Stripped

/-! ## Longer roots -/

theorem keepInRoot_longer {path root : Path} (filled : root ≠ [])
    (notNet : root ≠ ['/', '/'])
    (directory : root = separator → Rooted path → rootName path ≠ none) :
    anchor (keepInRoot path root) = anchor root ∧
      names (keepInRoot path root) =
        names root ++ pieces (stripped path) := by
  apply anchor_append filled notNet
  intro isSeparator
  rcases stripped_cases path with ⟨_, text⟩ | ⟨rooted, noName, _⟩ |
    ⟨name, _, _, _, ⟨_, text⟩ | ⟨_, text⟩⟩
  · rw [text]
    exact .inl (joined_head left_plain)
  · exact absurd noName (directory isSeparator rooted)
  · exact .inr ⟨_, text⟩
  · exact .inr ⟨_, text⟩

theorem keepInRoot_again (path root : Path) :
    keepInRoot (stripped path) root = keepInRoot path root := by
  rw [keepInRoot, stripped_stripped, keepInRoot]

section Enough

variable {path root : Path}

theorem Keepable.below (keepable : Keepable path root) :
    Below root (keepInRoot path root) := by
  by_cases empty : root = []
  · have unrooted := keepable.empty empty
    have relative := joined_head (@left_plain path)
    rw [empty, keepInRoot, append_nil, stripped_unrooted unrooted]
    refine ⟨(anchor_relative relative).1, left path, ?_, ?_⟩
    · rw [(anchor_relative relative).2, pieces_joined left_plain]
      rfl
    · intro name member
      exact ⟨(left_plain name member).notDot,
        (left_plain name member).notDotDot⟩
  by_cases net : root = ['/', '/']
  · have nothing : stripped path = [] := by
      rw [stripped, foldl_push, (keepable.net net).1]
      rfl
    rw [keepInRoot, nothing, append, if_pos rfl]
    exact ⟨rfl, [], (List.append_nil _).symm, by simp⟩
  · obtain ⟨sameAnchor, sameNames⟩ :=
      keepInRoot_longer empty net keepable.directory
    refine ⟨sameAnchor, _, sameNames, ?_⟩
    intro name member
    rcases mem_pieces_stripped.1 member with inside | ⟨rooted, isName, _⟩
    · exact ⟨(left_plain name inside).notDot,
        (left_plain name inside).notDotDot⟩
    · have allowed := keepable.name rooted
      rw [isName] at allowed
      simpa using allowed

theorem Keepable.place (keepable : Keepable path root)
    (relative : path.head? ≠ some '/')
    (low : climbs 0 ((elements path).map step) = false) :
    SamePlace (keepInRoot path root) (append root path) := by
  have unrooted : ¬ Rooted path := fun rooted => relative rooted.1
  have lowNames : climbs 0 ((names path).map step) = false := by
    rwa [elements, rootElements_relative relative, List.nil_append,
      List.map_append, climbs_trailing] at low
  have same : ∀ start, walk start ((left path).map step) =
      walk start ((names path).map step) := by
    intro start
    have kept := @walk_of_not_climbs _ start [] _ lowNames
    rw [List.append_nil] at kept
    rw [kept, map_step_plain left_plain, walk_down]
    rfl
  by_cases empty : root = []
  · have whole := joined_head (@left_plain path)
    rw [empty, keepInRoot, append_nil, append_nil,
      stripped_unrooted unrooted]
    refine ⟨?_, fun start => ?_⟩
    · rw [(anchor_relative whole).1, (anchor_relative relative).1]
    · rw [(anchor_relative whole).2, pieces_joined left_plain]
      exact same start
  by_cases net : root = ['/', '/']
  · have nothing : path = [] := by
      rcases (keepable.net net).2 with none | first | high
      · exact none
      · exact absurd first relative
      · rw [low] at high
        cases high
    rw [nothing]
    exact ⟨rfl, fun _ => rfl⟩
  · obtain ⟨keptAnchor, keptNames⟩ :=
      keepInRoot_longer empty net keepable.directory
    obtain ⟨sameAnchor, sameNames⟩ :=
      anchor_append empty net fun _ => .inl relative
    refine ⟨keptAnchor.trans sameAnchor.symm, fun start => ?_⟩
    rw [keptNames, sameNames, pieces_stripped_unrooted unrooted,
      List.map_append, List.map_append, walk_append, walk_append, same,
      (anchor_relative relative).2]

theorem Keepable.confined (keepable : Keepable path root) :
    Confined path root where
  below := keepable.below
  again := keepInRoot_again path root
  place := keepable.place
  served := by
    intro Content regularFile mimeTypeByName response served
    obtain ⟨content, _, rfl⟩ := Option.map_eq_some_iff.1 served
    exact keepable.below

end Enough

section Necessary

variable {path root : Path}

theorem Confined.name (confined : Confined path root) (rooted : Rooted path)
    {name : Path} (isName : rootName path = some name) (filled : name ≠ []) :
    name ≠ dot ∧ name ≠ dotDot := by
  obtain ⟨sameAnchor, below, names, allowed⟩ := confined.below
  by_cases empty : root = []
  · have first := stripped_head rooted
    rw [empty, keepInRoot, append_nil] at sameAnchor
    exact absurd first (anchor_eq_none_iff.1 sameAnchor)
  by_cases net : root = ['/', '/']
  · have some : stripped path ≠ [] := by
      intro none
      have first := stripped_head rooted
      rw [none] at first
      cases first
    rw [net] at sameAnchor
    exact absurd sameAnchor (not_below_double some)
  · have named : rootName path ≠ none := by simp [isName]
    have kept := (keepInRoot_longer empty net fun _ _ => named).2
    rw [names, List.append_cancel_left_eq] at kept
    refine allowed name ?_
    rw [kept, mem_pieces_stripped]
    exact .inr ⟨rooted, isName, filled⟩

theorem Confined.empty (confined : Confined path root) (empty : root = []) :
    ¬ Rooted path := by
  intro rooted
  have sameAnchor := confined.below.1
  rw [empty, keepInRoot, append_nil] at sameAnchor
  exact anchor_eq_none_iff.1 sameAnchor (stripped_head rooted)

theorem Confined.directory (confined : Confined path root)
    (directory : root = separator) (rooted : Rooted path) :
    rootName path ≠ none := by
  intro noName
  have sameAnchor := confined.below.1
  rcases stripped_cases path with ⟨unrooted, _⟩ | ⟨_, _, text⟩ |
    ⟨name, _, isName, _⟩
  · exact unrooted rooted
  · obtain ⟨name, found, _⟩ := anchor_double (joined_head (@left_plain path))
    have doubled : keepInRoot path root =
        '/' :: '/' :: joined (left path) := by
      rw [keepInRoot, text, directory]
      rfl
    rw [doubled, found, directory] at sameAnchor
    cases sameAnchor
  · rw [noName] at isName
    cases isName

theorem Confined.net (confined : Confined path root)
    (net : root = ['/', '/']) :
    walk [] ((elements path).map step) = [] ∧
      (path = [] ∨ path.head? = some '/' ∨
        climbs 0 ((elements path).map step) = true) := by
  subst net
  have nothing : stripped path = [] := by
    by_contra some
    exact not_below_double some confined.below.1
  constructor
  · have unrooted : ¬ Rooted path := by
      intro rooted
      have first := stripped_head rooted
      rw [nothing] at first
      cases first
    have noNames := pieces_stripped_unrooted unrooted
    rw [nothing, pieces_nil] at noNames
    rw [← foldl_push]
    rcases stack_cases path with ⟨_, stack⟩ | ⟨rooted, _⟩ | ⟨_, rooted, _⟩
    · rw [stack, ← noNames]
    · exact absurd rooted unrooted
    · exact absurd rooted unrooted
  · by_contra neither
    obtain ⟨some, relative, low⟩ := by
      simpa only [not_or, Bool.not_eq_true] using neither
    have place := (confined.place relative low).1
    rw [keepInRoot, nothing] at place
    exact not_below_double some place.symm

end Necessary

/-- A path is kept in its root exactly where no root name `//.` or `//..`
stays on the stack and the root is long enough. -/
theorem confined_iff (path root : Path) :
    Confined path root ↔ Keepable path root := by
  constructor
  · intro confined
    refine ⟨?_, confined.empty, confined.directory, confined.net⟩
    intro rooted
    constructor
    · intro isName
      exact (confined.name rooted isName (by decide)).1 rfl
    · intro isName
      exact (confined.name rooted isName (by decide)).2 rfl
  · exact Keepable.confined

/-- `//../secret` leaves the root. -/
theorem not_confined_net :
    ¬ Confined "//../secret".toList "/data/root".toList := by
  intro confined
  exact (confined.name ⟨rfl, rfl⟩ rfl (by decide)).2 rfl

end Bacs.Common
