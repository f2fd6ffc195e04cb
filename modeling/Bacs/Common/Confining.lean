import Bacs.Common.KeepInRoot

/-!
# When a path is kept in its root

A root element of the path stays at the bottom of the stack unless the path
climbs above it.  A root name may be `//..`, which is no element `..` for the
stack, and becomes one when it is appended to the root.
-/

namespace Bacs.Common

open LexicalPath PathGrammar

variable {path root : Path}

/-! ## What is stripped -/

theorem foldl_push (stack items : List Path) :
    items.foldl push stack = walk stack (items.map step) := by
  induction items generalizing stack with
  | nil => rfl
  | cons item rest ih =>
      have same : push stack item = (step item).run stack := by
        unfold push step
        by_cases isDotDot : item = dotDot
        · rw [if_pos isDotDot, if_pos isDotDot]
          rfl
        · by_cases isDot : item = dot
          · rw [if_neg isDotDot, if_neg isDotDot, if_neg (not_not.2 isDot),
              if_pos isDot]
            rfl
          · rw [if_neg isDotDot, if_neg isDotDot, if_pos isDot, if_neg isDot]
            rfl
      rw [List.foldl_cons, ih, same, List.map_cons, walk_cons]

/-- The names that are left of a path. -/
def left (path : Path) : List Path :=
  walk [] ((names path).map step)

theorem left_plain : ∀ name ∈ left path, Plain name := by
  intro name member
  rcases mem_walk member with impossible | down
  · cases impossible
  · obtain ⟨element, inside, same⟩ := List.mem_map.1 down
    obtain ⟨filled, unseparated⟩ := mem_pieces inside
    unfold step at same
    split_ifs at same with isDotDot isDot
    cases same
    exact ⟨filled, unseparated, isDot, isDotDot⟩

/-- The path begins with a root element and never climbs above it. -/
def Rooted (path : Path) : Prop :=
  path.head? = some '/' ∧ climbs 0 ((elements path).tail.map step) = false

theorem walk_trailing (start : List Path) :
    walk start ((trailing path).map step) = start := by
  unfold trailing
  split <;> rfl

theorem climbs_trailing (depth : Nat) (steps : List (Step Path)) :
    climbs depth (steps ++ (trailing path).map step) = climbs depth steps := by
  unfold trailing
  split
  · exact climbs_append_stay depth steps
  · rw [List.map_nil, List.append_nil]

theorem map_step_rootElements :
    (rootElements path).map step = (rootElements path).map .down :=
  List.map_congr_left fun _ member =>
    step_separated (rootElements_separated member)

theorem stack_eq :
    (elements path).foldl push [] =
      walk (rootElements path) ((names path).map step) := by
  rw [foldl_push, elements, List.map_append, List.map_append, walk_append,
    walk_trailing, walk_append, map_step_rootElements, walk_down,
    List.nil_append]

theorem rooted_iff {first : Path} {others : List Path}
    (roots : rootElements path = first :: others) :
    Rooted path ↔
      climbs others.length ((names path).map step) = false := by
  have begins : path.head? = some '/' := by
    by_contra relative
    rw [rootElements_relative relative] at roots
    cases roots
  have below : others.map step = others.map .down := by
    have mapped := @map_step_rootElements path
    rw [roots] at mapped
    exact (List.cons.inj mapped).2
  have climbing : climbs 0 ((elements path).tail.map step) =
      climbs others.length ((names path).map step) := by
    rw [elements, roots, List.cons_append, List.cons_append, List.tail_cons,
      List.map_append, climbs_trailing, List.map_append, below, climbs_down,
      Nat.zero_add]
  rw [Rooted, climbing]
  exact and_iff_right begins

theorem walk_root (element : Path) (steps : List (Step Path)) :
    walk [element] steps =
      if climbs 0 steps then walk [] steps else element :: walk [] steps := by
  cases high : climbs 0 steps with
  | true => exact walk_of_climbs element high
  | false => exact walk_of_not_climbs [element] high

/-- What the path leaves on the stack: its names, and before them the root
elements that it does not climb above. -/
theorem stack_cases (path : Path) :
    (¬ Rooted path ∧ (elements path).foldl push [] = left path) ∨
    (Rooted path ∧ rootName path = none ∧
      (elements path).foldl push [] = separator :: left path) ∨
    ∃ name, Rooted path ∧ rootName path = some name ∧ '/' ∉ name ∧
      ((name = [] → left path = []) ∧
        (elements path).foldl push [] =
          ('/' :: '/' :: name) :: left path ∨
      name ≠ [] ∧ (elements path).foldl push [] =
        ('/' :: '/' :: name) :: separator :: left path) := by
  have directory : rootElements path = [separator] → rootName path = none →
      (¬ Rooted path ∧ (elements path).foldl push [] = left path) ∨
      (Rooted path ∧ rootName path = none ∧
        (elements path).foldl push [] = separator :: left path) := by
    intro roots noName
    rw [stack_eq, roots, walk_root, rooted_iff roots]
    cases climbs 0 ((names path).map step) with
    | true => exact .inl ⟨by simp, rfl⟩
    | false => exact .inr ⟨rfl, noName, rfl⟩
  rcases root_cases path with relative | ⟨rest, rfl, alone⟩ | ⟨rest, rfl⟩ |
    ⟨name, rest, rfl, unseparated, ends⟩
  · refine .inl ⟨fun rooted => relative rooted.1, ?_⟩
    rw [stack_eq, rootElements_relative relative]
    rfl
  · exact (directory (rootElements_directory alone)
      (rootName_directory alone).1).imp_right .inl
  · exact (directory (rootElements_many rest)
      (rootName_many rest).1).imp_right .inl
  · have roots := rootElements_net unseparated ends
    have isName := (rootName_net unseparated ends).1
    have whole := (anchor_net unseparated ends).2
    rcases ends with rfl | ⟨named, first⟩
    · rw [if_pos rfl] at roots
      rw [pieces_nil] at whole
      refine .inr (.inr ⟨name, ?_, isName, unseparated, .inl ⟨?_, ?_⟩⟩)
      · rw [rooted_iff roots, whole]
        rfl
      · intro _
        rw [left, whole]
        rfl
      · rw [stack_eq, roots, left, whole]
        rfl
    · have some : rest ≠ [] := by
        rintro rfl
        cases first
      rw [if_neg some] at roots
      rw [stack_eq, roots, rooted_iff roots]
      cases high : climbs [separator].length
          ((names ('/' :: '/' :: (name ++ rest))).map step) with
      | true =>
          have low : climbs 0 ((names ('/' :: '/' :: (name ++ rest))).map
              step) = true := climbs_of_succ high
          refine .inl ⟨by simp, ?_⟩
          rw [walk_of_climbs _ high, walk_root, if_pos low]
          rfl
      | false =>
          refine .inr (.inr ⟨name, rfl, isName, unseparated, ?_⟩)
          have kept := walk_of_not_climbs ['/' :: '/' :: name] high
          rw [walk_root] at kept
          split at kept
          · exact .inl ⟨fun empty => absurd empty named, kept⟩
          · exact .inr ⟨named, kept⟩

/-! ## The text of what is stripped -/

theorem append_plain (text : Path) {name : Path} (plain : Plain name) :
    append text name =
      if text = [] ∨ text.getLast? = some '/' then text ++ name
      else text ++ '/' :: name := by
  rw [append, if_neg plain.filled]
  simp only [plain.head, false_or]

theorem joined_cons (name : Path) (rest : List Path) :
    joined (name :: rest) = name ++ rest.flatMap ('/' :: ·) := by
  induction rest generalizing name with
  | nil => simp [joined]
  | cons next others ih =>
      rw [joined_cons_cons, ih next, List.flatMap_cons, List.cons_append]

def Closed (text : Path) : Prop :=
  text ≠ [] ∧ text.getLast? ≠ some '/'

theorem closed_append (text : Path) {name : Path} (plain : Plain name) :
    Closed (text ++ name) := by
  constructor
  · simp [plain.filled]
  · rw [List.getLast?_append_of_ne_nil _ plain.filled]
    exact fun last => plain.unseparated (List.mem_of_getLast? last)

theorem foldl_append_closed {plainNames : List Path}
    (plain : ∀ name ∈ plainNames, Plain name) {text : Path}
    (closed : Closed text) :
    plainNames.foldl append text =
      text ++ plainNames.flatMap ('/' :: ·) := by
  induction plainNames generalizing text with
  | nil => simp
  | cons name rest ih =>
      have here := plain name List.mem_cons_self
      have separated : append text name = (text ++ separator) ++ name := by
        rw [append_plain text here, if_neg (not_or.2 closed),
          List.append_assoc]
        rfl
      rw [List.foldl_cons, separated,
        ih (fun other member => plain other (List.mem_cons_of_mem _ member))
          (closed_append _ here), List.flatMap_cons]
      simp [separator]

theorem foldl_append_open {plainNames : List Path}
    (plain : ∀ name ∈ plainNames, Plain name) {text : Path}
    (ends : text = [] ∨ text.getLast? = some '/') :
    plainNames.foldl append text = text ++ joined plainNames := by
  cases plainNames with
  | nil => simp [joined]
  | cons name rest =>
      have here := plain name List.mem_cons_self
      rw [List.foldl_cons, append_plain text here, if_pos ends,
        foldl_append_closed
          (fun other member => plain other (List.mem_cons_of_mem _ member))
          (closed_append text here), joined_cons, List.append_assoc]

theorem closed_net {name : Path} (unseparated : '/' ∉ name)
    (filled : name ≠ []) : Closed ('/' :: '/' :: name) := by
  refine ⟨by simp, ?_⟩
  rw [List.getLast?_cons_cons, List.getLast?_cons_of_ne_nil filled]
  exact fun last => unseparated (List.mem_of_getLast? last)

theorem append_nil (path : Path) : append [] path = path := by
  unfold append
  split
  case isTrue empty => exact empty.symm
  case isFalse => simp

section Rendering

variable {plainNames : List Path} {name : Path}

theorem render_names (plain : ∀ name ∈ plainNames, Plain name) :
    plainNames.foldl append [] = joined plainNames := by
  rw [foldl_append_open plain (.inl rfl), List.nil_append]

theorem render_directory (plain : ∀ name ∈ plainNames, Plain name) :
    (separator :: plainNames).foldl append [] =
      '/' :: joined plainNames := by
  rw [List.foldl_cons, append_nil, foldl_append_open plain (.inr rfl)]
  rfl

theorem render_net (plain : ∀ name ∈ plainNames, Plain name) :
    (('/' :: '/' :: name) :: separator :: plainNames).foldl append [] =
      '/' :: '/' :: (name ++ '/' :: joined plainNames) := by
  have separated : append ('/' :: '/' :: name) separator =
      '/' :: '/' :: (name ++ separator) := by
    simp [append, separator]
  have ends : ('/' :: '/' :: (name ++ separator)).getLast? = some '/' :=
    List.getLast?_concat (l := '/' :: '/' :: name)
  rw [List.foldl_cons, append_nil, List.foldl_cons, separated,
    foldl_append_open plain (.inr ends)]
  simp [separator]

theorem render_bare (plain : ∀ name ∈ plainNames, Plain name)
    (unseparated : '/' ∉ name) (filled : name ≠ [])
    (some : plainNames ≠ []) :
    (('/' :: '/' :: name) :: plainNames).foldl append [] =
      '/' :: '/' :: (name ++ '/' :: joined plainNames) := by
  obtain ⟨first, rest, rfl⟩ := List.exists_cons_of_ne_nil some
  rw [List.foldl_cons, append_nil,
    foldl_append_closed plain (closed_net unseparated filled), joined_cons]
  simp

end Rendering

theorem stripped_cases (path : Path) :
    (¬ Rooted path ∧ stripped path = joined (left path)) ∨
    (Rooted path ∧ rootName path = none ∧
      stripped path = '/' :: joined (left path)) ∨
    ∃ name, Rooted path ∧ rootName path = some name ∧ '/' ∉ name ∧
      (left path = [] ∧ stripped path = '/' :: '/' :: name ∨
      name ≠ [] ∧
        stripped path = '/' :: '/' :: (name ++ '/' :: joined (left path))) := by
  have plain := @left_plain path
  unfold stripped
  rcases stack_cases path with ⟨unrooted, stack⟩ | ⟨rooted, noName, stack⟩ |
    ⟨name, rooted, isName, unseparated, ⟨bare, stack⟩ | ⟨filled, stack⟩⟩
  · exact .inl ⟨unrooted, by rw [stack, render_names plain]⟩
  · exact .inr (.inl ⟨rooted, noName, by rw [stack, render_directory plain]⟩)
  · refine .inr (.inr ⟨name, rooted, isName, unseparated, ?_⟩)
    rw [stack]
    by_cases none : left path = []
    · rw [none, List.foldl_cons, append_nil]
      exact .inl ⟨rfl, rfl⟩
    · have filled : name ≠ [] := fun empty => none (bare empty)
      exact .inr ⟨filled, render_bare plain unseparated filled none⟩
  · refine .inr (.inr ⟨name, rooted, isName, unseparated,
      .inr ⟨filled, ?_⟩⟩)
    rw [stack, render_net plain]

/-! ## Stripping again -/

theorem stripped_of_down (down : ∀ element ∈ elements path,
    step element = .down element) :
    stripped path = (elements path).foldl append [] := by
  have all : (elements path).map step = (elements path).map .down :=
    List.map_congr_left down
  rw [stripped, foldl_push, all, walk_down, List.nil_append]

section Forms

variable {plainNames : List Path} {name : Path}

theorem trailing_nil_of_last (last : path.getLast? ≠ some '/') :
    trailing path = [] := by
  rw [trailing, if_neg fun both => last both.2]

theorem elements_names (plain : ∀ name ∈ plainNames, Plain name) :
    elements (joined plainNames) = plainNames := by
  have relative := joined_head plain
  rw [elements, rootElements_relative relative, (anchor_relative relative).2,
    pieces_joined plain, trailing_nil_of_last (joined_getLast plain),
    List.nil_append, List.append_nil]

theorem elements_directory (plain : ∀ name ∈ plainNames, Plain name) :
    elements ('/' :: joined plainNames) = separator :: plainNames := by
  have single := joined_head plain
  have noTrailing : trailing ('/' :: joined plainNames) = [] := by
    rw [trailing, (anchor_directory single).2, pieces_joined plain, if_neg]
    rintro ⟨some, last⟩
    rw [List.getLast?_cons_of_ne_nil (joined_ne_nil plain some)] at last
    exact joined_getLast plain last
  rw [elements, rootElements_directory single, (anchor_directory single).2,
    pieces_joined plain, noTrailing, List.append_nil]
  rfl

theorem elements_bare (unseparated : '/' ∉ name) :
    elements ('/' :: '/' :: name) = ['/' :: '/' :: name] := by
  have roots := rootElements_net unseparated (.inl rfl)
  have whole := (anchor_net unseparated (.inl rfl)).2
  rw [List.append_nil] at roots whole
  rw [elements, roots, whole, trailing, whole]
  rfl

theorem elements_net (plain : ∀ name ∈ plainNames, Plain name)
    (unseparated : '/' ∉ name) (filled : name ≠ []) :
    elements ('/' :: '/' :: (name ++ '/' :: joined plainNames)) =
      ('/' :: '/' :: name) :: separator :: plainNames := by
  have ends : '/' :: joined plainNames = [] ∨
      name ≠ [] ∧ ('/' :: joined plainNames).head? = some '/' :=
    .inr ⟨filled, rfl⟩
  have whole : names ('/' :: '/' :: (name ++ '/' :: joined plainNames)) =
      plainNames := by
    rw [(anchor_net unseparated ends).2, pieces_separator_cons,
      pieces_joined plain]
  have noTrailing :
      trailing ('/' :: '/' :: (name ++ '/' :: joined plainNames)) = [] := by
    rw [trailing, whole, if_neg]
    rintro ⟨some, last⟩
    rw [← List.cons_append, ← List.cons_append,
      List.getLast?_append_of_ne_nil _ (by simp),
      List.getLast?_cons_of_ne_nil (joined_ne_nil plain some)] at last
    exact joined_getLast plain last
  rw [elements, rootElements_net unseparated ends, whole, noTrailing,
    List.append_nil]
  rfl

end Forms

theorem stripped_stripped (path : Path) :
    stripped (stripped path) = stripped path := by
  have plain := @left_plain path
  have down : ∀ name ∈ left path, step name = .down name :=
    fun name member => (plain name member).step
  rcases stripped_cases path with ⟨_, text⟩ | ⟨_, _, text⟩ |
    ⟨name, _, _, unseparated, ⟨_, text⟩ | ⟨filled, text⟩⟩
  · rw [text, stripped_of_down, elements_names plain, render_names plain]
    rwa [elements_names plain]
  · rw [text, stripped_of_down, elements_directory plain,
      render_directory plain]
    rw [elements_directory plain]
    exact List.forall_mem_cons.2 ⟨step_separated rfl, down⟩
  · rw [text, stripped_of_down, elements_bare unseparated]
    · rw [List.foldl_cons, append_nil]
      rfl
    · rw [elements_bare unseparated]
      exact List.forall_mem_singleton.2 (step_separated rfl)
  · rw [text, stripped_of_down, elements_net plain unseparated filled,
      render_net plain]
    rw [elements_net plain unseparated filled]
    exact List.forall_mem_cons.2 ⟨step_separated rfl,
      List.forall_mem_cons.2 ⟨step_separated rfl, down⟩⟩

end Bacs.Common
