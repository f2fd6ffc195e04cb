import Bacs.Common.Copying

/-!
# Copies in part

While a tree is copied, some of its paths are at the destination and the rest
of the disk is as it was.  A link does no harm if it leads to a file or to an
empty directory when it has been copied.
-/

namespace Bacs.Common

open Foundation LexicalPath Disk

variable {Name Contents : Type}
  {disk state next final : Disk Name (Leaf Name Contents)}
  {source destination : Route Name} {src dst place above : List Name}

/-- The tree is at the destination, and nothing else has changed. -/
structure Copied (disk final : Disk Name (Leaf Name Contents))
    (src dst : List Name) : Prop where
  copy : ∀ names, final.below dst names = disk.below src names
  unchanged : ∀ place, ¬ dst <+: place → final.node place = disk.node place

/-- A tree at the source, and a destination, without a separator at its end,
where nothing is and which is not inside the tree. -/
structure Copying (disk : Disk Name (Leaf Name Contents))
    (source destination : Route Name) (src : List Name) : Prop where
  plain : destination.slash = false
  located : disk.locate source = .ok src
  present : (disk.node src).isSome
  supported : ∀ names, disk.below src names ≠ some (.file .other)
  finite : disk.Finite
  absent : Absent disk destination
  outside : ∀ dst, disk.locate destination = .ok dst → ¬ src <+: dst

/-! ## Copied in part -/

/-- Of the tree, the paths in `done` have been copied. -/
structure PartlyCopied (disk state : Disk Name (Leaf Name Contents))
    (src dst : List Name) (done : Set (List Name)) : Prop where
  copied : ∀ names ∈ done, state.below dst names = disk.below src names
  missing : ∀ names ∉ done, state.below dst names = none
  unchanged : ∀ place, ¬ dst <+: place → state.node place = disk.node place

namespace PartlyCopied

variable {done others : Set (List Name)}

theorem initial (absent : disk.node dst = none) :
    PartlyCopied disk disk src dst ∅ := by
  constructor
  · intro names impossible
    cases impossible
  · intro names _
    by_cases top : names = []
    · rw [top, below_nil]
      exact absent
    · exact node_below_eq_none (by simp [absent]) top
  · intro place _
    rfl

theorem congr (partly : PartlyCopied disk state src dst done)
    (same : ∀ names, (disk.below src names).isSome →
      (names ∈ done ↔ names ∈ others)) :
    PartlyCopied disk state src dst others := by
  constructor
  · intro names member
    by_cases before : names ∈ done
    · exact partly.copied names before
    · rw [partly.missing names before]
      by_contra present
      have there := Option.isSome_iff_ne_none.mpr (Ne.symm present)
      exact before ((same names there).mpr member)
  · intro names notMember
    by_cases before : names ∈ done
    · rw [partly.copied names before]
      by_contra present
      have there := Option.isSome_iff_ne_none.mpr present
      exact notMember ((same names there).mp before)
    · exact partly.missing names before
  · exact partly.unchanged

theorem whole (partly : PartlyCopied disk state src dst done)
    (all : ∀ names, names ∈ done) : Copied disk state src dst :=
  ⟨fun names => partly.copied names (all names), partly.unchanged⟩

theorem finite (partly : PartlyCopied disk state src dst done)
    (finite : disk.Finite) : state.Finite := by
  apply (finite.union
    (finite.image fun place => dst ++ place.drop src.length)).subset
  intro place present
  change (state.node place).isSome at present
  by_cases inside : dst <+: place
  · right
    obtain ⟨names, rfl⟩ := inside
    refine ⟨src ++ names, ?_, by simp⟩
    change (disk.below src names).isSome
    by_cases copied : names ∈ done
    · rw [← partly.copied names copied]
      exact present
    · have missing := partly.missing names copied
      rw [below] at missing
      rw [missing] at present
      cases present
  · left
    rw [partly.unchanged place inside] at present
    exact present

theorem kept (first : PartlyCopied disk state src dst done)
    (second : PartlyCopied disk next src dst others)
    (more : ∀ names ∈ done, names ∈ others) (finite : disk.Finite) :
    Kept state next := by
  constructor
  · intro place present
    by_cases inside : dst <+: place
    · obtain ⟨names, rfl⟩ := inside
      change (state.below dst names).isSome at present
      change next.below dst names = state.below dst names
      by_cases copied : names ∈ done
      · rw [first.copied names copied, second.copied names (more names copied)]
      · rw [first.missing names copied] at present
        cases present
    · rw [first.unchanged place inside, second.unchanged place inside]
  · intro _
    exact second.finite finite

theorem kept_initial (absent : disk.node dst = none)
    (partly : PartlyCopied disk state src dst done) (finite : disk.Finite) :
    Kept disk state :=
  (initial absent).kept partly (fun _ impossible => impossible.elim) finite

theorem tree (partly : PartlyCopied disk state src dst done)
    (apart : Apart src dst) (names : List Name) :
    state.node (src ++ names) = disk.node (src ++ names) :=
  partly.unchanged _ (apart.not_within (List.prefix_append src names))

theorem made [DecidableEq Name] {node : Node (Leaf Name Contents)}
    (partly : PartlyCopied disk state src dst done)
    (found : disk.node (src ++ above) = some node)
    (made : Made state next source destination place (dst ++ above) node) :
    PartlyCopied disk next src dst (insert above done) := by
  have elsewhere : ∀ names, names ≠ above →
      next.below dst names = state.below dst names := by
    intro names different
    exact made.elsewhere (by simpa using different)
  constructor
  · intro names member
    by_cases itself : names = above
    · rw [itself]
      exact made.here.trans found.symm
    · rw [elsewhere names itself]
      exact partly.copied names (member.resolve_left itself)
  · intro names notMember
    have different : names ≠ above := fun same => notMember (.inl same)
    rw [elsewhere names different]
    exact partly.missing names fun member => notMember (.inr member)
  · intro place outside
    rw [made.elsewhere, partly.unchanged place outside]
    rintro rfl
    exact outside (List.prefix_append dst above)

/-- Where a path will be copied, when the directories above it are there. -/
theorem locate (partly : PartlyCopied disk state src dst done)
    (there : disk.locate destination = .ok dst)
    (absent : disk.node dst = none) (finite : disk.Finite)
    (present : (disk.node (src ++ above)).isSome)
    (up : ∀ names, names <+: above → names ≠ above → names ∈ done) :
    state.locate (destination.descend above) = .ok (dst ++ above) := by
  apply locate_descend ((kept_initial absent partly finite).locate there)
  intro names within proper
  exact (partly.copied names (up names within proper)).trans
    (directory_above present within proper)

end PartlyCopied

theorem Copying.apart (copying : Copying disk source destination src)
    (there : disk.locate destination = .ok dst) : Apart src dst := by
  refine ⟨copying.outside dst there, ?_⟩
  rintro ⟨names, rfl⟩
  have above := isSome_above copying.present (List.nil_prefix)
  rw [List.append_nil, copying.absent dst there] at above
  cases above

/-! ## Links that do no harm -/

/-- The path leads to a file or to an empty directory. -/
def Harmless (state : Disk Name (Leaf Name Contents)) (path : Route Name) :
    Prop :=
  ∃ place, state.follow path = .ok place ∧
    ((∃ leaf, state.node place = some (.file leaf)) ∨
      state.node place = some .directory ∧
        ∀ name, state.node (place ++ [name]) = none)

/-- Each link of the tree does no harm when it has been copied, and the
directories on the way to it. -/
def LinksHarmless (disk : Disk Name (Leaf Name Contents))
    (source : Route Name) (src dst : List Name) : Prop :=
  ∀ names target, disk.below src names = some (.file (.symlink target)) →
    ∃ state, PartlyCopied disk state src dst {above | above <+: names} ∧
      Harmless state (source.descend names)

section OnTheWay

variable {names : List Name} {target : LinkTarget Name}

/-- A directory of the copy that is on the way to a link is not empty. -/
theorem PartlyCopied.filled
    (partly : PartlyCopied disk state src dst {above | above <+: names})
    (link : disk.below src names = some (.file (.symlink target)))
    (directory : state.node (dst ++ above) = some .directory) :
    ∃ name, state.node (dst ++ above ++ [name]) ≠ none := by
  have onWay : above <+: names := by
    by_contra notOnWay
    have missing := partly.missing above notOnWay
    rw [below, directory] at missing
    cases missing
  have copy : disk.below src above = some .directory := by
    rw [← partly.copied above onWay]
    exact directory
  obtain ⟨rest, rfl⟩ := onWay
  cases rest with
  | nil =>
      rw [List.append_nil, copy] at link
      cases link
  | cons name rest =>
      rw [List.append_cons] at link partly
      have within := List.prefix_append (above ++ [name]) rest
      have present := isSome_above (isSome_of_below link) within
      refine ⟨name, ?_⟩
      rw [List.append_assoc, ← Option.isSome_iff_ne_none]
      change (state.below dst (above ++ [name])).isSome
      rw [partly.copied _ within]
      exact present

theorem PartlyCopied.top
    (partly : PartlyCopied disk state src dst {above | above <+: names})
    (present : (disk.node (src ++ names)).isSome) :
    state.node dst ≠ none := by
  have copy := partly.copied [] List.nil_prefix
  rw [below_nil] at copy
  rw [copy, ← Option.isSome_iff_ne_none]
  exact isSome_above present List.nil_prefix

theorem Harmless.later {done : Set (List Name)} {path : Route Name}
    (harmless : Harmless state path)
    (link : disk.below src names = some (.file (.symlink target)))
    (first : PartlyCopied disk state src dst {above | above <+: names})
    (second : PartlyCopied disk next src dst done)
    (more : ∀ above, above <+: names → above ∈ done)
    (finite : disk.Finite) : Harmless next path := by
  have kept := first.kept second more finite
  obtain ⟨place, followed, ends⟩ := harmless
  refine ⟨place, kept.follow followed, ?_⟩
  rcases ends with ⟨leaf, found⟩ | ⟨directory, empty⟩
  · exact .inl ⟨leaf, kept.found found⟩
  · refine .inr ⟨kept.found directory, fun name => ?_⟩
    have outside : ¬ dst <+: place ++ [name] := by
      intro inside
      obtain same | ⟨above, rfl⟩ := List.prefix_concat_iff.mp inside
      · apply first.top (isSome_of_below link)
        rw [same]
        exact empty name
      · obtain ⟨child, filled⟩ := first.filled link directory
        exact filled (empty child)
    rw [second.unchanged _ outside, ← first.unchanged _ outside]
    exact empty name

end OnTheWay

end Bacs.Common
