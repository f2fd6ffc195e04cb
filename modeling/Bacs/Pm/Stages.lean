import Bacs.Foundation.DepthFirst
import Bacs.Pm.Repository

/-!
# The graph of stages and the snapshots of stages

What a stage depends on follows from the indexes in the cache.  The snapshot
of a stage should list the checksums of all packages whose source it depends
on; merging the snapshots of its dependencies gives that list.
-/

namespace Bacs.Pm

open DepthFirst Relation

/-! ## Snapshots of sets of packages -/

/-- The snapshot has the checksums `sum` of exactly these packages. -/
def Lists (sum : Entry → Option SnapshotEntry) (snapshot : Snapshot)
    (packages : Set Entry) : Prop :=
  ∀ package,
    (package ∈ packages → ∃ entry,
      sum package = some entry ∧ snapshot.lookup package = some entry) ∧
    (package ∉ packages → snapshot.lookup package = none)

namespace Lists

variable {sum : Entry → Option SnapshotEntry} {first second : Snapshot}
  {left right : Set Entry}

theorem mem_iff (lists : Lists sum first left) {package : Entry} :
    package ∈ left ↔ ∃ entry, first.lookup package = some entry := by
  constructor
  · intro member
    obtain ⟨entry, _, found⟩ := (lists package).1 member
    exact ⟨entry, found⟩
  · intro given
    obtain ⟨entry, found⟩ := given
    by_contra outside
    rw [(lists package).2 outside] at found
    cases found

theorem sum_of_lookup (lists : Lists sum first left) {package : Entry}
    {entry : SnapshotEntry} (found : first.lookup package = some entry) :
    sum package = some entry := by
  obtain ⟨other, known, same⟩ :=
    (lists package).1 (lists.mem_iff.mpr ⟨entry, found⟩)
  rw [known, ← same, found]

theorem unique (one : Lists sum first left) (two : Lists sum second left) :
    first = second := by
  apply Finmap.ext_lookup
  intro package
  by_cases member : package ∈ left
  · obtain ⟨entry, known, found⟩ := (one package).1 member
    obtain ⟨other, knownToo, foundToo⟩ := (two package).1 member
    rw [found, foundToo, ← known, ← knownToo]
  · rw [(one package).2 member, (two package).2 member]

theorem empty : Lists sum ∅ ∅ := by
  intro package
  simp

theorem singleton {package : Entry} {entry : SnapshotEntry}
    (known : sum package = some entry) :
    Lists sum (Finmap.singleton package entry) {package} := by
  intro other
  constructor
  · intro given
    subst given
    exact ⟨entry, known, Finmap.lookup_singleton_eq⟩
  · intro different
    rw [Finmap.lookup_eq_none, Finmap.mem_singleton]
    exact different

/-- Merging never finds a contradiction, and lists the packages of both. -/
theorem merge (one : Lists sum first left) (two : Lists sum second right) :
    ∃ merged, mergeMaps first second = some merged ∧
      Lists sum merged (left ∪ right) := by
  have agree : ∀ package ∈ second.keys,
      package ∉ first ∨ first.lookup package = second.lookup package := by
    intro package inSecond
    by_cases inFirst : package ∈ first
    · right
      obtain ⟨entry, found⟩ := Finmap.mem_iff.mp inFirst
      obtain ⟨other, foundToo⟩ :=
        Finmap.mem_iff.mp (Finmap.mem_keys.mp inSecond)
      rw [found, foundToo, ← one.sum_of_lookup found,
        ← two.sum_of_lookup foundToo]
    · exact .inl inFirst
  refine ⟨first ∪ second, if_pos agree, fun package => ?_⟩
  by_cases inFirst : package ∈ first
  · have found : (first ∪ second).lookup package = first.lookup package :=
      Finmap.lookup_union_left inFirst
    obtain ⟨entry, known⟩ := Finmap.mem_iff.mp inFirst
    refine ⟨fun _ => ⟨entry, one.sum_of_lookup known, found.trans known⟩,
      fun outside => absurd (one.mem_iff.mpr ⟨entry, known⟩) ?_⟩
    exact fun inLeft => outside (.inl inLeft)
  · have found : (first ∪ second).lookup package = second.lookup package :=
      Finmap.lookup_union_right inFirst
    have notLeft : package ∉ left := by
      intro inLeft
      obtain ⟨entry, known⟩ := one.mem_iff.mp inLeft
      exact inFirst (Finmap.mem_iff.mpr ⟨entry, known⟩)
    rw [found]
    constructor
    · intro given
      obtain inLeft | inRight := given
      · exact absurd inLeft notLeft
      · exact (two package).1 inRight
    · intro outside
      exact (two package).2 fun inRight => outside (.inr inRight)

theorem congr (lists : Lists sum first left) (same : left = right) :
    Lists sum first right :=
  same ▸ lists

end Lists

/-! ## The graph of stages -/

variable {File Archive Tree : Type}

section Graph

variable (indexOf : Entry → Option Index)

/-- What a stage depends on; nothing if its package has no index. -/
def edges (stage : Stage) : List Stage :=
  match indexOf stage.1 with
  | some deps => dependencies deps stage
  | none => []

/-- The packages whose source a stage depends on. -/
def reached (stage : Stage) : Set Entry :=
  {package | ReflTransGen (Edge (edges indexOf)) stage (package, .source)}

def reachedAll (stages : List Stage) : Set Entry :=
  {package | ∃ stage ∈ stages, package ∈ reached indexOf stage}

/-- A stage for building is one of the right kind for its package. -/
def Proper (stage : Stage) : Prop :=
  ∀ deps, indexOf stage.1 = some deps →
    (stage.2 = .build → deps.source.empty = false) ∧
    (stage.2 = .buildEmpty → deps.source.empty = true)

/-- The stages of packages in `area`. -/
def Allowed (area : Entry → Prop) (stage : Stage) : Prop :=
  Proper indexOf stage ∧ area stage.1

/-- The imports of packages in `area` are in it. -/
def Closed (area : Entry → Prop) : Prop :=
  ∀ package deps, area package → indexOf package = some deps →
    ∀ other ∈ deps.all, area other

variable {indexOf} {stage : Stage} {package : Entry} {deps : Index}

theorem edges_eq (known : indexOf stage.1 = some deps) :
    edges indexOf stage = dependencies deps stage := by
  rw [edges, known]

theorem reachedAll_append (first second : List Stage) :
    reachedAll indexOf (first ++ second) =
      reachedAll indexOf first ∪ reachedAll indexOf second := by
  ext package
  simp [reachedAll, or_and_right, exists_or]

theorem reachedAll_singleton :
    reachedAll indexOf [stage] = reached indexOf stage := by
  ext package
  simp [reachedAll]

theorem reachedAll_nil : reachedAll indexOf [] = ∅ := by
  ext package
  simp [reachedAll]

/-- What a stage that is no source reaches is reached by its dependencies. -/
theorem reached_eq (notSource : stage.2 ≠ .source) :
    reached indexOf stage = reachedAll indexOf (edges indexOf stage) := by
  ext package
  constructor
  · intro path
    rcases ReflTransGen.cases_head path with same | ⟨child, edge, rest⟩
    · exact absurd (congrArg Prod.snd same) notSource
    · exact ⟨child, edge, rest⟩
  · intro given
    obtain ⟨child, edge, rest⟩ := given
    exact ReflTransGen.head edge rest

theorem reached_source :
    reached indexOf (package, .source) =
      reachedAll indexOf (edges indexOf (package, .source)) ∪ {package} := by
  ext other
  constructor
  · intro path
    rcases ReflTransGen.cases_head path with same | ⟨child, edge, rest⟩
    · right
      exact (congrArg Prod.fst same).symm
    · exact .inl ⟨child, edge, rest⟩
  · intro given
    obtain ⟨child, edge, rest⟩ | rfl := given
    · exact ReflTransGen.head edge rest
    · exact .refl

/-- A dependency belongs to the same package or to an imported one. -/
theorem fst_of_mem_dependencies {child : Stage}
    (member : child ∈ dependencies deps stage) :
    child.1 = stage.1 ∨ child.1 ∈ deps.all := by
  have imported {imports : List TreeImport} {type : StageType}
      {part : PackageStage}
      (among : ∀ i ∈ imports, i.package ∈ part.imports)
      (included : ∀ entry ∈ part.imports, entry ∈ deps.all)
      (inMap : child ∈ imports.map fun i => (i.package, type)) :
      child.1 ∈ deps.all := by
    obtain ⟨i, inImports, rfl⟩ := List.mem_map.mp inMap
    exact included _ (among i inImports)
  have packages {part : PackageStage} : ∀ i ∈ part.importPackage,
      i.package ∈ part.imports := by
    intro i inImports
    exact List.mem_append_left _ (List.mem_map_of_mem inImports)
  have sources {part : PackageStage} : ∀ i ∈ part.importSource,
      i.package ∈ part.imports := by
    intro i inImports
    exact List.mem_append_right _ (List.mem_map_of_mem inImports)
  have inPackage : ∀ entry ∈ deps.package.imports, entry ∈ deps.all :=
    fun _ included => Index.mem_all.mpr (.inr included)
  have inSource : ∀ entry ∈ deps.source.imports, entry ∈ deps.all :=
    fun _ included => Index.mem_all.mpr (.inl included)
  obtain ⟨package, type⟩ := stage
  cases type with
  | installation =>
      simp only [dependencies, List.append_assoc, List.mem_append,
        List.mem_singleton] at member
      rcases member with first | second | rfl
      · exact .inr (imported packages inPackage first)
      · exact .inr (imported sources inPackage second)
      · exact .inl rfl
  | build => exact .inl (by rw [List.mem_singleton.mp member])
  | buildEmpty => exact .inl (by rw [List.mem_singleton.mp member])
  | source =>
      rcases List.mem_append.mp member with first | second
      · exact .inr (imported packages inSource first)
      · exact .inr (imported sources inSource second)

theorem proper_of_mem_dependencies {child : Stage}
    (known : indexOf stage.1 = some deps)
    (member : child ∈ dependencies deps stage) : Proper indexOf child := by
  have plain {imports : List TreeImport} {type : StageType}
      (notBuild : type ≠ .build) (notEmpty : type ≠ .buildEmpty)
      (inMap : child ∈ imports.map fun i => (i.package, type)) :
      Proper indexOf child := by
    obtain ⟨i, _, rfl⟩ := List.mem_map.mp inMap
    exact fun _ _ => ⟨fun same => absurd same notBuild,
      fun same => absurd same notEmpty⟩
  have source {name : Entry} : Proper indexOf (name, .source) :=
    fun _ _ => ⟨nofun, nofun⟩
  obtain ⟨package, type⟩ := stage
  cases type with
  | installation =>
      simp only [dependencies, List.append_assoc, List.mem_append,
        List.mem_singleton] at member
      rcases member with first | second | rfl
      · exact plain (by simp) (by simp) first
      · exact plain (by simp) (by simp) second
      · intro other same
        rw [show other = deps by
          simpa [known] using same.symm]
        cases empty : deps.source.empty <;> simp
  | build =>
      rw [List.mem_singleton.mp member]
      exact source
  | buildEmpty =>
      rw [List.mem_singleton.mp member]
      exact source
  | source =>
      rcases List.mem_append.mp member with first | second
      · exact plain (by simp) (by simp) first
      · exact plain (by simp) (by simp) second

theorem Allowed.closed {area : Entry → Prop} (closed : Closed indexOf area)
    {child : Stage} (allowed : Allowed indexOf area stage)
    (edge : child ∈ edges indexOf stage) : Allowed indexOf area child := by
  unfold edges at edge
  cases known : indexOf stage.1 with
  | none =>
      rw [known] at edge
      cases edge
  | some deps =>
      rw [known] at edge
      refine ⟨proper_of_mem_dependencies known edge, ?_⟩
      rcases fst_of_mem_dependencies edge with same | imported
      · rw [same]
        exact allowed.2
      · exact closed stage.1 deps allowed.2 known child.1 imported

theorem allowed_installation {area : Entry → Prop} (inArea : area package) :
    Allowed indexOf area (package, .installation) :=
  ⟨fun _ _ => ⟨nofun, nofun⟩, inArea⟩

end Graph

end Bacs.Pm
