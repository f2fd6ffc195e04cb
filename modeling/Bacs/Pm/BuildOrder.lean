import Bacs.Pm.MetaTree
import Bacs.Pm.Rebuilding

/-!
# Cycle detection and the order of builds

An update whose file operations succeed visits the import closure of the
package and then every stage reachable from its installation, each once and
after all it depends on, unless one of these stages is on a cycle.
-/

namespace Bacs.Pm

open Foundation DepthFirst Relation

section Order

variable {File Archive Tree : Type} {setting : Setting File Archive Tree}
  {fuel : Nat} {package : Entry} {packages : Finset Entry}

/-- A stage on a cycle is reachable from the installation of `package`. -/
def Circular (setting : Setting File Archive Tree)
    (cache : Cache File Archive) (package : Entry) : Prop :=
  ∃ stage, Reaches setting cache package stage ∧
    DependsOn setting cache stage stage

/-- The stages reachable from the installation of `package` were processed;
`done` has their results, the last one first. -/
structure Processed (setting : Setting File Archive Tree) (package : Entry)
    (start : Machine File Archive) (done : List (Stage × StageResult))
    (final : Machine File Archive) : Prop where
  ordered : Ordered (edges (setting.index start.cache)) done
  mem_iff : ∀ stage, stage ∈ done.map Prod.fst ↔
    Reaches setting start.cache package stage
  log : final.log = done.flatMap lines ++ start.log
  current : ∀ stage result, (stage, result) ∈ done →
    Lists (setting.sum start.cache) result.2
      (reached (setting.index start.cache) stage)
  rebuilt : ∀ stage result kind, (stage, result) ∈ done →
    stage.2.kind = some kind →
      (Rebuilt done stage ↔
        (start.cache.productOf stage kind).Stale result.2 ∨
          RebuiltBelow setting start.cache done stage)

theorem rebuilt_iff {cache : Cache File Archive}
    {done : List (Stage × StageResult)} {stage : Stage}
    {result : StageResult} {kind : Kind}
    (ordered : Ordered (edges (setting.index cache)) done)
    (inDone : (stage, result) ∈ done) (isKind : stage.2.kind = some kind) :
    Rebuilt done stage ↔ result.1 = true := by
  constructor
  · intro reason
    obtain ⟨_, other, found, was⟩ := reason
    rw [ordered.unique inDone found]
    exact was
  · exact fun was => ⟨notSource_of_kind isKind, result, inDone, was⟩

/-- The search throws if it finds a cycle, and otherwise processes what is
reachable. -/
theorem updateStages_order {start : Machine File Archive}
    (member : package ∈ packages)
    (closed : Closed (setting.index start.cache) (· ∈ packages))
    (enough : 4 * packages.card < fuel) :
    Ensures (updateStages setting fuel package) start
      (fun done final => ¬ Circular setting start.cache package ∧
        Processed setting package start done final)
      (fun failure _ => (∃ abort, failure = .operation abort) ∨
        Circular setting start.cache package ∧
          ∃ culprit, failure = .circular culprit) := by
  apply (updateStages_ensures closed
    (Accounted.observed setting fuel start (· ∈ packages)) member
    (.initial start)).mono
  · intro done final reason
    obtain ⟨searching, accounted, mem_iff⟩ := reason
    constructor
    · intro reason
      obtain ⟨stage, reaches, cycle⟩ := reason
      exact searching.ordered.acyclic ((mem_iff stage).mpr reaches) cycle
    · exact
        { ordered := searching.ordered
          mem_iff := mem_iff
          log := accounted.log
          current := searching.planned.snapshots
          rebuilt := fun stage result kind inDone isKind =>
            (rebuilt_iff searching.ordered inDone isKind).trans
              (accounted.built stage result kind inDone isKind) }
  · intro failure final unfinished
    cases unfinished with
    | circular _ _ reaches cycle => exact .inr ⟨⟨_, reaches, cycle⟩, _, rfl⟩
    | outOfFuel _ _ bound =>
        have short := bound packages member closed
        omega
    | interrupted stopped => exact .inl (stopped.operation enough)

/-- `update_meta_tree` updates the import closure; then
`update_package_depends` throws exactly if it can reach a cycle, and
otherwise processes every stage it can reach. -/
theorem update_in_order (setting : Setting File Archive Tree)
    (packages : Finset Entry) (package : Entry)
    (member : package ∈ packages) (machine : Machine File Archive)
    (covers : Covers setting machine.cache (· ∈ packages)) (fuel : Nat)
    (enough : 4 * packages.card < fuel)
    (metaSucceeds : ∀ abort final, updateMetaTree setting fuel package
      machine ≠ .error (.operation abort) final)
    (stagesSucceed : ∀ visited middle abort final,
      updateMetaTree setting fuel package machine = .ok visited middle →
        updateStages setting fuel package middle ≠
          .error (.operation abort) final) :
    ∃ visited middle,
      updateMetaTree setting fuel package machine = .ok visited middle ∧
      MetaUpdated setting machine package visited middle ∧
      ((∃ culprit final, updateStages setting fuel package middle =
          .error (.circular culprit) final) ↔
        Circular setting middle.cache package) ∧
      (¬ Circular setting middle.cache package → ∃ done final,
        updateStages setting fuel package middle = .ok done final ∧
          Processed setting package middle done final) := by
  have tour := updateMetaTree_ensures fuel covers member
  cases toured : updateMetaTree setting fuel package machine with
  | error failure middle =>
      cases tour.of_error toured with
      | outOfFuel _ bound =>
          have short := bound packages fun _ inside => inside
          omega
      | failed reason =>
          obtain ⟨abort, rfl, _⟩ := reason
          exact absurd toured (metaSucceeds abort middle)
  | ok visited middle =>
      have updated := tour.of_ok toured
      have closed := updated.toured.closed covers
      have search := updateStages_order member closed enough
      refine ⟨visited, middle, rfl, updated, ?_⟩
      cases searched : updateStages setting fuel package middle with
      | ok done final =>
          obtain ⟨acyclic, processed⟩ := search.of_ok searched
          refine ⟨⟨?_, fun circular => absurd circular acyclic⟩,
            fun _ => ⟨done, final, rfl, processed⟩⟩
          intro reason
          obtain ⟨culprit, other, thrown⟩ := reason
          cases thrown
      | error failure final =>
          rcases search.of_error searched with
            ⟨abort, rfl⟩ | ⟨circular, culprit, rfl⟩
          · exact absurd searched
              (stagesSucceed visited middle abort final toured)
          · exact ⟨⟨fun _ => circular, fun _ => ⟨culprit, final, rfl⟩⟩,
              fun acyclic => absurd circular acyclic⟩

end Order

/-! ## A repository with two packages -/

namespace Sample

def a : Entry := ⟨["a"]⟩
def b : Entry := ⟨["b"]⟩

def indexA : Index :=
  { source :=
      { importSource := [], importPackage := [], self := [⟨"src", "main"⟩] }
    package := { importSource := [], importPackage := [], self := [] } }

/-- The source of `b` has that of `a` in it, and its installation has the
one of `a`. -/
def indexB : Index :=
  { source :=
      { importSource := [⟨"lib", a⟩], importPackage := []
        self := [⟨"src", "main"⟩] }
    package :=
      { importSource := [], importPackage := [⟨"dep", a⟩], self := [] } }

abbrev Contents := List (List PathName × String)

def sums (index main : Checksum) : SnapshotEntry :=
  ([⟨"index", index⟩, ⟨"main", main⟩] : List (Σ _ : String, Checksum)).toFinmap

/-- Files are their own checksums, and archives what they contain. -/
def externals : Externals String Contents Contents where
  version := "1"
  checksum := id
  parseIndex := fun file =>
    if file = "index a" then some indexA
    else if file = "index b" then some indexB
    else none
  parseChecksum := fun file =>
    if file = "sums a" then some (sums "index a" "main a")
    else if file = "new sums a" then some (sums "index a" "new main a")
    else if file = "sums b" then some (sums "index b" "main b")
    else none
  unpackSource := fun file => some [([], file)]
  pack := id
  unpack := some
  install := some
  empty := []
  merge := fun tree destination contents =>
    some (tree ++ contents.map fun (path, file) => (destination ++ path, file))

def format : Format :=
  { archiveSuffix := ".tar", index := none, checksum := none }

/-- The remote repository with the given files of `a`. -/
def remote (sumsA mainA : String) : Remote String := fun package name =>
  if package = a then
    if name = "index" then some "index a"
    else if name = "checksum" then some sumsA
    else if name = "main.tar" then some mainA
    else none
  else if package = b then
    if name = "index" then some "index b"
    else if name = "checksum" then some "sums b"
    else if name = "main.tar" then some "main b"
    else none
  else none

def noFaults : Faults String Contents where
  aborts := fun _ => false
  residue := fun _ =>
    { file := none, archive := none, snapshot := .absent
      version := .absent, removed := fun _ _ => false }

def setting : Setting String Contents Contents :=
  { externals, format, remote := remote "sums a" "main a", faults := noFaults }

def start : Machine String Contents :=
  { cache := .empty, clock := 0, log := [] }

theorem covers : Covers setting start.cache (· ∈ ({a, b} : Finset Entry)) := by
  have imports : ∀ package ∈ ({a, b} : Finset Entry),
      ∀ index ∈ [indexA, indexB],
        ∀ other ∈ (index.absolute package).source.imports ++
            (index.absolute package).package.imports,
          other ∈ ({a, b} : Finset Entry) := by
    decide +kernel
  intro package member file index _ parsed other imported
  refine imports package member index ?_ other
    (List.mem_append.mpr (Index.mem_all.mp imported))
  simp only [setting, externals] at parsed
  split at parsed
  · cases parsed
    exact List.mem_cons_self
  · split at parsed
    · cases parsed
      exact List.mem_cons_of_mem _ List.mem_cons_self
    · cases parsed

end Sample

theorem update_in_order_sample :
    ∃ visited middle, updateMetaTree Sample.setting 9 Sample.b Sample.start =
        .ok visited middle ∧
      MetaUpdated Sample.setting Sample.start Sample.b visited middle ∧
      ((∃ culprit final, updateStages Sample.setting 9 Sample.b middle =
          .error (.circular culprit) final) ↔
        Circular Sample.setting middle.cache Sample.b) ∧
      (¬ Circular Sample.setting middle.cache Sample.b → ∃ done final,
        updateStages Sample.setting 9 Sample.b middle = .ok done final ∧
          Processed Sample.setting Sample.b middle done final) := by
  have succeeds : Normal ((do
      let _ ← updateMetaTree Sample.setting 9 Sample.b
      updateStages Sample.setting 9 Sample.b) Sample.start) := by
    decide +kernel
  have metaSucceeds :
      Normal (updateMetaTree Sample.setting 9 Sample.b Sample.start) := by
    decide +kernel
  apply update_in_order Sample.setting {Sample.a, Sample.b} Sample.b
    (by decide) Sample.start Sample.covers 9 (by decide)
    (fun abort final => metaSucceeds.ne_error _ _)
  intro visited middle abort final toured
  exact (succeeds.of_bind toured).ne_error _ _

end Bacs.Pm
