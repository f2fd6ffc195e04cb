import Bacs.Problem.Packaging
import Bacs.Pm.EntryGrammar
import Bacs.Pm.PackageTrees

/-!
# What the utilities make

A package directory has an index, the directories that the index lists as
sources, and nothing else.
-/

namespace Bacs.Problem

open Foundation Pm Pm.Publishing LexicalPath Disk

variable {File : Type} {writers : Writers File}
  {disk next final : Disk String File} {destination : List String}
  {index : Index} {names : List String}

/-! ## Filling a directory -/

/-- Nothing is in the place. -/
def Fresh (destination : List String) (disk : Disk String File) : Prop :=
  ∀ name, disk.node (destination ++ [name]) = none

/-- A directory with no entries but the named ones. -/
structure Filled (destination names : List String)
    (disk : Disk String File) : Prop where
  directory : disk.node destination = some .directory
  entries : ∀ name, (disk.node (destination ++ [name])).isSome →
    name ∈ names

theorem Filled.empty (directory : disk.node destination = some .directory)
    (fresh : Fresh destination disk) : Filled destination [] disk := by
  refine ⟨directory, fun name present => ?_⟩
  rw [fresh name] at present
  cases present

theorem Filled.step {name : String} (filled : Filled destination names disk)
    (changed : ChangedBelow (destination ++ [name]) disk final) :
    Filled destination (name :: names) final := by
  constructor
  · rw [changed.parent]
    exact filled.directory
  · intro other present
    by_cases same : name = other
    · exact same ▸ List.mem_cons_self
    · rw [← (changed.sibling same).here] at present
      exact List.mem_cons_of_mem _ (filled.entries other present)

structure Packaged (writers : Writers File) (destination : List String)
    (index : Index) (disk final : Disk String File) : Prop where
  changed : ChangedBelow destination disk final
  written : final.node (destination ++ ["index"]) =
    some (.file (writers.saveIndex index))
  source : ∀ srcName ∈ index.sources,
    final.node (destination ++ [srcName]) = some .directory
  entries : ∀ name, (final.node (destination ++ [name])).isSome →
    name = "index" ∨ name ∈ index.sources

theorem packaged_of_filled
    (changed : ChangedBelow destination disk next)
    (filled : Filled destination names next)
    (named : ∀ name ∈ names, name ∈ index.sources)
    (source : ∀ srcName ∈ index.sources,
      next.node (destination ++ [srcName]) = some .directory)
    (saved : saveIndex writers destination index next = some final) :
    Packaged writers destination index disk final := by
  have last := changedBelow_write saved
  have absent : "index" ∉ index.sources := by
    intro member
    exact (Disk.write_spec saved).1 (source "index" member)
  constructor
  · exact changed.trans (last.mono (List.prefix_append _ _))
  · exact Disk.node_write_self saved
  · intro srcName member
    have different : "index" ≠ srcName := by
      intro same
      exact absent (same ▸ member)
    rw [← (last.sibling different).here]
    exact source srcName member
  · intro name present
    have inside := (filled.step last).entries name present
    rcases List.mem_cons.mp inside with same | before
    · exact .inl same
    · exact .inr (named name before)

theorem resetDir_spec {place : List String}
    (reset : resetDir place disk = some next) :
    ChangedBelow place disk next ∧ Filled place [] next := by
  have made := changedBelow_makeDirectory reset
  refine ⟨changedBelow_removeAll.trans made, ?_⟩
  apply Filled.empty (node_makeDirectory reset)
  intro name
  rw [(makeDirectory_spec reset).2, Function.update_of_ne (by simp),
    node_removeAll, if_pos (List.prefix_append place [name])]

/-! ## The parts of a package directory -/

section Parts

variable {utility : Utility}

theorem locate_of_written {place : List String} {name : String}
    {contents : File} (plain : '/' ∉ name.toList ∨
      ∀ character ∈ name.toList, character = '/')
    (directory : disk.node place = some .directory)
    (written : disk.write (locate place name) contents = some final) :
    locate place name = place ++ [name] := by
  have free := (Disk.write_spec written).1
  rcases plain with plain | separators
  · rcases locate_plain place plain with inside | here | above
    · exact inside
    · rw [here] at free
      exact absurd directory free
    · rw [above] at free
      by_cases top : place = []
      · rw [top] at free directory
        exact absurd directory free
      · exact absurd
          (Disk.parent_directory (by simp [directory]) top) free
  · rw [Publishing.locate, walk_separators place separators] at free
    exact absurd directory free

theorem writeConfig_spec
    (wrote : utility.writeConfig writers destination disk = some final) :
    ChangedBelow (destination ++ ["etc"]) disk final ∧
      final.node (destination ++ ["etc"]) = some .directory := by
  simp only [Utility.writeConfig, Option.bind_eq_bind,
    Option.bind_eq_some_iff] at wrote
  obtain ⟨next, made, target, named, written⟩ := wrote
  have plain : '/' ∉ target.toList ∨
      ∀ character ∈ target.toList, character = '/' := by
    unfold Utility.targetName at named
    split at named
    · rename_i plain
      cases named
      exact plain
    · cases named
  have there := node_makeDirectory made
  rw [locate_of_written plain there written] at written
  have below := changedBelow_write written
  constructor
  · exact (changedBelow_makeDirectory made).trans
      (below.mono (List.prefix_append _ _))
  · rw [below.parent]
    exact there

theorem writeModule_spec {text : String}
    (wrote : writeModule writers destination text disk = some final) :
    ChangedBelow (destination ++ ["modules"]) disk final ∧
      final.node (destination ++ ["modules"]) = some .directory := by
  simp only [writeModule, Option.bind_eq_bind,
    Option.bind_eq_some_iff] at wrote
  obtain ⟨next, made, written⟩ := wrote
  have place : destination ++ ["modules", "utility.cmake"] =
      destination ++ ["modules"] ++ ["utility.cmake"] := by simp
  rw [place] at written
  have below := changedBelow_write written
  constructor
  · exact (changedBelow_makeDirectory made).trans
      (below.mono (List.prefix_append _ _))
  · rw [below.parent]
    exact node_makeDirectory made

def TestFile.Plain (test : TestFile) : Prop :=
  '/' ∉ (test.testId ++ "." ++ test.dataId).toList

/-- A name at a directory is there already, unless it is that of an entry. -/
theorem locate_of_created {place : List String} {entry : String}
    {node : Node File} (plain : '/' ∉ entry.toList)
    (directory : disk.node place = some .directory) (inner : place ≠ [])
    (created : disk.create (locate place entry) node = some final) :
    locate place entry = place ++ [entry] := by
  have absent := (Disk.create_spec created).1
  rcases locate_plain place plain with inside | here | above
  · exact inside
  · rw [here, directory] at absent
    cases absent
  · rw [above, Disk.parent_directory (by simp [directory]) inner] at absent
    cases absent

theorem copyTest_spec {location : List String} {test : TestFile}
    (plain : test.Plain)
    (directory : disk.node (destination ++ ["tests"]) = some .directory)
    (copied : copyTest location destination disk test = some final) :
    ChangedBelow (destination ++ ["tests"]) disk final ∧
      final.node (destination ++ ["tests"]) = some .directory := by
  simp only [copyTest, Option.bind_eq_bind, Option.bind_eq_some_iff]
    at copied
  obtain ⟨contents, _, created⟩ := copied
  rw [locate_of_created plain directory (by simp) created] at created
  have below := changedBelow_create created
  constructor
  · exact below.mono (List.prefix_append _ _)
  · rw [below.parent]
    exact directory

theorem copyTests_spec {location : List String} {tests : List TestFile}
    (plain : ∀ test ∈ tests, test.Plain)
    (directory : disk.node (destination ++ ["tests"]) = some .directory)
    (copied : tests.foldlM (copyTest location destination) disk =
      some final) :
    ChangedBelow (destination ++ ["tests"]) disk final ∧
      final.node (destination ++ ["tests"]) = some .directory := by
  induction tests generalizing disk with
  | nil =>
      cases copied
      exact ⟨ChangedBelow.refl _ _, directory⟩
  | cons test tests ih =>
      rw [List.foldlM_cons, Option.bind_eq_bind,
        Option.bind_eq_some_iff] at copied
      obtain ⟨next, first, copied⟩ := copied
      obtain ⟨changed, there⟩ :=
        copyTest_spec (plain test List.mem_cons_self) directory first
      obtain ⟨later, still⟩ := ih
        (fun other member => plain other (List.mem_cons_of_mem _ member))
        there copied
      exact ⟨changed.trans later, still⟩

end Parts

/-! ## Packages of the system -/

/-- The packages that are there for all problems. -/
def SystemPackage (package : Entry) : Prop :=
  ["bacs", "system"] <+: package.location ∨
    ["bacs", "lib"] <+: package.location

theorem systemPackage_div {package : Entry} (system : SystemPackage package)
    (other : Entry) : SystemPackage (package / other) := by
  rcases system with system | library
  · exact .inl (system.trans (List.prefix_append _ other.location))
  · exact .inr (library.trans (List.prefix_append _ other.location))

theorem valid_of_entry {name : String} {package : Entry}
    (built : entry name = some package) : package.Valid := by
  rw [entry] at built
  cases result : Entry.build name '/' with
  | error failure =>
      rw [result] at built
      cases built
  | ok made =>
      rw [result] at built
      cases built
      exact Entry.build_valid result

theorem systemPackage_library {name : String} {package : Entry}
    (built : entry ("bacs/lib/" ++ name) = some package)
    (relative : name.toList.head?.any (· == '/') = false) :
    SystemPackage package := by
  have lists : ("bacs/lib/" ++ name).toList =
      ['b', 'a', 'c', 's'] ++ '/' ::
        (['l', 'i', 'b'] ++ '/' :: name.toList) := by
    rw [String.toList_append]
    rfl
  have outer : splitCompressed (· == '/') ("bacs/lib/" ++ name).toList =
      ['b', 'a', 'c', 's'] ::
        splitCompressed (· == '/')
          (['l', 'i', 'b'] ++ '/' :: name.toList) := by
    have plain : ∀ character ∈ ['b', 'a', 'c', 's'],
        (character == '/') = false := by simp
    rw [lists]
    exact splitCompressed_append plain rfl rfl
  have inner : splitCompressed (· == '/')
      (['l', 'i', 'b'] ++ '/' :: name.toList) =
      ['l', 'i', 'b'] :: splitCompressed (· == '/') name.toList := by
    have plain : ∀ character ∈ ['l', 'i', 'b'],
        (character == '/') = false := by simp
    exact splitCompressed_append plain rfl relative
  have split : Entry.splitName ("bacs/lib/" ++ name) '/' =
      "bacs" :: "lib" ::
        (splitCompressed (· == '/') name.toList).map String.ofList := by
    rw [Entry.splitName, outer, inner]
    rfl
  rw [entry, Entry.build, split] at built
  split at built
  · cases built
    exact .inr ⟨_, rfl⟩
  · cases built

/-- The sources of the packages, and what they may import. -/
structure Wellmade (others : Entry → Prop) (index : Index) : Prop where
  sources : ∀ srcName ∈ index.sources,
    srcName ∈ ["src", "etc", "modules", "tests", "pkg"]
  imports : ∀ package ∈ index.all,
    package.Valid ∧ (SystemPackage package ∨ others package)

theorem mem_treeImports {libs : List String} {kind : String}
    {dependencies : List TreeImport}
    (named : libs.mapM (fun lib => treeImport "." (kind ++ lib)) =
      some dependencies) {dependency : TreeImport}
    (member : dependency ∈ dependencies) :
    ∃ lib, entry (kind ++ lib) = some dependency.package := by
  induction libs generalizing dependencies with
  | nil =>
      cases named
      cases member
  | cons lib libs ih =>
      simp only [List.mapM_cons, Option.bind_eq_bind,
        Option.bind_eq_some_iff, Option.pure_def, Option.some.injEq] at named
      obtain ⟨first, built, rest, others, same⟩ := named
      subst same
      rcases List.mem_cons.mp member with here | later
      · obtain ⟨package, found, rfl⟩ := Option.map_eq_some_iff.mp built
        exact ⟨lib, here ▸ found⟩
      · exact ih others later

/-! ## The utilities -/

section Utilities

variable {place : List String} {name : String} {others : Entry → Prop}

theorem filled_of_makeDirectories
    (directory : disk.node place = some .directory)
    (absent : disk.node (place ++ [name]) = none)
    (made : disk.makeDirectories (place ++ [name]).inits = some next) :
    ChangedBelow (place ++ [name]) disk next ∧
      Filled (place ++ [name]) [] next := by
  obtain ⟨changed, spec⟩ := changedBelow_makeDirectories directory made
  refine ⟨changed, Filled.empty ?_ fun entry => ?_⟩
  · rw [spec, if_pos List.prefix_rfl]
  · rw [spec, if_neg]
    · apply Disk.node_below_eq_none _ (List.cons_ne_nil entry [])
      simp [absent]
    · intro longer
      have shorter := longer.length_le
      simp at shorter

namespace Utility

variable {utility : Utility}

theorem makeNone_spec (directory : disk.node place = some .directory)
    (absent : disk.node (place ++ [name]) = none)
    (made : utility.makeNone writers (place ++ [name]) disk = some final) :
    ∃ index, Packaged writers (place ++ [name]) index disk final ∧
      Wellmade others index := by
  simp only [makeNone, Option.bind_eq_bind, Option.bind_eq_some_iff] at made
  obtain ⟨first, entered, next, configured, saved⟩ := made
  obtain ⟨changed, empty⟩ :=
    filled_of_makeDirectories directory absent entered
  obtain ⟨within, etc⟩ := writeConfig_spec configured
  refine ⟨_, packaged_of_filled
    (changed.trans (within.mono (List.prefix_append _ _)))
    (empty.step within) ?_ ?_ saved, ?_⟩
  · simp [Index.mem_sources, noStage]
  · intro srcName member
    have same : srcName = "etc" := by
      simpa [Index.mem_sources, noStage] using member
    rw [same]
    exact etc
  · constructor
    · simp [Index.mem_sources, noStage]
    · simp [Index.mem_all, PackageStage.imports, noStage]

theorem makeAlias_spec {std : String}
    (directory : disk.node place = some .directory)
    (absent : disk.node (place ++ [name]) = none)
    (made : utility.makeAlias writers (place ++ [name]) disk std =
      some final) :
    ∃ index, Packaged writers (place ++ [name]) index disk final ∧
      Wellmade others index := by
  simp only [makeAlias, Option.bind_eq_bind, Option.bind_eq_some_iff]
    at made
  obtain ⟨first, entered, target, _, inner, innerBuilt, last, lastBuilt,
    next, configured, saved⟩ := made
  obtain ⟨changed, empty⟩ :=
    filled_of_makeDirectories directory absent entered
  obtain ⟨within, etc⟩ := writeConfig_spec configured
  refine ⟨_, packaged_of_filled
    (changed.trans (within.mono (List.prefix_append _ _)))
    (empty.step within) ?_ ?_ saved, ?_⟩
  · simp [Index.mem_sources, noStage]
  · intro srcName member
    have same : srcName = "etc" := by
      simpa [Index.mem_sources, noStage] using member
    rw [same]
    exact etc
  · constructor
    · simp [Index.mem_sources, noStage]
    · intro package member
      have same : package =
          ⟨["bacs", "system", "single"]⟩ / inner / ⟨["std"]⟩ / last := by
        simpa [Index.mem_all, PackageStage.imports, noStage] using member
      rw [same]
      constructor
      · apply Entry.Valid.div _ (valid_of_entry lastBuilt)
        apply Entry.Valid.div _ (by decide)
        exact Entry.Valid.div (by decide) (valid_of_entry innerBuilt)
      · left
        apply systemPackage_div
        apply systemPackage_div
        apply systemPackage_div
        exact .inl (List.prefix_append ["bacs", "system"] _)

/-- The directories of a utility that is built from its sources. -/
theorem built_spec {first second third : Disk String File} {text : String}
    (located : disk.node utility.location = some .directory)
    (outside : ¬ place ++ [name] <+: utility.location)
    (directory : disk.node place = some .directory)
    (absent : disk.node (place ++ [name]) = none)
    (entered : disk.makeDirectories (place ++ [name]).inits = some first)
    (copied : first.copyTree utility.location (place ++ [name] ++ ["src"]) =
      some second)
    (configured : utility.writeConfig writers (place ++ [name]) second =
      some third)
    (wrote : writeModule writers (place ++ [name]) text third =
      some next) :
    ChangedBelow (place ++ [name]) disk next ∧
      Filled (place ++ [name]) ["modules", "etc", "src"] next ∧
      next.node (place ++ [name] ++ ["src"]) = some .directory ∧
      next.node (place ++ [name] ++ ["etc"]) = some .directory ∧
      next.node (place ++ [name] ++ ["modules"]) = some .directory := by
  obtain ⟨changed, empty⟩ :=
    filled_of_makeDirectories directory absent entered
  have sources := changedBelow_copyTree copied
  obtain ⟨etcChanged, etc⟩ := writeConfig_spec configured
  obtain ⟨moduleChanged, modules⟩ := writeModule_spec wrote
  have inside (entry : String) :
      place ++ [name] <+: place ++ [name] ++ [entry] :=
    List.prefix_append _ _
  refine ⟨?_, ?_, ?_, ?_, modules⟩
  · exact ((changed.trans (sources.mono (inside _))).trans
      (etcChanged.mono (inside _))).trans (moduleChanged.mono (inside _))
  · exact ((empty.step sources).step etcChanged).step moduleChanged
  · rw [← (moduleChanged.sibling (by decide)).here,
      ← (etcChanged.sibling (by decide)).here, node_copyTree copied,
      changed.frame _ outside]
    exact located
  · rw [← (moduleChanged.sibling (by decide)).here]
    exact etc

theorem wellmade_built {system : Entry} {dependencies : List TreeImport}
    (valid : system.Valid) (known : SystemPackage system)
    (libraries : ∀ dependency ∈ dependencies,
      dependency.package.Valid ∧ SystemPackage dependency.package) :
    Wellmade others
      { source :=
          { importSource := [⟨".", system⟩]
            importPackage := dependencies
            self := [⟨"src", "src"⟩, ⟨"modules", "modules"⟩] }
        package := { noStage with self := [⟨"etc", "etc"⟩] } } := by
  constructor
  · intro srcName member
    simp only [Index.mem_sources, noStage, List.map_cons, List.map_nil,
      List.mem_cons, List.not_mem_nil, or_false] at member
    rcases member with (rfl | rfl) | rfl <;> decide
  · intro package member
    simp only [Index.mem_all, PackageStage.imports, noStage, List.map_nil,
      List.append_nil, List.not_mem_nil, or_false, List.mem_append,
      List.mem_map, List.map_cons, List.mem_singleton] at member
    rcases member with ⟨dependency, among, same⟩ | same
    · obtain ⟨proper, library⟩ := libraries dependency among
      rw [← same]
      exact ⟨proper, .inl library⟩
    · rw [same]
      exact ⟨valid, .inl known⟩

theorem getLang_spec (source : String) :
    Entry.isAllowedSubpath (getLang source) = true ∧
      ∃ first rest, (getLang source).toList = first :: rest ∧
        first ≠ '/' := by
  unfold getLang
  repeat' split
  all_goals exact ⟨by decide, _, _, rfl, by decide⟩

theorem makeSingle_spec {source : String} {std : Option String}
    {libs : List String}
    (located : disk.node utility.location = some .directory)
    (outside : ¬ place ++ [name] <+: utility.location)
    (directory : disk.node place = some .directory)
    (absent : disk.node (place ++ [name]) = none)
    (made : utility.makeSingle writers (place ++ [name]) disk source std libs =
      some final) :
    ∃ index, Packaged writers (place ++ [name]) index disk final ∧
      Wellmade others index := by
  simp only [makeSingle, Option.bind_eq_bind, Option.bind_eq_some_iff]
    at made
  obtain ⟨first, entered, second, copied, third, configured, target, _,
    next, wrote, dependencies, named, saved⟩ := made
  obtain ⟨changed, filled, src, etc, modules⟩ := built_spec located outside
    directory absent entered copied configured wrote
  obtain ⟨allowed, letter, letters, spelled, ordinary⟩ :=
    getLang_spec (fileName source)
  refine ⟨_, packaged_of_filled changed filled ?_ ?_ saved, ?_⟩
  · simp [Index.mem_sources, noStage]
  · intro srcName member
    have same : (srcName = "src" ∨ srcName = "modules") ∨
        srcName = "etc" := by
      simpa [Index.mem_sources, noStage] using member
    rcases same with (rfl | rfl) | rfl
    · exact src
    · exact modules
    · exact etc
  · apply wellmade_built
    · intro component member
      simp only [List.mem_cons, List.not_mem_nil, or_false] at member
      rcases member with rfl | rfl | rfl | rfl | rfl
      · decide
      · decide
      · decide
      · decide
      · exact allowed
    · exact .inl (List.prefix_append ["bacs", "system"] _)
    · intro dependency member
      obtain ⟨lib, built⟩ := mem_treeImports named member
      refine ⟨valid_of_entry built, ?_⟩
      rw [String.append_assoc, String.append_assoc] at built
      apply systemPackage_library built
      rw [String.toList_append, spelled]
      simpa using ordinary

theorem makeDotNet_spec {solution : String} {configuration : Option String}
    {libs : List String}
    (located : disk.node utility.location = some .directory)
    (outside : ¬ place ++ [name] <+: utility.location)
    (directory : disk.node place = some .directory)
    (absent : disk.node (place ++ [name]) = none)
    (made : utility.makeDotNet writers (place ++ [name]) disk solution
      configuration libs = some final) :
    ∃ index, Packaged writers (place ++ [name]) index disk final ∧
      Wellmade others index := by
  simp only [makeDotNet, Option.bind_eq_bind, Option.bind_eq_some_iff]
    at made
  obtain ⟨first, entered, second, copied, third, configured, target, _,
    next, wrote, dependencies, named, saved⟩ := made
  obtain ⟨changed, filled, src, etc, modules⟩ := built_spec located outside
    directory absent entered copied configured wrote
  refine ⟨_, packaged_of_filled changed filled ?_ ?_ saved, ?_⟩
  · simp [Index.mem_sources, noStage]
  · intro srcName member
    have same : (srcName = "src" ∨ srcName = "modules") ∨
        srcName = "etc" := by
      simpa [Index.mem_sources, noStage] using member
    rcases same with (rfl | rfl) | rfl
    · exact src
    · exact modules
    · exact etc
  · apply wellmade_built
    · decide
    · exact .inl (List.prefix_append ["bacs", "system"] _)
    · intro dependency member
      obtain ⟨lib, built⟩ := mem_treeImports named member
      refine ⟨valid_of_entry built, ?_⟩
      have split : ("bacs/lib/dot_net_solution/" : String) =
          "bacs/lib/" ++ "dot_net_solution/" := rfl
      rw [split, String.append_assoc] at built
      apply systemPackage_library built
      rw [String.toList_append]
      rfl

theorem makeTests_spec {tests : TestFiles}
    (plain : ∀ test ∈ tests.files, test.Plain)
    (directory : disk.node place = some .directory)
    (absent : disk.node (place ++ [name]) = none)
    (made : utility.makeTests writers (place ++ [name]) disk tests =
      some final) :
    ∃ index, Packaged writers (place ++ [name]) index disk final ∧
      Wellmade others index := by
  simp only [makeTests, Option.bind_eq_bind, Option.bind_eq_some_iff]
    at made
  obtain ⟨first, entered, second, opened, third, copied, fourth, configured,
    made⟩ := made
  split at made
  · cases made
  rw [Option.bind_eq_some_iff] at made
  obtain ⟨next, archived, saved⟩ := made
  have inside (entry : String) :
      place ++ [name] <+: place ++ [name] ++ [entry] :=
    List.prefix_append _ _
  obtain ⟨changed, empty⟩ :=
    filled_of_makeDirectories directory absent entered
  have testsMade := changedBelow_makeDirectory opened
  obtain ⟨testsCopied, testsThere⟩ :=
    copyTests_spec plain (node_makeDirectory opened) copied
  have etcMade := changedBelow_makeDirectory configured
  have etcWritten := changedBelow_write archived
  rw [List.append_cons (place ++ [name])] at etcWritten
  have etcChanged := etcMade.trans
    (etcWritten.mono (List.prefix_append _ ["tests"]))
  refine ⟨_, packaged_of_filled ?_
    ((empty.step (testsMade.trans testsCopied)).step etcChanged)
    ?_ ?_ saved, ?_⟩
  · exact (changed.trans ((testsMade.trans testsCopied).mono
      (inside _))).trans (etcChanged.mono (inside _))
  · simp [Index.mem_sources, noStage]
  · intro srcName member
    have same : srcName = "tests" ∨ srcName = "etc" := by
      simpa [Index.mem_sources, noStage] using member
    rcases same with rfl | rfl
    · rw [← (etcChanged.sibling (by decide)).here]
      exact testsThere
    · rw [etcWritten.parent]
      exact node_makeDirectory configured
  · constructor
    · intro srcName member
      have same : srcName = "tests" ∨ srcName = "etc" := by
        simpa [Index.mem_sources, noStage] using member
      rcases same with rfl | rfl <;> decide
    · intro package member
      have same : package =
          ⟨["bacs", "system", "single", "list_tests"]⟩ := by
        simpa [Index.mem_all, PackageStage.imports, noStage] using member
      rw [same]
      exact ⟨by decide, .inl (.inl (List.prefix_append _ _))⟩

/-- Every utility makes a package of its own, which imports packages of the
system. -/
theorem makePackage_spec
    (plain : ∀ tests, utility.builder = .listStorage tests →
      ∀ test ∈ tests.files, test.Plain)
    (located : disk.node utility.location = some .directory)
    (outside : ¬ place ++ [name] <+: utility.location)
    (directory : disk.node place = some .directory)
    (absent : disk.node (place ++ [name]) = none)
    (made : utility.makePackage writers (place ++ [name]) disk =
      some final) :
    ∃ index, Packaged writers (place ++ [name]) index disk final ∧
      Wellmade others index := by
  unfold makePackage at made
  split at made
  · exact makeNone_spec directory absent made
  · exact makeAlias_spec directory absent made
  · exact makeSingle_spec located outside directory absent made
  · exact makeDotNet_spec located outside directory absent made
  · rename_i tests builder
    exact makeTests_spec (plain tests builder) directory absent made

end Utility

end Utilities

end Bacs.Problem
