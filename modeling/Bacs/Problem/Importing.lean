import Bacs.Problem.Versions

/-!
# Importing a problem

The packages of a problem are generated and then created in the repository.
They import one another and packages of the system, and the overview of the
problem names those of the statement.
-/

namespace Bacs.Problem

open Pm Pm.Publishing LexicalPath Disk

section Importing

variable {File Archive Tree Rest : Type}

/-- What `import_` does to the packages: `convert`, and then
`pm_create_recursively`. -/
def importProblem (publisher : Publisher File Archive Tree) (format : Format)
    (listing : Listing String File) (strip : Bool) (writers : Writers File)
    (options : GeneratorOptions) (fuel : Nat) (driver : Driver Rest)
    (disk : Disk String File) :
    Option (ProblemInfo Rest × Disk String File) := do
  let (problem, disk) ← Internal0.generate writers options driver disk
  let disk ← createRecursively publisher format listing strip fuel
    options.destination disk
  return (problem, disk)

/-! ## The packages of a problem -/

def Statement.packages (statement : Statement) : List (List String) :=
  ["resources"] :: statement.versions.map fun version =>
    ["versions", version.language, version.format]

/-- The places of all packages, below the root package. -/
def Driver.packages (driver : Driver Rest) : List (List String) :=
  [] :: ["system_verifier"] :: ["tests"] ::
    (driver.checker.toList.map (fun _ => ["checker"]) ++
      driver.interactor.toList.map (fun _ => ["interactor"]) ++
      driver.statement.packages.map fun names => "statement" :: names)

/-- The packages that the packages of a problem may import, besides those of
the system. -/
def Driver.Others (driver : Driver Rest) (options : GeneratorOptions)
    (package : Entry) : Prop :=
  ∃ names ∈ driver.packages, names ≠ [] ∧
    package = options.rootPackage / ⟨names⟩

/-- Where a utility is read from. -/
structure Utility.Readable {File : Type} (utility : Utility)
    (destination : List String) (disk : Disk String File) : Prop where
  located : disk.node utility.location = some .directory
  outside : ¬ destination <+: utility.location
  plain : ∀ tests, utility.builder = .listStorage tests →
    ∀ test ∈ tests.files, test.Plain

/-- Nothing is read from the directory that is generated. -/
structure Driver.Readable (driver : Driver Rest) (destination : List String)
    (disk : Disk String File) : Prop where
  tests : driver.tests.Readable destination disk
  checker : ∀ checker, driver.checker = some checker →
    checker.Readable destination disk
  interactor : ∀ interactor, driver.interactor = some interactor →
    interactor.Readable destination disk
  located : disk.node driver.statement.location = some .directory
  outside : ¬ destination <+: driver.statement.location
  versions : ∀ version ∈ driver.statement.versions, version.Proper

variable {writers : Writers File} {publisher : Publisher File Archive Tree}
  {format : Format} {keeps : String → Prop} {strip : Bool}
  {others : Entry → Prop} {options : GeneratorOptions}
  {driver : Driver Rest} {start disk next final : Disk String File}
  {destination : List String}

theorem Driver.mem_packages {names : List String} :
    names ∈ driver.packages ↔
      names = [] ∨ names = ["system_verifier"] ∨ names = ["tests"] ∨
      (driver.checker.isSome ∧ names = ["checker"]) ∨
      (driver.interactor.isSome ∧ names = ["interactor"]) ∨
      ∃ rest ∈ driver.statement.packages, names = "statement" :: rest := by
  have flip : ∀ other : List String, other = names ↔ names = other :=
    fun _ => eq_comm
  cases checker : driver.checker <;>
    cases interactor : driver.interactor <;>
    simp [packages, checker, interactor, flip]

/-- The packages as they are found in the entries of the root. -/
theorem Driver.mem_entries {names : List String} :
    names ∈ driver.packages ↔ names ∈ ([] : List String) :: inEntries
      (("statement", driver.statement.packages) ::
        (driver.interactor.toList.map (fun _ => ("interactor", [[]])) ++
          (driver.checker.toList.map (fun _ => ("checker", [[]])) ++
            [("tests", [[]]), ("system_verifier", [[]])]))) := by
  rw [Driver.mem_packages]
  cases driver.checker <;> cases driver.interactor <;>
    simp [mem_inEntries]
  all_goals generalize (∃ rest ∈ driver.statement.packages,
    names = "statement" :: rest) = within
  all_goals tauto

theorem Driver.Others.location_ne_nil {package : Entry}
    (other : driver.Others options package) : package.location ≠ [] := by
  obtain ⟨names, _, filled, same⟩ := other
  intro empty
  rw [same] at empty
  exact filled (List.append_eq_nil_iff.mp empty).2

/-! ## The statement -/

theorem growing_of_filled
    (filled : Filled destination [] disk) :
    Growing publisher format (Wellmade others) destination [] disk := by
  constructor
  · exact filled.directory
  · exact filled.entries
  · intro child member
    cases member

/-- The packages of a statement, with the manifests of its versions. -/
structure StatementMade (publisher : Publisher File Archive Tree)
    (writers : Writers File) (format : Format) (others : Entry → Prop)
    (destination : List String) (package : Entry) (revision : String)
    (statement : Statement) (disk : Disk String File) : Prop where
  planted : Planted publisher format (Wellmade others) destination
    statement.packages disk
  versions : ∀ version ∈ statement.versions, ∃ last ∈ statement.versions,
    last.subpackage = version.subpackage ∧
      VersionMade publisher writers format others
        (destination ++ ["versions"]) (package / ⟨["versions"]⟩) revision
        last disk

theorem resources_wellmade :
    Wellmade others Statement.resourcesIndex := by
  constructor
  · simp [Statement.resourcesIndex, Index.mem_sources, noStage]
  · simp [Statement.resourcesIndex, Index.mem_all, PackageStage.imports,
      noStage]

theorem statement_spec {statement : Statement} {package : Entry}
    {revision : String} (fits : Fits publisher writers keeps format)
    (named : ∀ package, others package → package.location ≠ [])
    (valid : package.Valid) (other : others (package / ⟨["resources"]⟩))
    (located : disk.node statement.location = some .directory)
    (outside : ¬ destination <+: statement.location)
    (proper : ∀ version ∈ statement.versions, version.Proper)
    (made : statement.makePackage writers destination package revision disk =
      some final) :
    StatementMade publisher writers format others destination package revision
        statement final ∧
      ChangedBelow destination disk final := by
  simp only [Statement.makePackage, Option.bind_eq_bind,
    Option.bind_eq_some_iff] at made
  obtain ⟨first, reset, second, resources, third, opened, made⟩ := made
  obtain ⟨changed, empty⟩ := resetDir_spec reset
  have deeper (name : String) : destination <+: destination ++ [name] :=
    List.prefix_append _ _
  have unfilled (entry : String) :
      first.node (destination ++ ["resources"] ++ [entry]) = none := by
    apply Disk.node_below_eq_none _ (List.cons_ne_nil _ _)
    intro there
    have member := empty.entries "resources" (by rw [there]; rfl)
    cases member
  have packaged := makeResources_spec
    (by rw [changed.frame _ outside]; exact located)
    (fun within => outside ((deeper _).trans within)) unfilled resources
  have growing : Growing publisher format (Wellmade others) destination
      [("resources", [[]])] second :=
    (growing_of_filled empty).step fits.unconfigured (by simp)
      packaged.changed (packaged.planted fits resources_wellmade named)
  have shelves := changedBelow_makeDirectory opened
  have shelved : Shelved publisher writers format others
      (destination ++ ["versions"]) (package / ⟨["versions"]⟩) revision []
      third := by
    constructor
    · apply Filled.empty (node_makeDirectory opened)
      intro name
      rw [(makeDirectory_spec opened).2, Function.update_of_ne (by simp)]
      apply Disk.node_below_eq_none _ (List.cons_ne_nil _ _)
      rw [growing.absent (by simp)]
      simp
    · intro version member
      cases member
    · intro version member
      cases member
  obtain ⟨done, loop⟩ := makeVersions_spec fits named
    (valid.div (by decide)) other proper shelved made
  rw [List.append_nil] at done
  have whole : Growing publisher format (Wellmade others) destination
      [("versions", statement.versions.reverse.map fun version =>
        [version.language, version.format]), ("resources", [[]])] final :=
    growing.step fits.unconfigured (by simp) (shelves.trans loop)
      (done.planted fits.unconfigured)
  constructor
  · constructor
    · have unindexed : final.file? (destination ++ ["index"]) = none := by
        have nothing := whole.absent (by simp : "index" ∉ _)
        simp [Disk.file?, nothing]
      have planted := planted_passage fits.unconfigured whole.directory
        unindexed (fun name there =>
          whole.entries name (by rw [there]; rfl)) whole.planted
      apply planted.congr_mem
      intro names
      simp [mem_inEntries, Statement.packages, eq_comm, or_comm]
    · intro version member
      obtain ⟨last, inside, same, found⟩ :=
        done.made version (List.mem_reverse.mpr member)
      exact ⟨last, List.mem_reverse.mp inside, same, found⟩
  · exact (changed.trans (packaged.changed.mono (deeper _))).trans
      ((shelves.trans loop).mono (deeper _))

/-! ## The generator -/

namespace Internal0

variable {root : Root File} {children : List (String × List (List String))}

structure Progress (publisher : Publisher File Archive Tree)
    (format : Format) (others : Entry → Prop) (destination : List String)
    (start : Disk String File)
    (children : List (String × List (List String))) (root : Root File) :
    Prop where
  growing : Growing publisher format (Wellmade others) destination children
    root.2
  imports : ∀ dependency ∈ root.1, dependency.package.Valid ∧
    (SystemPackage dependency.package ∨ others dependency.package)
  changed : ChangedBelow destination start root.2

/-- One more package is made, and some packages are imported. -/
theorem Progress.step {name : String} {packages : List (List String)}
    {imported : List TreeImport}
    (progress : Progress publisher format others destination start children
      root)
    (unconfigured : format.index = none)
    (fresh : name ∉ children.map (·.1))
    (changed : ChangedBelow (destination ++ [name]) root.2 next)
    (planted : Planted publisher format (Wellmade others)
      (destination ++ [name]) packages next)
    (imports : ∀ dependency ∈ imported, dependency.package.Valid ∧
      (SystemPackage dependency.package ∨ others dependency.package)) :
    Progress publisher format others destination start
      ((name, packages) :: children) (root.1 ++ imported, next) := by
  constructor
  · exact progress.growing.step unconfigured fresh changed planted
  · intro dependency member
    rcases List.mem_append.mp member with before | new
    · exact progress.imports dependency before
    · exact imports dependency new
  · exact progress.changed.trans (changed.mono (List.prefix_append _ _))

theorem verifier_wellmade : Wellmade others verifierIndex := by
  constructor
  · simp [verifierIndex, Index.mem_sources, noStage]
  · intro package member
    have same : package = ⟨["bacs", "system", "system_verifier"]⟩ := by
      simpa [verifierIndex, Index.mem_all, PackageStage.imports, noStage]
        using member
    rw [same]
    exact ⟨by decide, .inl (.inl (List.prefix_append _ _))⟩

theorem generateVerifier_spec {result : Root File}
    (fits : Fits publisher writers keeps format)
    (named : ∀ package, others package → package.location ≠ [])
    (valid : options.rootPackage.Valid)
    (other : others (options.rootPackage / ⟨["system_verifier"]⟩))
    (progress : Progress publisher format others options.destination start
      children root)
    (fresh : "system_verifier" ∉ children.map (·.1))
    (generated : generateVerifier writers options root = some result) :
    Progress publisher format others options.destination start
      (("system_verifier", [[]]) :: children) result := by
  simp only [generateVerifier, Option.bind_eq_bind, Option.pure_def,
    Option.bind_eq_some_iff, Option.some.injEq] at generated
  obtain ⟨next, made, rfl⟩ := generated
  have packaged := makeVerifier_spec made
  apply progress.step fits.unconfigured fresh packaged.changed
    (packaged.planted fits verifier_wellmade named)
  intro dependency member
  rw [List.mem_singleton.mp member]
  exact ⟨valid.div (by decide), .inr other⟩

theorem callPackage_valid {internalName kind : String} {package : Entry}
    (allowed : Entry.isAllowedSubpath internalName = true)
    (kindAllowed : Entry.isAllowedSubpath kind = true)
    (valid : package.Valid) :
    (callPackage internalName kind / package).Valid ∧
      SystemPackage (callPackage internalName kind / package) := by
  constructor
  · apply Entry.Valid.div _ valid
    intro component member
    simp only [callPackage, List.mem_cons, List.not_mem_nil, or_false]
      at member
    rcases member with rfl | rfl | rfl | rfl | rfl
    · decide
    · decide
    · decide
    · exact allowed
    · exact kindAllowed
  · apply systemPackage_div
    exact .inl (List.prefix_append ["bacs", "system"] _)

theorem generateUtility_spec {name internalName : String}
    {utility : Option Utility} {fallback : Option Entry}
    {result : Root File} (fits : Fits publisher writers keeps format)
    (named : ∀ package, others package → package.location ≠ [])
    (valid : options.rootPackage.Valid)
    (other : utility.isSome → others (options.rootPackage / ⟨[name]⟩))
    (allowed : Entry.isAllowedSubpath name = true)
    (internalAllowed : Entry.isAllowedSubpath internalName = true)
    (known : ∀ package, fallback = some package →
      package.Valid ∧ SystemPackage package)
    (readable : ∀ made, utility = some made →
      made.Readable options.destination start)
    (progress : Progress publisher format others options.destination start
      children root)
    (fresh : name ∉ children.map (·.1))
    (generated : generateUtility writers options name internalName utility
      fallback root = some result) :
    Progress publisher format others options.destination start
      (utility.toList.map (fun _ => (name, [[]])) ++ children) result := by
  unfold generateUtility at generated
  split at generated
  · rename_i utility
    simp only [Option.bind_eq_bind, Option.pure_def,
      Option.bind_eq_some_iff, Option.some.injEq] at generated
    obtain ⟨next, made, call, _, callEntry, callBuilt, returnEntry,
      returnBuilt, rfl⟩ := generated
    have source := readable utility rfl
    have located : root.2.node utility.location = some .directory := by
      rw [progress.changed.frame _ source.outside]
      exact source.located
    obtain ⟨index, packaged, wellmade⟩ := utility.makePackage_spec
      source.plain located
      (fun within =>
        source.outside ((List.prefix_append _ _).trans within))
      progress.growing.directory (progress.growing.absent fresh) made
    apply progress.step fits.unconfigured fresh packaged.changed
      (packaged.planted fits wellmade named)
    intro dependency member
    simp only [List.mem_cons, List.not_mem_nil, or_false] at member
    rcases member with rfl | rfl | rfl
    · refine ⟨valid.div ?_, .inr (other rfl)⟩
      simpa [Entry.Valid] using allowed
    · obtain ⟨proper, system⟩ := callPackage_valid internalAllowed
        (by decide : Entry.isAllowedSubpath "call" = true)
        (valid_of_entry callBuilt)
      exact ⟨proper, .inl system⟩
    · obtain ⟨proper, system⟩ := callPackage_valid internalAllowed
        (by decide : Entry.isAllowedSubpath "return" = true)
        (valid_of_entry returnBuilt)
      exact ⟨proper, .inl system⟩
  · simp only [Option.bind_eq_bind, Option.pure_def,
      Option.bind_eq_some_iff, Option.some.injEq] at generated
    obtain ⟨package, found, rfl⟩ := generated
    constructor
    · exact progress.growing
    · intro dependency member
      rcases List.mem_append.mp member with before | new
      · exact progress.imports dependency before
      · simp only [List.mem_cons, List.not_mem_nil, or_false] at new
        rcases new with rfl | rfl
        · obtain ⟨proper, system⟩ := known package found
          exact ⟨proper, .inl system⟩
        · obtain ⟨proper, system⟩ := callPackage_valid internalAllowed
            (by decide : Entry.isAllowedSubpath "return" = true)
            (by decide : Entry.Valid ⟨["none"]⟩)
          exact ⟨proper, .inl system⟩
    · exact progress.changed

/-- The packages of a problem are all there, and nothing outside of its
directory has changed. -/
structure Generated (publisher : Publisher File Archive Tree)
    (writers : Writers File) (format : Format) (options : GeneratorOptions)
    (driver : Driver Rest) (start : Disk String File)
    (problem : ProblemInfo Rest) (final : Disk String File) : Prop where
  planted : Planted publisher format (Wellmade (driver.Others options))
    options.destination driver.packages final
  manifests : ∀ info ∈ problem.versions, ∃ names ∈ driver.packages,
    info.package = options.rootPackage / ⟨names⟩ ∧
      ∃ version ∈ driver.statement.versions,
        final.node (options.destination ++ names ++ ["pkg", "manifest"]) =
          some (.file (writers.serialize
            ⟨info, options.system.revision, version.source⟩))
  changed : ChangedBelow options.destination start final

/-- The root package imports what has been collected for it. -/
def rootIndex (imports : List TreeImport) : Index :=
  { source := noStage
    package := { noStage with importPackage := imports } }

theorem Progress.planted
    (progress : Progress publisher format others destination start children
      root)
    (fits : Fits publisher writers keeps format)
    (named : ∀ package, others package → package.location ≠ [])
    (unindexed : "index" ∉ children.map (·.1))
    (unlisted : "checksum" ∉ children.map (·.1))
    (saved : saveIndex writers destination (rootIndex root.1) root.2 =
      some final) :
    Planted publisher format (Wellmade others) destination
      ([] :: inEntries children) final := by
  have changed := changedBelow_write saved
  have sourceless : (rootIndex root.1).sources = [] := rfl
  have wellmade : Wellmade others (rootIndex root.1) := by
    constructor
    · simp [sourceless]
    · intro package member
      have inside : package ∈ root.1.map (·.package) := by
        simpa [rootIndex, Index.mem_all, PackageStage.imports, noStage]
          using member
      obtain ⟨dependency, among, rfl⟩ := List.mem_map.mp inside
      exact progress.imports dependency among
  have directory : final.node destination = some .directory := by
    rw [changed.parent]
    exact progress.growing.directory
  have checksum : final.node (destination ++ ["checksum"]) = none := by
    rw [← (changed.sibling (by decide)).here]
    exact progress.growing.absent unlisted
  have ready : Ready publisher format final destination
      (rootIndex root.1) :=
    ready_of_entries fits wellmade named (Disk.node_write_self saved)
      (by simp [sourceless]) (.inl sourceless) checksum
  apply planted_package fits.unconfigured directory ready wellmade
  · intro name there
    right
    apply progress.growing.entries
    have different : "index" ≠ name := by
      intro same
      rw [← same, Disk.node_write_self saved] at there
      cases there
    rw [(changed.sibling different).here, there]
    rfl
  · intro name member
    refine ⟨fun same => unindexed (same ▸ member), ?_⟩
    simp [sourceless]
  · intro child member
    have different : "index" ≠ child.1 := by
      intro same
      exact unindexed (same ▸ List.mem_map_of_mem member)
    exact (progress.growing.planted child member).congr fits.unconfigured
      (changed.sibling different)

theorem div_div (first second third : Entry) :
    first / second / third = first / (second / third) :=
  congrArg Entry.mk (List.append_assoc _ _ _)

theorem made_manifests {info : VersionInfo} {index : File}
    (made : StatementMade publisher writers format (driver.Others options)
      (options.destination ++ ["statement"])
      (options.rootPackage / ⟨["statement"]⟩) options.system.revision
      driver.statement disk)
    (written : disk.write (options.destination ++ ["index"]) index =
      some final)
    (member : info ∈ driver.versions.map fun info =>
      { info with package := options.rootPackage / info.package }) :
    ∃ names ∈ driver.packages,
      info.package = options.rootPackage / ⟨names⟩ ∧
        ∃ version ∈ driver.statement.versions,
          final.node (options.destination ++ names ++ ["pkg", "manifest"]) =
            some (.file (writers.serialize
              ⟨info, options.system.revision, version.source⟩)) := by
  obtain ⟨inner, among, rfl⟩ := List.mem_map.mp member
  obtain ⟨middle, inside, rfl⟩ := List.mem_map.mp among
  obtain ⟨version, listed, rfl⟩ := List.mem_map.mp inside
  obtain ⟨later, found, same, one⟩ := made.versions version listed
  have place : later.placeIn
      (options.destination ++ ["statement"] ++ ["versions"]) =
        options.destination ++
          ["statement", "versions", version.language, version.format] := by
    rw [placeIn_eq_of_subpackage same]
    simp [Version.placeIn]
  refine ⟨["statement", "versions", version.language, version.format], ?_,
    rfl, later, found, ?_⟩
  · simp only [Driver.mem_packages, Statement.packages]
    refine .inr (.inr (.inr (.inr (.inr ⟨_, ?_, rfl⟩))))
    exact List.mem_cons_of_mem _ (List.mem_map_of_mem listed)
  · have agree := (changedBelow_write written).sibling
      (by decide : "index" ≠ "statement")
    have manifest := one.manifest
    rw [place, agree.node (by simp)] at manifest
    rw [manifest]
    obtain ⟨language, format⟩ := subpackage_eq_iff.mp same
    simp only [Version.manifest, Version.info, language, format, same,
      div_div]

theorem progress_initial
    (reset : resetDir options.destination disk = some next) :
    Progress publisher format others options.destination disk []
      ([⟨".", ⟨["bacs", "system", "single"]⟩⟩], next) := by
  obtain ⟨changed, empty⟩ := resetDir_spec reset
  constructor
  · exact growing_of_filled empty
  · intro dependency member
    rw [List.mem_singleton.mp member]
    exact ⟨by decide, .inl (.inl (List.prefix_append _ _))⟩
  · exact changed

theorem generate_spec {problem : ProblemInfo Rest}
    (fits : Fits publisher writers keeps format)
    (valid : options.rootPackage.Valid)
    (readable : driver.Readable options.destination disk)
    (generated : generate writers options driver disk =
      some (problem, final)) :
    Generated publisher writers format options driver disk problem
      final := by
  have named : ∀ package, driver.Others options package →
      package.location ≠ [] := fun _ other => other.location_ne_nil
  have entry {names : List String} (member : names ∈ driver.packages)
      (filled : names ≠ []) :
      driver.Others options (options.rootPackage / ⟨names⟩) :=
    ⟨names, member, filled, rfl⟩
  unfold generate at generated
  simp only [Option.bind_eq_bind, Option.bind_eq_some_iff] at generated
  obtain ⟨cleared, reset, generated⟩ := generated
  split at generated
  · cases generated
  simp only [Option.bind_eq_some_iff, Option.pure_def, Option.some.injEq,
    Prod.mk.injEq] at generated
  obtain ⟨verified, verifier, tested, tests, checked, checker, interacted,
    interactor, stated, statement, saved, written, rfl, rfl⟩ := generated
  have second := generateVerifier_spec fits named valid
    (entry (Driver.mem_packages.mpr (by simp)) (by simp))
    (progress_initial reset) (by simp) verifier
  have third := generateUtility_spec fits named valid
    (fun _ => entry (Driver.mem_packages.mpr (by simp)) (by simp))
    (by decide) (by decide) (by simp)
    (fun made same => Option.some.inj same ▸ readable.tests) second
    (by simp) tests
  have fourth := generateUtility_spec fits named valid
    (fun present =>
      entry (Driver.mem_packages.mpr (by simp [present])) (by simp))
    (by decide) (by decide)
    (fun package same => Option.some.inj same ▸
      ⟨by decide, .inl (List.prefix_append ["bacs", "system"] _)⟩)
    readable.checker third (by simp) checker
  have fifth := generateUtility_spec fits named valid
    (fun present =>
      entry (Driver.mem_packages.mpr (by simp [present])) (by simp))
    (by decide) (by decide)
    (fun package same => Option.some.inj same ▸
      ⟨by decide, .inl (List.prefix_append ["bacs", "system"] _)⟩)
    readable.interactor fourth (by simp) interactor
  have outside : ¬ options.destination ++ ["statement"] <+:
      driver.statement.location :=
    fun within => readable.outside ((List.prefix_append _ _).trans within)
  have located : interacted.2.node driver.statement.location =
      some .directory := by
    rw [fifth.changed.frame _ readable.outside]
    exact readable.located
  have resources : driver.Others options
      (options.rootPackage / ⟨["statement"]⟩ / ⟨["resources"]⟩) := by
    rw [div_div]
    apply entry (Driver.mem_packages.mpr _) (by simp)
    simp [Statement.packages]
  obtain ⟨made, below⟩ := statement_spec fits named
    (valid.div (by decide)) resources located outside
    readable.versions statement
  have unimported : ∀ dependency ∈ ([] : List TreeImport),
      dependency.package.Valid ∧ (SystemPackage dependency.package ∨
        driver.Others options dependency.package) := by simp
  have sixth := fifth.step fits.unconfigured (by simp) below made.planted
    unimported
  rw [List.append_nil] at sixth
  have whole := sixth.planted fits named (by simp) (by simp) written
  have root := changedBelow_write written
  constructor
  · exact whole.congr_mem fun names => Driver.mem_entries
  · exact fun info member => made_manifests made written member
  · exact sixth.changed.trans (root.mono (List.prefix_append _ _))

end Internal0

/-! ## Importing -/

/-- Whenever a problem is generated, it is imported as well.  Then all its
packages are fetched as they were made.  They import only one another and
packages of the system, and the manifests of all the versions of the statement
are in the packages that the overview gives for them. -/
theorem import_publishes {problem : ProblemInfo Rest}
    {generated : Disk String File}
    (fits : Fits publisher writers keeps format)
    (valid : options.rootPackage.Valid)
    (readable : driver.Readable options.destination disk)
    (finite : disk.Finite) (listing : Listing String File) (strip : Bool)
    (made : Internal0.generate writers options driver disk =
      some (problem, generated)) :
    ∃ depth, ∀ fuel, depth ≤ fuel → ∃ final,
      importProblem publisher format listing strip writers options fuel driver
        disk = some (problem, final) ∧
      (∀ other, ¬ options.destination <+: other →
        final.node other = disk.node other) ∧
      (∀ names ∈ driver.packages,
        RoundTrip publisher format (options.destination ++ names)
            (options.rootPackage / ⟨names⟩) generated final ∧
          ∃ index, indexAt publisher format generated
              (options.destination ++ names) = some index ∧
            ∀ package ∈ index.all, SystemPackage package ∨
              ∃ others ∈ driver.packages,
                package = options.rootPackage / ⟨others⟩) ∧
      ∀ info ∈ problem.versions, ∃ names ∈ driver.packages,
        info.package = options.rootPackage / ⟨names⟩ ∧
          ∃ version ∈ driver.statement.versions,
            generated.node
                (options.destination ++ names ++ ["pkg", "manifest"]) =
              some (.file (writers.serialize
                ⟨info, options.system.revision, version.source⟩)) := by
  have spec := Internal0.generate_spec fits valid readable made
  obtain ⟨depth, publishes⟩ := spec.planted.publishes fits.sound
    fits.packs fits.unconfigured strip
    (fun index wellmade => wellmade.tidy fits) (spec.changed.finite finite)
    listing
  refine ⟨depth, fun fuel enough => ?_⟩
  obtain ⟨final, created, trips, frame⟩ := publishes fuel enough
  refine ⟨final, ?_, ?_, ?_, spec.manifests⟩
  · simp only [importProblem, made, Option.bind_eq_bind, Option.bind_some,
      created, Option.pure_def]
  · intro other outside
    rw [frame other outside, spec.changed.frame other outside]
  · intro names member
    obtain ⟨index, ready, wellmade⟩ := spec.planted.ready names member
    refine ⟨trips names member _, index, ready.found, ?_⟩
    intro package imported
    rcases (wellmade.imports package imported).2 with system | other
    · exact .inl system
    · obtain ⟨others, among, _, same⟩ := other
      exact .inr ⟨others, among, same⟩

end Importing

/-! ## A problem with a checker and one version of the statement -/

namespace SampleProblem

inductive Document where
  | text (contents : String)
  | index (index : Index)
  | manifest (inner : Manifest)
  | listing (entry : SnapshotEntry)
  | archive (files : List (List String × Document))

def Document.checksum : Document → Checksum
  | .text contents => "text " ++ contents
  | .index _ => "index"
  | .manifest inner => "manifest " ++ inner.revision
  | .listing _ => "listing"
  | .archive _ => "archive"

def packed (tree : List String → Option (Node Document)) :
    List (List String × Document) :=
  [["1.in"], ["checker"], ["utility.cmake"], ["check.cpp"], ["ru.pdf"],
      ["tests"], ["manifest"], ["src", "system_verifier.cpp"]].filterMap
    fun names =>
      match tree names with
      | some (.file file) => some (names, file)
      | _ => none

def publisher : Publisher Document Document Document where
  version := "1"
  checksum := Document.checksum
  parseIndex
    | .index index => some index
    | _ => none
  parseChecksum
    | .listing entry => some (entry.erase "")
    | _ => none
  unpackSource := some
  pack := fun tree => tree
  unpack := some
  install := some
  empty := .text ""
  merge := fun _ _ contents => some contents
  packFrom := fun tree =>
    match tree [] with
    | some .directory => some (.archive (packed tree))
    | _ => none
  writeChecksum := .listing

def ini (config : Section) : String :=
  String.join (config.map fun line => line.1 ++ "=" ++ line.2 ++ "\n")

def writers : Writers Document where
  saveIndex := .index
  writeIni := fun config => .text (ini config)
  writeText := .text
  serialize := .manifest
  archiveTests := fun tests _ _ => .text (String.join tests)
  systemVerifier := fun system => .text system.revision
  pdflatex := fun _ _ _ => some (.text "pdf")

def format : Format :=
  { archiveSuffix := ".tar", index := none, checksum := none }

theorem isArchive {file : Document} (archive : IsArchive publisher file) :
    ∃ files, file = .archive files := by
  obtain ⟨tree, made⟩ := archive
  simp only [publisher] at made
  split at made
  · cases made
    exact ⟨_, rfl⟩
  · cases made

theorem fits : Fits publisher writers (· ≠ "") format := by
  constructor
  case sound =>
    constructor
    case keepsIndex => decide
    case losesEmpty => simp
    case kept =>
      intro entry kept
      have absent : "" ∉ entry := fun listed => kept "" listed rfl
      simp [publisher, Sample.erase_absent absent]
    case lost =>
      intro entry key _ loses read parsed
      have same : key = "" := by simpa using loses
      cases parsed
      rw [same, Finmap.lookup_erase]
    case checksum_not_index => exact fun _ => rfl
    case archive_not_index =>
      intro file archive
      obtain ⟨files, same⟩ := isArchive archive
      subst same
      rfl
    case checksum_ne =>
      intro entry file archive same
      obtain ⟨files, archived⟩ := isArchive archive
      subst archived
      have characters := congrArg String.toList same
      simp [publisher, Document.checksum] at characters
  case packs =>
    intro tree directory
    simp [publisher, directory]
  case unconfigured => rfl
  case checksum => rfl
  case suffixed => decide
  case plain => decide
  case kept => decide
  case readable => exact fun _ _ => rfl

def tests : Utility :=
  { location := ["problem", "tests"]
    target := "tests"
    config := [("utility", [("call", "list_tests")])]
    builder := .listStorage
      { files := [⟨"1", "in", "1.in"⟩], testSet := ["1"]
        dataSet := ["in"], textDataSet := ["in"] } }

def checker : Utility :=
  { location := ["problem", "checker"]
    target := "checker"
    config := [("call", [("argument", "strict")]),
      ("utility", [("call", "in_out_hint"), ("return", "testlib")])]
    builder := .single "check.cpp" (some "c++11") ["testlib.googlecode.com"] }

def version : Version :=
  { language := "ru"
    format := "pdf"
    builder := .copy "ru.pdf"
    languageAllowed := by decide
    formatAllowed := by decide }

def driver : Driver Unit :=
  { rest := ()
    tests, checker := some checker, interactor := none
    statement :=
      { location := ["problem", "statement"], versions := [version] } }

def options : GeneratorOptions :=
  { destination := ["repository", "sum"]
    rootPackage := ⟨["problem", "sum"]⟩
    system := ⟨"bacs/problem/single", ⟨["problem", "sum"]⟩, "1"⟩ }

def entries : List (List String × Node Document) :=
  [([], .directory),
    (["problem"], .directory),
    (["problem", "tests"], .directory),
    (["problem", "tests", "1.in"], .file (.text "1 2")),
    (["problem", "checker"], .directory),
    (["problem", "checker", "check.cpp"], .file (.text "int main();")),
    (["problem", "statement"], .directory),
    (["problem", "statement", "ru.pdf"], .file (.text "a + b")),
    (["repository"], .directory)]

theorem closed : Disk.Closed entries := by
  intro entry member
  simp only [entries, List.mem_cons, List.not_mem_nil, or_false] at member
  rcases member with rfl | rfl | rfl | rfl | rfl | rfl | rfl | rfl | rfl
  · exact .inl rfl
  all_goals exact .inr rfl

def disk : Disk String Document := Disk.ofEntries entries closed

theorem finite : disk.Finite := by
  have everywhere : {names | (disk.node ([] ++ names)).isSome}.Finite :=
    Disk.finite_ofEntries
  exact everywhere

theorem readable : driver.Readable options.destination disk := by
  constructor
  case tests =>
    constructor
    case located => rfl
    case outside => decide
    case plain =>
      intro tests same test member
      cases same
      rw [List.mem_singleton.mp member]
      simp [TestFile.Plain]
  case checker =>
    intro checker same
    cases same
    constructor
    case located => rfl
    case outside => decide
    case plain =>
      intro tests same
      cases same
  case interactor =>
    intro interactor same
    cases same
  case located => rfl
  case outside => decide
  case versions =>
    intro version member
    rw [List.mem_singleton.mp member]
    constructor <;> decide

end SampleProblem

open SampleProblem in
theorem import_publishes_sample : ∃ depth problem generated final,
    importProblem publisher format default true writers options depth driver
        disk = some (problem, final) ∧
      RoundTrip publisher format
        ["repository", "sum", "statement", "versions", "ru", "pdf"]
        ⟨["problem", "sum", "statement", "versions", "ru", "pdf"]⟩ generated
        final := by
  have succeeds :
      (Internal0.generate writers options driver disk).isSome := by
    decide +kernel
  obtain ⟨⟨problem, generated⟩, made⟩ :=
    Option.isSome_iff_exists.mp succeeds
  obtain ⟨depth, imports⟩ := import_publishes fits (by decide) readable
    finite default true made
  obtain ⟨final, imported, _, packages, _⟩ := imports depth (le_refl depth)
  have member : ["statement", "versions", "ru", "pdf"] ∈
      driver.packages := by decide
  exact ⟨depth, problem, generated, final, imported,
    (packages _ member).1⟩

end Bacs.Problem
