import Bacs.Pm.PlantedTrees
import Bacs.Problem.Packaged

/-!
# The packages of a generated problem

A package directory that was made can be created in a repository.
-/

namespace Bacs.Problem

open Pm Pm.Publishing LexicalPath Disk

section Generated

variable {File Archive Tree : Type} {writers : Writers File}
  {publisher : Publisher File Archive Tree} {format : Format}
  {keeps : String → Prop} {strip : Bool} {others : Entry → Prop}
  {disk next final : Disk String File}
  {place destination : List String} {name : String} {index : Index}

/-- The repository reads the indexes that are written, and its archives have
names of their own. -/
structure Fits (publisher : Publisher File Archive Tree)
    (writers : Writers File) (keeps : String → Prop) (format : Format) :
    Prop where
  sound : publisher.Sound keeps
  packs : Packs publisher
  unconfigured : format.index = none
  checksum : configuredChecksum format = "checksum"
  suffixed : format.archiveSuffix ≠ ""
  plain : '/' ∉ format.archiveSuffix.toList
  kept : ∀ srcName ∈ ["src", "etc", "modules", "tests", "pkg"],
    keeps srcName
  readable : ∀ index : Index,
    (∀ package ∈ index.all, package.Valid ∧ package.location ≠ []) →
    publisher.parseIndex (writers.saveIndex index) = some index

theorem SystemPackage.location_ne_nil {package : Entry}
    (system : SystemPackage package) : package.location ≠ [] := by
  intro empty
  rcases system with known | known
  · rw [empty] at known
    exact absurd known.length_le (by simp)
  · rw [empty] at known
    exact absurd known.length_le (by simp)

theorem Wellmade.named (wellmade : Wellmade others index)
    (proper : ∀ package, others package → package.location ≠ []) :
    ∀ package ∈ index.all, package.Valid ∧ package.location ≠ [] := by
  intro package member
  obtain ⟨valid, system | other⟩ := wellmade.imports package member
  · exact ⟨valid, system.location_ne_nil⟩
  · exact ⟨valid, proper package other⟩

/-! ## Single packages -/

theorem archive_apart {srcName other suffix : String} (suffixed : suffix ≠ "")
    (source : srcName ∈ ["src", "etc", "modules", "tests", "pkg"])
    (entry : other ∈
      ["index", "checksum", "src", "etc", "modules", "tests", "pkg"]) :
    srcName ++ suffix ≠ other := by
  intro same
  have lists := congrArg String.toList same
  rw [String.toList_append] at lists
  have filled : suffix.toList ≠ [] := by simpa using suffixed
  simp only [List.mem_cons, List.not_mem_nil, or_false] at source entry
  rcases source with rfl | rfl | rfl | rfl | rfl <;>
    rcases entry with rfl | rfl | rfl | rfl | rfl | rfl | rfl <;>
    simp_all

theorem Wellmade.tidy (wellmade : Wellmade others index)
    (fits : Fits publisher writers keeps format) :
    Tidy keeps format strip index := by
  have plainNames : ∀ srcName ∈ ["src", "etc", "modules", "tests", "pkg"],
      '/' ∉ srcName.toList := by simp
  have proper : ∀ srcName ∈ ["src", "etc", "modules", "tests", "pkg"],
      leaf srcName ≠ "" ∧ leaf srcName ≠ ".." := by decide +kernel
  have plain : Plain format index.sources := by
    intro srcName member
    rw [String.toList_append, List.mem_append, not_or]
    exact ⟨plainNames srcName (wellmade.sources srcName member), fits.plain⟩
  constructor
  case clear =>
    constructor
    case index => exact fits.unconfigured
    case checksum => exact fits.checksum
    case kept =>
      intro srcName member
      exact fits.kept srcName (wellmade.sources srcName member)
    case accepted =>
      intro srcName member
      rw [sourceFilePath_plain (plain srcName member)]
      rfl
    case index_ne =>
      intro srcName member
      rw [sourceFilePath_plain (plain srcName member), ne_eq,
        Option.some.injEq]
      exact archive_apart fits.suffixed (wellmade.sources srcName member)
        (by simp)
    case checksum_ne =>
      intro srcName member
      rw [sourceFilePath_plain (plain srcName member), ne_eq,
        Option.some.injEq]
      exact archive_apart fits.suffixed (wellmade.sources srcName member)
        (by simp)
    case inside =>
      intro _ srcName member
      exact proper srcName (wellmade.sources srcName member)
  case plain => exact plain
  case here =>
    intro member
    exact absurd (wellmade.sources "." member) (by decide)
  case above =>
    intro member
    exact absurd (wellmade.sources ".." member) (by decide)

theorem indexAt_saved (fits : Fits publisher writers keeps format)
    (wellmade : Wellmade others index)
    (proper : ∀ package, others package → package.location ≠ [])
    (written : disk.node (destination ++ ["index"]) =
      some (.file (writers.saveIndex index))) :
    indexAt publisher format disk destination = some index := by
  rw [indexAt, getIndex_default fits.unconfigured, locate_index,
    Disk.file?_eq_some.mpr written]
  exact fits.readable index (wellmade.named proper)

/-- A package directory with entries that have packages of their own. -/
theorem ready_of_entries (fits : Fits publisher writers keeps format)
    (wellmade : Wellmade others index)
    (proper : ∀ package, others package → package.location ≠ [])
    (written : disk.node (destination ++ ["index"]) =
      some (.file (writers.saveIndex index)))
    (source : ∀ srcName ∈ index.sources,
      disk.node (destination ++ [srcName]) = some .directory)
    (archives : index.sources = [] ∨ ∀ name,
      (disk.node (destination ++ [name])).isSome →
        name = "index" ∨ name ∈ index.sources)
    (checksum : disk.node (destination ++ ["checksum"]) = none) :
    Ready publisher format disk destination index := by
  constructor
  · exact indexAt_saved fits wellmade proper written
  · exact source
  · intro srcName member there
    rcases archives with none | only
    · rw [none] at member
      cases member
    · have standard := wellmade.sources srcName member
      rcases only _ (by rw [there]; rfl) with same | inside
      · exact archive_apart fits.suffixed standard (by simp) same
      · exact archive_apart fits.suffixed standard
          (List.mem_cons_of_mem _ (List.mem_cons_of_mem _
            (wellmade.sources _ inside))) rfl
  · rw [checksum]
    simp

/-- A package directory that has nothing but its sources is a tree of its
own. -/
theorem Packaged.planted
    (packaged : Packaged writers destination index disk final)
    (fits : Fits publisher writers keeps format)
    (wellmade : Wellmade others index)
    (proper : ∀ package, others package → package.location ≠ []) :
    Planted publisher format (Wellmade others) destination [[]] final := by
  have directory : final.node destination = some .directory :=
    final.rooted destination "index" (by rw [packaged.written]; rfl)
  have checksum : final.node (destination ++ ["checksum"]) = none := by
    by_contra present
    rcases packaged.entries "checksum"
      (Option.isSome_iff_ne_none.mpr present) with same | source
    · exact absurd same (by decide)
    · exact absurd (wellmade.sources _ source) (by decide)
  have ready : Ready publisher format final destination index :=
    ready_of_entries fits wellmade proper packaged.written packaged.source
      (.inr packaged.entries) checksum
  change Planted publisher format (Wellmade others) destination
    ([] :: inEntries []) final
  apply planted_package fits.unconfigured directory ready wellmade
  · intro name there
    rcases packaged.entries name (by rw [there]; rfl) with same | source
    · rw [same, packaged.written] at there
      cases there
    · exact .inl source
  · simp
  · simp

theorem Packaged.inside {srcName : SourceId}
    (packaged : Packaged writers destination index disk next)
    (member : srcName ∈ index.sources)
    (changed : ChangedBelow (destination ++ [srcName]) next final)
    (there : final.node (destination ++ [srcName]) = some .directory) :
    Packaged writers destination index disk final := by
  have same : ∀ name, srcName ≠ name →
      final.node (destination ++ [name]) =
        next.node (destination ++ [name]) :=
    fun name different => (changed.sibling different).here.symm
  constructor
  · exact packaged.changed.trans (changed.mono (List.prefix_append _ _))
  · rw [same]
    · exact packaged.written
    · intro index
      have source := packaged.source srcName member
      rw [index, packaged.written] at source
      cases source
  · intro other among
    by_cases itself : srcName = other
    · exact itself ▸ there
    · rw [same other itself]
      exact packaged.source other among
  · intro name present
    by_cases itself : srcName = name
    · exact .inr (itself ▸ member)
    · rw [same name itself] at present
      exact packaged.entries name present

theorem makeVerifier_spec {options : GeneratorOptions}
    (made : Internal0.makeVerifier writers options destination disk =
      some final) :
    Packaged writers destination Internal0.verifierIndex disk final := by
  simp only [Internal0.makeVerifier, Option.bind_eq_bind,
    Option.bind_eq_some_iff] at made
  obtain ⟨first, reset, second, entered, third, written, saved⟩ := made
  obtain ⟨changed, empty⟩ := resetDir_spec reset
  obtain ⟨within, nodes⟩ :=
    changedBelow_makeDirectories empty.directory entered
  have deeper := changedBelow_write written
  have sources := within.trans (deeper.mono (by simp))
  apply packaged_of_filled
    (changed.trans (sources.mono (List.prefix_append _ _)))
    (empty.step sources) _ _ saved
  · simp [Internal0.verifierIndex, Index.mem_sources, noStage]
  · intro srcName member
    have same : srcName = "src" := by
      simpa [Internal0.verifierIndex, Index.mem_sources, noStage]
        using member
    rw [same, Disk.node_write_of_ne written (by simp), nodes,
      if_pos (by simp)]

theorem makeResources_spec {statement : Statement}
    (located : disk.node statement.location = some .directory)
    (outside : ¬ place ++ [name] <+: statement.location)
    (absent : ∀ entry, disk.node (place ++ [name] ++ [entry]) = none)
    (made : statement.makeResources writers (place ++ [name]) disk =
      some final) :
    Packaged writers (place ++ [name]) Statement.resourcesIndex disk
      final := by
  simp only [Statement.makeResources, Option.bind_eq_bind,
    Option.bind_eq_some_iff] at made
  obtain ⟨first, entered, second, copied, saved⟩ := made
  have changed := changedBelow_makeDirectory entered
  have empty : Filled (place ++ [name]) [] first := by
    apply Filled.empty (node_makeDirectory entered)
    intro entry
    rw [(makeDirectory_spec entered).2, Function.update_of_ne (by simp)]
    exact absent entry
  have sources := changedBelow_copyTree copied
  apply packaged_of_filled
    (changed.trans (sources.mono (List.prefix_append _ _)))
    (empty.step sources) _ _ saved
  · simp [Statement.resourcesIndex, Index.mem_sources, noStage]
  · intro srcName member
    have same : srcName = "src" := by
      simpa [Statement.resourcesIndex, Index.mem_sources, noStage]
        using member
    rw [same, node_copyTree copied, changed.frame _ outside]
    exact located

end Generated

end Bacs.Problem
