import Bacs.Foundation.PathGrammar
import Bacs.Problem.Generated

/-!
# The versions of a statement

Each version has a package of its own, in a directory for its language and its
format.  If two versions have the same, then the later one is left.
-/

namespace Bacs.Problem

open Pm Pm.Publishing LexicalPath Disk

section Generated

variable {File Archive Tree : Type} {writers : Writers File}
  {publisher : Publisher File Archive Tree} {format : Format}
  {keeps : String → Prop} {others : Entry → Prop}
  {disk next final : Disk String File} {destination : List String}

/-! ## Versions of the statement -/

theorem fileName_plain (path : String) : '/' ∉ (fileName path).toList := by
  rw [fileName, String.toList_ofList]
  cases last : (path.toList.splitOn '/').getLast? with
  | none => simp
  | some component =>
      rw [Option.getD_some]
      cases component with
      | nil => simp
      | cons first rest =>
          have member : first :: rest ∈
              PathGrammar.pieces path.toList := by
            apply List.mem_filter.mpr
            exact ⟨List.mem_of_getLast? last, rfl⟩
          exact (PathGrammar.mem_pieces member).2

theorem getTarget_plain (source : String) :
    '/' ∉ (getTarget source).toList := by
  have plain := fileName_plain source
  have shorter : ∀ character ∈ (stem (fileName source)).toList,
      character ∈ (fileName source).toList := by
    intro character member
    unfold stem at member
    split at member
    · exact member
    · split at member
      · exact member
      · rw [String.toList_ofList] at member
        exact List.mem_of_mem_take member
  rw [getTarget, String.toList_append, List.mem_append, not_or]
  exact ⟨fun member => plain (shorter _ member), by simp⟩

namespace Version

variable {version : Version} {package resourcesPackage : Entry}
  {revision : String}

/-- What is built goes into the package and replaces nothing there. -/
theorem build_spec
    (there : disk.node (destination ++ ["pkg"]) = some .directory)
    (built : version.build writers destination disk = some final) :
    ChangedBelow (destination ++ ["pkg"]) disk final ∧
      ∀ other, (disk.node other).isSome →
        final.node other = disk.node other := by
  unfold build at built
  split at built
  · simp only [Option.bind_eq_bind, Option.bind_eq_some_iff] at built
    obtain ⟨file, _, created⟩ := built
    have kept := Disk.Kept.of_create created
    rw [locate_of_created (getTarget_plain _) there (by simp) created]
      at created
    exact ⟨(changedBelow_create created).mono (List.prefix_append _ _),
      kept.node⟩
  · cases built
    exact ⟨ChangedBelow.refl _ _, fun _ _ => rfl⟩

theorem index_sources (resourcesPackage : Entry) :
    (version.index resourcesPackage).sources = ["pkg"] := by
  unfold index
  split <;> rfl

theorem index_wellmade (valid : resourcesPackage.Valid)
    (other : others resourcesPackage) :
    Wellmade others (version.index resourcesPackage) := by
  constructor
  · rw [index_sources]
    simp
  · intro imported member
    have same : imported = resourcesPackage := by
      unfold index at member
      split at member
      · simp [Index.mem_all, PackageStage.imports, noStage] at member
      · simpa [Index.mem_all, PackageStage.imports, noStage] using member
    rw [same]
    exact ⟨valid, .inr other⟩

theorem makePackage_spec
    (made : version.makePackage writers destination package resourcesPackage
      revision disk = some final) :
    Packaged writers destination (version.index resourcesPackage) disk
        final ∧
      final.node (destination ++ ["pkg", "manifest"]) =
        some (.file
          (writers.serialize (version.manifest package revision))) := by
  simp only [makePackage, Option.bind_eq_bind, Option.bind_eq_some_iff]
    at made
  obtain ⟨first, reset, second, entered, third, written, fourth, saved,
    built⟩ := made
  obtain ⟨changed, empty⟩ := resetDir_spec reset
  have opened := changedBelow_makeDirectory entered
  have place : destination ++ ["pkg", "manifest"] =
      destination ++ ["pkg"] ++ ["manifest"] := by simp
  have below := changedBelow_write written
  rw [place] at below
  have contents := opened.trans (below.mono (List.prefix_append _ _))
  have there : third.node (destination ++ ["pkg"]) = some .directory := by
    rw [below.parent]
    exact node_makeDirectory entered
  have packaged : Packaged writers destination
      (version.index resourcesPackage) disk fourth := by
    apply packaged_of_filled
      (changed.trans (contents.mono (List.prefix_append _ _)))
      (empty.step contents) _ _ saved
    · rw [index_sources]
      simp
    · rw [index_sources]
      simpa using there
  have source : "pkg" ∈ (version.index resourcesPackage).sources := by
    rw [index_sources]
    exact List.mem_singleton_self _
  obtain ⟨later, kept⟩ := build_spec (packaged.source "pkg" source) built
  have still := packaged.source "pkg" source
  constructor
  · apply packaged.inside source later
    rw [kept _ (by rw [still]; rfl)]
    exact still
  · have manifest : fourth.node (destination ++ ["pkg", "manifest"]) =
        some (.file
          (writers.serialize (version.manifest package revision))) := by
      rw [Disk.node_write_of_ne saved (by simp)]
      exact Disk.node_write_self written
    rw [kept _ (by rw [manifest]; rfl)]
    exact manifest

end Version

/-! ## All versions -/

section Versions

variable {versionsPath : List String} {versionsPackage resourcesPackage : Entry}
  {revision : String} {version : Version} {done : List Version}

/-- The names lead into directories and not up. -/
structure Version.Proper (version : Version) : Prop where
  language : version.language ≠ "." ∧ version.language ≠ ".."
  format : version.format ≠ "." ∧ version.format ≠ ".."

def Version.placeIn (versionsPath : List String) (version : Version) :
    List String :=
  versionsPath ++ [version.language, version.format]

theorem placeOf_subpackage (proper : version.Proper) :
    Statement.placeOf versionsPath version.subpackage =
      version.placeIn versionsPath := by
  have plain {name : String} (valid : Entry.isAllowedSubpath name = true)
      (ordinary : name ≠ "." ∧ name ≠ "..") :
      Step.ofComponent name = .down name := by
    have filled := (Entry.isAllowedSubpath_iff.mp valid).1
    simp [Step.ofComponent, filled, ordinary]
  have language := plain version.languageAllowed proper.language
  have format := plain version.formatAllowed proper.format
  change walk versionsPath
    [Step.ofComponent version.language, Step.ofComponent version.format] = _
  rw [language, format]
  simp [walk, Step.run, Version.placeIn]

structure VersionMade (publisher : Publisher File Archive Tree)
    (writers : Writers File) (format : Format) (others : Entry → Prop)
    (versionsPath : List String) (versionsPackage : Entry) (revision : String)
    (version : Version) (disk : Disk String File) : Prop where
  planted : Planted publisher format (Wellmade others)
    (version.placeIn versionsPath) [[]] disk
  manifest : disk.node (version.placeIn versionsPath ++ ["pkg", "manifest"]) =
    some (.file (writers.serialize
      (version.manifest (versionsPackage / version.subpackage) revision)))

theorem VersionMade.congr (unconfigured : format.index = none)
    (made : VersionMade publisher writers format others versionsPath
      versionsPackage revision version disk)
    (agree : Agree (version.placeIn versionsPath) disk final) :
    VersionMade publisher writers format others versionsPath versionsPackage
      revision version final := by
  constructor
  · exact made.planted.congr unconfigured agree
  · rw [← agree.node (List.prefix_append _ _)]
    exact made.manifest

def formatsOf (done : List Version) (language : String) : List String :=
  (done.filter (·.language = language)).map (·.format)

theorem mem_formatsOf {language format : String} :
    format ∈ formatsOf done language ↔ ∃ version ∈ done,
      version.language = language ∧ version.format = format := by
  simp [formatsOf, and_assoc]

/-- The versions that are done; of two in one place, it has the last. -/
structure Shelved (publisher : Publisher File Archive Tree)
    (writers : Writers File) (format : Format) (others : Entry → Prop)
    (versionsPath : List String) (versionsPackage : Entry) (revision : String)
    (done : List Version) (disk : Disk String File) : Prop where
  top : Filled versionsPath (done.map (·.language)) disk
  shelf : ∀ version ∈ done, Filled (versionsPath ++ [version.language])
    (formatsOf done version.language) disk
  made : ∀ version ∈ done, ∃ last ∈ done,
    last.subpackage = version.subpackage ∧
      VersionMade publisher writers format others versionsPath
        versionsPackage revision last disk

theorem subpackage_eq_iff {first second : Version} :
    first.subpackage = second.subpackage ↔
      first.language = second.language ∧ first.format = second.format := by
  simp [Version.subpackage, HDiv.hDiv, Div.div]

theorem placeIn_eq_of_subpackage {first second : Version}
    (same : first.subpackage = second.subpackage) :
    first.placeIn versionsPath = second.placeIn versionsPath := by
  obtain ⟨language, format⟩ := subpackage_eq_iff.mp same
  rw [Version.placeIn, Version.placeIn, language, format]

/-- What a step changes: its own package, and the directory of its language is
made. -/
structure Stepped (versionsPath : List String) (version : Version)
    (disk final : Disk String File) : Prop where
  changed : ChangedBelow (versionsPath ++ [version.language]) disk final
  language : final.node (versionsPath ++ [version.language]) =
    some .directory
  frame : ∀ other, ¬ version.placeIn versionsPath <+: other →
    other ≠ versionsPath ++ [version.language] →
    final.node other = disk.node other

theorem makeVersion_spec (fits : Fits publisher writers keeps format)
    (proper : version.Proper)
    (named : ∀ package, others package → package.location ≠ [])
    (valid : resourcesPackage.Valid) (other : others resourcesPackage)
    (directory : disk.node versionsPath = some .directory)
    (made : Statement.makeVersion writers versionsPath versionsPackage
      resourcesPackage revision disk version = some final) :
    Stepped versionsPath version disk final ∧
      VersionMade publisher writers format others versionsPath
        versionsPackage revision version final := by
  simp only [Statement.makeVersion, Option.bind_eq_bind,
    Option.bind_eq_some_iff, placeOf_subpackage proper] at made
  obtain ⟨first, entered, packed⟩ := made
  obtain ⟨within, nodes⟩ := changedBelow_makeDirectories directory entered
  obtain ⟨packaged, manifest⟩ := Version.makePackage_spec packed
  have deeper : versionsPath ++ [version.language] <+:
      version.placeIn versionsPath := by
    simp [Version.placeIn]
  have apart : ¬ version.placeIn versionsPath <+:
      versionsPath ++ [version.language] := by
    intro shorter
    have lengths := shorter.length_le
    simp [Version.placeIn] at lengths
  constructor
  · constructor
    case changed => exact within.trans (packaged.changed.mono deeper)
    case language =>
      rw [packaged.changed.frame _ apart, nodes, if_pos (by simp)]
    case frame =>
      intro other outside different
      rw [packaged.changed.frame other outside]
      by_cases above : other <+: versionsPath ++ [version.language]
      · apply within.frame
        intro below
        exact different (above.eq_of_length_le below.length_le)
      · rw [nodes, if_neg]
        intro before
        have split : versionsPath ++ [version.language, version.format] =
            versionsPath ++ [version.language] ++ [version.format] := by
          simp
        rw [split] at before
        rcases List.prefix_concat_iff.mp before with same | shorter
        · apply outside
          rw [same]
          simp [Version.placeIn]
        · exact above shorter
  · constructor
    · exact packaged.planted fits (Version.index_wellmade valid other) named
    · exact manifest

theorem Stepped.agree {other : Version}
    (stepped : Stepped versionsPath version disk final)
    (different : other.subpackage ≠ version.subpackage) :
    Agree (other.placeIn versionsPath) disk final := by
  intro names
  refine (stepped.frame _ ?_ ?_).symm
  · intro within
    apply different
    have short : version.placeIn versionsPath <+:
        other.placeIn versionsPath := by
      apply List.prefix_of_prefix_length_le within (List.prefix_append _ _)
      simp [Version.placeIn]
    have same : version.placeIn versionsPath =
        other.placeIn versionsPath := by
      apply short.eq_of_length
      simp [Version.placeIn]
    apply subpackage_eq_iff.mpr
    simpa [Version.placeIn, eq_comm] using same
  · intro same
    have lengths := congrArg List.length same
    simp [Version.placeIn] at lengths

theorem Shelved.step
    (shelved : Shelved publisher writers format others versionsPath
      versionsPackage revision done disk)
    (unconfigured : format.index = none)
    (stepped : Stepped versionsPath version disk final)
    (made : VersionMade publisher writers format others versionsPath
      versionsPackage revision version final) :
    Shelved publisher writers format others versionsPath versionsPackage
      revision (version :: done) final := by
  constructor
  case top => exact shelved.top.step stepped.changed
  case shelf =>
    intro other member
    by_cases same : version.language = other.language
    · rw [← same]
      refine ⟨stepped.language, fun name present => ?_⟩
      apply mem_formatsOf.mpr
      by_cases own : version.format = name
      · exact ⟨version, List.mem_cons_self, rfl, own⟩
      · have before : (disk.node
            (versionsPath ++ [version.language] ++ [name])).isSome := by
          rw [← stepped.frame]
          · exact present
          · simpa [Version.placeIn] using own
          · simp
        have there := disk.rooted _ _ before
        obtain ⟨earlier, among, language⟩ := List.mem_map.mp
          (shelved.top.entries version.language (by rw [there]; rfl))
        have shelf := shelved.shelf earlier among
        rw [language] at shelf
        obtain ⟨found, inside, one, two⟩ :=
          mem_formatsOf.mp (shelf.entries name before)
        exact ⟨found, List.mem_cons_of_mem _ inside, one, two⟩
    · have among : other ∈ done := by
        rcases List.mem_cons.mp member with here | later
        · exact absurd (here ▸ rfl) same
        · exact later
      have shelf := shelved.shelf other among
      have agree := stepped.changed.sibling same
      constructor
      · rw [← agree.here]
        exact shelf.directory
      · intro name present
        rw [← agree.node (List.prefix_append _ _)] at present
        obtain ⟨found, inside, one, two⟩ :=
          mem_formatsOf.mp (shelf.entries name present)
        exact mem_formatsOf.mpr
          ⟨found, List.mem_cons_of_mem _ inside, one, two⟩
  case made =>
    intro other member
    by_cases same : other.subpackage = version.subpackage
    · exact ⟨version, List.mem_cons_self, same.symm, made⟩
    · have among : other ∈ done := by
        rcases List.mem_cons.mp member with here | later
        · exact absurd (here ▸ rfl) same
        · exact later
      obtain ⟨last, inside, equal, before⟩ := shelved.made other among
      refine ⟨last, List.mem_cons_of_mem _ inside, equal, ?_⟩
      apply before.congr unconfigured
      apply stepped.agree
      rw [equal]
      exact same

theorem makeVersions_spec (fits : Fits publisher writers keeps format)
    (named : ∀ package, others package → package.location ≠ [])
    (valid : resourcesPackage.Valid) (other : others resourcesPackage)
    {versions : List Version}
    (proper : ∀ version ∈ versions, version.Proper)
    (shelved : Shelved publisher writers format others versionsPath
      versionsPackage revision done disk)
    (made : versions.foldlM (Statement.makeVersion writers versionsPath
      versionsPackage resourcesPackage revision) disk = some final) :
    Shelved publisher writers format others versionsPath versionsPackage
        revision (versions.reverse ++ done) final ∧
      ChangedBelow versionsPath disk final := by
  induction versions generalizing done disk with
  | nil =>
      cases made
      exact ⟨shelved, ChangedBelow.refl _ _⟩
  | cons version versions ih =>
      rw [List.foldlM_cons, Option.bind_eq_bind,
        Option.bind_eq_some_iff] at made
      obtain ⟨next, first, made⟩ := made
      obtain ⟨stepped, one⟩ := makeVersion_spec fits
        (proper version List.mem_cons_self) named valid other
        shelved.top.directory first
      obtain ⟨later, changed⟩ := ih
        (fun other member => proper other (List.mem_cons_of_mem _ member))
        (shelved.step fits.unconfigured stepped one) made
      constructor
      · rw [List.reverse_cons, List.append_assoc]
        exact later
      · exact (stepped.changed.mono (List.prefix_append _ _)).trans changed

/-- The packages of the versions are found in their directories. -/
theorem Shelved.planted
    (shelved : Shelved publisher writers format others versionsPath
      versionsPackage revision done disk)
    (unconfigured : format.index = none) :
    Planted publisher format (Wellmade others) versionsPath
      (done.map fun version => [version.language, version.format]) disk := by
  have languages : ∀ version ∈ done,
      Planted publisher format (Wellmade others)
        (versionsPath ++ [version.language])
        (inEntries ((formatsOf done version.language).map (·, [[]])))
        disk := by
    intro version member
    have shelf := shelved.shelf version member
    have packages : ∀ name ∈ formatsOf done version.language,
        Planted publisher format (Wellmade others)
          (versionsPath ++ [version.language] ++ [name]) [[]] disk := by
      intro name listed
      obtain ⟨other, among, language, named⟩ := mem_formatsOf.mp listed
      obtain ⟨last, _, same, made⟩ := shelved.made other among
      have place : versionsPath ++ [version.language] ++ [name] =
          last.placeIn versionsPath := by
        rw [placeIn_eq_of_subpackage same, Version.placeIn, language, named]
        simp
      rw [place]
      exact made.planted
    apply planted_passage unconfigured shelf.directory
    · by_contra present
      have there := Option.isSome_iff_ne_none.mpr present
      obtain ⟨file, found⟩ := Option.isSome_iff_exists.mp there
      rw [Disk.file?_eq_some] at found
      have listed := shelf.entries "index" (by rw [found]; rfl)
      rw [(packages "index" listed).directory] at found
      cases found
    · intro name present
      have listed := shelf.entries name (by rw [present]; rfl)
      simpa using listed
    · intro child among
      obtain ⟨name, listed, rfl⟩ := List.mem_map.mp among
      exact packages name listed
  have made : Planted publisher format (Wellmade others) versionsPath
      (inEntries (done.map fun version => (version.language,
        inEntries ((formatsOf done version.language).map (·, [[]])))))
      disk := by
    apply planted_passage unconfigured shelved.top.directory
    · by_contra present
      have there := Option.isSome_iff_ne_none.mpr present
      obtain ⟨file, found⟩ := Option.isSome_iff_exists.mp there
      rw [Disk.file?_eq_some] at found
      obtain ⟨version, among, named⟩ := List.mem_map.mp
        (shelved.top.entries "index" (by rw [found]; rfl))
      have directory := (languages version among).directory
      rw [named, found] at directory
      cases directory
    · intro name present
      have listed := shelved.top.entries name (by rw [present]; rfl)
      simpa using listed
    · intro child among
      obtain ⟨version, member, rfl⟩ := List.mem_map.mp among
      exact languages version member
  apply made.congr_mem
  intro names
  simp only [mem_inEntries, List.mem_map]
  constructor
  · intro listed
    obtain ⟨version, member, rfl⟩ := listed
    refine ⟨_, ⟨version, member, rfl⟩, [version.format], ?_, rfl⟩
    apply mem_inEntries.mpr
    refine ⟨_, List.mem_map_of_mem ?_, [], List.mem_singleton_self _, rfl⟩
    exact mem_formatsOf.mpr ⟨version, member, rfl, rfl⟩
  · intro listed
    obtain ⟨child, ⟨version, _, rfl⟩, rest, inside, rfl⟩ := listed
    obtain ⟨shelf, among, last, ended, rfl⟩ := mem_inEntries.mp inside
    obtain ⟨name, format, rfl⟩ := List.mem_map.mp among
    obtain ⟨other, member, language, rfl⟩ := mem_formatsOf.mp format
    rw [List.mem_singleton.mp ended]
    exact ⟨other, member, by rw [language]⟩

end Versions

end Generated

end Bacs.Problem
