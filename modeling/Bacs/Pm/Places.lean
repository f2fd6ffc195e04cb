import Bacs.Pm.FileNames

/-!
# The places of what is kept for a package

The repository cache keeps the files of a package in two directories, one for
what was fetched and one for what was built, under the location of the
package; the cache of installations keeps a directory under the location of
the package.  The location of a package may go on from that of another one
with a name that is used there.
-/

namespace Bacs.Pm.Places

open LexicalPath

/-- `cache_config`; the root is an absolute path. -/
structure CacheConfig where
  root : List String
  archiveSuffix : String
  deriving Repr

namespace CacheConfig

variable (config : CacheConfig)

def getSource : List String := config.root ++ ["source"]

def getPackage : List String := config.root ++ ["package"]

def getBuildArchive : String := "build" ++ config.archiveSuffix

def getBuildSnapshot (_ : CacheConfig) : String := "build_snapshot"

def getInstallationArchive : String := "installation" ++ config.archiveSuffix

def getInstallationSnapshot (_ : CacheConfig) : String :=
  "installation_snapshot"

end CacheConfig

/-- What the names of files depend on. -/
structure Layout where
  format : Format
  cache : CacheConfig
  installations : List String
  deriving Repr

/-- `root / package.location()` -/
def packageRoot (root : List String) (package : Entry) : List String :=
  walk root (package.location.map Step.ofComponent)

def filePath (root : List String) (package : Entry) (filename : String) :
    Option (List String) :=
  (Publishing.sourceFilePath filename).map fun name =>
    walk (packageRoot root package) (stepsOf name)

def IsFileName (name : String) : Prop :=
  '/' ∉ name.toList ∧ name ≠ "" ∧ name ≠ "." ∧ name ≠ ".."

instance (name : String) : Decidable (IsFileName name) := instDecidableAnd

/-- The names of files that are kept under the given names. -/
def fileNames (names : List String) : List String :=
  (names.filterMap Publishing.sourceFilePath).filter fun name =>
    IsFileName name

namespace Layout

variable (layout : Layout) (package : Entry)

def sourceFilePath (filename : String) : Option (List String) :=
  filePath layout.cache.getSource package filename

def packageFilePath (filename : String) : Option (List String) :=
  filePath layout.cache.getPackage package filename

def checksumPath : Option (List String) :=
  layout.sourceFilePath package layout.format.getChecksum

def indexPath : Option (List String) :=
  layout.sourceFilePath package layout.format.getIndex

def sourcePath (source : SourceId) : Option (List String) :=
  layout.sourceFilePath package (source ++ layout.format.archiveSuffix)

def buildArchivePath : Option (List String) :=
  layout.packageFilePath package layout.cache.getBuildArchive

def buildSnapshotPath : Option (List String) :=
  layout.packageFilePath package layout.cache.getBuildSnapshot

def installationArchivePath : Option (List String) :=
  layout.packageFilePath package layout.cache.getInstallationArchive

def installationSnapshotPath : Option (List String) :=
  layout.packageFilePath package layout.cache.getInstallationSnapshot

/-- The directory of a package in the cache of installations. -/
def installationRoot : List String :=
  packageRoot layout.installations package ++ [".install"]

/-- A file is kept below the directory of its package.  The names that lead
to this directory or above it are accepted for files, but there is a
directory then. -/
def Keeps (sources : List SourceId) (place : List String) : Prop :=
  (some place = layout.checksumPath package ∨
      some place = layout.indexPath package ∨
        ∃ source ∈ sources, some place = layout.sourcePath package source) ∧
    place ∈ Below (packageRoot layout.cache.getSource package) ∨
  (some place = layout.buildArchivePath package ∨
      some place = layout.buildSnapshotPath package ∨
        some place = layout.installationArchivePath package ∨
          some place = layout.installationSnapshotPath package) ∧
    place ∈ Below (packageRoot layout.cache.getPackage package)

/-- No file kept for one package, with its sources, is at, above or below a
file kept for the other, and neither directory in the cache of installations
is inside the other. -/
def Separate (first second : Entry × List SourceId) : Prop :=
  (∀ left right, layout.Keeps first.1 first.2 left →
      layout.Keeps second.1 second.2 right → Apart left right) ∧
    Apart (layout.installationRoot first.1)
      (layout.installationRoot second.1)

/-- The names of the files that are kept for a package of these sources in
the directory for what was fetched. -/
def sourceNames (sources : List SourceId) : List String :=
  fileNames (layout.format.getChecksum :: layout.format.getIndex ::
    sources.map (· ++ layout.format.archiveSuffix))

def packageNames : List String :=
  fileNames [layout.cache.getBuildArchive, layout.cache.getBuildSnapshot,
    layout.cache.getInstallationArchive,
    layout.cache.getInstallationSnapshot]

end Layout

/-- The location of the second package goes on from that of the first one
with one of the names. -/
def GoesThrough (names : List String) (first second : Entry) : Prop :=
  ∃ name ∈ names, first.location ++ [name] <+: second.location

/-- The location of the second package goes on from that of the first one
with a name that is used there: of a file that was fetched (provided that
any file is fetched for the second one), of a file that was built, or of the
directory with the installation. -/
def Layout.Meets (layout : Layout) (first second : Entry × List SourceId) :
    Prop :=
  GoesThrough (layout.sourceNames first.2) first.1 second.1 ∧
      layout.sourceNames second.2 ≠ [] ∨
    GoesThrough layout.packageNames first.1 second.1 ∨
      first.1.location ++ [".install"] <+: second.1.location

/-- An entry of the grammar without `.` and `..`. -/
def Normal (package : Entry) : Prop :=
  ∀ component ∈ package.location,
    Entry.isAllowedSubpath component = true ∧
      component ≠ "." ∧ component ≠ ".."

/-! ## Places of files -/

variable {root : List String} {package first second : Entry}

theorem packageRoot_normal (normal : Normal package) :
    packageRoot root package = root ++ package.location := by
  have down : package.location.map Step.ofComponent =
      package.location.map Step.down := by
    apply List.map_congr_left
    intro component member
    obtain ⟨allowed, noDot, noDots⟩ := normal component member
    have some : component ≠ "" := by
      intro empty
      rw [empty] at allowed
      cases allowed
    simp [Step.ofComponent, some, noDot, noDots]
  rw [packageRoot, down, walk_down]

/-- A name leads below the directory of a package if and only if a file can
have it. -/
theorem filePath_below {given : String} {place : List String} :
    (some place = filePath root package given ∧
        place ∈ Below (packageRoot root package)) ↔
      ∃ name, Publishing.sourceFilePath given = some name ∧
        IsFileName name ∧ place = packageRoot root package ++ [name] := by
  constructor
  · rintro ⟨path, below⟩
    obtain ⟨name, accepted, rfl⟩ := Option.map_eq_some_iff.mp path.symm
    refine ⟨name, accepted, ?_⟩
    have plain : '/' ∉ name.toList := by
      obtain ⟨separators, rfl⟩ | ⟨plain, _, _⟩ :=
        Publishing.sourceFilePath_cases accepted
      · rw [walk_separators _ separators] at below
        exact absurd rfl below.2
      · exact plain
    rw [stepsOf_plain plain, walk_cons, walk_nil] at below ⊢
    unfold Step.ofComponent at below ⊢
    split at below
    · exact absurd rfl below.2
    · split at below
      · exact absurd below (dropLast_not_mem_below _)
      · rename_i noStay noUp
        obtain ⟨some, noDot⟩ := not_or.mp noStay
        refine ⟨⟨plain, some, noDot, noUp⟩, ?_⟩
        rw [if_neg noStay, if_neg noUp, Step.run]
  · rintro ⟨name, accepted, ⟨plain, some, noDot, noDots⟩, rfl⟩
    constructor
    · rw [filePath, accepted, Option.map_some, stepsOf_plain plain]
      simp [Step.ofComponent, some, noDot, noDots, Step.run]
    · exact append_mem_below _ (List.cons_ne_nil _ _)

theorem mem_fileNames {names : List String} {name : String} :
    name ∈ fileNames names ↔ ∃ given ∈ names,
      Publishing.sourceFilePath given = some name ∧ IsFileName name := by
  simp only [fileNames, List.mem_filter, List.mem_filterMap,
    decide_eq_true_eq]
  constructor
  · rintro ⟨⟨given, member, accepted⟩, isName⟩
    exact ⟨given, member, accepted, isName⟩
  · rintro ⟨given, member, accepted, isName⟩
    exact ⟨⟨given, member, accepted⟩, isName⟩

namespace Layout

variable {layout : Layout} {sources : List SourceId} {place : List String}

theorem fileNames_iff {names : List String} :
    ((∃ given ∈ names, some place = filePath root package given) ∧
        place ∈ Below (packageRoot root package)) ↔
      ∃ name ∈ fileNames names,
        place = packageRoot root package ++ [name] := by
  constructor
  · rintro ⟨⟨given, member, path⟩, below⟩
    obtain ⟨name, accepted, isName, same⟩ := filePath_below.mp ⟨path, below⟩
    exact ⟨name, mem_fileNames.mpr ⟨given, member, accepted, isName⟩, same⟩
  · rintro ⟨name, named, same⟩
    obtain ⟨given, member, accepted, isName⟩ := mem_fileNames.mp named
    obtain ⟨path, below⟩ := filePath_below.mpr ⟨name, accepted, isName, same⟩
    exact ⟨⟨given, member, path⟩, below⟩

theorem keeps_iff : layout.Keeps package sources place ↔
    (∃ name ∈ layout.sourceNames sources,
        place = packageRoot layout.cache.getSource package ++ [name]) ∨
      ∃ name ∈ layout.packageNames,
        place = packageRoot layout.cache.getPackage package ++ [name] := by
  rw [sourceNames, packageNames, ← fileNames_iff, ← fileNames_iff]
  simp only [Keeps, checksumPath, indexPath,
    sourcePath, buildArchivePath, buildSnapshotPath, installationArchivePath,
    installationSnapshotPath, Layout.sourceFilePath, packageFilePath,
    List.exists_mem_cons_iff, List.mem_map, exists_exists_and_eq_and,
    List.not_mem_nil, false_and, exists_false, or_false]

end Layout

/-! ## Pairs of packages -/

/-- Below two different locations, one name is at or above another one only
if the second location goes through the first name. -/
theorem prefix_names_iff (different : first ≠ second) (name other : String) :
    root ++ first.location ++ [name] <+:
        root ++ second.location ++ [other] ↔
      first.location ++ [name] <+: second.location := by
  rw [List.append_assoc, List.append_assoc, List.prefix_append_right_inj,
    List.prefix_concat_iff]
  constructor
  · intro above
    obtain same | above := above
    · have locations : first.location = second.location :=
        List.append_inj_left' same rfl
      cases first
      cases second
      exact absurd (congrArg Entry.mk locations) different
    · exact above
  · exact .inr

theorem apart_names_iff (different : first ≠ second) (name other : String) :
    Apart (root ++ first.location ++ [name])
        (root ++ second.location ++ [other]) ↔
      ¬ first.location ++ [name] <+: second.location ∧
        ¬ second.location ++ [other] <+: first.location := by
  rw [Apart, prefix_names_iff different, prefix_names_iff different.symm]

/-- The files with given names of two packages are apart, unless the location
of one goes through a name of the other. -/
theorem files_apart_iff {names others : List String}
    (normalFirst : Normal first) (normalSecond : Normal second)
    (different : first ≠ second) :
    (∀ name ∈ names, ∀ other ∈ others,
        Apart (packageRoot root first ++ [name])
          (packageRoot root second ++ [other])) ↔
      ¬ (GoesThrough names first second ∧ others ≠ []) ∧
        ¬ (GoesThrough others second first ∧ names ≠ []) := by
  rw [packageRoot_normal normalFirst, packageRoot_normal normalSecond]
  simp only [apart_names_iff different]
  constructor
  · intro apart
    constructor
    · rintro ⟨⟨name, member, through⟩, filled⟩
      obtain ⟨other, otherMember⟩ := List.exists_mem_of_ne_nil others filled
      exact (apart name member other otherMember).1 through
    · rintro ⟨⟨other, otherMember, through⟩, filled⟩
      obtain ⟨name, member⟩ := List.exists_mem_of_ne_nil names filled
      exact (apart name member other otherMember).2 through
  · intro given name member other otherMember
    obtain ⟨forward, backward⟩ := given
    constructor
    · intro through
      exact forward ⟨⟨name, member, through⟩,
        List.ne_nil_of_mem otherMember⟩
    · intro through
      exact backward ⟨⟨other, otherMember, through⟩,
        List.ne_nil_of_mem member⟩

/-- The two directories of the repository cache do not meet. -/
theorem areas_apart (config : CacheConfig) {left right : List String}
    (inSource : left ∈ Within config.getSource)
    (inPackage : right ∈ Within config.getPackage) : Apart left right := by
  have different : "source" ≠ "package" := by decide
  exact (apart_of_ne config.root different).mono inSource inPackage

theorem packageRoot_within (normal : Normal package) (names : List String) :
    packageRoot root package ++ names ∈ Within root := by
  rw [packageRoot_normal normal, List.append_assoc]
  exact List.prefix_append root _

theorem packageNames_ne_nil (layout : Layout) : layout.packageNames ≠ [] := by
  apply List.ne_nil_of_mem
  apply mem_fileNames.mpr
  exact ⟨"build_snapshot", List.mem_cons_of_mem _ List.mem_cons_self,
    Publishing.sourceFilePath_plain (by decide), by decide⟩

/-- What is kept for two packages is separate if and only if the location of
neither goes on from that of the other with a name that is used there. -/
theorem separate_iff (layout : Layout) {first second : Entry}
    (firstSources secondSources : List SourceId)
    (normalFirst : Normal first) (normalSecond : Normal second)
    (different : first ≠ second) :
    layout.Separate (first, firstSources) (second, secondSources) ↔
      ¬ layout.Meets (first, firstSources) (second, secondSources) ∧
        ¬ layout.Meets (second, secondSources) (first, firstSources) := by
  have sources := @files_apart_iff layout.cache.getSource first second
    (layout.sourceNames firstSources) (layout.sourceNames secondSources)
    normalFirst normalSecond different
  have packages := @files_apart_iff layout.cache.getPackage first second
    layout.packageNames layout.packageNames normalFirst normalSecond different
  have installations := @apart_names_iff layout.installations first second
    different ".install" ".install"
  have built := packageNames_ne_nil layout
  constructor
  · intro separate
    obtain ⟨files, directories⟩ := separate
    rw [Layout.installationRoot, Layout.installationRoot,
      packageRoot_normal normalFirst, packageRoot_normal normalSecond,
      installations] at directories
    have sourceApart := sources.mp
      fun name member other otherMember =>
        files _ _ (Layout.keeps_iff.mpr (.inl ⟨name, member, rfl⟩))
          (Layout.keeps_iff.mpr (.inl ⟨other, otherMember, rfl⟩))
    have packageApart := packages.mp
      fun name member other otherMember =>
        files _ _ (Layout.keeps_iff.mpr (.inr ⟨name, member, rfl⟩))
          (Layout.keeps_iff.mpr (.inr ⟨other, otherMember, rfl⟩))
    constructor
    · intro meets
      obtain source | package | directory := meets
      · exact sourceApart.1 source
      · exact packageApart.1 ⟨package, built⟩
      · exact directories.1 directory
    · intro meets
      obtain source | package | directory := meets
      · exact sourceApart.2 source
      · exact packageApart.2 ⟨package, built⟩
      · exact directories.2 directory
  · intro given
    obtain ⟨forward, backward⟩ := given
    obtain ⟨noSource, noRest⟩ := not_or.mp forward
    obtain ⟨noPackage, noDirectory⟩ := not_or.mp noRest
    obtain ⟨noSource', noRest'⟩ := not_or.mp backward
    obtain ⟨noPackage', noDirectory'⟩ := not_or.mp noRest'
    have sourceApart := sources.mpr ⟨noSource, noSource'⟩
    have packageApart := packages.mpr
      ⟨fun meets => noPackage meets.1, fun meets => noPackage' meets.1⟩
    constructor
    · intro left right keepsLeft keepsRight
      rw [Layout.keeps_iff] at keepsLeft keepsRight
      obtain ⟨name, member, rfl⟩ | ⟨name, member, rfl⟩ :=
        keepsLeft
      · obtain ⟨other, otherMember, rfl⟩ |
          ⟨other, otherMember, rfl⟩ := keepsRight
        · exact sourceApart name member other otherMember
        · exact areas_apart layout.cache (packageRoot_within normalFirst _)
            (packageRoot_within normalSecond _)
      · obtain ⟨other, otherMember, rfl⟩ |
          ⟨other, otherMember, rfl⟩ := keepsRight
        · exact (areas_apart layout.cache
            (packageRoot_within normalSecond _)
            (packageRoot_within normalFirst _)).symm
        · exact packageApart name member other otherMember
    · rw [Layout.installationRoot, Layout.installationRoot,
        packageRoot_normal normalFirst, packageRoot_normal normalSecond]
      exact installations.mpr ⟨noDirectory, noDirectory'⟩

/-! ## What is separate is not disturbed -/

/-- A file that is written or removed for one package leaves every file that
is kept for the other as it is. -/
theorem Layout.Separate.files_kept {File : Type} {layout : Layout}
    {first second : Entry × List SourceId} {left right : List String}
    (separate : layout.Separate first second)
    (keepsLeft : layout.Keeps first.1 first.2 left)
    (keepsRight : layout.Keeps second.1 second.2 right)
    (disk : Disk String File) :
    (disk.removeAll left).node right = disk.node right ∧
      ∀ contents final, disk.write left contents = some final →
        final.node right = disk.node right := by
  have apart := separate.1 left right keepsLeft keepsRight
  constructor
  · rw [Disk.node_removeAll, if_neg apart.1]
  · intro contents final written
    apply Disk.node_write_of_ne written
    intro same
    rw [same] at apart
    exact apart.1 (List.prefix_refl left)

/-- Removing the installation of one package leaves that of the other. -/
theorem Layout.Separate.installation_kept {File : Type} {layout : Layout}
    {first second : Entry × List SourceId}
    (separate : layout.Separate first second) (disk : Disk String File)
    {place : List String}
    (inside : place ∈ Within (layout.installationRoot second.1)) :
    (disk.removeAll (layout.installationRoot first.1)).node place =
      disk.node place := by
  rw [Disk.node_removeAll, if_neg]
  intro above
  exact Set.disjoint_left.mp (within_disjoint separate.2) above inside

/-! ## Two packages -/

def sampleLayout : Layout :=
  { format := { archiveSuffix := ".tgz", index := none, checksum := none }
    cache := { root := ["cache"], archiveSuffix := ".tgz" }
    installations := ["installed"] }

theorem separate_iff_nested :
    sampleLayout.Separate (⟨["a"]⟩, ["src"]) (⟨["a", "b"]⟩, ["src"]) ↔
      ¬ sampleLayout.Meets (⟨["a"]⟩, ["src"]) (⟨["a", "b"]⟩, ["src"]) ∧
        ¬ sampleLayout.Meets (⟨["a", "b"]⟩, ["src"]) (⟨["a"]⟩, ["src"]) := by
  apply separate_iff sampleLayout
  · unfold Normal
    decide
  · unfold Normal
    decide
  · decide

/-- The build snapshot of `a` is at the place of the directory of
`a/build_snapshot`. -/
theorem build_snapshot_not_separate :
    Normal ⟨["a"]⟩ ∧ Normal ⟨["a", "build_snapshot"]⟩ ∧
      ¬ sampleLayout.Separate (⟨["a"]⟩, [])
        (⟨["a", "build_snapshot"]⟩, []) := by
  have snapshot : sampleLayout.Keeps ⟨["a"]⟩ []
      ["cache", "package", "a", "build_snapshot"] :=
    .inr ⟨.inr (.inl (by decide)), by constructor <;> decide⟩
  have inside : sampleLayout.Keeps ⟨["a", "build_snapshot"]⟩ []
      ["cache", "package", "a", "build_snapshot", "build_snapshot"] :=
    .inr ⟨.inr (.inl (by decide)), by constructor <;> decide⟩
  refine ⟨by unfold Normal; decide, by unfold Normal; decide, ?_⟩
  intro separate
  have apart := separate.1 _ _ snapshot inside
  exact apart.1 ⟨["build_snapshot"], rfl⟩

end Bacs.Pm.Places
