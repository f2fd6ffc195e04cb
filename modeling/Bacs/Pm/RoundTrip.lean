import Bacs.Pm.FileNames
import Bacs.Pm.Packing

/-!
# From a package directory to the cache and back

A repository with the format that a package was created with fetches what was
published, unless two of the names that the format gives to the files meet,
or a name is not one that the checksum file or the cache can hold.
-/

namespace Bacs.Pm.Publishing

open LexicalPath

section RoundTrips

variable {File Archive Tree : Type}
  {publisher : Publisher File Archive Tree} {format : Format}
  {source : List String} {disk final : Disk String File}
  {entry listing : SnapshotEntry} {names : List SourceId}

/-! ## What a round trip is -/

/-- What the archiver and the file formats do.  Some names cannot be keys of
the checksum file: the empty name among them, because the value put at the
empty path is that of the whole tree, and it is not written. -/
structure Publisher.Sound (publisher : Publisher File Archive Tree)
    (keeps : String → Prop) : Prop where
  keepsIndex : keeps "index"
  losesEmpty : ¬ keeps ""
  kept : ∀ entry : SnapshotEntry, (∀ key ∈ entry, keeps key) →
    publisher.parseChecksum (publisher.writeChecksum entry) = some entry
  lost : ∀ (entry : SnapshotEntry) (key : String), key ∈ entry →
    ¬ keeps key → ∀ read,
      publisher.parseChecksum (publisher.writeChecksum entry) = some read →
        read.lookup key = none
  checksum_not_index : ∀ entry,
    publisher.parseIndex (publisher.writeChecksum entry) = none
  archive_not_index : ∀ file, IsArchive publisher file →
    publisher.parseIndex file = none
  checksum_ne : ∀ entry file, IsArchive publisher file →
    publisher.checksum (publisher.writeChecksum entry) ≠
      publisher.checksum file

/-- The name that the configuration gives to the checksum file. -/
def configuredChecksum (format : Format) : String :=
  format.checksum.getD "checksum"

structure RoundTrip (publisher : Publisher File Archive Tree)
    (format : Format) (source : List String) (package : Entry)
    (disk final : Disk String File) : Prop where
  unchanged : final.file? (locate source format.getIndex) =
    disk.file? (locate source format.getIndex)
  named : format.getChecksum = configuredChecksum format
  listed : ∃ file entry indexFile,
    published source final format.getChecksum = some file ∧
    publisher.parseChecksum file = some entry ∧
    published source final format.getIndex = some indexFile ∧
    entry.lookup format.getIndex = some (publisher.checksum indexFile) ∧
    ∀ srcName ∈ declared publisher format source disk, ∃ archive,
      published source final (srcName ++ format.archiveSuffix) =
        some archive ∧
      entry.lookup srcName = some (publisher.checksum archive)
  fetched : ∃ middle library,
    updateMeta publisher format (published source final) (fun _ => none) =
      some middle ∧
    updateSources publisher format package (published source final) middle =
      some library ∧
    stored library format.getIndex = published source final format.getIndex ∧
    ∀ srcName ∈ declared publisher format source disk,
      stored library (srcName ++ format.archiveSuffix) =
        published source final (srcName ++ format.archiveSuffix)

/-- Both names of the format are left at their defaults, and no source has a
name that gets in the way. -/
structure Clear (keeps : String → Prop) (format : Format) (strip : Bool)
    (names : List SourceId) : Prop where
  index : format.index = none
  checksum : configuredChecksum format = "checksum"
  kept : ∀ srcName ∈ names, keeps srcName
  accepted : ∀ srcName ∈ names,
    (sourceFilePath (srcName ++ format.archiveSuffix)).isSome = true
  index_ne : ∀ srcName ∈ names,
    sourceFilePath (srcName ++ format.archiveSuffix) ≠ some "index"
  checksum_ne : ∀ srcName ∈ names,
    sourceFilePath (srcName ++ format.archiveSuffix) ≠ some "checksum"
  inside : strip = true → ∀ srcName ∈ names,
    leaf srcName ≠ "" ∧ leaf srcName ≠ ".."

/-- Neither the package directory nor the one above it is packed twice into
one archive. -/
def Alone (names : List SourceId) : Prop :=
  ∀ srcName ∈ names, "//" ++ srcName ∈ names →
    srcName ≠ "." ∧ srcName ≠ ".."

/-- The archives are files with the names of the sources. -/
def Plain (format : Format) (names : List SourceId) : Prop :=
  ∀ srcName ∈ names, '/' ∉ (srcName ++ format.archiveSuffix).toList

instance (names : List SourceId) : Decidable (Alone names) :=
  inferInstanceAs (Decidable (∀ srcName ∈ names, _))

instance (format : Format) (names : List SourceId) :
    Decidable (Plain format names) :=
  inferInstanceAs (Decidable (∀ srcName ∈ names, _))

theorem Plain.alone {format : Format} (plain : Plain format names) :
    Alone names := by
  intro srcName _ slashed
  exact absurd (by simp) (plain _ slashed)

/-! ## Names of the format -/

theorem getIndex_default (unconfigured : format.index = none) :
    format.getIndex = "index" := by
  simp [Format.getIndex, unconfigured]

theorem getChecksum_default (unconfigured : format.index = none) :
    format.getChecksum = "checksum" := by
  simp [Format.getChecksum, unconfigured]

theorem append_suffix_injective {first second : SourceId}
    (same : first ++ format.archiveSuffix = second ++ format.archiveSuffix) :
    first = second := by
  have lists := congrArg String.toList same
  simp only [String.toList_append, List.append_cancel_right_eq] at lists
  exact String.toList_injective lists

namespace Created

variable {strip : Bool} {indexFile : File} {index : Index}
  {packed written : Disk String File}

theorem packed_directory
    (created : Created publisher format source strip disk final indexFile
      index listing packed written)
    (unconfigured : format.index = none) :
    packed.node source = some .directory ∧
      packed.node source.dropLast = some .directory := by
  have found := created.found
  rw [getIndex_default unconfigured, locate_index] at found
  have inside := disk.rooted source "index" (by simp [found])
  constructor
  · exact created.packing.grown.directory source inside
  · apply created.packing.grown.directory
    by_cases top : source = []
    · simpa [top] using inside
    · exact Disk.parent_directory (by simp [inside]) top

/-- An archive is a file, so its name is not one of a directory above. -/
theorem archive_ne_directory
    (created : Created publisher format source strip disk final indexFile
      index listing packed written)
    {srcName : SourceId} (member : srcName ∈ index.sources)
    {place : List String} (directory : packed.node place = some .directory) :
    archivePlace format source srcName ≠ place := by
  obtain ⟨file, _, archived⟩ := created.packing.archive srcName member
  intro same
  rw [same, directory] at archived
  cases archived

/-- The archive of an accepted name is a file of the package directory. -/
theorem archivePlace_eq
    (created : Created publisher format source strip disk final indexFile
      index listing packed written)
    (unconfigured : format.index = none) {srcName : SourceId}
    (member : srcName ∈ index.sources) {base : String}
    (accepted : sourceFilePath (srcName ++ format.archiveSuffix) =
      some base) :
    '/' ∉ base.toList ∧
      archivePlace format source srcName = source ++ [base] := by
  obtain ⟨here, above⟩ := created.packed_directory unconfigured
  have place : archivePlace format source srcName = locate source base :=
    locate_accepted source accepted
  obtain ⟨separators, _⟩ | ⟨plain, _, _⟩ := sourceFilePath_cases accepted
  · exact absurd (walk_separators source separators)
      (created.archive_ne_directory member here)
  · refine ⟨plain, ?_⟩
    rcases locate_plain source plain with inside | same | same
    · exact place.trans inside
    · exact absurd (place.trans same) (created.archive_ne_directory member here)
    · exact absurd (place.trans same)
        (created.archive_ne_directory member above)

/-- The archive of a source is that of another one only if one of the names is
the other one with the slashes of a root. -/
theorem twin
    (created : Created publisher format source strip disk final indexFile
      index listing packed written)
    (unconfigured : format.index = none) {first second : SourceId}
    (firstMember : first ∈ index.sources)
    (secondMember : second ∈ index.sources) (different : first ≠ second)
    (firstAccepted :
      (sourceFilePath (first ++ format.archiveSuffix)).isSome = true)
    (secondAccepted :
      (sourceFilePath (second ++ format.archiveSuffix)).isSome = true)
    (same : archivePlace format source first =
      archivePlace format source second) :
    second = "//" ++ first ∧ '/' ∉ first.toList ∨
      first = "//" ++ second ∧ '/' ∉ second.toList := by
  obtain ⟨base, firstPath⟩ := Option.isSome_iff_exists.mp firstAccepted
  obtain ⟨other, secondPath⟩ := Option.isSome_iff_exists.mp secondAccepted
  obtain ⟨plain, firstPlace⟩ :=
    created.archivePlace_eq unconfigured firstMember firstPath
  obtain ⟨_, secondPlace⟩ :=
    created.archivePlace_eq unconfigured secondMember secondPath
  have bases : base = other := by
    rw [firstPlace, secondPlace] at same
    simpa using same
  subst bases
  have absent : ∀ srcName : SourceId,
      srcName ++ format.archiveSuffix = base → '/' ∉ srcName.toList := by
    rintro srcName rfl slash
    exact plain (by simp [slash])
  have slashed : ∀ one another : SourceId,
      one ++ format.archiveSuffix = "//" ++ base →
        another ++ format.archiveSuffix = base → one = "//" ++ another := by
    rintro one another rooted rfl
    rw [← String.append_assoc] at rooted
    exact append_suffix_injective rooted
  have cases : ∀ srcName : SourceId,
      sourceFilePath (srcName ++ format.archiveSuffix) = some base →
        srcName ++ format.archiveSuffix = base ∨
          srcName ++ format.archiveSuffix = "//" ++ base := by
    intro srcName accepted
    obtain ⟨_, rfl⟩ | ⟨_, _, either⟩ := sourceFilePath_cases accepted
    · exact .inl rfl
    · exact either
  rcases cases first firstPath with one | one <;>
    rcases cases second secondPath with another | another
  · exact absurd (append_suffix_injective (one.trans another.symm)) different
  · exact .inl ⟨slashed second first another one, absent first one⟩
  · exact .inr ⟨slashed first second one another, absent second another⟩
  · exact absurd (append_suffix_injective (one.trans another.symm)) different

/-- The index is listed, because the place of a source is not that of a
file. -/
theorem lookup_index
    (created : Created publisher format source strip disk final indexFile
      index listing packed written) :
    listing.lookup format.getIndex =
      some (publisher.checksum indexFile) := by
  have absent : format.getIndex ∉ index.sources := by
    intro member
    have found := Disk.file?_eq_some.mpr created.found
    apply created.packing.grown.not_directory found
    exact created.packing.directory _ member
  rw [created.packing.frame _ absent, Finmap.lookup_singleton_eq]

theorem keys_kept
    (created : Created publisher format source strip disk final indexFile
      index listing packed written)
    {keeps : String → Prop} (indexKept : keeps format.getIndex)
    (kept : ∀ srcName ∈ index.sources, keeps srcName) :
    ∀ key ∈ listing, keeps key := by
  intro key listed
  by_cases member : key ∈ index.sources
  · exact kept key member
  · have frame := created.packing.frame key member
    obtain ⟨checksum, found⟩ := Finmap.mem_iff.mp listed
    rw [frame] at found
    have same := Finmap.mem_of_lookup_eq_some found
    rw [Finmap.mem_singleton] at same
    rw [same]
    exact indexKept

/-- What is left at a place in the end was there before the sources were
removed. -/
theorem written_of_final
    (created : Created publisher format source strip disk final indexFile
      index listing packed written)
    {place : List String} {file : File}
    (present : final.node place = some (.file file)) :
    written.node place = some (.file file) := by
  rw [created.removing place] at present
  split at present
  · cases present
  · exact present

/-- The file left at the place of the checksum file is the one written. -/
theorem final_checksum
    (created : Created publisher format source strip disk final indexFile
      index listing packed written) {file : File}
    (present : published source final format.getChecksum = some file) :
    file = publisher.writeChecksum listing := by
  have left := created.written_of_final (Disk.file?_eq_some.mp present)
  rw [Disk.node_write_self created.writing] at left
  cases left
  rfl

end Created

/-! ## Fetching -/

section Fetching

variable {package : Entry} {remote : String → Option File}
  {library fetched : Library File} {path : String} {checksum : Checksum}
  {file : File}

theorem updateFile_available {url : String}
    (missing : library path = none ∨ library path = some file)
    (published : remote url = some file)
    (same : publisher.checksum file = checksum) :
    updateFile publisher remote url path checksum library =
      some (Function.update library path (some file)) := by
  rcases missing with none | there
  · simp [updateFile, outdated, none, published, same]
  · have current : Function.update library path (some file) = library := by
      rw [← there, Function.update_eq_self]
    simp [updateFile, outdated, there, same, current]

/-- A file that is missing can only come from the remote repository. -/
theorem updateFile_missing_spec {url : String}
    (missing : library path = none)
    (updated : updateFile publisher remote url path checksum library =
      some fetched) :
    ∃ file, remote url = some file ∧
      fetched = Function.update library path (some file) := by
  simp only [updateFile, outdated, missing, if_true, Option.bind_eq_bind,
    Option.bind_eq_some_iff] at updated
  obtain ⟨file, published, same⟩ := updated
  refine ⟨file, published, ?_⟩
  simp only [Function.update_self] at same
  split at same
  · cases same
  · cases same
    rfl

theorem updateMeta_spec (unconfigured : format.index = none)
    (updated : updateMeta publisher format remote (fun _ => none) =
      some fetched) :
    fetched "index" = remote "index" := by
  simp only [updateMeta, getIndex_default unconfigured,
    getChecksum_default unconfigured, Option.bind_eq_bind,
    Option.bind_eq_some_iff] at updated
  obtain ⟨checksumFile, _, checksumPath, checksumAt, indexPath, indexAt,
    _, _, _, _, updated⟩ := updated
  rw [sourceFilePath_plain (by decide)] at checksumAt indexAt
  cases checksumAt
  cases indexAt
  obtain ⟨file, published, same⟩ :=
    updateFile_missing_spec (by simp) updated
  rw [same, published]
  simp

theorem updateSources_member
    (updated : names.foldlM (updateSource publisher format remote) library =
      some fetched) {srcName : SourceId} (member : srcName ∈ names) :
    ∃ path, sourceFilePath (srcName ++ format.archiveSuffix) =
      some path := by
  induction names generalizing library with
  | nil => cases member
  | cons first names ih =>
      simp only [List.foldlM_cons, Option.bind_eq_bind,
        Option.bind_eq_some_iff] at updated
      obtain ⟨middle, step, rest⟩ := updated
      cases member with
      | tail _ member => exact ih rest member
      | head =>
          simp only [updateSource, Option.bind_eq_bind,
            Option.bind_eq_some_iff] at step
          obtain ⟨path, accepted, _⟩ := step
          exact ⟨path, accepted⟩

/-- All archives are fetched into a library that has no other files of their
names. -/
theorem updateSources_fetches {checksumFile : File}
    (unconfigured : format.index = none)
    (checksumAt : library "checksum" = some checksumFile)
    (parsed : publisher.parseChecksum checksumFile = some listing)
    (accepted : ∀ srcName ∈ names, ∃ path,
      sourceFilePath (srcName ++ format.archiveSuffix) = some path ∧
        path ≠ "checksum" ∧ (library path = none ∨
          library path = remote (srcName ++ format.archiveSuffix)))
    (agree : ∀ first ∈ names, ∀ second ∈ names,
      sourceFilePath (first ++ format.archiveSuffix) =
          sourceFilePath (second ++ format.archiveSuffix) →
        remote (first ++ format.archiveSuffix) =
          remote (second ++ format.archiveSuffix))
    (listed : ∀ srcName ∈ names, ∃ file,
      listing.lookup srcName = some (publisher.checksum file) ∧
        remote (srcName ++ format.archiveSuffix) = some file) :
    ∃ fetched, names.foldlM (updateSource publisher format remote) library =
        some fetched ∧
      (∀ srcName ∈ names, stored fetched (srcName ++ format.archiveSuffix) =
        remote (srcName ++ format.archiveSuffix)) ∧
      ∀ path, (∀ srcName ∈ names,
        sourceFilePath (srcName ++ format.archiveSuffix) ≠ some path) →
          fetched path = library path := by
  induction names generalizing library with
  | nil => exact ⟨library, rfl, by simp, fun _ _ => rfl⟩
  | cons srcName names ih =>
      obtain ⟨path, pathAt, notChecksum, available⟩ :=
        accepted srcName List.mem_cons_self
      obtain ⟨file, lookup, published⟩ := listed srcName List.mem_cons_self
      rw [published] at available
      have checksumPath : sourceFilePath "checksum" = some "checksum" :=
        sourceFilePath_plain (by decide)
      have step : updateSource publisher format remote library srcName =
          some (Function.update library path (some file)) := by
        simp [updateSource, readChecksum, getChecksum_default unconfigured,
          pathAt, checksumPath, checksumAt, parsed, lookup,
          updateFile_available available published rfl]
      have stillChecksum : Function.update library path (some file)
          "checksum" = some checksumFile := by
        rw [Function.update_of_ne notChecksum.symm, checksumAt]
      obtain ⟨fetched, rest, archives, others⟩ := ih stillChecksum
        (by
          intro other member
          obtain ⟨otherPath, otherAt, apart, before⟩ :=
            accepted other (List.mem_cons_of_mem _ member)
          refine ⟨otherPath, otherAt, apart, ?_⟩
          by_cases same : otherPath = path
          · subst same
            right
            rw [Function.update_self, ← published]
            exact agree _ List.mem_cons_self _
              (List.mem_cons_of_mem _ member) (pathAt.trans otherAt.symm)
          · rw [Function.update_of_ne same]
            exact before)
        (fun one first another second => agree one
          (List.mem_cons_of_mem _ first) another
            (List.mem_cons_of_mem _ second))
        (fun other member => listed other (List.mem_cons_of_mem _ member))
      refine ⟨fetched, by simp [step, rest], ?_, ?_⟩
      · intro other member
        by_cases later : other ∈ names
        · exact archives other later
        · have here : other = srcName := by simpa [later] using member
          subst here
          by_cases again : ∃ third ∈ names,
              sourceFilePath (third ++ format.archiveSuffix) = some path
          · obtain ⟨third, inside, samePath⟩ := again
            have found := archives third inside
            rw [stored, samePath] at found
            rw [stored, pathAt, agree _ List.mem_cons_self third
              (List.mem_cons_of_mem _ inside) (pathAt.trans samePath.symm)]
            exact found
          · push Not at again
            rw [stored, pathAt, published]
            exact (others path again).trans (Function.update_self ..)
      · intro other apart
        rw [others other fun third member =>
          apart third (List.mem_cons_of_mem _ member)]
        apply Function.update_of_ne
        rintro rfl
        exact apart srcName List.mem_cons_self pathAt

end Fetching

/-! ## When the round trip succeeds -/

namespace Created

variable {strip : Bool} {indexFile : File} {index : Index}
  {packed written : Disk String File} {keeps : String → Prop}

theorem final_of_written
    (created : Created publisher format source strip disk final indexFile
      index listing packed written)
    (clear : Clear keeps format strip index.sources) {name : String}
    {file : File} (present : written.node (source ++ [name]) =
      some (.file file)) :
    final.node (source ++ [name]) = some (.file file) := by
  rw [created.removing, if_neg]
  · exact present
  · intro removed
    obtain ⟨strips, srcName, member, above⟩ := removed
    obtain ⟨base, accepted⟩ :=
      Option.isSome_iff_exists.mp (clear.accepted srcName member)
    obtain ⟨place, plain⟩ := leaf_frontal source
      (frontal_of_append (frontal_of_accepted accepted))
    obtain ⟨filled, low⟩ := clear.inside strips srcName member
    have removable : leaf srcName ≠ "." := by
      intro same
      have characters := congrArg String.toList same
      rw [leaf, String.toList_ofList] at characters
      apply created.removable strips srcName member
      cases last : (srcName.toList.splitOn '/').getLast? with
      | none =>
          rw [last] at characters
          cases characters
      | some letters =>
          rw [last] at characters
          exact congrArg some characters
    have directory := created.packing.directory srcName member
    rw [place, locate_name plain filled ⟨removable, low⟩] at above directory
    have same : leaf srcName = name := by
      simpa using (List.prefix_append_right_inj source).mp above
    have stays := (Disk.Grown.of_write created.writing).directory _ directory
    rw [same, present] at stays
    cases stays

theorem written_of_packed
    (created : Created publisher format source strip disk final indexFile
      index listing packed written)
    (unconfigured : format.index = none) {name : String}
    (different : name ≠ "checksum") :
    written.node (source ++ [name]) = packed.node (source ++ [name]) := by
  apply Disk.node_write_of_ne created.writing
  rw [getChecksum_default unconfigured, locate_checksum]
  simpa using different

theorem final_index
    (created : Created publisher format source strip disk final indexFile
      index listing packed written)
    (clear : Clear keeps format strip index.sources) :
    published source final "index" = some indexFile := by
  have found := created.found
  rw [getIndex_default clear.index, locate_index] at found
  have apart : ∀ srcName ∈ index.sources,
      archivePlace format source srcName ≠ source ++ ["index"] := by
    intro srcName member same
    obtain ⟨base, accepted⟩ :=
      Option.isSome_iff_exists.mp (clear.accepted srcName member)
    obtain ⟨_, place⟩ :=
      created.archivePlace_eq clear.index member accepted
    apply clear.index_ne srcName member
    rw [accepted]
    rw [place] at same
    simpa using same
  have stays := created.packing.kept _ apart
  rw [published, locate_index, Disk.file?_eq_some]
  apply created.final_of_written clear
  rw [created.written_of_packed clear.index (by decide), stays, found]

theorem final_checksum_present
    (created : Created publisher format source strip disk final indexFile
      index listing packed written)
    (clear : Clear keeps format strip index.sources) :
    published source final "checksum" =
      some (publisher.writeChecksum listing) := by
  rw [published, locate_checksum, Disk.file?_eq_some]
  apply created.final_of_written clear
  have here := Disk.node_write_self created.writing
  rw [getChecksum_default clear.index, locate_checksum] at here
  exact here

/-- Two sources with one archive are one directory, into which no archive is
put. -/
theorem twin_directory
    (created : Created publisher format source strip disk final indexFile
      index listing packed written)
    (sound : publisher.Sound keeps)
    (clear : Clear keeps format strip index.sources)
    (alone : Alone index.sources) {first second : SourceId}
    (firstMember : first ∈ index.sources)
    (secondMember : second ∈ index.sources) (different : first ≠ second)
    (same : archivePlace format source first =
      archivePlace format source second) :
    locate source first = locate source second ∧
      ∃ name, locate source first = source ++ [name] := by
  have rooted : ∀ srcName ∈ index.sources, "//" ++ srcName ∈ index.sources →
      '/' ∉ srcName.toList →
        locate source ("//" ++ srcName) = source ++ [srcName] ∧
          locate source srcName = source ++ [srcName] := by
    intro srcName member slashed plain
    have filled : srcName ≠ "" := by
      rintro rfl
      exact sound.losesEmpty (clear.kept "" member)
    have inside : locate source srcName = source ++ [srcName] :=
      locate_name plain filled (alone srcName member slashed)
    exact ⟨(locate_accepted source
      (sourceFilePath_root plain filled)).trans inside, inside⟩
  obtain ⟨rfl, plain⟩ | ⟨rfl, plain⟩ :=
    created.twin clear.index firstMember secondMember different
      (clear.accepted first firstMember) (clear.accepted second secondMember)
      same
  · obtain ⟨one, other⟩ := rooted first firstMember secondMember plain
    exact ⟨other.trans one.symm, first, other⟩
  · obtain ⟨one, other⟩ := rooted second secondMember firstMember plain
    exact ⟨one.trans other.symm, second, one⟩

/-- The archive of a source is the one that is listed, even if another source
has the same one. -/
theorem packed_archive
    (created : Created publisher format source strip disk final indexFile
      index listing packed written)
    (sound : publisher.Sound keeps)
    (clear : Clear keeps format strip index.sources)
    (alone : Alone index.sources) {srcName : SourceId}
    (member : srcName ∈ index.sources) :
    ∃ file, listing.lookup srcName = some (publisher.checksum file) ∧
      packed.node (archivePlace format source srcName) =
        some (.file file) := by
  by_cases again : ∃ other ∈ index.sources, other ≠ srcName ∧
      archivePlace format source other = archivePlace format source srcName
  · obtain ⟨other, inside, different, same⟩ := again
    obtain ⟨_, name, place⟩ :=
      created.twin_directory sound clear alone member inside
        different.symm same.symm
    obtain ⟨file, _, lookup, present⟩ := created.packing.twin srcName member
      (by
        intro third among above
        obtain ⟨base, accepted⟩ :=
          Option.isSome_iff_exists.mp (clear.accepted third among)
        obtain ⟨_, archive⟩ :=
          created.archivePlace_eq clear.index among accepted
        apply created.archive_ne_directory among
          (created.packing.directory srcName member)
        rw [place, archive] at above ⊢
        have same := (List.prefix_append_right_inj source).mp above
        rw [show name = base by simpa using same])
      (by
        intro third among samePlace
        by_cases itself : third = srcName
        · rw [itself]
        · exact (created.twin_directory sound clear alone among member
            itself samePlace).1)
    exact ⟨file, lookup, present⟩
  · push Not at again
    exact created.packing.own srcName member (List.nodup_dedup _) again

theorem final_archive
    (created : Created publisher format source strip disk final indexFile
      index listing packed written)
    (sound : publisher.Sound keeps)
    (clear : Clear keeps format strip index.sources)
    (alone : Alone index.sources) {srcName : SourceId}
    (member : srcName ∈ index.sources) :
    ∃ file, listing.lookup srcName = some (publisher.checksum file) ∧
      published source final (srcName ++ format.archiveSuffix) =
        some file := by
  obtain ⟨file, lookup, archived⟩ :=
    created.packed_archive sound clear alone member
  obtain ⟨base, accepted⟩ :=
    Option.isSome_iff_exists.mp (clear.accepted srcName member)
  obtain ⟨_, place⟩ := created.archivePlace_eq clear.index member accepted
  have notChecksum : base ≠ "checksum" := by
    rintro rfl
    exact clear.checksum_ne srcName member accepted
  refine ⟨file, lookup, ?_⟩
  rw [place] at archived
  rw [published, Disk.file?_eq_some]
  change final.node (archivePlace format source srcName) = _
  rw [place]
  apply created.final_of_written clear
  rw [created.written_of_packed clear.index notChecksum, archived]

theorem parse_listing
    (created : Created publisher format source strip disk final indexFile
      index listing packed written)
    (sound : publisher.Sound keeps) (unconfigured : format.index = none)
    (kept : ∀ srcName ∈ index.sources, keeps srcName) :
    publisher.parseChecksum (publisher.writeChecksum listing) =
      some listing := by
  apply sound.kept
  apply created.keys_kept _ kept
  rw [getIndex_default unconfigured]
  exact sound.keepsIndex

theorem fetched
    (created : Created publisher format source strip disk final indexFile
      index listing packed written)
    (sound : publisher.Sound keeps)
    (clear : Clear keeps format strip index.sources)
    (alone : Alone index.sources) (package : Entry) :
    ∃ middle library,
      updateMeta publisher format (published source final)
          (fun _ => none) = some middle ∧
        readIndex publisher format package middle =
          some (index.absolute package) ∧
        updateSources publisher format package (published source final)
          middle = some library ∧
        library "index" = some indexFile ∧
        ∀ srcName ∈ index.sources,
          stored library (srcName ++ format.archiveSuffix) =
            published source final (srcName ++ format.archiveSuffix) := by
  have parsed := created.parse_listing sound clear.index clear.kept
  have indexPath : sourceFilePath "index" = some "index" :=
    sourceFilePath_plain (by decide)
  have checksumPath : sourceFilePath "checksum" = some "checksum" :=
    sourceFilePath_plain (by decide)
  let library : Library File := Function.update (fun _ => none) "checksum"
    (some (publisher.writeChecksum listing))
  let middle := Function.update library "index" (some indexFile)
  have met : updateMeta publisher format (published source final)
      (fun _ => none) = some middle := by
    have step : updateFile publisher (published source final) "index"
        "index" (publisher.checksum indexFile) library = some middle := by
      apply updateFile_available _ (created.final_index clear) rfl
      simp [library]
    simpa [updateMeta, getIndex_default clear.index,
      getChecksum_default clear.index, checksumPath, indexPath,
      created.final_checksum_present clear, readChecksum, parsed,
      created.lookup_index] using step
  have checksumAt :
      middle "checksum" = some (publisher.writeChecksum listing) := by
    simp [middle, library]
  obtain ⟨library, updated, archives, others⟩ :=
    updateSources_fetches clear.index checksumAt parsed
      (by
        intro srcName member
        obtain ⟨path, accepted⟩ :=
          Option.isSome_iff_exists.mp (clear.accepted srcName member)
        have notIndex := clear.index_ne srcName member
        have notChecksum := clear.checksum_ne srcName member
        rw [accepted, ne_eq, Option.some.injEq] at notIndex notChecksum
        refine ⟨path, accepted, notChecksum, .inl ?_⟩
        simp [middle, library, notIndex, notChecksum])
      (by
        intro first _ second member same
        obtain ⟨path, accepted⟩ :=
          Option.isSome_iff_exists.mp (clear.accepted second member)
        rw [accepted] at same
        rw [published, published, locate_accepted source same,
          locate_accepted source accepted])
      (fun srcName member =>
        created.final_archive sound clear alone member)
  have read : readIndex publisher format package middle =
      some (index.absolute package) := by
    simp [readIndex, getIndex_default clear.index, indexPath, middle,
      created.parsed]
  refine ⟨middle, library, met, read, ?_, ?_, archives⟩
  · rw [updateSources, read]
    exact updated
  · rw [others "index" clear.index_ne]
    simp [middle]

theorem roundTrip
    (created : Created publisher format source strip disk final indexFile
      index listing packed written)
    (sound : publisher.Sound keeps)
    (clear : Clear keeps format strip index.sources)
    (alone : Alone index.sources) (package : Entry) :
    RoundTrip publisher format source package disk final := by
  have names := declared_eq created.found created.parsed
  have indexAt := created.final_index clear
  constructor
  case unchanged =>
    rw [getIndex_default clear.index]
    have found := Disk.file?_eq_some.mpr created.found
    rw [getIndex_default clear.index] at found
    rw [found]
    exact indexAt
  case named =>
    rw [getChecksum_default clear.index, clear.checksum]
  case listed =>
    refine ⟨publisher.writeChecksum listing, listing, indexFile, ?_,
      created.parse_listing sound clear.index clear.kept, ?_,
      created.lookup_index, ?_⟩
    · rw [getChecksum_default clear.index]
      exact created.final_checksum_present clear
    · rw [getIndex_default clear.index]
      exact indexAt
    · intro srcName member
      rw [names] at member
      obtain ⟨file, lookup, present⟩ :=
        created.final_archive sound clear alone member
      exact ⟨file, present, lookup⟩
  case fetched =>
    obtain ⟨middle, library, met, _, updated, indexFetched, archives⟩ :=
      created.fetched sound clear alone package
    refine ⟨middle, library, met, updated, ?_, ?_⟩
    · rw [getIndex_default clear.index, indexAt, ← indexFetched, stored,
        sourceFilePath_plain (by decide)]
      rfl
    · rw [names]
      exact archives

/-! ## When it fails -/

/-- The index file is still there, so nothing that replaces it may have
done so. -/
theorem index_written
    (created : Created publisher format source strip disk final indexFile
      index listing packed written)
    (unchanged : final.file? (locate source format.getIndex) =
      disk.file? (locate source format.getIndex)) :
    final.node (locate source format.getIndex) = some (.file indexFile) ∧
      written.node (locate source format.getIndex) =
        some (.file indexFile) := by
  rw [Disk.file?_eq_some.mpr created.found] at unchanged
  have present := Disk.file?_eq_some.mp unchanged
  exact ⟨present, created.written_of_final present⟩

/-- With a configured name the checksum file replaces the index. -/
theorem unconfigured
    (created : Created publisher format source strip disk final indexFile
      index listing packed written)
    (sound : publisher.Sound keeps)
    (unchanged : final.file? (locate source format.getIndex) =
      disk.file? (locate source format.getIndex)) :
    format.index = none := by
  cases configured : format.index with
  | none => rfl
  | some name =>
      have same : format.getChecksum = format.getIndex := by
        simp [Format.getChecksum, Format.getIndex, configured]
      have replaced := Disk.node_write_self created.writing
      rw [same, (created.index_written unchanged).2] at replaced
      cases replaced
      have parsed := created.parsed
      rw [sound.checksum_not_index] at parsed
      cases parsed

theorem index_ne
    (created : Created publisher format source strip disk final indexFile
      index listing packed written)
    (sound : publisher.Sound keeps) (unconfigured : format.index = none)
    (unchanged : final.file? (locate source format.getIndex) =
      disk.file? (locate source format.getIndex))
    {srcName : SourceId} (member : srcName ∈ index.sources) :
    sourceFilePath (srcName ++ format.archiveSuffix) ≠ some "index" := by
  intro same
  have left := (created.index_written unchanged).2
  obtain ⟨file, archive, archived⟩ :=
    created.packing.archive srcName member
  rw [archivePlace, locate_accepted source same, locate_index] at archived
  rw [getIndex_default unconfigured, locate_index,
    created.written_of_packed unconfigured (by decide), archived] at left
  cases left
  have parsed := created.parsed
  rw [sound.archive_not_index _ archive] at parsed
  cases parsed

/-- What is removed is not the directory of the index, nor one above it. -/
theorem inside
    (created : Created publisher format source strip disk final indexFile
      index listing packed written)
    (unconfigured : format.index = none)
    (unchanged : final.file? (locate source format.getIndex) =
      disk.file? (locate source format.getIndex)) (strips : strip = true)
    {srcName : SourceId} (member : srcName ∈ index.sources)
    (frontal : Frontal srcName) :
    leaf srcName ≠ "" ∧ leaf srcName ≠ ".." := by
  have left := (created.index_written unchanged).1
  have low : ¬ locate source (leaf srcName) <+: source ++ ["index"] := by
    intro above
    rw [created.removing, if_pos] at left
    · cases left
    · refine ⟨strips, srcName, member, ?_⟩
      rw [getIndex_default unconfigured, locate_index,
        (leaf_frontal source frontal).1]
      exact above
  constructor
  · intro empty
    apply low
    rw [empty, locate, stepsOf_plain (by simp)]
    exact List.prefix_append _ _
  · intro up
    apply low
    rw [up, locate, stepsOf_plain (by decide)]
    change source.dropLast <+: source ++ ["index"]
    exact (List.dropLast_prefix source).trans (List.prefix_append _ _)

theorem clear
    (created : Created publisher format source strip disk final indexFile
      index listing packed written)
    (sound : publisher.Sound keeps) {package : Entry}
    (trip : RoundTrip publisher format source package disk final) :
    Clear keeps format strip index.sources := by
  have names := declared_eq created.found created.parsed
  have unconfigured := created.unconfigured sound trip.unchanged
  obtain ⟨file, entry, _, present, parsed, _, _, archives⟩ := trip.listed
  have written := created.final_checksum present
  subst written
  rw [names] at archives
  have kept : ∀ srcName ∈ index.sources, keeps srcName := by
    intro srcName member
    by_contra loses
    obtain ⟨_, _, lookup⟩ := created.packing.listed srcName member
    obtain ⟨_, _, found⟩ := archives srcName member
    rw [sound.lost listing srcName (Finmap.mem_of_lookup_eq_some lookup)
      loses entry parsed] at found
    cases found
  have accepted : ∀ srcName ∈ index.sources, ∃ path,
      sourceFilePath (srcName ++ format.archiveSuffix) = some path := by
    intro srcName member
    obtain ⟨middle, library, met, updated, _, _⟩ := trip.fetched
    have indexAt := updateMeta_spec unconfigured met
    have present := (created.index_written trip.unchanged).1
    rw [getIndex_default unconfigured] at present
    rw [published, Disk.file?_eq_some.mpr present] at indexAt
    have read : readIndex publisher format package middle =
        some (index.absolute package) := by
      simp [readIndex, getIndex_default unconfigured, indexAt,
        sourceFilePath, created.parsed]
    rw [updateSources, read] at updated
    exact updateSources_member updated member
  constructor
  case index => exact unconfigured
  case checksum =>
    rw [← trip.named, getChecksum_default unconfigured]
  case kept => exact kept
  case accepted =>
    intro srcName member
    exact Option.isSome_iff_exists.mpr (accepted srcName member)
  case index_ne =>
    intro srcName member
    exact created.index_ne sound unconfigured trip.unchanged member
  case checksum_ne =>
    intro srcName member same
    obtain ⟨archive, present, found⟩ := archives srcName member
    rw [published, locate_accepted source same,
      ← getChecksum_default unconfigured] at present
    have written := created.final_checksum present
    rw [created.parse_listing sound unconfigured kept] at parsed
    cases parsed
    obtain ⟨file, packed, lookup⟩ := created.packing.listed srcName member
    rw [lookup, written] at found
    exact sound.checksum_ne listing file packed (Option.some.inj found).symm
  case inside =>
    intro strips srcName member
    obtain ⟨path, pathAt⟩ := accepted srcName member
    exact created.inside unconfigured trip.unchanged strips member
      (frontal_of_append (frontal_of_accepted pathAt))

end Created

/-- When `create` and a repository with its format agree.  How the archiver
packs a directory again that has its archive inside is left open. -/
theorem create_roundTrip (publisher : Publisher File Archive Tree)
    (format : Format) (source : List String) (package : Entry)
    (keeps : String → Prop) (sound : publisher.Sound keeps) (strip : Bool)
    (disk final : Disk String File)
    (created : create publisher format source strip disk = some final) :
    (RoundTrip publisher format source package disk final →
      Clear keeps format strip
        (declared publisher format source disk)) ∧
    (Clear keeps format strip (declared publisher format source disk) →
      Alone (declared publisher format source disk) →
        RoundTrip publisher format source package disk final) := by
  obtain ⟨indexFile, index, listing, packed, written, steps⟩ :=
    create_spec created
  rw [declared_eq steps.found steps.parsed]
  constructor
  · intro trip
    exact steps.clear sound trip
  · intro clear alone
    exact steps.roundTrip sound clear alone package

end RoundTrips

/-! ## A package with one source -/

namespace Sample

inductive Document where
  | text (number : Nat)
  | index (sources : List SourceId)
  | listing (entry : SnapshotEntry)
  | archive (data : Document)
  deriving DecidableEq

def Document.checksum : Document → Checksum
  | .text number => "text " ++ toString number
  | .index sources => "index " ++ String.intercalate " " sources
  | .listing _ => "listing"
  | .archive data => "archive " ++ data.checksum

def stage (sources : List SourceId) : PackageStage :=
  { importSource := [], importPackage := []
    self := sources.map fun source => ⟨"", source⟩ }

/-- The archiver packs directories that have just a file `data`. -/
def publisher : Publisher Document Document Document where
  version := "1"
  checksum := Document.checksum
  parseIndex
    | .index sources => some { source := stage sources, package := stage [] }
    | _ => none
  parseChecksum
    | .listing entry => some (entry.erase "")
    | _ => none
  unpackSource
    | .archive data => some data
    | _ => none
  pack := .archive
  unpack
    | .archive data => some data
    | _ => none
  install := some
  empty := .text 0
  merge := fun _ _ contents => some contents
  packFrom := fun tree =>
    match tree ["data"] with
    | some (.file data) => some (.archive data)
    | _ => none
  writeChecksum := .listing

theorem erase_absent {entry : SnapshotEntry} {key : String}
    (absent : key ∉ entry) : entry.erase key = entry := by
  apply Finmap.ext_lookup
  intro other
  by_cases same : other = key
  · rw [same, Finmap.lookup_erase]
    exact (Finmap.lookup_eq_none.mpr absent).symm
  · exact Finmap.lookup_erase_ne same

theorem isArchive {file : Document} (archive : IsArchive publisher file) :
    ∃ data, file = .archive data := by
  obtain ⟨tree, packed⟩ := archive
  simp only [publisher] at packed
  split at packed
  · cases packed
    exact ⟨_, rfl⟩
  · cases packed

theorem sound : publisher.Sound (· ≠ "") := by
  constructor
  case keepsIndex => decide
  case losesEmpty => simp
  case kept =>
    intro entry kept
    have absent : "" ∉ entry := fun listed => kept "" listed rfl
    simp [publisher, erase_absent absent]
  case lost =>
    intro entry key _ loses read parsed
    have same : key = "" := by simpa using loses
    cases parsed
    rw [same, Finmap.lookup_erase]
  case checksum_not_index => exact fun _ => rfl
  case archive_not_index =>
    intro file archive
    obtain ⟨data, same⟩ := isArchive archive
    subst same
    rfl
  case checksum_ne =>
    intro entry file archive same
    obtain ⟨data, archived⟩ := isArchive archive
    subst archived
    have characters := congrArg String.toList same
    simp [publisher, Document.checksum] at characters

/-- The index is in a file of the given name, and the source is `main`. -/
def disk (name : String) (different : name ≠ "main") :
    Disk String Document where
  node place :=
    if place = [] ∨ place = ["main"] then some .directory
    else if place = [name] then some (.file (.index ["main"]))
    else if place = ["main", "data"] then some (.file (.text 1))
    else none
  rooted := by
    intro place child present
    cases place with
    | nil => simp
    | cons first rest =>
        cases rest with
        | cons => simp_all
        | nil =>
            have apart := different.symm
            by_cases same : first = "main" <;> simp_all

def standard : Format :=
  { archiveSuffix := ".tar", index := none, checksum := none }

def configured : Format :=
  { archiveSuffix := ".tar", index := some "manifest"
    checksum := some "sums" }

end Sample

theorem create_roundTrip_sample : ∃ final,
    create Sample.publisher Sample.standard [] true
        (Sample.disk "index" (by decide)) = some final ∧
      RoundTrip Sample.publisher Sample.standard [] ⟨["a"]⟩
        (Sample.disk "index" (by decide)) final := by
  have succeeds : (create Sample.publisher Sample.standard [] true
      (Sample.disk "index" (by decide))).isSome := by
    decide +kernel
  obtain ⟨final, created⟩ := Option.isSome_iff_exists.mp succeeds
  refine ⟨final, created, ?_⟩
  apply (create_roundTrip Sample.publisher Sample.standard [] ⟨["a"]⟩
    (· ≠ "") Sample.sound true _ final created).2
  · constructor <;> decide +kernel
  · decide +kernel

theorem create_roundTrip_fails : ∃ final,
    create Sample.publisher Sample.configured [] false
        (Sample.disk "manifest" (by decide)) = some final ∧
      Sample.configured.getIndex ≠ configuredChecksum Sample.configured ∧
      Sample.configured.archiveSuffix ≠ "" ∧
      ∀ package, ¬ RoundTrip Sample.publisher Sample.configured [] package
        (Sample.disk "manifest" (by decide)) final := by
  have replaced : (create Sample.publisher Sample.configured [] false
      (Sample.disk "manifest" (by decide))).map (fun final =>
        decide (final.file? (locate [] Sample.configured.getIndex) =
          (Sample.disk "manifest" (by decide)).file?
            (locate [] Sample.configured.getIndex))) = some false := by
    decide +kernel
  obtain ⟨final, created, changed⟩ := Option.map_eq_some_iff.mp replaced
  refine ⟨final, created, by decide, by decide, ?_⟩
  intro package trip
  apply of_decide_eq_false changed
  exact trip.unchanged

end Bacs.Pm.Publishing
