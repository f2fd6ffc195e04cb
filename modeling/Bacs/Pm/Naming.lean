import Bacs.Pm.Contracts
import Bacs.Pm.RoundTrip

/-!
# The cache and the names of its files

The model of the cache keeps every file at a place of its own.  Where the
format gives the files of a package different names, whatever fetching does
under these names the distributor does in that model.
-/

namespace Bacs.Pm.Publishing

open Foundation

variable {File Archive Tree : Type}
  {publisher : Publisher File Archive Tree}
  {faults : Faults File Archive} {package : Entry}
  {machine : Machine File Archive}

/-! ## Operations that do not fail -/

def Impossible (_ : Failure File Archive) (_ : Machine File Archive) : Prop :=
  False

theorem query_succeeds {Value : Type} {operation : Operation}
    {read : Cache File Archive → Option Value} (value : Value)
    {normal : Value → Machine File Archive → Prop}
    (quiet : ∀ time, faults.aborts time = false)
    (found : read machine.cache = some value)
    (next : normal value { machine with clock := machine.clock + 1 }) :
    Ensures (query faults operation read) machine normal Impossible := by
  simpa [Ensures, query, perform, quiet, found] using next

theorem perform_succeeds {Value : Type} {operation : Operation}
    {spoil : Residue File Archive → Cache File Archive → Cache File Archive}
    {action : Cache File Archive → Option (Value × Cache File Archive)}
    (value : Value) (cache : Cache File Archive)
    {normal : Value → Machine File Archive → Prop}
    (quiet : ∀ time, faults.aborts time = false)
    (done : action machine.cache = some (value, cache))
    (next : normal value { machine with clock := machine.clock + 1, cache }) :
    Ensures (perform faults operation spoil action) machine normal
      Impossible := by
  simpa [Ensures, perform, quiet, done] using next

/-! ## Files under their names -/

/-- The names of the files of a package with the given sources. -/
def targets (names : List SourceId) : List Target :=
  .index :: names.map .source

/-- No two files of a package have the same name, and every name is one of
a file in a directory. -/
structure Named (format : Format) (names : List SourceId) : Prop where
  checksum : sourceFilePath format.getChecksum = some format.getChecksum
  target : ∀ target ∈ targets names,
    sourceFilePath (format.remoteName target) =
      some (format.remoteName target)
  checksum_ne : ∀ target ∈ targets names,
    format.remoteName target ≠ format.getChecksum
  apart : ∀ target ∈ targets names, ∀ other ∈ targets names,
    format.remoteName target = format.remoteName other → target = other

/-- The files of a package as they are found under their names. -/
structure Holds (format : Format) (names : List SourceId)
    (library : Library File) (files : PackageFiles File Archive) :
    Prop where
  checksum : files.checksum = library format.getChecksum
  target : ∀ target ∈ targets names,
    files.file target = library (format.remoteName target)

variable {setting : Setting File Archive Tree} {names : List SourceId}
  {library fetched : Library File} {remote : String → Option File}

theorem Holds.setFile {format : Format} {files : PackageFiles File Archive}
    (holds : Holds format names library files) (named : Named format names)
    {target : Target} (member : target ∈ targets names) (file : File) :
    Holds format names
      (Function.update library (format.remoteName target) (some file))
      (files.setFile (some file) target) := by
  constructor
  · rw [PackageFiles.checksum_setFile, holds.checksum,
      Function.update_of_ne (named.checksum_ne target member).symm]
  · intro other otherMember
    by_cases same : other = target
    · subst same
      simp
    · rw [PackageFiles.file_setFile_of_ne same,
        holds.target other otherMember, Function.update_of_ne]
      intro sameName
      exact same (named.apart other otherMember target member sameName)

theorem Holds.setChecksum {format : Format}
    {files : PackageFiles File Archive}
    (holds : Holds format names library files) (named : Named format names)
    (file : File) :
    Holds format names
      (Function.update library format.getChecksum (some file))
      { files with checksum := some file } := by
  constructor
  · simp
  · intro target member
    rw [Function.update_of_ne (named.checksum_ne target member)]
    have kept := holds.target target member
    cases target with
    | index => exact kept
    | source _ => exact kept

/-! ## The distributor -/

theorem updateFile_refines
    (quiet : ∀ time, setting.faults.aborts time = false)
    (same : setting.externals = publisher.toExternals)
    (served : ∀ name, setting.resource package name = remote name)
    (named : Named setting.format names) {target : Target}
    (member : target ∈ targets names) {checksum : Checksum}
    (holds : Holds setting.format names library
      (machine.cache.files package))
    (updated : updateFile publisher remote (setting.format.remoteName target)
      (setting.format.remoteName target) checksum library = some fetched) :
    Ensures (Pm.updateFile setting package target checksum) machine
      (fun _ final => Holds setting.format names fetched
        (final.cache.files package)) Impossible := by
  have here := holds.target target member
  simp only [Pm.updateFile, fileOutdated, ensures_bind]
  apply query_succeeds (outdated publisher library
    (setting.format.remoteName target) checksum) quiet
  · rw [here, same, outdated]
    cases library (setting.format.remoteName target) <;> rfl
  unfold updateFile at updated
  split at updated
  · rename_i needed
    simp only [Option.bind_eq_bind, Option.bind_eq_some_iff] at updated
    obtain ⟨file, found, checked⟩ := updated
    simp only [needed, if_true, ensures_bind]
    apply perform_succeeds () (machine.cache.update package fun files =>
      files.setFile (some file) target) quiet
    · simp [served, found]
    · simp only [outdated, Function.update_self] at checked
      split at checked
      · cases checked
      · rename_i agrees
        cases checked
        apply query_succeeds () quiet
        · have matching : publisher.checksum file = checksum := by
            simpa using agrees
          simp [same, matching]
        · rw [Cache.files_update_self]
          exact holds.setFile named member file
  · rename_i current
    cases updated
    simp only [current]
    exact holds

/-- The checksum that is read by name is the one the distributor reads. -/
theorem expectedChecksum_refines
    (quiet : ∀ time, setting.faults.aborts time = false)
    (same : setting.externals = publisher.toExternals)
    (named : Named setting.format names) (target : Target)
    {entry : SnapshotEntry} {checksum : Checksum}
    {normal : Checksum → Machine File Archive → Prop}
    (holds : Holds setting.format names library
      (machine.cache.files package))
    (read : readChecksum publisher setting.format library = some entry)
    (found : entry.lookup (setting.format.checksumName target) =
      some checksum)
    (next : normal checksum
      { machine with clock := machine.clock + 1 }) :
    Ensures (expectedChecksum setting package target) machine normal
      Impossible := by
  apply query_succeeds checksum quiet _ next
  simp only [readChecksum, named.checksum, Option.bind_eq_bind,
    Option.bind_some, Option.bind_eq_some_iff] at read
  obtain ⟨file, stored, parsed⟩ := read
  simp [Cache.checksumOf, holds.checksum, stored, same, parsed, found]

theorem updateMeta_refines
    (quiet : ∀ time, setting.faults.aborts time = false)
    (same : setting.externals = publisher.toExternals)
    (served : ∀ name, setting.resource package name = remote name)
    (named : Named setting.format names)
    (holds : Holds setting.format names library
      (machine.cache.files package))
    (updated : updateMeta publisher setting.format remote library =
      some fetched) :
    Ensures (Pm.updateMeta setting package) machine
      (fun _ final => Holds setting.format names fetched
        (final.cache.files package)) Impossible := by
  have member : Target.index ∈ targets names := List.mem_cons_self
  simp only [updateMeta, named.checksum, Option.bind_eq_bind,
    Option.bind_some, Option.bind_eq_some_iff] at updated
  obtain ⟨checksumFile, found, path, indexPath, entry, read, checksum,
    listed, updated⟩ := updated
  have indexName := indexPath.symm.trans (named.target .index member)
  cases indexName
  simp only [Pm.updateMeta, logLine, ensures_bind, ensures_modify]
  apply query_succeeds checksumFile quiet
  · rw [served, found]
  · apply perform_succeeds () _ quiet rfl
    have stored := holds.setChecksum named checksumFile
    apply expectedChecksum_refines quiet same named .index _ read listed
    · apply updateFile_refines quiet same served named member _ updated
      rw [Cache.files_update_self]
      exact stored
    · rw [Cache.files_update_self]
      exact stored

theorem updateSource_refines
    (quiet : ∀ time, setting.faults.aborts time = false)
    (same : setting.externals = publisher.toExternals)
    (served : ∀ name, setting.resource package name = remote name)
    (named : Named setting.format names) {srcName : SourceId}
    (member : srcName ∈ names)
    (holds : Holds setting.format names library
      (machine.cache.files package))
    (updated : updateSource publisher setting.format remote library srcName =
      some fetched) :
    Ensures (do
        let checksum ← expectedChecksum setting package (.source srcName)
        Pm.updateFile setting package (.source srcName) checksum) machine
      (fun _ final => Holds setting.format names fetched
        (final.cache.files package)) Impossible := by
  have target : Target.source srcName ∈ targets names := by
    simp [targets, member]
  simp only [updateSource, Option.bind_eq_bind,
    Option.bind_eq_some_iff] at updated
  obtain ⟨path, accepted, entry, read, checksum, listed, updated⟩ := updated
  have itself : sourceFilePath (srcName ++ setting.format.archiveSuffix) =
      some (srcName ++ setting.format.archiveSuffix) :=
    named.target (.source srcName) target
  have pathName := accepted.symm.trans itself
  cases pathName
  rw [ensures_bind]
  apply expectedChecksum_refines quiet same named (.source srcName) holds
    read listed
  exact updateFile_refines quiet same served named target holds updated

theorem foldlM_updateSource_refines {sources : List SourceId}
    (quiet : ∀ time, setting.faults.aborts time = false)
    (same : setting.externals = publisher.toExternals)
    (served : ∀ name, setting.resource package name = remote name)
    (named : Named setting.format names)
    (covered : ∀ srcName ∈ sources, srcName ∈ names)
    (holds : Holds setting.format names library
      (machine.cache.files package))
    (updated : sources.foldlM
      (updateSource publisher setting.format remote) library =
        some fetched) :
    Ensures (sources.foldlM (fun _ srcName => do
        let checksum ← expectedChecksum setting package (.source srcName)
        Pm.updateFile setting package (.source srcName) checksum) ()) machine
      (fun _ final => Holds setting.format names fetched
        (final.cache.files package)) Impossible := by
  induction sources generalizing library machine with
  | nil =>
      cases updated
      exact holds
  | cons srcName sources ih =>
      simp only [List.foldlM_cons, Option.bind_eq_bind,
        Option.bind_eq_some_iff] at updated
      obtain ⟨middle, first, rest⟩ := updated
      rw [List.foldlM_cons, ensures_bind]
      have step := updateSource_refines quiet same served named
        (covered srcName (by simp)) holds first
      apply step.mono
      · intro _ next reached
        exact ih (fun other member => covered other (by simp [member]))
          reached rest
      · exact fun _ _ impossible => impossible

theorem updateSources_refines {index : Index}
    (quiet : ∀ time, setting.faults.aborts time = false)
    (same : setting.externals = publisher.toExternals)
    (served : ∀ name, setting.resource package name = remote name)
    (named : Named setting.format names)
    (read : readIndex publisher setting.format package library = some index)
    (covered : ∀ srcName ∈ index.sources, srcName ∈ names)
    (holds : Holds setting.format names library
      (machine.cache.files package))
    (updated : updateSources publisher setting.format package remote
      library = some fetched) :
    Ensures (Pm.updateSources setting package) machine
      (fun _ final => Holds setting.format names fetched
        (final.cache.files package)) Impossible := by
  have member : Target.index ∈ targets names := List.mem_cons_self
  have indexed : machine.cache.indexOf setting.externals package =
      some index := by
    have known := read
    simp only [readIndex, Option.bind_eq_bind,
      Option.bind_eq_some_iff] at known
    obtain ⟨path, accepted, file, stored, parsed, parses, known⟩ := known
    have pathName := accepted.symm.trans (named.target .index member)
    cases pathName
    have here := holds.target .index member
    simp only [PackageFiles.file] at here
    simp only [Cache.indexOf, here, stored, same, parses,
      Option.bind_eq_bind, Option.bind_some]
    exact known
  simp only [Pm.updateSources, logLine, ensures_bind, ensures_modify]
  apply query_succeeds index quiet indexed
  simp only [updateSources, read, Option.bind_eq_bind,
    Option.bind_some] at updated
  exact foldlM_updateSource_refines quiet same served named covered holds
    updated

/-! ## Into the cache -/

theorem Clear.named {keeps : String → Prop} {format : Format} {strip : Bool}
    (clear : Clear keeps format strip names) (plain : Plain format names) :
    Named format names := by
  have index_ne : ∀ srcName ∈ names,
      srcName ++ format.archiveSuffix ≠ "index" := by
    intro srcName member same
    apply clear.index_ne srcName member
    rw [sourceFilePath_plain (plain srcName member), same]
  have checksum_ne : ∀ srcName ∈ names,
      srcName ++ format.archiveSuffix ≠ "checksum" := by
    intro srcName member same
    apply clear.checksum_ne srcName member
    rw [sourceFilePath_plain (plain srcName member), same]
  have indexName := getIndex_default clear.index
  have checksumName := getChecksum_default clear.index
  constructor
  case checksum =>
    rw [checksumName]
    exact sourceFilePath_plain (by decide)
  case target =>
    intro target member
    apply sourceFilePath_plain
    cases target with
    | index =>
        rw [Format.remoteName, indexName]
        decide
    | source srcName =>
        exact plain srcName (by simpa [targets] using member)
  case checksum_ne =>
    intro target member
    rw [checksumName]
    cases target with
    | index =>
        rw [Format.remoteName, indexName]
        decide
    | source srcName =>
        exact checksum_ne srcName (by simpa [targets] using member)
  case apart =>
    intro target member other otherMember same
    cases target with
    | index =>
        cases other with
        | index => rfl
        | source srcName =>
            rw [Format.remoteName, indexName] at same
            exact absurd same.symm (index_ne srcName
              (by simpa [targets] using otherMember))
    | source srcName =>
        cases other with
        | index =>
            rw [Format.remoteName, Format.remoteName, indexName] at same
            exact absurd same (index_ne srcName
              (by simpa [targets] using member))
        | source second =>
            rw [append_suffix_injective same]

/-- What `create` made ready is in the cache after an update from an empty
one. -/
theorem created_cached {source : List String} {strip : Bool}
    {disk final : Disk String File} {keeps : String → Prop}
    (sound : publisher.Sound keeps)
    (created : create publisher setting.format source strip disk =
      some final)
    (clear : Clear keeps setting.format strip
      (declared publisher setting.format source disk))
    (plain : Plain setting.format
      (declared publisher setting.format source disk))
    (quiet : ∀ time, setting.faults.aborts time = false)
    (same : setting.externals = publisher.toExternals)
    (served : ∀ name,
      setting.resource package name = published source final name)
    (start : Machine File Archive) (empty : start.cache = .empty) :
    Ensures (do
        Pm.updateMeta setting package
        Pm.updateSources setting package) start
      (fun _ final' =>
        ∀ target ∈ targets (declared publisher setting.format source disk),
          (final'.cache.files package).file target =
            published source final (setting.format.remoteName target))
      Impossible := by
  obtain ⟨indexFile, index, listing, packed, written, steps⟩ :=
    create_spec created
  rw [declared_eq steps.found steps.parsed] at clear plain ⊢
  have named := clear.named plain
  obtain ⟨middle, library, met, read, updated, indexAt, archives⟩ :=
    steps.fetched sound clear plain.alone package
  have holds : Holds setting.format index.sources
      (fun _ => (none : Option File)) (start.cache.files package) := by
    rw [empty]
    constructor
    · rfl
    · intro target _
      cases target <;> rfl
  rw [ensures_bind]
  apply (updateMeta_refines quiet same served named holds met).mono
  · intro _ next reached
    apply (updateSources_refines quiet same served named read
      (fun _ member => member) reached updated).mono
    · intro _ last complete target member
      rw [complete.target target member]
      cases target with
      | index =>
          rw [Format.remoteName, getIndex_default clear.index, indexAt,
            steps.final_index clear]
      | source srcName =>
          have inside : srcName ∈ index.sources := by
            simpa [targets] using member
          have found := archives srcName inside
          rw [stored, sourceFilePath_plain (plain srcName inside)] at found
          exact found
    · exact fun _ _ impossible => impossible
  · exact fun _ _ impossible => impossible

end Bacs.Pm.Publishing
