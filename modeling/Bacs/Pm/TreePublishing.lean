import Bacs.Pm.TreeWalking

/-!
# Publishing a tree of package directories

The packages of a tree do not disturb one another, and the order of the
directories does not matter.
-/

namespace Bacs.Pm.Publishing

open LexicalPath Disk

section Trees

variable {File Archive Tree : Type}
  {publisher : Publisher File Archive Tree} {format : Format}
  {keeps : String → Prop} {strip : Bool}
  {disk final first second : Disk String File} {root place : List String}
  {index : Index}

/-! ## The whole tree -/

/-- Every package is created as if it were alone, and nothing else
changes. -/
structure TreeCreated (publisher : Publisher File Archive Tree)
    (format : Format) (strip : Bool) (root : List String)
    (disk final : Disk String File) : Prop where
  package : ∀ place, PackageAt publisher format disk root place →
    ∃ done, create publisher format place strip disk = some done ∧
      ∀ other, Owns publisher format disk place other →
        final.node other = done.node other
  frame : ∀ other,
    (∀ place, PackageAt publisher format disk root place →
      ¬ Owns publisher format disk place other) →
    final.node other = disk.node other

/-- Each package of the tree can be created. -/
structure Creatable (publisher : Publisher File Archive Tree)
    (format : Format) (strip : Bool) (root : List String)
    (disk : Disk String File) : Prop where
  directory : disk.isDirectory root = true
  package : ∀ place, PackageAt publisher format disk root place →
    (create publisher format place strip disk).isSome

/-- An operation creates the packages of the tree whenever that is
possible. -/
structure Publishes (publisher : Publisher File Archive Tree)
    (format : Format) (strip : Bool) (root : List String)
    (disk : Disk String File) (outcome : Option (Disk String File)) :
    Prop where
  succeeds : outcome.isSome ↔ Creatable publisher format strip root disk
  creates : ∀ final, outcome = some final →
    TreeCreated publisher format strip root disk final

theorem Creatable.congr (sound : publisher.Sound keeps)
    (unconfigured : format.index = none) {fuel : Nat}
    (walkable : Walkable publisher format keeps strip fuel second root)
    (agree : Agree root first second)
    (creatable : Creatable publisher format strip root first) :
    Creatable publisher format strip root second := by
  constructor
  · rw [← agree.isDirectory List.prefix_rfl]
    exact creatable.directory
  · intro place package
    have keepsTo := create_keepsTo sound unconfigured
      fun index found => walkable.tidy place index package found
    rw [keepsTo.isSome (agree_within agree package.reached.within).symm]
    exact creatable.package place (package.congr unconfigured agree.symm)

theorem keepsTo_of_publishes (sound : publisher.Sound keeps)
    (unconfigured : format.index = none) {fuel : Nat}
    {step : Disk String File → Option (Disk String File)}
    (publishes : ∀ disk, Walkable publisher format keeps strip fuel disk root →
      Publishes publisher format strip root disk (step disk))
    (walkable : Walkable publisher format keeps strip fuel disk root) :
    KeepsTo root disk step := by
  constructor
  · intro first second here there
    have agree := here.symm.trans there
    have walkFirst := walkable.congr unconfigured here
    have walkSecond := walkable.congr unconfigured there
    have one := publishes first walkFirst
    have two := publishes second walkSecond
    have same : (step first).isSome ↔ (step second).isSome := by
      rw [one.succeeds, two.succeeds]
      constructor
      · exact Creatable.congr sound unconfigured walkSecond agree
      · exact Creatable.congr sound unconfigured walkFirst agree.symm
    cases before : step first with
    | none =>
        cases after : step second with
        | none => exact Option.Rel.none
        | some final => simp [before, after] at same
    | some early =>
        cases after : step second with
        | none => simp [before, after] at same
        | some late =>
            apply Option.Rel.some
            intro names
            have earlier := one.creates early before
            have later := two.creates late after
            by_cases owned : ∃ place,
                PackageAt publisher format first root place ∧
                  Owns publisher format first place (root ++ names)
            · obtain ⟨place, package, owns⟩ := owned
              have alike := agree_within agree package.reached.within
              obtain ⟨done, created, written⟩ :=
                earlier.package place package
              obtain ⟨other, creates, writes⟩ :=
                later.package place (package.congr unconfigured agree)
              have keepsTo := create_keepsTo sound unconfigured
                fun index found => walkFirst.tidy place index package found
              rw [written _ owns,
                writes _ ((owns_agree unconfigured alike).mp owns)]
              exact (keepsTo.agree alike created creates).node owns.within
            · rw [earlier.frame _ fun place package owns =>
                  owned ⟨place, package, owns⟩,
                later.frame _ fun place package owns =>
                  owned ⟨place, package.congr unconfigured agree.symm,
                    (owns_agree unconfigured (agree_within agree.symm
                      package.reached.within)).mp owns⟩]
              exact agree names
  · intro first final here took elsewhere outside
    apply ((publishes first
      (walkable.congr unconfigured here)).creates final took).frame
    intro place package owns
    exact outside (package.reached.within.trans owns.within)

theorem keepsTo_visitEntry
    {recurse : List String → Disk String File → Option (Disk String File)}
    {ignore : List String} {name : String}
    (keeps : disk.isDirectory (root ++ [name]) = true → name ∉ ignore →
      KeepsTo (root ++ [name]) disk (recurse (root ++ [name]))) :
    KeepsTo (root ++ [name]) disk (visitEntry recurse root ignore name) := by
  by_cases visited :
      disk.isDirectory (root ++ [name]) = true ∧ name ∉ ignore
  · have entered := keeps visited.1 visited.2
    have takes : ∀ other, Agree (root ++ [name]) disk other →
        visitEntry recurse root ignore name other =
          recurse (root ++ [name]) other := by
      intro other agree
      rw [visitEntry, ← agree.isDirectory List.prefix_rfl, if_pos visited]
    constructor
    · intro first second here there
      rw [takes first here, takes second there]
      exact entered.same first second here there
    · intro first final here took
      rw [takes first here] at took
      exact entered.frame first final here took
  · have skips : ∀ other, Agree (root ++ [name]) disk other →
        visitEntry recurse root ignore name other = some other := by
      intro other agree
      rw [visitEntry, ← agree.isDirectory List.prefix_rfl, if_neg visited]
    constructor
    · intro first second here there
      rw [skips first here, skips second there]
      exact Option.Rel.some (here.symm.trans there)
    · intro first final here took
      rw [skips first here] at took
      cases took
      exact fun _ _ => rfl

section Recursion

variable {listing : Listing String File} {next : Disk String File}
  {ignore : List String} {fuel : Nat}

/-- The entries that are visited are directories of both disks. -/
theorem Entered.visited
    (entered : Entered publisher format strip root disk next ignore)
    {name : String} (directory : next.isDirectory (root ++ [name]) = true)
    (kept : name ∉ ignore) :
    disk.isDirectory (root ++ [name]) = true ∧
      name ∉ ignored publisher format disk root ∧
      Agree (root ++ [name]) disk next :=
  ⟨(entered.directory_iff kept).mp directory,
    entered.ignoring ▸ kept,
    entered.agree kept (.inr (Disk.isDirectory_iff.mp directory))⟩

theorem Entered.creatable_iff (sound : publisher.Sound keeps)
    (unconfigured : format.index = none)
    (walkable : Walkable publisher format keeps strip (fuel + 1) disk root)
    (entered : Entered publisher format strip root disk next ignore)
    (directory : disk.isDirectory root = true) :
    Creatable publisher format strip root disk ↔
      ∀ name, next.isDirectory (root ++ [name]) = true → name ∉ ignore →
        Creatable publisher format strip (root ++ [name]) next := by
  constructor
  · intro creatable name there kept
    obtain ⟨here, unignored, agree⟩ := entered.visited there kept
    have inside := walkable.entry here unignored
    apply Creatable.congr sound unconfigured
      (inside.congr unconfigured agree) agree
    refine ⟨here, fun place package => ?_⟩
    exact creatable.package place (package.enter here unignored)
  · intro each
    refine ⟨directory, fun place package => ?_⟩
    rcases package.cases with rfl | ⟨name, here, unignored, below⟩
    · rw [entered.created package.index]
      rfl
    · have kept : name ∉ ignore := entered.ignoring ▸ unignored
      have there := (entered.directory_iff kept).mpr here
      obtain ⟨_, _, agree⟩ := entered.visited there kept
      exact (Creatable.congr sound unconfigured
        (walkable.entry here unignored) agree.symm
        (each name there kept)).package place below

theorem Entered.created_entry {name : String}
    (unconfigured : format.index = none)
    (walkable : Walkable publisher format keeps strip (fuel + 1) disk root)
    (entered : Entered publisher format strip root disk next ignore)
    {recurse : List String → Disk String File → Option (Disk String File)}
    {names : List String}
    (publishes : ∀ name disk,
      Walkable publisher format keeps strip fuel disk (root ++ [name]) →
      Publishes publisher format strip (root ++ [name]) disk
        (recurse (root ++ [name]) disk))
    (listed : ∀ name, name ∈ names ↔ (next.node (root ++ [name])).isSome)
    (visits : Entrywise root names (visitEntry recurse root ignore) next
      final)
    (there : next.isDirectory (root ++ [name]) = true)
    (kept : name ∉ ignore) :
    ∃ done, Agree (root ++ [name]) done final ∧
      TreeCreated publisher format strip (root ++ [name]) next done := by
  obtain ⟨here, unignored, agree⟩ := entered.visited there kept
  have member : name ∈ names := by
    rw [listed, Disk.isDirectory_iff.mp there]
    rfl
  obtain ⟨done, took, same⟩ := visits.entry name member
  rw [visitEntry, if_pos ⟨there, kept⟩] at took
  have inside := (walkable.entry here unignored).congr unconfigured agree
  exact ⟨done, same, (publishes name next inside).creates done took⟩

theorem node_unvisited
    {recurse : List String → Disk String File → Option (Disk String File)}
    {names other : List String}
    (visits : Entrywise root names (visitEntry recurse root ignore) next
      final)
    (apart : ∀ name, next.isDirectory (root ++ [name]) = true →
      name ∉ ignore → ¬ root ++ [name] <+: other) :
    final.node other = next.node other := by
  by_cases entry : ∃ name ∈ names, root ++ [name] <+: other
  · obtain ⟨name, member, within⟩ := entry
    obtain ⟨done, took, same⟩ := visits.entry name member
    rw [visitEntry, if_neg fun visited =>
      apart name visited.1 visited.2 within] at took
    cases took
    exact (same.node within).symm
  · push Not at entry
    exact visits.frame other entry

/-- After its own package, the entries of a directory are visited one by
one. -/
theorem Entered.treeCreated (sound : publisher.Sound keeps)
    (unconfigured : format.index = none)
    (walkable : Walkable publisher format keeps strip (fuel + 1) disk root)
    (entered : Entered publisher format strip root disk next ignore)
    {recurse : List String → Disk String File → Option (Disk String File)}
    {names : List String}
    (publishes : ∀ name disk,
      Walkable publisher format keeps strip fuel disk (root ++ [name]) →
      Publishes publisher format strip (root ++ [name]) disk
        (recurse (root ++ [name]) disk))
    (listed : ∀ name, name ∈ names ↔ (next.node (root ++ [name])).isSome)
    (visits : Entrywise root names (visitEntry recurse root ignore) next
      final) :
    TreeCreated publisher format strip root disk final := by
  constructor
  · intro place package
    rcases package.cases with rfl | ⟨name, here, unignored, below⟩
    · refine ⟨next, entered.created package.index, fun other owned => ?_⟩
      apply node_unvisited visits
      intro name there kept within
      exact entered.foreign name kept
        (.inr (Disk.isDirectory_iff.mp there)) other within owned
    · have kept : name ∉ ignore := entered.ignoring ▸ unignored
      have there := (entered.directory_iff kept).mpr here
      obtain ⟨_, _, agree⟩ := entered.visited there kept
      obtain ⟨done, same, tree⟩ := entered.created_entry unconfigured
        walkable publishes listed visits there kept
      obtain ⟨late, creates, writes⟩ :=
        tree.package place (below.congr unconfigured agree)
      have alike := agree_within agree below.reached.within
      have keepsTo : KeepsTo place disk
          (create publisher format place strip) :=
        create_keepsTo sound unconfigured
          fun index found => walkable.tidy place index package found
      obtain ⟨early, took, near⟩ :=
        (keepsTo.congr alike).transfer alike.symm creates
      refine ⟨early, took, fun other owned => ?_⟩
      rw [← same.node (below.reached.within.trans owned.within),
        writes other ((owns_agree unconfigured alike).mp owned)]
      exact near.node owned.within
  · intro other apart
    have beside : next.node other = disk.node other := by
      apply entered.frame
      intro owned
      by_cases present :
          (disk.file? (locate root format.getIndex)).isSome = true
      · exact apart root ⟨.root, present⟩ owned
      · exact not_owns_of_absent (Option.not_isSome_iff_eq_none.mp present)
          other owned
    rw [← beside]
    by_cases entry : ∃ name, next.isDirectory (root ++ [name]) = true ∧
        name ∉ ignore ∧ root ++ [name] <+: other
    · obtain ⟨name, there, kept, within⟩ := entry
      obtain ⟨here, unignored, agree⟩ := entered.visited there kept
      obtain ⟨done, same, tree⟩ := entered.created_entry unconfigured
        walkable publishes listed visits there kept
      rw [← same.node within]
      apply tree.frame
      intro place package owned
      have before := package.congr unconfigured agree.symm
      apply apart place (before.enter here unignored)
      exact (owns_agree unconfigured
        (agree_within agree package.reached.within)).mpr owned
    · apply node_unvisited visits
      intro name there kept within
      exact entry ⟨name, there, kept, within⟩

theorem publishes_none
    (hopeless : ¬ Creatable publisher format strip root disk) :
    Publishes publisher format strip root disk none := by
  constructor
  · constructor
    · intro succeeds
      cases succeeds
    · intro creatable
      exact absurd creatable hopeless
  · intro final took
    cases took

/-- The entries of a directory are visited after its own package. -/
theorem Entered.publishes (sound : publisher.Sound keeps)
    (unconfigured : format.index = none)
    (walkable : Walkable publisher format keeps strip (fuel + 1) disk root)
    (entered : Entered publisher format strip root disk next ignore)
    (directory : disk.isDirectory root = true)
    {recurse : List String → Disk String File → Option (Disk String File)}
    (publishes : ∀ name disk,
      Walkable publisher format keeps strip fuel disk (root ++ [name]) →
      Publishes publisher format strip (root ++ [name]) disk
        (recurse (root ++ [name]) disk)) :
    Publishes publisher format strip root disk
      ((listing.list next root).foldlM (fun disk name =>
        visitEntry recurse root ignore name disk) next) := by
  have listed := listing.mem_list next root (entered.finite walkable.finite)
  have distinct := listing.nodup next root
  have inside : ∀ name, next.isDirectory (root ++ [name]) = true →
      name ∉ ignore →
      Walkable publisher format keeps strip fuel next (root ++ [name]) := by
    intro name there kept
    obtain ⟨before, unignored, agree⟩ := entered.visited there kept
    exact (walkable.entry before unignored).congr unconfigured agree
  have keeps : ∀ name ∈ listing.list next root,
      KeepsTo (root ++ [name]) next (visitEntry recurse root ignore name) := by
    intro name member
    apply keepsTo_visitEntry
    intro there kept
    exact keepsTo_of_publishes sound unconfigured (publishes name)
      (inside name there kept)
  constructor
  · rw [isSome_foldlM_iff distinct keeps,
      entered.creatable_iff sound unconfigured walkable directory]
    constructor
    · intro each name there kept
      have member := (listed name).mpr (by
        rw [Disk.isDirectory_iff.mp there]
        rfl)
      apply (publishes name next (inside name there kept)).succeeds.mp
      have visits := each name member
      rwa [visitEntry, if_pos ⟨there, kept⟩] at visits
    · intro each name member
      rw [visitEntry]
      split
      · rename_i visited
        obtain ⟨there, kept⟩ := visited
        exact (publishes name next (inside name there kept)).succeeds.mpr
          (each name there kept)
      · rfl
  · intro final took
    exact entered.treeCreated sound unconfigured walkable publishes listed
      (entrywise_of_foldlM distinct keeps took)

theorem createRecursively_publishes (sound : publisher.Sound keeps)
    (unconfigured : format.index = none)
    (walkable : Walkable publisher format keeps strip fuel disk root) :
    Publishes publisher format strip root disk
      (createRecursively publisher format listing strip fuel root disk) := by
  induction fuel generalizing disk root with
  | zero =>
      apply publishes_none
      intro creatable
      have short := walkable.shallow [] (by
        rw [List.append_nil, Disk.isDirectory_iff.mp creatable.directory]
        rfl)
      exact Nat.not_lt_zero _ short
  | succ fuel ih =>
      rw [createRecursively]
      cases here : createHere publisher format strip root disk with
      | none =>
          apply publishes_none
          intro creatable
          have possible := (createHere_isSome_iff walkable.here).mpr
            fun present => creatable.package root ⟨.root, present⟩
          rw [here] at possible
          cases possible
      | some result =>
          obtain ⟨next, ignore⟩ := result
          have entered := entered_of_createHere sound walkable.here here
          simp only [Option.bind_eq_bind, Option.bind_some,
            entered.root_directory]
          by_cases directory : disk.isDirectory root = true
          · rw [if_pos directory]
            exact entered.publishes sound unconfigured walkable directory
              fun name disk inside => ih inside
          · rw [if_neg directory]
            apply publishes_none
            exact fun creatable => directory creatable.directory

end Recursion

/-! ## Fetching from the tree -/

section Fetching

variable {remote elsewhere : String → Option File} {library : Library File}
  {package : Entry}

theorem updateMeta_congr
    (checksum : remote format.getChecksum = elsewhere format.getChecksum)
    (index : remote format.getIndex = elsewhere format.getIndex) :
    updateMeta publisher format remote library =
      updateMeta publisher format elsewhere library := by
  unfold updateMeta updateFile
  rw [checksum, index]

theorem updateSources_congr {index : Index}
    (read : readIndex publisher format package library = some index)
    (same : ∀ srcName ∈ index.sources,
      remote (srcName ++ format.archiveSuffix) =
        elsewhere (srcName ++ format.archiveSuffix)) :
    updateSources publisher format package remote library =
      updateSources publisher format package elsewhere library := by
  have fold : ∀ (names : List SourceId) (library : Library File),
      (∀ srcName ∈ names, remote (srcName ++ format.archiveSuffix) =
        elsewhere (srcName ++ format.archiveSuffix)) →
      names.foldlM (updateSource publisher format remote) library =
        names.foldlM (updateSource publisher format elsewhere) library := by
    intro names
    induction names with
    | nil => exact fun _ _ => rfl
    | cons srcName names ih =>
        intro library same
        have step : updateSource publisher format remote library srcName =
            updateSource publisher format elsewhere library srcName := by
          simp only [updateSource, updateFile,
            same srcName List.mem_cons_self]
        rw [List.foldlM_cons, List.foldlM_cons, step]
        congr 1
        funext next
        exact ih next fun other member =>
          same other (List.mem_cons_of_mem _ member)
  unfold updateSources
  rw [read]
  exact fold index.sources library same

/-- A package is fetched alike from all that has the same files. -/
theorem Created.roundTrip_of_same {done : Disk String File}
    {indexFile : File} {listing : SnapshotEntry}
    {packed written : Disk String File}
    (created : Created publisher format place strip disk done indexFile index
      listing packed written)
    (sound : publisher.Sound keeps)
    (clear : Clear keeps format strip index.sources)
    (alone : Alone index.sources)
    (indexAlike : published place final format.getIndex =
      published place done format.getIndex)
    (checksumAlike : published place final format.getChecksum =
      published place done format.getChecksum)
    (archives : ∀ srcName ∈ index.sources,
      published place final (srcName ++ format.archiveSuffix) =
        published place done (srcName ++ format.archiveSuffix))
    (package : Entry) :
    RoundTrip publisher format place package disk final := by
  have trip := created.roundTrip sound clear alone package
  have names := declared_eq created.found created.parsed
  constructor
  case unchanged => exact indexAlike.trans trip.unchanged
  case named => exact trip.named
  case listed =>
    obtain ⟨file, entry, other, checksumAt, parsed, indexAt, lookup,
      listed⟩ := trip.listed
    rw [names] at listed ⊢
    refine ⟨file, entry, other, checksumAlike.trans checksumAt, parsed,
      indexAlike.trans indexAt, lookup, fun srcName member => ?_⟩
    rw [archives srcName member]
    exact listed srcName member
  case fetched =>
    obtain ⟨middle, library, met, read, updated, _, fetched⟩ :=
      created.fetched sound clear alone package
    obtain ⟨_, _, also, sources, indexFetched, _⟩ := trip.fetched
    rw [met] at also
    cases also
    rw [updated] at sources
    cases sources
    refine ⟨middle, library, ?_, ?_, ?_, ?_⟩
    · rw [← met]
      exact updateMeta_congr checksumAlike indexAlike
    · rw [← updated]
      exact updateSources_congr read archives
    · rw [indexAlike]
      exact indexFetched
    · rw [names]
      intro srcName member
      rw [archives srcName member]
      exact fetched srcName member

end Fetching

/-- The packages that were created are fetched as they were declared. -/
theorem TreeCreated.roundTrip (sound : publisher.Sound keeps) {fuel : Nat}
    (walkable : Walkable publisher format keeps strip fuel disk root)
    (tree : TreeCreated publisher format strip root disk final)
    (package : PackageAt publisher format disk root place) (entry : Entry) :
    RoundTrip publisher format place entry disk final := by
  obtain ⟨done, created, writes⟩ := tree.package place package
  obtain ⟨indexFile, index, listing, packed, written, steps⟩ :=
    create_spec created
  have here : indexAt publisher format disk place = some index := by
    rw [indexAt, Disk.file?_eq_some.mpr steps.found]
    exact steps.parsed
  have tidy := walkable.tidy place index package here
  have own : ∀ name ∈ ownNames format index,
      final.file? (place ++ [name]) = done.file? (place ++ [name]) :=
    fun name member => Disk.file?_congr
      (writes _ ⟨index, here, name, member, List.prefix_rfl⟩)
  apply steps.roundTrip_of_same sound tidy.clear tidy.plain.alone
  · rw [published, published, tidy.locate_getIndex]
    exact own _ List.mem_cons_self
  · rw [published, published, tidy.locate_getChecksum]
    exact own _ (List.mem_cons_of_mem _ List.mem_cons_self)
  · intro srcName member
    have placed := tidy.locate_archive sound place member
    rw [archivePlace] at placed
    rw [published, published, placed]
    apply own
    simp only [ownNames, List.mem_cons, List.mem_append, List.mem_map]
    exact .inr (.inr (.inr ⟨srcName, member, rfl⟩))

end Trees

/-! ## A package in the directory of another -/

namespace SampleTree

open Publishing.Sample

def entries : List (List String × Node Document) :=
  [([], .directory),
    (["index"], .file (.index ["main"])),
    (["main"], .directory),
    (["main", "data"], .file (.text 1)),
    (["sub"], .directory),
    (["sub", "index"], .file (.index ["main"])),
    (["sub", "main"], .directory),
    (["sub", "main", "data"], .file (.text 2))]

theorem closed : Disk.Closed entries := by decide +kernel

def disk : Disk String Document := Disk.ofEntries entries closed

theorem index_spec {place : List String} {file : Document}
    (found : disk.file? (locate place standard.getIndex) = some file) :
    (place = [] ∨ place = ["sub"]) ∧ file = .index ["main"] := by
  have named : standard.getIndex = "index" := rfl
  rw [named, locate_index, Disk.file?_eq_some] at found
  have member := Disk.mem_of_ofEntries found
  simp only [entries, List.mem_cons, Prod.mk.injEq, reduceCtorEq, and_false,
    List.not_mem_nil, or_false, false_or] at member
  have apart : place ++ ["index"] ≠ ["main", "data"] ∧
      place ++ ["index"] ≠ ["sub", "main", "data"] := by
    constructor
    · intro same
      have last := congrArg List.getLast? same
      simp at last
    · intro same
      have last := congrArg List.getLast? same
      simp at last
  rcases member with top | data | sub | later
  · refine ⟨.inl ?_, ?_⟩
    · simpa using top.1
    · cases top.2
      rfl
  · exact absurd data.1 apart.1
  · refine ⟨.inr ?_, ?_⟩
    · have same : place ++ ["index"] = ["sub"] ++ ["index"] := sub.1
      exact List.append_cancel_right same
    · cases sub.2
      rfl
  · exact absurd later.1 apart.2

theorem walkable :
    Walkable publisher standard (· ≠ "") true 4 disk [] := by
  constructor
  · exact Disk.finite_ofEntries
  · intro names present
    obtain ⟨node, found⟩ := Option.isSome_iff_exists.mp present
    have member := Disk.mem_of_ofEntries found
    have short : ∀ entry ∈ entries, entry.1.length < 4 := by decide +kernel
    exact short _ member
  · intro place index _ found
    obtain ⟨file, there, parsed⟩ := Option.bind_eq_some_iff.mp found
    obtain ⟨_, same⟩ := index_spec there
    subst same
    cases parsed
    constructor
    · constructor <;> decide +kernel
    · decide +kernel
    · decide +kernel
    · decide +kernel

theorem creatable : Creatable publisher standard true [] disk := by
  constructor
  · decide +kernel
  · intro place package
    obtain ⟨file, there⟩ := Option.isSome_iff_exists.mp package.index
    rcases (index_spec there).1 with same | same
    · rw [same]
      decide +kernel
    · rw [same]
      decide +kernel

end SampleTree

end Bacs.Pm.Publishing
