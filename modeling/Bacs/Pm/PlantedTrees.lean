import Bacs.Pm.TreePublishing

/-!
# Trees of packages that can be created

A tree is made from below: the packages of a directory are its own and those
of its entries.
-/

namespace Bacs.Pm.Publishing

open LexicalPath Disk

variable {File Archive Tree : Type}
  {publisher : Publisher File Archive Tree} {format : Format}
  {keeps : String → Prop} {strip : Bool}
  {disk final first second : Disk String File} {root place : List String}
  {index : Index}

/-! ## Packages that can be created -/

/-- The sources are there, and no directory is in the way of the files that
are made. -/
structure Ready (publisher : Publisher File Archive Tree) (format : Format)
    (disk : Disk String File) (place : List String) (index : Index) :
    Prop where
  found : indexAt publisher format disk place = some index
  source : ∀ srcName ∈ index.sources,
    disk.node (place ++ [srcName]) = some .directory
  archive : ∀ srcName ∈ index.sources,
    disk.node (place ++ [srcName ++ format.archiveSuffix]) ≠
      some .directory
  checksum : disk.node (place ++ ["checksum"]) ≠ some .directory

def Packs (publisher : Publisher File Archive Tree) : Prop :=
  ∀ tree : List String → Option (Node File), tree [] = some .directory →
    (publisher.packFrom tree).isSome

def SameDirectories (first second : Disk String File) : Prop :=
  ∀ other, second.node other = some .directory ↔
    first.node other = some .directory

theorem sameDirectories_write {contents : File}
    (written : disk.write place contents = some final) :
    SameDirectories disk final := by
  intro other
  by_cases here : other = place
  · subst here
    rw [Disk.node_write_self written]
    have free := (Disk.write_spec written).1
    simp [free]
  · rw [Disk.node_write_of_ne written here]

theorem write_isSome {contents : File} {name : String}
    (directory : disk.node place = some .directory)
    (free : disk.node (place ++ [name]) ≠ some .directory) :
    (disk.write (place ++ [name]) contents).isSome := by
  unfold Disk.write
  rw [dif_pos]
  · rfl
  · constructor
    · rw [List.dropLast_concat, Disk.isDirectory_iff]
      exact directory
    · rw [Disk.isDirectory_iff]
      exact free

theorem packSource_isSome (sound : publisher.Sound keeps)
    (packs : Packs publisher) (tidy : Tidy keeps format strip index)
    {srcName : SourceId} (member : srcName ∈ index.sources)
    (directory : disk.node place = some .directory)
    (source : disk.node (place ++ [srcName]) = some .directory)
    (free : disk.node (place ++ [srcName ++ format.archiveSuffix]) ≠
      some .directory) (listing : SnapshotEntry) :
    ∃ next more,
      packSource publisher format place (disk, listing) srcName =
        some (next, more) ∧ SameDirectories disk next := by
  have archive := tidy.locate_archive sound place member
  rw [archivePlace] at archive
  obtain ⟨packed, packing⟩ := Option.isSome_iff_exists.mp
    (packs (disk.below (place ++ [srcName])) (by
      rw [Disk.below_nil]
      exact source))
  have writable : (disk.write
      (place ++ [srcName ++ format.archiveSuffix]) packed).isSome :=
    write_isSome directory free
  obtain ⟨next, written⟩ := Option.isSome_iff_exists.mp writable
  have there := Disk.file?_eq_some.mpr (Disk.node_write_self written)
  refine ⟨next, listing.insert srcName (publisher.checksum packed), ?_,
    sameDirectories_write written⟩
  simp only [packSource, archive, tidy.locate_source sound place member,
    packContents, Disk.isDirectory_iff.mpr source, if_true, packing,
    Option.bind_eq_bind, Option.bind_some, written, there]
  rfl

theorem packSources_isSome (sound : publisher.Sound keeps)
    (packs : Packs publisher) (tidy : Tidy keeps format strip index)
    (ready : Ready publisher format disk place index)
    (directory : disk.node place = some .directory)
    {names : List SourceId} (named : ∀ srcName ∈ names,
      srcName ∈ index.sources) (next : Disk String File)
    (same : SameDirectories disk next) (listing : SnapshotEntry) :
    ∃ final more,
      names.foldlM (packSource publisher format place) (next, listing) =
        some (final, more) ∧ SameDirectories disk final := by
  induction names generalizing next listing with
  | nil => exact ⟨next, listing, rfl, same⟩
  | cons srcName names ih =>
      have member := named srcName List.mem_cons_self
      obtain ⟨middle, more, packed, alike⟩ := packSource_isSome sound packs
        tidy member ((same place).mpr directory)
        ((same _).mpr (ready.source srcName member))
        (fun there => ready.archive srcName member ((same _).mp there))
        listing
      rw [List.foldlM_cons, packed]
      apply ih (fun other later => named other (List.mem_cons_of_mem _ later))
      exact fun other => (alike other).trans (same other)

theorem removeSources_isSome {names : List SourceId}
    (tidy : Tidy keeps format strip index)
    (named : ∀ srcName ∈ names, srcName ∈ index.sources)
    (disk : Disk String File) :
    (names.foldlM (removeSource place) disk).isSome := by
  induction names generalizing disk with
  | nil => rfl
  | cons srcName names ih =>
      have member := named srcName List.mem_cons_self
      have proper : (srcName.toList.splitOn '/').getLast? ≠ some ['.'] := by
        have plain : '/' ∉ srcName.toList := by
          intro separator
          apply tidy.plain srcName member
          simp [separator]
        rw [List.splitOn_eq_singleton plain]
        intro dot
        have same : srcName.toList = ".".toList := by simpa using dot
        exact tidy.here (String.toList_injective same ▸ member)
      rw [List.foldlM_cons, removeSource, if_neg proper]
      exact ih (fun other later =>
        named other (List.mem_cons_of_mem _ later)) _

theorem Ready.create_isSome (ready : Ready publisher format disk place index)
    (sound : publisher.Sound keeps) (packs : Packs publisher)
    (tidy : Tidy keeps format strip index) :
    (create publisher format place strip disk).isSome := by
  obtain ⟨indexFile, there, parsed⟩ :=
    Option.bind_eq_some_iff.mp ready.found
  have directory : disk.node place = some .directory := by
    have present := Disk.file?_eq_some.mp there
    rw [tidy.locate_getIndex] at present
    exact disk.rooted place format.getIndex (by simp [present])
  obtain ⟨packed, listing, packing, same⟩ :=
    packSources_isSome sound packs tidy ready directory
      (fun _ member => member) disk (fun _ => Iff.rfl)
      (Finmap.singleton format.getIndex (publisher.checksum indexFile))
  have free : packed.node (place ++ [format.getChecksum]) ≠
      some .directory := by
    rw [getChecksum_default tidy.clear.index]
    exact fun blocked => ready.checksum ((same _).mp blocked)
  have writable : (packed.write (place ++ [format.getChecksum])
      (publisher.writeChecksum listing)).isSome :=
    write_isSome ((same place).mpr directory) free
  obtain ⟨written, writing⟩ := Option.isSome_iff_exists.mp writable
  unfold create
  simp only [there, parsed, packing, tidy.locate_getChecksum, writing,
    Option.bind_eq_bind, Option.bind_some]
  split
  · exact removeSources_isSome tidy (fun _ member => member) written
  · rfl

/-! ## Trees -/

/-- The packages that are reached from the root are those in the given places,
and each of them can be created. -/
structure Planted (publisher : Publisher File Archive Tree) (format : Format)
    (good : Index → Prop) (root : List String)
    (packages : List (List String)) (disk : Disk String File) : Prop where
  directory : disk.node root = some .directory
  reached : ∀ place, PackageAt publisher format disk root place ↔
    ∃ names ∈ packages, place = root ++ names
  ready : ∀ names ∈ packages, ∃ index,
    Ready publisher format disk (root ++ names) index ∧ good index

section Trees

variable {good : Index → Prop} {packages : List (List String)}
  {children : List (String × List (List String))}

theorem Ready.congr (unconfigured : format.index = none)
    (agree : Agree place first second)
    (ready : Ready publisher format first place index) :
    Ready publisher format second place index := by
  have same (name : String) : second.node (place ++ [name]) =
      first.node (place ++ [name]) :=
    (agree.node (List.prefix_append _ _)).symm
  constructor
  · rw [← indexAt_agree unconfigured agree]
    exact ready.found
  · intro srcName member
    rw [same]
    exact ready.source srcName member
  · intro srcName member
    rw [same]
    exact ready.archive srcName member
  · rw [same]
    exact ready.checksum

theorem Planted.congr (unconfigured : format.index = none)
    (agree : Agree root first second)
    (planted : Planted publisher format good root packages first) :
    Planted publisher format good root packages second := by
  constructor
  · rw [← agree.here]
    exact planted.directory
  · intro place
    rw [← planted.reached place]
    constructor
    · exact PackageAt.congr unconfigured agree.symm
    · exact PackageAt.congr unconfigured agree
  · intro names member
    obtain ⟨index, ready, proper⟩ := planted.ready names member
    exact ⟨index, ready.congr unconfigured
      (agree_within agree (List.prefix_append _ _)), proper⟩

def inEntries (children : List (String × List (List String))) :
    List (List String) :=
  children.flatMap fun child =>
    child.2.map fun names => child.1 :: names

theorem mem_inEntries {names : List String} :
    names ∈ inEntries children ↔ ∃ child ∈ children,
      ∃ rest ∈ child.2, names = child.1 :: rest := by
  simp [inEntries, eq_comm]

/-- The packages of a directory are those of its entries, and it may have one
of its own. -/
theorem planted_of_entries (own : List (List String))
    (directory : disk.node root = some .directory)
    (here : (disk.file? (locate root format.getIndex)).isSome ↔ [] ∈ own)
    (only : ∀ names ∈ own, names = [])
    (ready : ∀ names ∈ own, ∃ index,
      Ready publisher format disk root index ∧ good index)
    (entries : ∀ name, disk.node (root ++ [name]) = some .directory →
      name ∉ ignored publisher format disk root →
      name ∈ children.map (·.1))
    (kept : ∀ name ∈ children.map (·.1),
      name ∉ ignored publisher format disk root)
    (planted : ∀ child ∈ children,
      Planted publisher format good (root ++ [child.1]) child.2 disk) :
    Planted publisher format good root (own ++ inEntries children) disk := by
  have shift (name : String) (names : List String) :
      root ++ name :: names = root ++ [name] ++ names := by simp
  constructor
  · exact directory
  · intro place
    constructor
    · intro package
      rcases package.cases with top | ⟨name, there, unignored, inside⟩
      · refine ⟨[], List.mem_append.mpr (.inl (here.mp ?_)), ?_⟩
        · rw [← top]
          exact package.index
        · rw [top, List.append_nil]
      · obtain ⟨child, among, rfl⟩ := List.mem_map.mp
          (entries name (Disk.isDirectory_iff.mp there) unignored)
        obtain ⟨names, member, same⟩ :=
          ((planted child among).reached place).mp inside
        refine ⟨child.1 :: names, List.mem_append.mpr (.inr ?_), ?_⟩
        · exact mem_inEntries.mpr ⟨child, among, names, member, rfl⟩
        · rw [same, ← shift]
    · intro found
      obtain ⟨names, member, same⟩ := found
      rcases List.mem_append.mp member with mine | inside
      · have top := only names mine
        rw [top, List.append_nil] at same
        subst same
        exact ⟨.root, here.mpr (top ▸ mine)⟩
      · obtain ⟨child, among, rest, later, rfl⟩ := mem_inEntries.mp inside
        have lower := planted child among
        have package := (lower.reached place).mpr
          ⟨rest, later, by rw [same, shift]⟩
        exact package.enter (Disk.isDirectory_iff.mpr lower.directory)
          (kept child.1 (List.mem_map_of_mem among))
  · intro names member
    rcases List.mem_append.mp member with mine | inside
    · rw [only names mine, List.append_nil]
      exact ready names mine
    · obtain ⟨child, among, rest, later, rfl⟩ := mem_inEntries.mp inside
      rw [shift]
      exact (planted child among).ready rest later

theorem planted_passage (unconfigured : format.index = none)
    (directory : disk.node root = some .directory)
    (unindexed : disk.file? (root ++ ["index"]) = none)
    (entries : ∀ name, disk.node (root ++ [name]) = some .directory →
      name ∈ children.map (·.1))
    (planted : ∀ child ∈ children,
      Planted publisher format good (root ++ [child.1]) child.2 disk) :
    Planted publisher format good root (inEntries children) disk := by
  have absent : disk.file? (locate root format.getIndex) = none := by
    rw [getIndex_default unconfigured, locate_index]
    exact unindexed
  have nothing : ignored publisher format disk root = [] := by
    rw [ignored, indexAt, absent]
    rfl
  exact planted_of_entries [] directory (by simp [absent]) (by simp)
    (by simp) (fun name there _ => entries name there)
    (by simp [nothing]) planted

theorem planted_package (unconfigured : format.index = none)
    (directory : disk.node root = some .directory)
    (ready : Ready publisher format disk root index) (proper : good index)
    (entries : ∀ name, disk.node (root ++ [name]) = some .directory →
      name ∈ index.sources ∨ name ∈ children.map (·.1))
    (kept : ∀ name ∈ children.map (·.1),
      name ≠ "index" ∧ name ∉ index.sources)
    (planted : ∀ child ∈ children,
      Planted publisher format good (root ++ [child.1]) child.2 disk) :
    Planted publisher format good root ([] :: inEntries children) disk := by
  have skipped := ignored_eq ready.found
  apply planted_of_entries [[]] directory
  · obtain ⟨file, there, _⟩ := Option.bind_eq_some_iff.mp ready.found
    simp [there]
  · simp
  · intro names _
    exact ⟨index, ready, proper⟩
  · intro name there unignored
    rw [skipped] at unignored
    rcases entries name there with source | child
    · exact absurd (List.mem_cons_of_mem _ source) unignored
    · exact child
  · intro name child inside
    rw [skipped, getIndex_default unconfigured] at inside
    rcases List.mem_cons.mp inside with same | source
    · exact (kept name child).1 same
    · exact (kept name child).2 source
  · exact planted

theorem Planted.congr_mem {others : List (List String)}
    (planted : Planted publisher format good root packages disk)
    (same : ∀ names, names ∈ others ↔ names ∈ packages) :
    Planted publisher format good root others disk := by
  constructor
  · exact planted.directory
  · intro place
    simp only [same]
    exact planted.reached place
  · intro names member
    exact planted.ready names ((same names).mp member)

/-! ## Growing -/

/-- The entries that a directory has so far, with their packages. -/
structure Growing (publisher : Publisher File Archive Tree) (format : Format)
    (good : Index → Prop) (root : List String)
    (children : List (String × List (List String)))
    (disk : Disk String File) : Prop where
  directory : disk.node root = some .directory
  entries : ∀ name, (disk.node (root ++ [name])).isSome →
    name ∈ children.map (·.1)
  planted : ∀ child ∈ children,
    Planted publisher format good (root ++ [child.1]) child.2 disk

theorem Growing.step {name : String}
    (growing : Growing publisher format good root children disk)
    (unconfigured : format.index = none)
    (fresh : name ∉ children.map (·.1))
    (changed : ChangedBelow (root ++ [name]) disk final)
    (planted : Planted publisher format good (root ++ [name]) packages
      final) :
    Growing publisher format good root ((name, packages) :: children)
      final := by
  constructor
  · rw [changed.parent]
    exact growing.directory
  · intro other present
    by_cases same : name = other
    · exact same ▸ List.mem_cons_self
    · rw [← (changed.sibling same).here] at present
      exact List.mem_cons_of_mem _ (growing.entries other present)
  · intro child member
    rcases List.mem_cons.mp member with here | earlier
    · rw [here]
      exact planted
    · have different : name ≠ child.1 := by
        intro same
        exact fresh (same ▸ List.mem_map_of_mem earlier)
      exact (growing.planted child earlier).congr unconfigured
        (changed.sibling different)

theorem Growing.absent {name : String}
    (growing : Growing publisher format good root children disk)
    (fresh : name ∉ children.map (·.1)) :
    disk.node (root ++ [name]) = none := by
  by_contra present
  exact fresh (growing.entries name (Option.isSome_iff_ne_none.mpr present))

/-! ## Creating the packages -/

/-- All packages of the tree are created, and nothing outside of it
changes. -/
theorem Planted.publishes
    (planted : Planted publisher format good root packages disk)
    (sound : publisher.Sound keeps) (packs : Packs publisher)
    (unconfigured : format.index = none) (strip : Bool)
    (tidy : ∀ index, good index → Tidy keeps format strip index)
    (finite : disk.Finite) (listing : Listing String File) :
    ∃ depth, ∀ fuel, depth ≤ fuel → ∃ final,
      createRecursively publisher format listing strip fuel root disk =
        some final ∧
      (∀ names ∈ packages, ∀ package,
        RoundTrip publisher format (root ++ names) package disk final) ∧
      ∀ other, ¬ root <+: other → final.node other = disk.node other := by
  have inside : {names | (disk.node (root ++ names)).isSome}.Finite := by
    apply Set.Finite.preimage _ finite
    intro one _ two _ same
    exact List.append_cancel_left same
  obtain ⟨depth, deepest⟩ := (inside.image List.length).bddAbove
  have bounded : ∀ names, (disk.node (root ++ names)).isSome →
      names.length ≤ depth :=
    fun names present => deepest ⟨names, present, rfl⟩
  have tidyAt : ∀ place index, PackageAt publisher format disk root place →
      indexAt publisher format disk place = some index →
      Tidy keeps format strip index := by
    intro place index package here
    obtain ⟨names, member, rfl⟩ := (planted.reached place).mp package
    obtain ⟨same, ready, proper⟩ := planted.ready names member
    have alike := ready.found.symm.trans here
    exact tidy index (Option.some.inj alike ▸ proper)
  refine ⟨depth + 1, fun fuel enough => ?_⟩
  have walkable : Walkable publisher format keeps strip fuel disk root := by
    constructor
    · exact inside
    · intro names present
      have shallow := bounded names present
      omega
    · exact tidyAt
  have publishes : Publishes publisher format strip root disk
      (createRecursively publisher format listing strip fuel root disk) :=
    createRecursively_publishes sound unconfigured walkable
  have creatable : Creatable publisher format strip root disk := by
    constructor
    · exact Disk.isDirectory_iff.mpr planted.directory
    · intro place package
      obtain ⟨names, member, rfl⟩ := (planted.reached place).mp package
      obtain ⟨index, ready, proper⟩ := planted.ready names member
      exact ready.create_isSome sound packs (tidy index proper)
  obtain ⟨final, created⟩ :=
    Option.isSome_iff_exists.mp (publishes.succeeds.mpr creatable)
  have tree := publishes.creates final created
  refine ⟨final, created, ?_, ?_⟩
  · intro names member package
    exact tree.roundTrip sound walkable
      ((planted.reached _).mpr ⟨names, member, rfl⟩) package
  · intro other outside
    apply tree.frame
    intro place package owned
    exact outside (package.reached.within.trans owned.within)

end Trees

end Bacs.Pm.Publishing
