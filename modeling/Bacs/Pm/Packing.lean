import Bacs.Pm.Publishing

/-!
# Creating a source package

`create` packs the sources one by one, writes the checksum file and may
remove the sources.  What each of the published files is in the end depends
on which of their places coincide.
-/

namespace Bacs.Pm.Publishing

open LexicalPath

variable {File Archive Tree : Type}
  {publisher : Publisher File Archive Tree} {format : Format}
  {source : List String} {disk final : Disk String File}
  {entry listing : SnapshotEntry} {names : List SourceId}

/-! ## Packing -/

def IsArchive (publisher : Publisher File Archive Tree) (file : File) : Prop :=
  ∃ tree, publisher.packFrom tree = some file

def archivePlace (format : Format) (source : List String)
    (srcName : SourceId) : List String :=
  locate source (srcName ++ format.archiveSuffix)

theorem packSource_spec {srcName : SourceId}
    (packed : packSource publisher format source (disk, entry) srcName =
      some (final, listing)) :
    disk.node (locate source srcName) = some .directory ∧
      ∃ file, publisher.packFrom (disk.below (locate source srcName)) =
          some file ∧
        disk.write (archivePlace format source srcName) file = some final ∧
        listing = entry.insert srcName (publisher.checksum file) := by
  simp only [packSource, packContents, Option.bind_eq_bind,
    Option.bind_eq_some_iff] at packed
  obtain ⟨middle, written, file, reread, same⟩ := packed
  cases same
  split at written
  · rename_i inside
    simp only [Option.bind_eq_some_iff] at written
    obtain ⟨made, archived, written⟩ := written
    rw [Disk.file?_eq_some, Disk.node_write_self written] at reread
    cases reread
    exact ⟨Disk.isDirectory_iff.mp inside, _, archived, written, rfl⟩
  · cases written

structure Packed (publisher : Publisher File Archive Tree) (format : Format)
    (source : List String) (names : List SourceId)
    (disk final : Disk String File) (entry listing : SnapshotEntry) :
    Prop where
  grown : Disk.Grown disk final
  directory : ∀ srcName ∈ names,
    final.node (locate source srcName) = some .directory
  kept : ∀ place, (∀ srcName ∈ names,
    archivePlace format source srcName ≠ place) →
      final.node place = disk.node place
  archive : ∀ srcName ∈ names, ∃ file, IsArchive publisher file ∧
    final.node (archivePlace format source srcName) = some (.file file)
  frame : ∀ key, key ∉ names → listing.lookup key = entry.lookup key
  listed : ∀ srcName ∈ names, ∃ file, IsArchive publisher file ∧
    listing.lookup srcName = some (publisher.checksum file)
  /-- An archive that no other one replaces is the one that is listed. -/
  own : ∀ srcName ∈ names, names.Nodup →
    (∀ other ∈ names, other ≠ srcName →
      archivePlace format source other ≠
        archivePlace format source srcName) →
    ∃ file, listing.lookup srcName = some (publisher.checksum file) ∧
      final.node (archivePlace format source srcName) = some (.file file)
  /-- The archive of a directory into which none is put is as good as that of
  another name for the directory. -/
  twin : ∀ srcName ∈ names,
    (∀ other ∈ names,
      ¬ locate source srcName <+: archivePlace format source other) →
    (∀ other ∈ names, archivePlace format source other =
        archivePlace format source srcName →
      locate source other = locate source srcName) →
    ∃ file, publisher.packFrom (disk.below (locate source srcName)) =
        some file ∧
      listing.lookup srcName = some (publisher.checksum file) ∧
      final.node (archivePlace format source srcName) = some (.file file)

theorem Packed.nil :
    Packed publisher format source [] disk disk entry entry := by
  constructor <;> simp [Disk.Grown.refl]

theorem Packed.twin_later {srcName other again : SourceId} {file : File}
    {middle : Disk String File}
    (written : disk.write (archivePlace format source srcName) file =
      some middle)
    (rest : Packed publisher format source names middle final
      (entry.insert srcName (publisher.checksum file)) listing)
    (outside : ∀ third ∈ srcName :: names,
      ¬ locate source other <+: archivePlace format source third)
    (single : ∀ third ∈ srcName :: names, archivePlace format source third =
        archivePlace format source other →
      locate source third = locate source other)
    (member : again ∈ names)
    (samePlace : archivePlace format source again =
      archivePlace format source other) :
    ∃ file, publisher.packFrom (disk.below (locate source other)) =
        some file ∧
      listing.lookup again = some (publisher.checksum file) ∧
      final.node (archivePlace format source other) = some (.file file) := by
  have sameSource := single again (List.mem_cons_of_mem _ member) samePlace
  rw [← samePlace, ← sameSource]
  rw [← sameSource] at outside
  have below : middle.below (locate source again) =
      disk.below (locate source again) := by
    funext names
    apply Disk.node_write_of_ne written
    rintro same
    exact outside srcName List.mem_cons_self ⟨names, same⟩
  rw [← below]
  apply rest.twin again member
  · exact fun third member => outside third (List.mem_cons_of_mem _ member)
  · intro third member same
    rw [sameSource]
    exact single third (List.mem_cons_of_mem _ member) (same.trans samePlace)

theorem Packed.cons {srcName : SourceId} {file : File}
    {middle : Disk String File}
    (directory : disk.node (locate source srcName) = some .directory)
    (archived : publisher.packFrom (disk.below (locate source srcName)) =
      some file)
    (written : disk.write (archivePlace format source srcName) file =
      some middle)
    (rest : Packed publisher format source names middle final
      (entry.insert srcName (publisher.checksum file)) listing) :
    Packed publisher format source (srcName :: names) disk final entry
      listing := by
  have step := Disk.Grown.of_write written
  have unlisted : srcName ∉ names →
      listing.lookup srcName = some (publisher.checksum file) := by
    intro absent
    rw [rest.frame srcName absent, Finmap.lookup_insert]
  have stays (elsewhere : ∀ later ∈ names, archivePlace format source later ≠
        archivePlace format source srcName) :
      final.node (archivePlace format source srcName) =
        some (.file file) := by
    rw [rest.kept _ elsewhere, Disk.node_write_self written]
  constructor
  case grown => exact step.trans rest.grown
  case directory =>
    intro other member
    cases member with
    | head =>
        apply rest.grown.directory
        exact step.directory _ directory
    | tail _ member => exact rest.directory other member
  case kept =>
    intro place apart
    rw [rest.kept place fun other member => apart other (by simp [member])]
    apply Disk.node_write_of_ne written
    exact (apart srcName (by simp)).symm
  case archive =>
    intro other member
    cases member with
    | tail _ member => exact rest.archive other member
    | head =>
        by_cases again : ∃ later ∈ names, archivePlace format source later =
            archivePlace format source srcName
        · obtain ⟨later, member, same⟩ := again
          rw [← same]
          exact rest.archive later member
        · push Not at again
          exact ⟨file, ⟨_, archived⟩, stays again⟩
  case frame =>
    intro key absent
    simp only [List.mem_cons, not_or] at absent
    rw [rest.frame key absent.2, Finmap.lookup_insert_of_ne _ absent.1]
  case listed =>
    intro other member
    by_cases later : other ∈ names
    · exact rest.listed other later
    · have same : other = srcName := by simpa [later] using member
      subst same
      exact ⟨file, ⟨_, archived⟩, unlisted later⟩
  case own =>
    intro other member distinct apart
    obtain ⟨absent, distinct⟩ := List.nodup_cons.mp distinct
    cases member with
    | tail _ member =>
        exact rest.own other member distinct fun third member =>
          apart third (by simp [member])
    | head =>
        refine ⟨file, unlisted absent, stays ?_⟩
        intro later member
        apply apart later (by simp [member])
        intro same
        exact absent (same ▸ member)
  case twin =>
    intro other member outside single
    by_cases again : other ∈ names
    · exact rest.twin_later written outside single again rfl
    · have here : other = srcName := by simpa [again] using member
      subst here
      by_cases replaced : ∃ third ∈ names, archivePlace format source third =
          archivePlace format source other
      · obtain ⟨third, inside, same⟩ := replaced
        obtain ⟨made, packs, _, present⟩ :=
          rest.twin_later written outside single inside same
        cases archived.symm.trans packs
        exact ⟨file, archived, unlisted again, present⟩
      · push Not at replaced
        exact ⟨file, archived, unlisted again, stays replaced⟩

theorem packSources_packed
    (packed : names.foldlM (packSource publisher format source)
      (disk, entry) = some (final, listing)) :
    Packed publisher format source names disk final entry listing := by
  induction names generalizing disk entry with
  | nil =>
      cases packed
      exact Packed.nil
  | cons srcName names ih =>
      simp only [List.foldlM_cons, Option.bind_eq_bind,
        Option.bind_eq_some_iff] at packed
      obtain ⟨⟨middle, next⟩, first, rest⟩ := packed
      obtain ⟨directory, file, archived, written, same⟩ :=
        packSource_spec first
      subst same
      exact Packed.cons directory archived written (ih rest)

/-! ## Removing the sources -/

theorem removeSources_spec
    (removed : names.foldlM (removeSource source) disk = some final) :
    (∀ srcName ∈ names,
      (srcName.toList.splitOn '/').getLast? ≠ some ['.']) ∧
    ∀ place, final.node place =
      if ∃ srcName ∈ names, locate source srcName <+: place then none
      else disk.node place := by
  induction names generalizing disk with
  | nil =>
      cases removed
      simp
  | cons srcName names ih =>
      simp only [List.foldlM_cons, removeSource, Option.bind_eq_bind,
        Option.bind_eq_some_iff] at removed
      obtain ⟨middle, first, rest⟩ := removed
      split at first
      · cases first
      · rename_i removable
        cases first
        obtain ⟨others, nodes⟩ := ih rest
        constructor
        · simpa [removable] using others
        · intro place
          rw [nodes place, Disk.node_removeAll]
          by_cases inside : locate source srcName <+: place <;> simp [inside]

/-! ## The whole of `create` -/

/-- The sources that the index in a package directory declares. -/
def declared (publisher : Publisher File Archive Tree) (format : Format)
    (source : List String) (disk : Disk String File) : List SourceId :=
  match (disk.file? (locate source format.getIndex)).bind
      publisher.parseIndex with
  | some index => index.sources
  | none => []

/-- The steps of a `create` that succeeds. -/
structure Created (publisher : Publisher File Archive Tree) (format : Format)
    (source : List String) (strip : Bool) (disk final : Disk String File)
    (indexFile : File) (index : Index) (listing : SnapshotEntry)
    (packed written : Disk String File) : Prop where
  found : disk.node (locate source format.getIndex) =
    some (.file indexFile)
  parsed : publisher.parseIndex indexFile = some index
  packing : Packed publisher format source index.sources disk packed
    (Finmap.singleton format.getIndex (publisher.checksum indexFile)) listing
  writing : packed.write (locate source format.getChecksum)
    (publisher.writeChecksum listing) = some written
  removable : strip = true → ∀ srcName ∈ index.sources,
    (srcName.toList.splitOn '/').getLast? ≠ some ['.']
  removing : ∀ place, final.node place =
    if strip = true ∧ ∃ srcName ∈ index.sources,
      locate source srcName <+: place then none
    else written.node place

theorem create_spec {strip : Bool}
    (created : create publisher format source strip disk = some final) :
    ∃ indexFile index listing packed written, Created publisher format source
      strip disk final indexFile index listing packed written := by
  simp only [create, Option.bind_eq_bind, Option.bind_eq_some_iff] at created
  obtain ⟨indexFile, found, index, parsed, ⟨packed, listing⟩, packing,
    written, writing, removing⟩ := created
  refine ⟨indexFile, index, listing, packed, written, ?_⟩
  have places : (strip = true → ∀ srcName ∈ index.sources,
      (srcName.toList.splitOn '/').getLast? ≠ some ['.']) ∧
      ∀ place, final.node place =
        if strip = true ∧ ∃ srcName ∈ index.sources,
          locate source srcName <+: place then none
        else written.node place := by
    cases strip with
    | false =>
        cases removing
        simp
    | true =>
        obtain ⟨removable, nodes⟩ := removeSources_spec removing
        exact ⟨fun _ => removable, by simpa using nodes⟩
  exact
    { found := Disk.file?_eq_some.mp found
      parsed
      packing := packSources_packed packing
      writing
      removable := places.1
      removing := places.2 }

theorem declared_eq {indexFile : File} {index : Index}
    (found : disk.node (locate source format.getIndex) =
      some (.file indexFile))
    (parsed : publisher.parseIndex indexFile = some index) :
    declared publisher format source disk = index.sources := by
  simp [declared, Disk.file?, found, parsed]

end Bacs.Pm.Publishing
