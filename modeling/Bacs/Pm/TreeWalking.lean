import Bacs.Pm.PackageTrees

/-!
# Walking a tree of package directories

Creating a package keeps to its directory, and it leaves alone the entries
that are visited after it.
-/

namespace Bacs.Pm.Publishing

open LexicalPath Disk

variable {File Archive Tree : Type}
  {publisher : Publisher File Archive Tree} {format : Format}
  {keeps : String → Prop} {strip : Bool}
  {disk final first second : Disk String File} {root place : List String}
  {index : Index}

/-! ## Creating a package keeps to its directory -/

/-- The disks agree and the checksums are the same. -/
def AgreeListed (place : List String)
    (one two : Disk String File × SnapshotEntry) : Prop :=
  Agree place one.1 two.1 ∧ one.2 = two.2

theorem packSource_agree (sound : publisher.Sound keeps)
    (tidy : Tidy keeps format strip index) {srcName : SourceId}
    (member : srcName ∈ index.sources)
    {one two : Disk String File × SnapshotEntry}
    (agree : AgreeListed place one two) :
    Option.Rel (AgreeListed place)
      (packSource publisher format place one srcName)
      (packSource publisher format place two srcName) := by
  obtain ⟨disks, listings⟩ := agree
  have archive := tidy.locate_archive sound place member
  rw [archivePlace] at archive
  have inside : place <+: place ++ [srcName] := List.prefix_append _ _
  have packed : Option.Rel (Agree place)
      (packContents publisher (place ++ [srcName ++ format.archiveSuffix])
        (place ++ [srcName]) one.1)
      (packContents publisher (place ++ [srcName ++ format.archiveSuffix])
        (place ++ [srcName]) two.1) := by
    unfold packContents
    rw [← disks.isDirectory inside, ← disks.below inside]
    split
    · apply rel_bind Eq
      · cases publisher.packFrom (one.1.below (place ++ [srcName])) with
        | none => exact Option.Rel.none
        | some file => exact Option.Rel.some rfl
      · intro file other same
        subst same
        exact disks.write _ file
    · exact Option.Rel.none
  unfold packSource
  rw [archive, tidy.locate_source sound place member]
  apply rel_bind (Agree place) packed
  intro here there agree
  rw [← agree.file? (List.prefix_append place [srcName ++ _])]
  cases here.file? (place ++ [srcName ++ format.archiveSuffix]) with
  | none => exact Option.Rel.none
  | some file =>
      apply Option.Rel.some
      exact ⟨agree, by rw [listings]⟩

theorem removeSource_agree (agree : Agree place first second)
    (srcName : SourceId) :
    Option.Rel (Agree place) (removeSource place first srcName)
      (removeSource place second srcName) := by
  unfold removeSource
  split
  · exact Option.Rel.none
  · exact Option.Rel.some (agree.removeAll _)

theorem indexFile_agree (unconfigured : format.index = none)
    (agree : Agree place first second) :
    first.file? (locate place format.getIndex) =
      second.file? (locate place format.getIndex) := by
  rw [getIndex_default unconfigured, locate_index]
  exact agree.file? (List.prefix_append _ _)

theorem indexAt_agree (unconfigured : format.index = none)
    (agree : Agree place first second) :
    indexAt publisher format first place =
      indexAt publisher format second place := by
  unfold indexAt
  rw [indexFile_agree unconfigured agree]

theorem create_agree (sound : publisher.Sound keeps)
    (unconfigured : format.index = none)
    (tidy : ∀ index, indexAt publisher format first place = some index →
      Tidy keeps format strip index)
    (agree : Agree place first second) :
    Option.Rel (Agree place) (create publisher format place strip first)
      (create publisher format place strip second) := by
  unfold create
  rw [← indexFile_agree unconfigured agree]
  cases found : first.file? (locate place format.getIndex) with
  | none => exact Option.Rel.none
  | some indexFile =>
  simp only [Option.bind_eq_bind, Option.bind_some]
  cases parsed : publisher.parseIndex indexFile with
  | none => exact Option.Rel.none
  | some index =>
  have tidy := tidy index (by rw [indexAt, found]; exact parsed)
  simp only [Option.bind_some]
  apply rel_bind (AgreeListed place)
  · have start (entry : SnapshotEntry) :
        AgreeListed place (first, entry) (second, entry) := ⟨agree, rfl⟩
    apply rel_foldlM (AgreeListed place) (start _)
    intro srcName member one two same
    exact packSource_agree sound tidy member same
  · intro one two same
    obtain ⟨disks, listings⟩ := same
    rw [tidy.locate_getChecksum, ← listings]
    apply rel_bind (Agree place) (disks.write _ _)
    intro here there agree
    split
    · apply rel_foldlM (Agree place) agree
      intro srcName member one two same
      exact removeSource_agree same srcName
    · exact Option.Rel.some agree

/-! ## What creating a package leaves alone -/

theorem create_frame (sound : publisher.Sound keeps)
    (tidy : ∀ index, indexAt publisher format disk place = some index →
      Tidy keeps format strip index)
    (created : create publisher format place strip disk = some final)
    {other : List String}
    (apart : ¬ Owns publisher format disk place other) :
    final.node other = disk.node other := by
  obtain ⟨indexFile, index, listing, packed, written, steps⟩ :=
    create_spec created
  have here : indexAt publisher format disk place = some index := by
    rw [indexAt, Disk.file?_eq_some.mpr steps.found]
    exact steps.parsed
  have tidy := tidy index here
  have foreign : ∀ name ∈ ownNames format index,
      ¬ place ++ [name] <+: other :=
    fun name member within => apart ⟨index, here, name, member, within⟩
  have spared : ¬ (strip = true ∧ ∃ srcName ∈ index.sources,
      locate place srcName <+: other) := by
    intro removed
    obtain ⟨_, srcName, member, within⟩ := removed
    rw [tidy.locate_source sound place member] at within
    apply foreign srcName _ within
    simp [ownNames, member]
  rw [steps.removing, if_neg spared, Disk.node_write_of_ne steps.writing]
  · apply steps.packing.kept
    intro srcName member same
    rw [tidy.locate_archive sound place member] at same
    apply foreign (srcName ++ format.archiveSuffix)
    · simp only [ownNames, List.mem_cons, List.mem_append, List.mem_map]
      exact .inr (.inr (.inr ⟨srcName, member, rfl⟩))
    · rw [same]
  · intro same
    rw [tidy.locate_getChecksum] at same
    apply foreign format.getChecksum
    · simp [ownNames]
    · rw [same]

theorem create_keepsTo (sound : publisher.Sound keeps)
    (unconfigured : format.index = none)
    (tidy : ∀ index, indexAt publisher format disk place = some index →
      Tidy keeps format strip index) :
    KeepsTo place disk (create publisher format place strip) := by
  have tidier : ∀ other, Agree place disk other →
      ∀ index, indexAt publisher format other place = some index →
        Tidy keeps format strip index := by
    intro other agree index found
    rw [← indexAt_agree unconfigured agree] at found
    exact tidy index found
  constructor
  · intro first second here there
    exact create_agree sound unconfigured (tidier first here)
      (here.symm.trans there)
  · intro first final agree created elsewhere outside
    apply create_frame sound (tidier first agree) created
    intro owned
    obtain ⟨_, _, name, _, within⟩ := owned
    exact outside ((List.prefix_append place [name]).trans within)

/-- A directory beside the sources is neither made nor changed. -/
theorem not_own_of_directory (sound : publisher.Sound keeps)
    (here : indexAt publisher format disk place = some index)
    (tidy : Tidy keeps format strip index)
    (created : create publisher format place strip disk = some final)
    {name : String} (kept : name ∉ index.sources)
    (directory : disk.node (place ++ [name]) = some .directory ∨
      final.node (place ++ [name]) = some .directory) :
    name ∉ ownNames format index := by
  obtain ⟨indexFile, same, listing, packed, written, steps⟩ :=
    create_spec created
  have alike : same = index := by
    rw [indexAt, Disk.file?_eq_some.mpr steps.found] at here
    exact Option.some.inj (steps.parsed.symm.trans here)
  subst alike
  have placed := steps.packing.grown
  have files : ∀ file, written.node (place ++ [name]) = some (.file file) →
      packed.node (place ++ [name]) ≠ some .directory → False := by
    intro file present absent
    rcases directory with before | after
    · exact absent (placed.directory _ before)
    · rw [steps.removing] at after
      split at after
      · cases after
      · rw [present] at after
        cases after
  have own := Disk.node_write_self steps.writing
  have free := (Disk.write_spec steps.writing).1
  rw [tidy.locate_getChecksum place] at own free
  intro member
  simp only [ownNames, List.mem_cons, List.mem_append, List.mem_map]
    at member
  rcases member with named | named | source | ⟨srcName, member, named⟩
  · have found := steps.found
    rw [tidy.locate_getIndex, ← named] at found
    have unlike : name ≠ "checksum" := by
      rw [named, getIndex_default tidy.clear.index]
      decide
    have stays := steps.written_of_packed tidy.clear.index unlike
    have still := placed.not_directory (Disk.file?_eq_some.mpr found)
    rcases directory with before | after
    · rw [before] at found
      cases found
    · rw [steps.removing] at after
      split at after
      · cases after
      · rw [stays] at after
        exact still after
  · rw [named] at files
    exact files _ own free
  · exact kept source
  · obtain ⟨file, _, archived⟩ := steps.packing.archive srcName member
    rw [tidy.locate_archive sound place member, named] at archived
    by_cases unlike : name = "checksum"
    · rw [unlike] at files
      rw [getChecksum_default tidy.clear.index] at own free
      exact files _ own free
    · apply files file
      · rw [steps.written_of_packed tidy.clear.index unlike, archived]
      · rw [archived]
        simp

theorem create_index
    (here : indexAt publisher format disk place = some index)
    (tidy : Tidy keeps format strip index)
    (created : create publisher format place strip disk = some final) :
    indexAt publisher format final place = some index := by
  obtain ⟨indexFile, same, listing, packed, written, steps⟩ :=
    create_spec created
  have alike : same = index := by
    rw [indexAt, Disk.file?_eq_some.mpr steps.found] at here
    exact Option.some.inj (steps.parsed.symm.trans here)
  subst alike
  have left := steps.final_index tidy.clear
  rw [published, ← getIndex_default tidy.clear.index] at left
  rw [indexAt, left]
  exact steps.parsed

/-! ## The packages of a tree -/

theorem ignored_eq (here : indexAt publisher format disk place = some index) :
    ignored publisher format disk place =
      format.getIndex :: index.sources := by
  rw [ignored, here]

theorem ignored_agree (unconfigured : format.index = none)
    (agree : Agree place first second) :
    ignored publisher format first place =
      ignored publisher format second place := by
  unfold ignored
  rw [indexAt_agree unconfigured agree]

theorem Reaches.within
    (reached : Reaches publisher format disk root place) :
    root <+: place := by
  induction reached with
  | root => exact List.prefix_rfl
  | entry _ _ _ ih => exact ih.trans (List.prefix_append _ _)

theorem agree_within (agree : Agree root first second)
    (within : root <+: place) : Agree place first second := by
  obtain ⟨names, rfl⟩ := within
  exact agree.append names

theorem Reaches.congr (unconfigured : format.index = none)
    (agree : Agree root first second)
    (reached : Reaches publisher format first root place) :
    Reaches publisher format second root place := by
  induction reached with
  | root => exact .root
  | entry reached directory kept ih =>
      have within := reached.within
      apply ih.entry
      · rwa [← agree.isDirectory (within.trans (List.prefix_append _ _))]
      · rwa [← ignored_agree unconfigured (agree_within agree within)]

/-- From the directory into one of its entries, and on from there. -/
theorem Reaches.enter {name : String}
    (directory : disk.isDirectory (root ++ [name]) = true)
    (kept : name ∉ ignored publisher format disk root)
    (reached : Reaches publisher format disk (root ++ [name]) place) :
    Reaches publisher format disk root place := by
  induction reached with
  | root => exact Reaches.root.entry directory kept
  | entry _ inside kept ih => exact ih.entry inside kept

theorem Reaches.cases
    (reached : Reaches publisher format disk root place) :
    place = root ∨ ∃ name, disk.isDirectory (root ++ [name]) = true ∧
      name ∉ ignored publisher format disk root ∧
      Reaches publisher format disk (root ++ [name]) place := by
  induction reached with
  | root => exact .inl rfl
  | @entry place name reached directory kept ih =>
      rcases ih with rfl | ⟨first, there, unignored, later⟩
      · exact .inr ⟨name, directory, kept, .root⟩
      · exact .inr ⟨first, there, unignored, later.entry directory kept⟩

theorem PackageAt.congr (unconfigured : format.index = none)
    (agree : Agree root first second)
    (package : PackageAt publisher format first root place) :
    PackageAt publisher format second root place := by
  refine ⟨package.reached.congr unconfigured agree, ?_⟩
  rw [← indexFile_agree unconfigured
    (agree_within agree package.reached.within)]
  exact package.index

theorem PackageAt.enter {name : String}
    (directory : disk.isDirectory (root ++ [name]) = true)
    (kept : name ∉ ignored publisher format disk root)
    (package : PackageAt publisher format disk (root ++ [name]) place) :
    PackageAt publisher format disk root place :=
  ⟨package.reached.enter directory kept, package.index⟩

theorem PackageAt.cases
    (package : PackageAt publisher format disk root place) :
    place = root ∨ ∃ name, disk.isDirectory (root ++ [name]) = true ∧
      name ∉ ignored publisher format disk root ∧
      PackageAt publisher format disk (root ++ [name]) place := by
  rcases package.reached.cases with same | ⟨name, directory, kept, reached⟩
  · exact .inl same
  · exact .inr ⟨name, directory, kept, reached, package.index⟩

theorem owns_agree (unconfigured : format.index = none)
    (agree : Agree place first second) {other : List String} :
    Owns publisher format first place other ↔
      Owns publisher format second place other := by
  unfold Owns
  rw [indexAt_agree unconfigured agree]

theorem Owns.within {other : List String}
    (owned : Owns publisher format disk place other) : place <+: other := by
  obtain ⟨_, _, name, _, within⟩ := owned
  exact (List.prefix_append place [name]).trans within

/-! ## Trees that can be walked -/

section Walks

variable {fuel : Nat}

theorem Walkable.congr (unconfigured : format.index = none)
    (walkable : Walkable publisher format keeps strip fuel first root)
    (agree : Agree root first second) :
    Walkable publisher format keeps strip fuel second root := by
  constructor
  · apply walkable.finite.subset
    intro names present
    change (first.node (root ++ names)).isSome
    rw [agree names]
    exact present
  · intro names present
    rw [← agree names] at present
    exact walkable.shallow names present
  · intro place index package found
    have before := package.congr unconfigured agree.symm
    rw [← indexAt_agree unconfigured
      (agree_within agree package.reached.within)] at found
    exact walkable.tidy place index before found

theorem Walkable.entry {name : String}
    (walkable : Walkable publisher format keeps strip (fuel + 1) disk root)
    (directory : disk.isDirectory (root ++ [name]) = true)
    (kept : name ∉ ignored publisher format disk root) :
    Walkable publisher format keeps strip fuel disk (root ++ [name]) := by
  constructor
  · apply Set.Finite.preimage (f := (name :: ·)) _ walkable.finite |>.subset
    · intro names present
      have there : (disk.node (root ++ [name] ++ names)).isSome := present
      change (disk.node (root ++ name :: names)).isSome
      rwa [List.append_assoc, List.singleton_append] at there
    · intro one _ two _ same
      exact List.tail_eq_of_cons_eq same
  · intro names present
    rw [List.append_assoc, List.singleton_append] at present
    have short := walkable.shallow (name :: names) present
    rw [List.length_cons] at short
    omega
  · intro place index package found
    exact walkable.tidy place index (package.enter directory kept) found

theorem Walkable.here
    (walkable : Walkable publisher format keeps strip fuel disk root) :
    ∀ index, indexAt publisher format disk root = some index →
      Tidy keeps format strip index := by
  intro index found
  apply walkable.tidy root index ⟨.root, ?_⟩ found
  rw [indexAt, Option.bind_eq_some_iff] at found
  obtain ⟨file, present, _⟩ := found
  rw [present]
  rfl

end Walks

/-! ## One directory -/

/-- What the package of a directory has changed before its entries are
visited. -/
structure Entered (publisher : Publisher File Archive Tree) (format : Format)
    (strip : Bool) (root : List String) (disk next : Disk String File)
    (ignore : List String) : Prop where
  created : (disk.file? (locate root format.getIndex)).isSome = true →
    create publisher format root strip disk = some next
  frame : ∀ other, ¬ Owns publisher format disk root other →
    next.node other = disk.node other
  ignoring : ignore = ignored publisher format disk root
  foreign : ∀ name ∉ ignore,
    disk.node (root ++ [name]) = some .directory ∨
      next.node (root ++ [name]) = some .directory →
    ∀ other, root ++ [name] <+: other →
      ¬ Owns publisher format disk root other

theorem create_indexAt
    (created : create publisher format place strip disk = some final) :
    ∃ index, indexAt publisher format disk place = some index := by
  obtain ⟨_, index, _, _, _, steps⟩ := create_spec created
  refine ⟨index, ?_⟩
  rw [indexAt, Disk.file?_eq_some.mpr steps.found]
  exact steps.parsed

theorem not_owns_of_absent
    (absent : disk.file? (locate place format.getIndex) = none)
    (other : List String) : ¬ Owns publisher format disk place other := by
  intro owned
  obtain ⟨index, found, _⟩ := owned
  rw [indexAt, absent] at found
  cases found

theorem createHere_isSome_iff
    (tidy : ∀ index, indexAt publisher format disk root = some index →
      Tidy keeps format strip index) :
    (createHere publisher format strip root disk).isSome ↔
      ((disk.file? (locate root format.getIndex)).isSome = true →
        (create publisher format root strip disk).isSome) := by
  unfold createHere
  cases present : disk.file? (locate root format.getIndex) with
  | none => simp
  | some file =>
      cases created : create publisher format root strip disk with
      | none => simp
      | some next =>
          obtain ⟨index, here⟩ := create_indexAt created
          have still := create_index here (tidy index here) created
          rw [indexAt, Option.bind_eq_some_iff] at still
          obtain ⟨indexFile, there, parsed⟩ := still
          simp [there, parsed]

theorem entered_of_createHere (sound : publisher.Sound keeps)
    (tidy : ∀ index, indexAt publisher format disk root = some index →
      Tidy keeps format strip index)
    {next : Disk String File} {ignore : List String}
    (here : createHere publisher format strip root disk =
      some (next, ignore)) :
    Entered publisher format strip root disk next ignore := by
  unfold createHere at here
  cases present : disk.file? (locate root format.getIndex) with
  | none =>
      rw [present] at here
      cases here
      constructor
      · intro there
        rw [present] at there
        cases there
      · exact fun _ _ => rfl
      · rw [ignored, indexAt, present]
        rfl
      · exact fun _ _ _ other _ => not_owns_of_absent present other
  | some file =>
      rw [present] at here
      simp only [Option.bind_eq_bind, Option.bind_eq_some_iff] at here
      obtain ⟨made, created, indexFile, there, index, parsed, same⟩ := here
      cases same
      obtain ⟨declared, found⟩ := create_indexAt created
      have still := create_index found (tidy declared found) created
      have alike : declared = index := by
        rw [indexAt, there] at still
        exact Option.some.inj (still.symm.trans parsed)
      subst alike
      constructor
      · exact fun _ => created
      · exact fun other => create_frame sound tidy created
      · rw [ignored_eq found]
      · intro name kept directory other within owned
        obtain ⟨same, alike, own, member, inside⟩ := owned
        rw [found] at alike
        cases alike
        have apart := not_own_of_directory sound found (tidy declared found)
          created (fun source => kept (List.mem_cons_of_mem _ source))
          directory
        have equal : own = name := by
          by_contra different
          obtain ⟨names, rfl⟩ := within
          exact apart_entries different names inside
        exact apart (equal ▸ member)

namespace Entered

variable {next : Disk String File} {ignore : List String} {name : String}

theorem agree
    (entered : Entered publisher format strip root disk next ignore)
    (kept : name ∉ ignore)
    (directory : disk.node (root ++ [name]) = some .directory ∨
      next.node (root ++ [name]) = some .directory) :
    Agree (root ++ [name]) disk next := by
  intro names
  exact (entered.frame _ (entered.foreign name kept directory _
    (List.prefix_append _ names))).symm

theorem directory_iff
    (entered : Entered publisher format strip root disk next ignore)
    (kept : name ∉ ignore) :
    next.isDirectory (root ++ [name]) = true ↔
      disk.isDirectory (root ++ [name]) = true := by
  rw [Disk.isDirectory_iff, Disk.isDirectory_iff]
  constructor
  · intro there
    rw [(entered.agree kept (.inr there)).here]
    exact there
  · intro there
    rw [← (entered.agree kept (.inl there)).here]
    exact there

theorem root_directory
    (entered : Entered publisher format strip root disk next ignore) :
    next.isDirectory root = disk.isDirectory root := by
  unfold Disk.isDirectory
  rw [entered.frame root]
  intro owned
  obtain ⟨_, _, name, _, within⟩ := owned
  have longer := within.length_le
  simp at longer

theorem finite
    (entered : Entered publisher format strip root disk next ignore)
    (finite : {names | (disk.node (root ++ names)).isSome}.Finite) :
    {name | (next.node (root ++ [name])).isSome}.Finite := by
  have entries : {name | (disk.node (root ++ [name])).isSome}.Finite := by
    apply Set.Finite.preimage (f := fun name => [name]) _ finite |>.subset
    · exact fun name present => present
    · intro one _ two _ same
      exact List.singleton_inj.mp same
  cases here : indexAt publisher format disk root with
  | none =>
      apply entries.subset
      intro name present
      change (disk.node (root ++ [name])).isSome
      rw [← entered.frame]
      · exact present
      · intro owned
        obtain ⟨index, found, _⟩ := owned
        rw [here] at found
        cases found
  | some index =>
      apply (entries.union
        (List.finite_toSet (ownNames format index))).subset
      intro name present
      by_cases own : name ∈ ownNames format index
      · exact .inr own
      · left
        change (disk.node (root ++ [name])).isSome
        rw [← entered.frame]
        · exact present
        · intro owned
          obtain ⟨same, found, other, member, within⟩ := owned
          rw [here] at found
          cases found
          have equal : other = name := by
            simpa using within
          exact own (equal ▸ member)

end Entered

end Bacs.Pm.Publishing
