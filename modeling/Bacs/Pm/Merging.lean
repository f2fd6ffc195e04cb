import Mathlib.Data.Set.Finite.Lattice
import Bacs.Foundation.LexicalPath
import Bacs.Pm.MergeDirectories

/-!
# Merging loses nothing

Merging an entry leaves all that is not below it in the source or in the
destination as it was, so the entries can be merged in any order.  An error
means that a directory and a file are in each other's way.
-/

namespace Bacs.Pm.Extractor

open Foundation LexicalPath

variable {Name File : Type} {disk final : Disk Name File}
  {source destination : List Name}

/-- A directory in the one tree and a file in the other. -/
def Clash (source destination : Option (Node File)) : Prop :=
  (source = some .directory ∧ ∃ contents, destination = some (.file contents)) ∨
    (∃ contents, source = some (.file contents)) ∧
      destination = some .directory

/-- The trees have a clash somewhere. -/
def Clashing (disk : Disk Name File) (source destination : List Name) :
    Prop :=
  ∃ names, Clash (disk.below source names) (disk.below destination names)

/-- The destination has got all that is in the source and kept the rest, and
nothing else has changed. -/
structure Merged (disk final : Disk Name File)
    (source destination : List Name) : Prop where
  node : ∀ names, final.below destination names =
    (disk.below source names).or (disk.below destination names)
  noClash : ¬ Clashing disk source destination
  outside : ∀ place, ¬ source <+: place → ¬ destination <+: place →
    final.node place = disk.node place

theorem not_clash_none (source : Option (Node File)) : ¬ Clash source none := by
  rintro (⟨_, _, impossible⟩ | ⟨_, impossible⟩) <;> cases impossible

theorem not_none_clash (destination : Option (Node File)) :
    ¬ Clash none destination := by
  rintro (⟨impossible, _⟩ | ⟨⟨_, impossible⟩, _⟩) <;> cases impossible

theorem not_clash_directories :
    ¬ Clash (some .directory : Option (Node File)) (some .directory) := by
  rintro (⟨_, _, impossible⟩ | ⟨⟨_, impossible⟩, _⟩) <;> cases impossible

/-! ## Merging the entries one after the other -/

/-- After the entries `done` have been merged. -/
structure Halfway (disk state : Disk Name File)
    (source destination : List Name) (done : List Name) : Prop where
  node : ∀ name ∈ done, ∀ names,
    state.below (destination ++ [name]) names =
      (disk.below (source ++ [name]) names).or
        (disk.below (destination ++ [name]) names)
  noClash : ∀ name ∈ done,
    ¬ Clashing disk (source ++ [name]) (destination ++ [name])
  untouched : ∀ place, (∀ name ∈ done, ¬ source ++ [name] <+: place) →
    (∀ name ∈ done, ¬ destination ++ [name] <+: place) →
      state.node place = disk.node place

section Entries

variable {state : Disk Name File} {done : List Name} {name : Name}

theorem apart_across (apart : Apart source destination)
    (first second : Name) :
    Apart (source ++ [first]) (destination ++ [second]) :=
  apart.mono (List.prefix_append _ _) (List.prefix_append _ _)

theorem Halfway.sameSource (halfway : Halfway disk state source destination done)
    (apart : Apart source destination) (fresh : name ∉ done)
    (names : List Name) : state.below (source ++ [name]) names =
      disk.below (source ++ [name]) names := by
  have inside := List.prefix_append (source ++ [name]) names
  apply halfway.untouched
  · intro other member
    refine (apart_of_ne source ?_).not_within inside
    rintro rfl
    exact fresh member
  · intro other _
    exact (apart_across apart name other).not_within inside

theorem Halfway.sameDestination
    (halfway : Halfway disk state source destination done)
    (apart : Apart source destination) (fresh : name ∉ done)
    (names : List Name) : state.below (destination ++ [name]) names =
      disk.below (destination ++ [name]) names := by
  have inside := List.prefix_append (destination ++ [name]) names
  apply halfway.untouched
  · intro other _
    exact (apart_across apart other name).symm.not_within inside
  · intro other member
    refine (apart_of_ne destination ?_).not_within inside
    rintro rfl
    exact fresh member

theorem Halfway.top (halfway : Halfway disk state source destination done)
    (apart : Apart source destination) :
    state.node destination = disk.node destination := by
  apply halfway.untouched
  · intro name _ inside
    exact apart.1 ((List.prefix_append source [name]).trans inside)
  · intro name _ inside
    have shorter := inside.length_le
    rw [List.length_append, List.length_singleton] at shorter
    omega

theorem Halfway.next (halfway : Halfway disk state source destination done)
    (apart : Apart source destination) (fresh : name ∉ done)
    (merged : Merged state final (source ++ [name])
      (destination ++ [name])) :
    Halfway disk final source destination (done ++ [name]) := by
  constructor
  · intro other member names
    rcases List.mem_append.mp member with before | new
    · have inside := List.prefix_append (destination ++ [other]) names
      rw [← halfway.node other before]
      apply merged.outside
      · exact (apart_across apart name other).symm.not_within inside
      · refine (apart_of_ne destination ?_).not_within inside
        rintro rfl
        exact fresh before
    · rw [List.mem_singleton.mp new, merged.node,
        halfway.sameSource apart fresh, halfway.sameDestination apart fresh]
  · intro other member
    rcases List.mem_append.mp member with before | new
    · exact halfway.noClash other before
    · rw [List.mem_singleton.mp new]
      rintro ⟨names, clash⟩
      rw [← halfway.sameSource apart fresh,
        ← halfway.sameDestination apart fresh] at clash
      exact merged.noClash ⟨names, clash⟩
  · intro place notSource notDestination
    rw [merged.outside, halfway.untouched]
    · exact fun other member => notSource other (by simp [member])
    · exact fun other member => notDestination other (by simp [member])
    · exact notSource name (by simp)
    · exact notDestination name (by simp)

end Entries

/-- All entries of the source are merged: there is nothing else in it. -/
theorem Halfway.merged {done : List Name}
    (halfway : Halfway disk final source destination done)
    (sourceDirectory : disk.node source = some .directory)
    (destinationDirectory : disk.node destination = some .directory)
    (all : ∀ name, name ∈ done ↔ (disk.node (source ++ [name])).isSome)
    (apart : Apart source destination) :
    Merged disk final source destination := by
  have absent : ∀ name, name ∉ done → ∀ names,
      disk.below (source ++ [name]) names = none := by
    intro name missing names
    have nothing : disk.node (source ++ [name]) = none := by
      simpa [all] using missing
    by_cases itself : names = []
    · rw [itself, Disk.below_nil, nothing]
    · exact Disk.node_below_eq_none (by simp [nothing]) itself
  constructor
  · intro names
    cases names with
    | nil =>
        rw [Disk.below_nil, Disk.below_nil, Disk.below_nil, sourceDirectory,
          halfway.top apart]
        exact destinationDirectory
    | cons name names =>
        rw [Disk.below_cons, Disk.below_cons, Disk.below_cons]
        by_cases member : name ∈ done
        · exact halfway.node name member names
        · rw [absent name member, Option.none_or,
            halfway.sameDestination apart member]
  · rintro ⟨names, clash⟩
    cases names with
    | nil =>
        rw [Disk.below_nil, Disk.below_nil, sourceDirectory,
          destinationDirectory] at clash
        exact not_clash_directories clash
    | cons name names =>
        rw [Disk.below_cons, Disk.below_cons] at clash
        by_cases member : name ∈ done
        · exact halfway.noClash name member ⟨names, clash⟩
        · rw [absent name member] at clash
          exact not_none_clash _ clash
  · intro place notSource notDestination
    apply halfway.untouched
    · intro name _ inside
      exact notSource ((List.prefix_append source [name]).trans inside)
    · intro name _ inside
      exact notDestination
        ((List.prefix_append destination [name]).trans inside)

/-! ## What can be merged -/

/-- What a merge has to find: two directories apart from each other, of which
the first is finite and not too deep. -/
structure Mergeable (disk : Disk Name File)
    (source destination : List Name) (fuel : Nat) : Prop where
  sourceDirectory : disk.node source = some .directory
  destinationDirectory : disk.node destination = some .directory
  apart : Apart source destination
  finite : {names | (disk.below source names).isSome}.Finite
  deep : ∀ names, (disk.below source names).isSome → names.length < fuel

theorem Mergeable.entry {fuel : Nat} {name : Name}
    (mergeable : Mergeable disk source destination (fuel + 1))
    (sourceDirectory : disk.node (source ++ [name]) = some .directory)
    (destinationDirectory :
      disk.node (destination ++ [name]) = some .directory) :
    Mergeable disk (source ++ [name]) (destination ++ [name]) fuel where
  sourceDirectory := sourceDirectory
  destinationDirectory := destinationDirectory
  apart := apart_across mergeable.apart name name
  finite := by
    have inside : {names | (disk.below (source ++ [name]) names).isSome} =
        Set.preimage (name :: ·) {names | (disk.below source names).isSome} := by
      ext names
      simp [Disk.below]
    rw [inside]
    exact mergeable.finite.preimage (List.cons_injective.injOn)
  deep := by
    intro names present
    have longer := mergeable.deep (name :: names) (by
      simpa [Disk.below] using present)
    rw [List.length_cons] at longer
    omega

theorem Mergeable.congr {state : Disk Name File} {fuel : Nat}
    (mergeable : Mergeable disk source destination fuel)
    (sameSource : ∀ names, state.below source names = disk.below source names)
    (sameDestination : state.node destination = disk.node destination) :
    Mergeable state source destination fuel where
  sourceDirectory := by
    have top := sameSource []
    rw [Disk.below, Disk.below, List.append_nil] at top
    exact top.trans mergeable.sourceDirectory
  destinationDirectory := sameDestination.trans mergeable.destinationDirectory
  apart := mergeable.apart
  finite := by
    simpa only [sameSource] using mergeable.finite
  deep := by
    simpa only [sameSource] using mergeable.deep

/-! ## Merging an entry -/

variable [DecidableEq Name]

theorem merged_of_rename
    (renamed : disk.rename source destination = some final) :
    Merged disk final source destination := by
  obtain ⟨⟨present, _, _, _, _, kinds⟩, _⟩ := Disk.rename_spec renamed
  obtain ⟨node, here⟩ := Option.isSome_iff_exists.mp present
  have noDirectory : disk.node destination ≠ some .directory := by
    intro directory
    rcases kinds with nothing | ⟨_, file⟩
    · rw [nothing] at directory
      cases directory
    · simp [Disk.file?, directory] at file
  have nothing : ∀ names, names ≠ [] →
      disk.below destination names = none :=
    fun _ proper => Disk.node_below_eq_none noDirectory proper
  constructor
  · intro names
    rw [Disk.below, Disk.node_rename renamed]
    by_cases top : names = []
    · simp [Disk.below, top, here]
    · rw [nothing names top, Option.or_none, Disk.below]
  · rintro ⟨names, clash⟩
    by_cases top : names = []
    · subst top
      simp only [Disk.below, List.append_nil] at clash
      rcases kinds with absent | ⟨file, _⟩
      · rw [absent] at clash
        exact not_clash_none _ clash
      · rcases clash with ⟨directory, _⟩ | ⟨_, directory⟩
        · simp [Disk.file?, directory] at file
        · exact noDirectory directory
    · rw [nothing names top] at clash
      exact not_clash_none _ clash
  · intro place notSource notDestination
    exact Disk.node_rename_outside renamed notSource notDestination

/-- What a merge does: all of it, or an error because of a clash. -/
def Merges (program : MergeM Name File Unit) (disk : Disk Name File)
    (source destination : List Name) : Prop :=
  Ensures program disk
    (fun _ final => Merged disk final source destination)
    (fun failure _ => failure.real ∧ Clashing disk source destination)

theorem mergeEntry_merges
    {mergeDir : List Name → List Name → MergeM Name File Unit}
    {filename : Name}
    (directory : disk.node destination = some .directory)
    (apart : Apart source destination)
    (present : (disk.node (source ++ [filename])).isSome)
    (recurse : disk.node (source ++ [filename]) = some .directory →
      disk.node (destination ++ [filename]) = some .directory →
      Merges (mergeDir (source ++ [filename]) (destination ++ [filename]))
        disk (source ++ [filename]) (destination ++ [filename])) :
    Merges (mergeEntry mergeDir source destination filename) disk
      (source ++ [filename]) (destination ++ [filename]) := by
  unfold Merges mergeEntry
  rw [ensures_bind, ensures_get]
  dsimp only
  split
  case isTrue both =>
    rw [Disk.isDirectory_iff, Disk.isDirectory_iff] at both
    exact recurse both.1 both.2
  case isFalse notBoth =>
  split
  case h_1 renamed moved =>
    rw [ensures_set]
    exact merged_of_rename moved
  case h_2 failed =>
    rw [ensures_throw]
    refine ⟨trivial, [], ?_⟩
    have separate := apart_across apart filename filename
    have fails : ¬ (disk.node (destination ++ [filename]) = none ∨
        (disk.file? (source ++ [filename])).isSome ∧
          (disk.file? (destination ++ [filename])).isSome) := by
      intro kinds
      refine Disk.rename_none failed
        ⟨present, ?_, by simp, separate.1, separate.2, kinds⟩
      rwa [List.dropLast_concat, Disk.isDirectory_iff]
    rw [Disk.isDirectory_iff, Disk.isDirectory_iff] at notBoth
    simp only [Disk.below, List.append_nil]
    cases src : disk.node (source ++ [filename]) with
    | none => simp [src] at present
    | some node =>
        cases dst : disk.node (destination ++ [filename]) with
        | none => exact absurd (.inl dst) fails
        | some other =>
            cases node with
            | file contents =>
                cases other with
                | file others =>
                    exact absurd (.inr (by simp [Disk.file?, src, dst])) fails
                | directory => exact .inr ⟨⟨contents, rfl⟩, rfl⟩
            | directory =>
                cases other with
                | file others => exact .inl ⟨rfl, others, rfl⟩
                | directory => exact absurd ⟨src, dst⟩ notBoth

/-! ## Merging directories -/

theorem mergeDir_merges (listing : Listing Name File) {fuel : Nat}
    (mergeable : Mergeable disk source destination fuel) :
    Merges (mergeDir listing fuel source destination) disk source
      destination := by
  induction fuel generalizing disk source destination with
  | zero =>
      have impossible := mergeable.deep []
      rw [Disk.below_nil, mergeable.sourceDirectory] at impossible
      exact absurd (impossible rfl) (Nat.not_lt_zero _)
  | succ fuel ih =>
      have apart := mergeable.apart
      have children :
          {name | (disk.node (source ++ [name])).isSome}.Finite :=
        mergeable.finite.preimage (List.singleton_injective.injOn)
      have nodup := listing.nodup disk source
      have all := listing.mem_list disk source children
      unfold Merges mergeDir
      rw [ensures_tryCatch, ensures_bind, ensures_get]
      have loop : Ensures
          ((listing.list disk source).foldlM (fun _ filename =>
            mergeEntry (mergeDir listing fuel) source destination filename) ())
          disk
          (fun _ final => Halfway disk final source destination
            (listing.list disk source))
          (fun failure _ =>
            failure.real ∧ Clashing disk source destination) := by
        refine ensures_foldlM (fun done _ state =>
          Halfway disk state source destination done) _ ?_ (by
            constructor <;> simp)
        intro done name rest _ state split halfway
        have fresh : name ∉ done := by
          rw [split] at nodup
          exact fun before => (List.nodup_append.mp nodup).2.2 name before
            name List.mem_cons_self rfl
        have present : (disk.node (source ++ [name])).isSome := by
          rw [← all, split]
          simp
        have here := halfway.sameSource apart fresh
        have there := halfway.sameDestination apart fresh
        have hereTop := here []
        have thereTop := there []
        rw [Disk.below_nil, Disk.below_nil] at hereTop thereTop
        have entry : Merges (mergeEntry (mergeDir listing fuel) source
            destination name) state (source ++ [name])
            (destination ++ [name]) := by
          apply mergeEntry_merges
            ((halfway.top apart).trans mergeable.destinationDirectory) apart
          · rwa [hereTop]
          · intro src dst
            rw [hereTop] at src
            rw [thereTop] at dst
            exact ih ((mergeable.entry src dst).congr here thereTop)
        refine Ensures.mono entry ?_ ?_
        · intro _ final merged
          exact halfway.next apart fresh merged
        · rintro failure _ ⟨real, names, clash⟩
          rw [here, there, ← Disk.below_cons, ← Disk.below_cons] at clash
          exact ⟨real, name :: names, clash⟩
      refine loop.mono ?_ ?_
      · intro _ final halfway
        exact halfway.merged mergeable.sourceDirectory
          mergeable.destinationDirectory all apart
      · rintro failure _ ⟨real, clashing⟩
        rw [ensures_throw]
        exact ⟨real, clashing⟩

/-- The destination has exactly the paths of both trees, with the contents of
the source where it has a file, and with its own elsewhere. -/
structure Overlaid (disk final : Disk Name File)
    (source destination : List Name) : Prop where
  paths : ∀ names, (final.below destination names).isSome ↔
    (disk.below source names).isSome ∨ (disk.below destination names).isSome
  fromSource : ∀ names contents,
    disk.below source names = some (.file contents) →
      final.below destination names = some (.file contents)
  kept : ∀ names,
    (∀ contents, disk.below source names ≠ some (.file contents)) →
      ∀ contents, disk.below destination names = some (.file contents) →
        final.below destination names = some (.file contents)

omit [DecidableEq Name] in
theorem Merged.overlaid (merged : Merged disk final source destination) :
    Overlaid disk final source destination := by
  constructor
  · intro names
    rw [merged.node, Option.isSome_or, Bool.or_eq_true]
  · intro names contents here
    rw [merged.node, here, Option.some_or]
  · intro names noFile contents there
    rw [merged.node]
    cases here : disk.below source names with
    | none => rw [Option.none_or, there]
    | some node =>
        cases node with
        | file contents => exact absurd here (noFile contents)
        | directory =>
            exact absurd ⟨names, .inl ⟨here, contents, there⟩⟩ merged.noClash

/-- The destination has been created, with the directories above it. -/
structure Opened (disk middle : Disk Name File)
    (source destination : List Name) : Prop where
  source : ∀ names, middle.below source names = disk.below source names
  directory : middle.node destination = some .directory
  destination : ∀ names, names ≠ [] →
    middle.below destination names = disk.below destination names

section Opened

variable {middle : Disk Name File}

theorem opened_of_made (apart : Apart source destination)
    (node : ∀ place, middle.node place =
      if place <+: destination then some .directory else disk.node place) :
    Opened disk middle source destination := by
  constructor
  · intro names
    rw [Disk.below, node, if_neg]
    · rfl
    · exact fun above =>
        apart.1 ((List.prefix_append source names).trans above)
  · rw [node, if_pos (List.prefix_refl destination)]
  · intro names proper
    rw [Disk.below, node, if_neg]
    · rfl
    · intro above
      have shorter := above.length_le
      rw [List.length_append] at shorter
      exact proper (List.length_eq_zero_iff.mp (by omega))

omit [DecidableEq Name] in
theorem Opened.overlaid (opened : Opened disk middle source destination)
    (sourceDirectory : disk.node source = some .directory)
    (noFile : disk.file? destination = none)
    (overlaid : Overlaid middle final source destination) :
    Overlaid disk final source destination := by
  constructor
  · intro names
    have paths := overlaid.paths names
    by_cases itself : names = []
    · rw [opened.source, itself, Disk.below_nil, Disk.below_nil,
        sourceDirectory] at paths
      rw [itself, Disk.below_nil, Disk.below_nil, sourceDirectory]
      simpa using paths
    · rwa [opened.source, opened.destination names itself] at paths
  · intro names contents here
    exact overlaid.fromSource names contents
      ((opened.source names).trans here)
  · intro names noContents contents there
    have proper : names ≠ [] := by
      rintro rfl
      rw [Disk.below_nil, ← Disk.file?_eq_some, noFile] at there
      cases there
    apply overlaid.kept names
    · simpa only [opened.source] using noContents
    · rw [opened.destination names proper, there]

omit [DecidableEq Name] in
theorem Opened.clashing (opened : Opened disk middle source destination)
    (sourceDirectory : disk.node source = some .directory)
    (clashing : Clashing middle source destination) :
    Clashing disk source destination := by
  obtain ⟨names, clash⟩ := clashing
  rw [opened.source] at clash
  refine ⟨names, ?_⟩
  by_cases itself : names = []
  · rw [itself, Disk.below_nil, Disk.below_nil, opened.directory,
      sourceDirectory] at clash
    exact absurd clash not_clash_directories
  · rwa [opened.destination names itself] at clash

end Opened

omit [DecidableEq Name] in
theorem top_directory (sourceDirectory : disk.node source = some .directory)
    (apart : Apart source destination) :
    disk.node [] = some .directory := by
  have proper : [] ≠ source := by
    rintro rfl
    exact apart.1 List.nil_prefix
  have present : (disk.node ([] ++ source)).isSome := by
    simp [sourceDirectory]
  exact Disk.directory_above present List.nil_prefix proper

/-- Merging directories ends with an error only where a directory meets a
file, and otherwise lays the source on the destination. -/
theorem mergeDirectories_lossless (listing : Listing Name File)
    (sourceDirectory : disk.node source = some .directory)
    (finite : {names | (disk.below source names).isSome}.Finite)
    (apart : Apart source destination)
    (room : ∀ parent, parent <+: destination → parent ≠ destination →
      disk.file? parent = none) :
    ∃ enough, ∀ fuel, enough ≤ fuel →
      Ensures (mergeDirectories listing fuel source destination) disk
        (fun _ final => Overlaid disk final source destination)
        (fun failure _ =>
          failure.real ∧ Clashing disk source destination) := by
  obtain ⟨bound, deep⟩ := (finite.image List.length).bddAbove
  refine ⟨bound + 1, fun fuel enough => ?_⟩
  have directories := Disk.makeDirectories_inits
    (top_directory sourceDirectory apart) destination
  unfold mergeDirectories
  rw [ensures_bind, ensures_get]
  cases made : disk.makeDirectories destination.inits with
  | none =>
      rw [made] at directories
      obtain ⟨parent, above, file⟩ := directories
      have itself : parent = destination := by
        by_contra other
        rw [room parent above other] at file
        cases file
      obtain ⟨contents, found⟩ := Option.isSome_iff_exists.mp file
      rw [itself, Disk.file?_eq_some] at found
      change True ∧ Clashing disk source destination
      refine ⟨trivial, [], .inl ⟨?_, contents, ?_⟩⟩
      · rw [Disk.below_nil, sourceDirectory]
      · rw [Disk.below_nil, found]
  | some middle =>
      rw [made] at directories
      obtain ⟨noFiles, node⟩ := directories
      have opened := opened_of_made apart node
      have mergeable : Mergeable middle source destination fuel := by
        refine ⟨?_, opened.directory, apart, ?_, ?_⟩
        · rw [← Disk.below_nil, opened.source, Disk.below_nil,
            sourceDirectory]
        · simpa only [opened.source] using finite
        · intro names present
          rw [opened.source] at present
          have short := deep (Set.mem_image_of_mem List.length present)
          omega
      refine (mergeDir_merges listing mergeable).mono ?_ ?_
      · intro _ final merged
        exact opened.overlaid sourceDirectory
          (noFiles destination (List.prefix_refl destination)) merged.overlaid
      · intro failure _ given
        exact ⟨given.1, opened.clashing sourceDirectory given.2⟩

/-- Two directories, each with a file of the same name. -/
def twoDirectories : Disk Bool Nat where
  node
    | [] => some .directory
    | [_] => some .directory
    | [isSource, true] => some (.file (if isSource then 1 else 2))
    | _ => none
  rooted := by
    intro place name present
    match place with
    | [] => rfl
    | [_] => rfl
    | [_, _] => simp at present
    | _ :: _ :: _ :: _ => simp at present

theorem mergeDirectories_lossless_twoDirectories :
    ∃ enough, ∀ fuel, enough ≤ fuel →
      Ensures (mergeDirectories default fuel [true] [false]) twoDirectories
        (fun _ final => final.below [false] [true] = some (.file 1))
        (fun failure _ => failure.real) := by
  have finite : {names | (twoDirectories.below [true] names).isSome}.Finite := by
    refine (Set.toFinite {[], [true]}).subset ?_
    intro names present
    match names with
    | [] => simp
    | [true] => simp
    | [false] => cases present
    | _ :: _ :: _ => simp [Disk.below, twoDirectories] at present
  have room : ∀ parent, parent <+: [false] → parent ≠ [false] →
      twoDirectories.file? parent = none := by
    intro parent above other
    obtain rfl : parent = [] := by
      obtain rfl | first := List.prefix_cons_iff.mp above
      · rfl
      · obtain ⟨rest, rfl, nothing⟩ := first
        exact absurd (by rw [List.prefix_nil.mp nothing]) other
    rfl
  obtain ⟨enough, merges⟩ := mergeDirectories_lossless default rfl finite
    ⟨by decide, by decide⟩ room
  refine ⟨enough, fun fuel many => (merges fuel many).mono ?_ ?_⟩
  · intro _ final overlaid
    exact overlaid.fromSource [true] 1 rfl
  · exact fun _ _ failed => failed.1

end Bacs.Pm.Extractor
