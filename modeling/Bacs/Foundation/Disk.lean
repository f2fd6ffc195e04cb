import Mathlib.Data.List.Infix
import Mathlib.Data.Set.Finite.Basic
import Mathlib.Logic.Function.Basic

/-!
# Disks

A disk gives every place, the list of names that leads to it, a file, a
directory or nothing.  What is on a disk is in a directory.
-/

namespace Bacs

inductive Node (File : Type*) where
  | file (contents : File)
  | directory
  deriving DecidableEq, Repr

structure Disk (Name File : Type*) where
  node : List Name → Option (Node File)
  rooted : ∀ place name, (node (place ++ [name])).isSome →
    node place = some .directory

namespace Disk

variable {Name File : Type*} {disk final : Disk Name File}
  {place other tree : List Name} {contents : File}

def file? (disk : Disk Name File) (place : List Name) : Option File :=
  match disk.node place with
  | some (.file contents) => some contents
  | _ => none

def isDirectory (disk : Disk Name File) (place : List Name) : Bool :=
  match disk.node place with
  | some .directory => true
  | _ => false

@[simp] theorem isDirectory_iff :
    disk.isDirectory place = true ↔ disk.node place = some .directory := by
  unfold isDirectory
  split <;> simp_all

@[simp] theorem file?_eq_some :
    disk.file? place = some contents ↔
      disk.node place = some (.file contents) := by
  unfold file?
  split <;> simp_all

theorem file?_congr {first second : Disk Name File}
    (same : second.node place = first.node place) :
    second.file? place = first.file? place := by
  unfold file?
  rw [same]

theorem parent_directory (present : (disk.node place).isSome)
    (proper : place ≠ []) : disk.node place.dropLast = some .directory := by
  apply disk.rooted place.dropLast (place.getLast proper)
  rw [List.dropLast_append_getLast]
  exact present

theorem node_below_eq_none (absent : disk.node place ≠ some .directory)
    {names : List Name} (proper : names ≠ []) :
    disk.node (place ++ names) = none := by
  induction names using List.reverseRecOn with
  | nil => exact absurd rfl proper
  | append_singleton names name ih =>
      by_contra present
      have directory := disk.rooted (place ++ names) name (by
        rw [List.append_assoc, Option.isSome_iff_ne_none]
        exact present)
      by_cases top : names = []
      · rw [top, List.append_nil] at directory
        exact absent directory
      · rw [ih top] at directory
        cases directory

theorem directory_above {names above : List Name}
    (present : (disk.node (place ++ names)).isSome) (within : above <+: names)
    (proper : above ≠ names) :
    disk.node (place ++ above) = some .directory := by
  obtain ⟨rest, rfl⟩ := within
  by_contra absent
  rw [← List.append_assoc, node_below_eq_none absent (by simpa using proper)]
    at present
  cases present

theorem isSome_above {names above : List Name}
    (present : (disk.node (place ++ names)).isSome)
    (within : above <+: names) : (disk.node (place ++ above)).isSome := by
  by_cases itself : above = names
  · rw [itself]
    exact present
  · rw [directory_above present within itself]
    rfl

/-- What is below a place, as seen from there. -/
def below (disk : Disk Name File) (place names : List Name) :
    Option (Node File) :=
  disk.node (place ++ names)

theorem below_nil (place : List Name) :
    disk.below place [] = disk.node place := by
  rw [below, List.append_nil]

theorem below_cons (place : List Name) (name : Name) (names : List Name) :
    disk.below place (name :: names) = disk.below (place ++ [name]) names := by
  rw [below, below, List.append_assoc, List.singleton_append]

theorem isSome_of_below {names : List Name} {node : Node File}
    (found : disk.below place names = some node) :
    (disk.node (place ++ names)).isSome := by
  change (disk.below place names).isSome
  rw [found]
  rfl

/-- Writing makes a file out of nothing or out of a file, and changes nothing
else: whatever is there keeps its kind. -/
structure Grown (disk final : Disk Name File) : Prop where
  directory : ∀ place, disk.node place = some .directory →
    final.node place = some .directory
  file : ∀ place, (disk.file? place).isSome → (final.file? place).isSome

theorem Grown.refl (disk : Disk Name File) : Grown disk disk :=
  ⟨fun _ present => present, fun _ present => present⟩

theorem Grown.trans {middle : Disk Name File} (first : Grown disk middle)
    (second : Grown middle final) : Grown disk final := by
  constructor
  · intro place present
    exact second.directory place (first.directory place present)
  · intro place present
    exact second.file place (first.file place present)

/-- A place is not both a file and a directory, now or after writing. -/
theorem Grown.not_directory (grown : Grown disk final)
    (present : disk.file? place = some contents) :
    final.node place ≠ some .directory := by
  intro directory
  have stays := grown.file place (by simp [present])
  simp [file?, directory] at stays

/-- Only files and directories that were there are left. -/
structure Shrunk (disk final : Disk Name File) : Prop where
  node : ∀ place, final.node place = disk.node place ∨
    final.node place = none

theorem Shrunk.trans {middle : Disk Name File} (first : Shrunk disk middle)
    (second : Shrunk middle final) : Shrunk disk final := by
  constructor
  intro place
  obtain same | gone := second.node place
  · rw [same]
    exact first.node place
  · exact .inr gone

/-- Only finitely many places have something. -/
def Finite (disk : Disk Name File) : Prop :=
  {place | (disk.node place).isSome}.Finite

theorem Finite.entries (finite : disk.Finite) (place : List Name) :
    {name | (disk.node (place ++ [name])).isSome}.Finite := by
  apply Set.Finite.preimage _ finite
  intro first _ second _ same
  simpa using same

/-- All that was there is there unchanged, and finitely much is new. -/
structure Kept (disk final : Disk Name File) : Prop where
  node : ∀ place, (disk.node place).isSome →
    final.node place = disk.node place
  finite : disk.Finite → final.Finite

theorem Kept.refl (disk : Disk Name File) : Kept disk disk :=
  ⟨fun _ _ => rfl, fun finite => finite⟩

theorem Kept.trans {middle : Disk Name File} (first : Kept disk middle)
    (second : Kept middle final) : Kept disk final := by
  constructor
  · intro place present
    have same := first.node place present
    rw [← same] at present ⊢
    exact second.node place present
  · intro finite
    exact second.finite (first.finite finite)

theorem Kept.found {node : Node File} (kept : Kept disk final)
    (found : disk.node place = some node) : final.node place = some node := by
  rw [kept.node place (by simp [found]), found]

theorem Kept.absent (kept : Kept disk final)
    (nothing : final.node place = none) : disk.node place = none := by
  by_contra present
  have same := kept.node place (Option.isSome_iff_ne_none.mpr present)
  rw [nothing] at same
  exact present same.symm

theorem Kept.isDirectory (kept : Kept disk final)
    (directory : disk.isDirectory place = true) :
    final.isDirectory place = true :=
  isDirectory_iff.mpr (kept.found (isDirectory_iff.mp directory))

variable [DecidableEq Name]

/-- Write a file: into a directory, and never over one. -/
def write (disk : Disk Name File) (place : List Name) (contents : File) :
    Option (Disk Name File) :=
  if writable : disk.isDirectory place.dropLast ∧ ¬ disk.isDirectory place
  then some
    { node := Function.update disk.node place (some (.file contents))
      rooted := by
        intro parent name present
        by_cases written : parent ++ [name] = place
        · subst written
          rw [Function.update_of_ne (by simp)]
          simpa using isDirectory_iff.mp writable.1
        · rw [Function.update_of_ne written] at present
          have inside := disk.rooted parent name present
          by_cases itself : parent = place
          · subst itself
            exact absurd (isDirectory_iff.mpr inside) writable.2
          · rw [Function.update_of_ne itself]
            exact inside }
  else none

def removeAll (disk : Disk Name File) (tree : List Name) : Disk Name File :=
  { node := fun place => if tree <+: place then none else disk.node place
    rooted := by
      intro parent name present
      by_cases inside : tree <+: parent ++ [name]
      · simp [inside] at present
      · simp only [inside, if_false] at present
        have outside : ¬ tree <+: parent := by
          intro above
          exact inside (above.trans (List.prefix_append parent [name]))
        simp only [outside, if_false]
        exact disk.rooted parent name present }

theorem rooted_update (absent : disk.node place = none)
    (inside : disk.isDirectory place.dropLast) (node : Node File)
    (parent : List Name) (name : Name)
    (present : (Function.update disk.node place (some node)
      (parent ++ [name])).isSome) :
    Function.update disk.node place (some node) parent = some .directory := by
  by_cases created : parent ++ [name] = place
  · subst created
    rw [Function.update_of_ne (by simp)]
    simpa using isDirectory_iff.mp inside
  · rw [Function.update_of_ne created] at present
    have directory := disk.rooted parent name present
    by_cases itself : parent = place
    · subst itself
      rw [absent] at directory
      cases directory
    · rw [Function.update_of_ne itself]
      exact directory

/-- Create something in a directory, where nothing is yet. -/
def create (disk : Disk Name File) (place : List Name) (node : Node File) :
    Option (Disk Name File) :=
  if creatable : disk.node place = none ∧ disk.isDirectory place.dropLast ∧
      place ≠ [] then
    some
      { node := Function.update disk.node place (some node)
        rooted := rooted_update creatable.1 creatable.2.1 node }
  else none

def makeDirectory (disk : Disk Name File) (place : List Name) :
    Option (Disk Name File) :=
  if disk.isDirectory place then some disk
  else if creatable : disk.node place = none ∧
      disk.isDirectory place.dropLast ∧ place ≠ [] then
    some
      { node := Function.update disk.node place (some .directory)
        rooted := rooted_update creatable.1 creatable.2.1 .directory }
  else none

/-- Create the directories on the way to a place, from the top. -/
def makeDirectories (disk : Disk Name File) (places : List (List Name)) :
    Option (Disk Name File) :=
  places.foldlM makeDirectory disk

/-- Put a tree into the place of a directory and of all that is in it. -/
def graft (disk : Disk Name File) (place : List Name)
    (tree : Disk Name File) : Option (Disk Name File) :=
  if graftable : disk.isDirectory place ∧ tree.isDirectory [] then
    some
      { node := fun other =>
          if place <+: other then tree.node (other.drop place.length)
          else disk.node other
        rooted := by
          intro parent name present
          by_cases inside : place <+: parent
          · have longer : place <+: parent ++ [name] :=
              inside.trans (List.prefix_append parent [name])
            rw [if_pos longer,
              List.drop_append_of_le_length inside.length_le] at present
            rw [if_pos inside]
            exact tree.rooted _ name present
          · rw [if_neg inside]
            apply disk.rooted parent name
            by_cases itself : place <+: parent ++ [name]
            · obtain same | above := List.prefix_concat_iff.mp itself
              · rw [← same, isDirectory_iff.mp graftable.1]
                rfl
              · exact absurd above inside
            · rw [if_neg itself] at present
              exact present }
  else none

/-- What `rename` moves: a file to where there is a file or nothing, or a
directory to where there is nothing.  An empty directory in the place of a
directory is left out. -/
def Renamable (disk : Disk Name File) (src dst : List Name) : Prop :=
  (disk.node src).isSome ∧ disk.isDirectory dst.dropLast ∧ dst ≠ [] ∧
    ¬ src <+: dst ∧ ¬ dst <+: src ∧
    (disk.node dst = none ∨
      (disk.file? src).isSome ∧ (disk.file? dst).isSome)

instance (disk : Disk Name File) (src dst : List Name) :
    Decidable (disk.Renamable src dst) :=
  inferInstanceAs (Decidable (_ ∧ _))

def rename (disk : Disk Name File) (src dst : List Name) :
    Option (Disk Name File) :=
  if renamable : disk.Renamable src dst then
    some
      { node := fun place =>
          if src <+: place then none
          else if dst <+: place then disk.node (src ++ place.drop dst.length)
          else disk.node place
        rooted := by
          obtain ⟨_, directory, proper, _, _, _⟩ := renamable
          intro parent name present
          have longer : parent <+: parent ++ [name] :=
            List.prefix_append parent [name]
          by_cases moved : src <+: parent ++ [name]
          · simp [moved] at present
          rw [if_neg moved] at present
          rw [if_neg fun above => moved (above.trans longer)]
          by_cases inside : dst <+: parent
          · rw [if_pos (inside.trans longer),
              List.drop_append_of_le_length inside.length_le,
              ← List.append_assoc] at present
            rw [if_pos inside]
            exact disk.rooted _ name present
          · rw [if_neg inside]
            by_cases itself : dst <+: parent ++ [name]
            · obtain same | above := List.prefix_concat_iff.mp itself
              · rw [same, List.dropLast_concat] at directory
                exact isDirectory_iff.mp directory
              · exact absurd above inside
            · rw [if_neg itself] at present
              exact disk.rooted parent name present }
  else none

/-! ## Writing -/

theorem write_spec (written : disk.write place contents = some final) :
    disk.node place ≠ some .directory ∧
      final.node =
        Function.update disk.node place (some (.file contents)) := by
  unfold write at written
  split at written
  · rename_i writable
    cases written
    exact ⟨mt isDirectory_iff.mpr writable.2, rfl⟩
  · cases written

theorem node_write_self (written : disk.write place contents = some final) :
    final.node place = some (.file contents) := by
  rw [(write_spec written).2, Function.update_self]

theorem node_write_of_ne (written : disk.write place contents = some final)
    (different : other ≠ place) : final.node other = disk.node other := by
  rw [(write_spec written).2, Function.update_of_ne different]

theorem Grown.of_write (written : disk.write place contents = some final) :
    Grown disk final := by
  constructor
  · intro other present
    have different : other ≠ place := by
      intro same
      subst same
      exact (write_spec written).1 present
    rw [node_write_of_ne written different]
    exact present
  · intro other present
    by_cases different : other = place
    · subst different
      simp [file?, node_write_self written]
    · rw [file?_congr (node_write_of_ne written different)]
      exact present

/-! ## Removing -/

theorem node_removeAll :
    (disk.removeAll tree).node place =
      if tree <+: place then none else disk.node place :=
  rfl

theorem Shrunk.of_removeAll (tree : List Name) :
    Shrunk disk (disk.removeAll tree) := by
  constructor
  intro place
  rw [node_removeAll]
  split
  · exact .inr rfl
  · exact .inl rfl

/-! ## Renaming -/

section Rename

variable {src dst : List Name}

theorem rename_spec (renamed : disk.rename src dst = some final) :
    disk.Renamable src dst ∧ ∀ place, final.node place =
      if src <+: place then none
      else if dst <+: place then disk.node (src ++ place.drop dst.length)
      else disk.node place := by
  unfold rename at renamed
  split at renamed
  case isTrue renamable =>
    cases renamed
    exact ⟨renamable, fun _ => rfl⟩
  case isFalse => cases renamed

theorem node_rename (renamed : disk.rename src dst = some final)
    (names : List Name) :
    final.node (dst ++ names) = disk.node (src ++ names) := by
  obtain ⟨⟨_, _, _, notAbove, notBelow, _⟩, node⟩ := rename_spec renamed
  have outside : ¬ src <+: dst ++ names := by
    intro above
    rcases List.prefix_or_prefix_of_prefix above
      (List.prefix_append dst names) with first | second
    · exact notAbove first
    · exact notBelow second
  rw [node, if_neg outside, if_pos (List.prefix_append dst names),
    List.drop_left]

theorem node_rename_outside (renamed : disk.rename src dst = some final)
    (notSource : ¬ src <+: place) (notDestination : ¬ dst <+: place) :
    final.node place = disk.node place := by
  rw [(rename_spec renamed).2, if_neg notSource, if_neg notDestination]

theorem rename_none (failed : disk.rename src dst = none) :
    ¬ disk.Renamable src dst := by
  unfold rename at failed
  split at failed
  case isTrue => cases failed
  case isFalse fails => exact fails

end Rename

/-! ## Creating -/

theorem create_spec {node : Node File}
    (created : disk.create place node = some final) :
    disk.node place = none ∧
      final.node = Function.update disk.node place (some node) := by
  unfold create at created
  split at created
  case isTrue creatable =>
    cases created
    exact ⟨creatable.1, rfl⟩
  case isFalse => cases created

theorem Kept.of_create {node : Node File}
    (created : disk.create place node = some final) : Kept disk final := by
  obtain ⟨absent, update⟩ := create_spec created
  constructor
  · intro other present
    have different : other ≠ place := by
      rintro rfl
      rw [absent] at present
      cases present
    rw [update, Function.update_of_ne different]
  · intro finite
    apply (finite.union (Set.finite_singleton place)).subset
    intro other present
    by_cases different : other = place
    · exact .inr different
    · refine .inl ?_
      change (final.node other).isSome at present
      rw [update, Function.update_of_ne different] at present
      exact present

/-! ## Directories -/

theorem makeDirectory_spec (made : disk.makeDirectory place = some final) :
    disk.file? place = none ∧
      final.node = Function.update disk.node place (some .directory) := by
  unfold makeDirectory at made
  split at made
  · rename_i there
    cases made
    have there := isDirectory_iff.mp there
    constructor
    · unfold file?
      rw [there]
    · rw [← there, Function.update_eq_self]
  · split at made
    · rename_i creatable
      cases made
      constructor
      · unfold file?
        rw [creatable.1]
      · rfl
    · cases made

/-- Below a directory everything that is no file becomes a directory. -/
theorem makeDirectory_below (directory : disk.isDirectory place.dropLast)
    (proper : place ≠ []) (noFile : disk.file? place = none) :
    ∃ final, disk.makeDirectory place = some final := by
  unfold makeDirectory
  split
  case isTrue => exact ⟨_, rfl⟩
  case isFalse absent =>
    have nothing : disk.node place = none := by
      cases found : disk.node place with
      | none => rfl
      | some node =>
          cases node with
          | directory => exact absurd (isDirectory_iff.mpr found) absent
          | file contents => simp [file?, found] at noFile
    rw [dif_pos ⟨nothing, directory, proper⟩]
    exact ⟨_, rfl⟩

/-- All directories on the way are made, unless a file is there. -/
theorem makeDirectories_inits (top : disk.node [] = some .directory)
    (place : List Name) :
    match disk.makeDirectories place.inits with
    | some final =>
        (∀ parent, parent <+: place → disk.file? parent = none) ∧
          ∀ other, final.node other =
            if other <+: place then some .directory else disk.node other
    | none => ∃ parent, parent <+: place ∧ (disk.file? parent).isSome := by
  induction place using List.reverseRecOn with
  | nil =>
      have same : disk.makeDirectories [].inits = some disk := by
        simp [makeDirectories, makeDirectory, top]
      rw [same]
      constructor
      · intro parent above
        simp [List.prefix_nil.mp above, file?, top]
      · intro other
        split
        case isTrue first => rw [List.prefix_nil.mp first, top]
        case isFalse => rfl
  | append_singleton place name ih =>
      have split : disk.makeDirectories (place ++ [name]).inits =
          (disk.makeDirectories place.inits).bind
            (·.makeDirectory (place ++ [name])) := by
        simp [makeDirectories, List.inits_append, List.foldlM_append]
      rw [split]
      cases made : disk.makeDirectories place.inits with
      | none =>
          rw [made] at ih
          obtain ⟨parent, above, file⟩ := ih
          exact ⟨parent, above.trans (List.prefix_append place [name]), file⟩
      | some middle =>
          rw [made] at ih
          obtain ⟨noFiles, ih⟩ := ih
          have here : middle.node (place ++ [name]) =
              disk.node (place ++ [name]) := by
            rw [ih, if_neg]
            intro longer
            have shorter := longer.length_le
            rw [List.length_append, List.length_singleton] at shorter
            omega
          have parent : middle.isDirectory (place ++ [name]).dropLast := by
            rw [List.dropLast_concat, isDirectory_iff, ih,
              if_pos (List.prefix_refl place)]
          cases blocked : disk.file? (place ++ [name]) with
          | some contents =>
              rw [Option.bind_some]
              cases last : middle.makeDirectory (place ++ [name]) with
              | none => exact ⟨_, List.prefix_refl _, by simp [blocked]⟩
              | some final =>
                  have noFile := (makeDirectory_spec last).1
                  rw [file?_congr here, blocked] at noFile
                  cases noFile
          | none =>
              obtain ⟨final, last⟩ := makeDirectory_below parent (by simp)
                ((file?_congr here).trans blocked)
              rw [Option.bind_some, last]
              refine ⟨?_, fun other => ?_⟩
              · intro parent above
                obtain rfl | before := List.prefix_concat_iff.mp above
                · exact blocked
                · exact noFiles parent before
              rw [(makeDirectory_spec last).2]
              by_cases itself : other = place ++ [name]
              · rw [itself, Function.update_self,
                  if_pos (List.prefix_refl _)]
              · rw [Function.update_of_ne itself, ih]
                simp [List.prefix_concat_iff, itself]

theorem graft_spec {grafted : Disk Name File}
    (done : disk.graft place grafted = some final) :
    disk.node place = some .directory ∧
      grafted.node [] = some .directory ∧
        ∀ other, final.node other =
          if place <+: other then grafted.node (other.drop place.length)
          else disk.node other := by
  unfold graft at done
  split at done
  · rename_i graftable
    cases done
    exact ⟨isDirectory_iff.mp graftable.1, isDirectory_iff.mp graftable.2,
      fun _ => rfl⟩
  · cases done

theorem node_graft {grafted : Disk Name File} {names : List Name}
    (done : disk.graft place grafted = some final) :
    final.node (place ++ names) = grafted.node names := by
  rw [(graft_spec done).2.2, if_pos (List.prefix_append place names),
    List.drop_left]

end Disk

/-! ## Listing directories -/

/-- The order in which the entries of directories are listed. -/
structure Listing (Name File : Type*) where
  list : Disk Name File → List Name → List Name
  nodup : ∀ disk place, (list disk place).Nodup
  mem_list : ∀ disk place,
    {name | (disk.node (place ++ [name])).isSome}.Finite →
      ∀ name, name ∈ list disk place ↔ (disk.node (place ++ [name])).isSome

namespace Listing

variable {Name File : Type*} [DecidableEq Name] {disk : Disk Name File}
  {place way : List Name} {name : Name}

def toward (listing : Listing Name File) (way : List Name) :
    Listing Name File where
  list disk place :=
    (listing.list disk place).filter (fun name => place ++ [name] <+: way) ++
      (listing.list disk place).filter fun name =>
        !decide (place ++ [name] <+: way)
  nodup disk place := by
    rw [(List.filter_append_perm _ _).nodup_iff]
    exact listing.nodup disk place
  mem_list disk place finite name := by
    rw [(List.filter_append_perm _ _).mem_iff]
    exact listing.mem_list disk place finite name

theorem toward_list (listing : Listing Name File)
    (onWay : place ++ [name] <+: way)
    (member : name ∈ listing.list disk place) :
    ∃ rest, (listing.toward way).list disk place = name :: rest := by
  have chosen : name ∈ (listing.list disk place).filter
      (fun name => place ++ [name] <+: way) := by
    rw [List.mem_filter]
    exact ⟨member, decide_eq_true onWay⟩
  cases split : (listing.list disk place).filter
      (fun name => place ++ [name] <+: way) with
  | nil =>
      rw [split] at chosen
      cases chosen
  | cons first others =>
      have also : place ++ [first] <+: way := by
        have member : first ∈ (listing.list disk place).filter
            (fun name => place ++ [name] <+: way) := by
          rw [split]
          exact List.mem_cons_self
        exact of_decide_eq_true (List.mem_filter.mp member).2
      have same : first = name := by
        have shorter := List.prefix_of_prefix_length_le also onWay (by simp)
        rw [List.prefix_append_right_inj] at shorter
        simpa using shorter
      rw [← same]
      refine ⟨others ++ (listing.list disk place).filter
        (fun name => !decide (place ++ [name] <+: way)), ?_⟩
      change (listing.list disk place).filter _ ++ _ = _
      rw [split, List.cons_append]

end Listing

open Classical in
/-- Finite directories can be listed. -/
noncomputable instance {Name File : Type*} : Inhabited (Listing Name File) where
  default := {
    list := fun disk place =>
      if finite : {name | (disk.node (place ++ [name])).isSome}.Finite then
        finite.toFinset.toList
      else []
    nodup := by
      intro disk place
      split
      · exact Finset.nodup_toList _
      · exact List.nodup_nil
    mem_list := by
      intro disk place finite name
      rw [dif_pos finite, Finset.mem_toList, Set.Finite.mem_toFinset]
      rfl }

end Bacs
