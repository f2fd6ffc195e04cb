import Bacs.Foundation.Subtrees
import Bacs.Pm.RoundTrip

/-!
# Trees of package directories

`create_recursively` makes a source package of every directory with an index,
and it goes into all directories but those that were packed.
-/

namespace Bacs.Pm.Publishing

open LexicalPath Disk

variable {File Archive Tree : Type}
  (publisher : Publisher File Archive Tree) (format : Format)

/-! ## The recursion -/

/-- The package of the directory is created if it has an index; then its index
and its sources are ignored. -/
def createHere (strip : Bool) (root : List String)
    (disk : Disk String File) : Option (Disk String File × List String) :=
  match disk.file? (locate root format.getIndex) with
  | none => some (disk, [])
  | some _ => do
      let disk ← create publisher format root strip disk
      let indexFile ← disk.file? (locate root format.getIndex)
      let index ← publisher.parseIndex indexFile
      return (disk, format.getIndex :: index.sources)

def visitEntry
    (recurse : List String → Disk String File → Option (Disk String File))
    (root ignore : List String) (name : String) (disk : Disk String File) :
    Option (Disk String File) :=
  if disk.isDirectory (root ++ [name]) ∧ name ∉ ignore then
    recurse (root ++ [name]) disk
  else some disk

/-- `create_recursively`; with too little fuel it fails as well. -/
def createRecursively (listing : Listing String File) (strip : Bool) :
    Nat → List String → Disk String File → Option (Disk String File)
  | 0, _, _ => none
  | fuel + 1, root, disk => do
      let (disk, ignore) ← createHere publisher format strip root disk
      if disk.isDirectory root then
        (listing.list disk root).foldlM (fun disk name =>
          visitEntry (createRecursively listing strip fuel) root ignore name
            disk) disk
      else none

/-! ## The packages of a tree -/

def indexAt (disk : Disk String File) (place : List String) : Option Index :=
  (disk.file? (locate place format.getIndex)).bind publisher.parseIndex

/-- The entries of a directory that it does not go into. -/
def ignored (disk : Disk String File) (place : List String) : List String :=
  match indexAt publisher format disk place with
  | some index => format.getIndex :: index.sources
  | none => []

/-- The directories that it goes into. -/
inductive Reaches (disk : Disk String File) (root : List String) :
    List String → Prop where
  | root : Reaches disk root root
  | entry {place : List String} {name : String}
      (reached : Reaches disk root place)
      (directory : disk.isDirectory (place ++ [name]) = true)
      (kept : name ∉ ignored publisher format disk place) :
      Reaches disk root (place ++ [name])

structure PackageAt (disk : Disk String File) (root place : List String) :
    Prop where
  reached : Reaches publisher format disk root place
  index : (disk.file? (locate place format.getIndex)).isSome = true

/-- The entries of a package directory that are read or written. -/
def ownNames (index : Index) : List String :=
  format.getIndex :: format.getChecksum ::
    (index.sources ++ index.sources.map (· ++ format.archiveSuffix))

def Owns (disk : Disk String File) (place other : List String) : Prop :=
  ∃ index, indexAt publisher format disk place = some index ∧
    ∃ name ∈ ownNames format index, place ++ [name] <+: other

/-- All that the index names are entries of its directory. -/
structure Tidy (keeps : String → Prop) (format : Format) (strip : Bool)
    (index : Index) : Prop where
  clear : Clear keeps format strip index.sources
  plain : Plain format index.sources
  here : "." ∉ index.sources
  above : ".." ∉ index.sources

/-- What is below a directory can be walked with the fuel, and its packages
are tidy. -/
structure Walkable (keeps : String → Prop) (strip : Bool) (fuel : Nat)
    (disk : Disk String File) (root : List String) : Prop where
  finite : {names | (disk.node (root ++ names)).isSome}.Finite
  shallow : ∀ names, (disk.node (root ++ names)).isSome →
    names.length < fuel
  tidy : ∀ place index, PackageAt publisher format disk root place →
    indexAt publisher format disk place = some index →
    Tidy keeps format strip index

/-! ## Names -/

variable {publisher format} {keeps : String → Prop} {strip : Bool}
  {disk final first second : Disk String File} {root place : List String}
  {index : Index}

theorem Tidy.locate_source (tidy : Tidy keeps format strip index)
    (sound : publisher.Sound keeps) (place : List String)
    {srcName : SourceId} (member : srcName ∈ index.sources) :
    locate place srcName = place ++ [srcName] := by
  apply locate_name
  · intro separator
    apply tidy.plain srcName member
    simp [separator]
  · intro same
    exact sound.losesEmpty (same ▸ tidy.clear.kept srcName member)
  · constructor
    · intro same
      exact tidy.here (same ▸ member)
    · intro same
      exact tidy.above (same ▸ member)

/-- A name that is only continued by a suffix is not one of the two special
ones, unless it was before. -/
theorem append_ne_special {first second : String} (proper : first ≠ "")
    (here : first ≠ ".") (above : first ≠ "..") :
    first ++ second ≠ "." ∧ first ++ second ≠ ".." := by
  have filled : first.toList ≠ [] := by simpa using proper
  have dot : first.toList ≠ ['.'] := fun same =>
    here (String.toList_injective same)
  have dots : first.toList ≠ ['.', '.'] := fun same =>
    above (String.toList_injective same)
  constructor
  · intro same
    have lists := congrArg String.toList same
    rw [String.toList_append] at lists
    rcases List.append_eq_singleton_iff.mp lists with
      ⟨empty, _⟩ | ⟨all, _⟩
    · exact filled empty
    · exact dot all
  · intro same
    have lists := congrArg String.toList same
    rw [String.toList_append] at lists
    have within : first.toList <+: ['.', '.'] := ⟨second.toList, lists⟩
    rcases List.prefix_concat_iff.mp
      (show first.toList <+: ['.'] ++ ['.'] from within) with all | shorter
    · exact dots all
    · rcases List.prefix_concat_iff.mp
        (show first.toList <+: [] ++ ['.'] from shorter) with all | empty
      · exact dot all
      · exact filled (List.prefix_nil.mp empty)

theorem Tidy.locate_archive (tidy : Tidy keeps format strip index)
    (sound : publisher.Sound keeps) (place : List String)
    {srcName : SourceId} (member : srcName ∈ index.sources) :
    archivePlace format place srcName =
      place ++ [srcName ++ format.archiveSuffix] := by
  have proper : srcName ≠ "" := by
    intro same
    exact sound.losesEmpty (same ▸ tidy.clear.kept srcName member)
  apply locate_name (tidy.plain srcName member)
  · intro same
    have lists := congrArg String.toList same
    rw [String.toList_append] at lists
    apply proper
    apply String.toList_injective
    exact (List.append_eq_nil_iff.mp lists).1
  · apply append_ne_special proper
    · intro same
      exact tidy.here (same ▸ member)
    · intro same
      exact tidy.above (same ▸ member)

theorem Tidy.locate_getIndex (tidy : Tidy keeps format strip index)
    (place : List String) :
    locate place format.getIndex = place ++ [format.getIndex] := by
  rw [getIndex_default tidy.clear.index, locate_index]

theorem Tidy.locate_getChecksum (tidy : Tidy keeps format strip index)
    (place : List String) :
    locate place format.getChecksum = place ++ [format.getChecksum] := by
  rw [getChecksum_default tidy.clear.index, locate_checksum]

end Bacs.Pm.Publishing
