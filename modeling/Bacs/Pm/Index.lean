import Bacs.Pm.Entry
import Mathlib.Data.Finmap
import Mathlib.Data.List.Sort

/-!
# Package indexes and snapshots

The index of a package says which archives it consists of and which other
packages it imports, for its source and for its installation.  A snapshot
lists the checksums of the files of several packages.
-/

namespace Bacs.Pm

/-- The name of an archive of a package, without suffix. -/
abbrev SourceId := String

/-- One step of a path in a directory where something is unpacked. -/
abbrev PathName := String

structure TreeImport where
  path : PathName
  package : Entry
  deriving DecidableEq, Repr

structure LocalImport where
  path : PathName
  source : SourceId
  deriving DecidableEq, Repr

structure PackageStage where
  importSource : List TreeImport
  importPackage : List TreeImport
  self : List LocalImport
  deriving DecidableEq, Repr

namespace PackageStage

def empty (stage : PackageStage) : Bool :=
  stage.self.isEmpty && stage.importPackage.isEmpty &&
    stage.importSource.isEmpty

/-- The packages of all imports; `all` makes a set of them. -/
def imports (stage : PackageStage) : List Entry :=
  stage.importPackage.map (·.package) ++ stage.importSource.map (·.package)

def makeAbsolute (stage : PackageStage) (root : Entry) : PackageStage :=
  { stage with
    importSource := stage.importSource.map fun i =>
      { i with package := i.package.makeAbsolute root }
    importPackage := stage.importPackage.map fun i =>
      { i with package := i.package.makeAbsolute root } }

end PackageStage

structure Index where
  source : PackageStage
  package : PackageStage
  deriving DecidableEq, Repr

namespace Index

/-- The imported packages as a `std::set` lists them. -/
def all (index : Index) : List Entry :=
  ((index.source.imports ++ index.package.imports).dedup).insertionSort
    Entry.before

def sources (index : Index) : List SourceId :=
  (index.source.self.map (·.source) ++
    index.package.self.map (·.source)).dedup

def absolute (index : Index) (root : Entry) : Index :=
  { source := index.source.makeAbsolute root
    package := index.package.makeAbsolute root }

theorem mem_all {index : Index} {entry : Entry} :
    entry ∈ index.all ↔
      entry ∈ index.source.imports ∨ entry ∈ index.package.imports := by
  simp [all]

theorem mem_sources {index : Index} {source : SourceId} :
    source ∈ index.sources ↔
      source ∈ index.source.self.map (·.source) ∨
        source ∈ index.package.self.map (·.source) := by
  simp [sources]

end Index

abbrev Checksum := String

/-- `snapshot_entry`: the checksums of the files of one package. -/
abbrev SnapshotEntry := Finmap fun _ : String => Checksum

abbrev Snapshot := Finmap fun _ : Entry => SnapshotEntry

/-- The loop of `merge_maps`, which inserts the entries that are missing and
asserts that those present are equal; `none` stands for a failed assertion. -/
def mergeMaps (first second : Snapshot) : Option Snapshot :=
  if ∀ entry ∈ second.keys,
      entry ∉ first ∨ first.lookup entry = second.lookup entry
  then some (first ∪ second) else none

end Bacs.Pm
