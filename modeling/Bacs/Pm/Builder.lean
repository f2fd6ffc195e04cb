import Bacs.Pm.Distributor

/-!
# Building packages

A source is unpacked by recursion over its source imports, into a directory
that already has some contents; the snapshot of what went into it is collected
on the way.
-/

namespace Bacs.Pm

variable {File Archive Tree : Type} (setting : Setting File Archive Tree)

/-- `merge_maps` as a program. -/
def merge (first second : Snapshot) : PmM File Archive Snapshot :=
  match mergeMaps first second with
  | some merged => pure merged
  | none => throw .assertion

/-- Enter the checksums of one package into a snapshot; if they are there,
assert that they are the same. -/
def addEntry (snapshot : Snapshot) (package : Entry)
    (checksum : SnapshotEntry) : PmM File Archive Snapshot :=
  merge snapshot (Finmap.singleton package checksum)

/-! ## Extraction -/

def extractSource (package : Entry) (source : SourceId)
    (destination : List PathName) (tree : Tree) : PmM File Archive Tree :=
  query setting.faults (.extractSource package source) fun cache => do
    let file ← (cache.files package).source source
    let contents ← setting.externals.unpackSource file
    setting.externals.merge tree destination contents

def extract (kind : Kind) (package : Entry) (destination : List PathName)
    (tree : Tree) : PmM File Archive Tree :=
  query setting.faults (.extract kind package) fun cache => do
    let archive ← ((cache.files package).product kind).archive
    let contents ← setting.externals.unpack archive
    setting.externals.merge tree destination contents

def extractBuild (package : Entry) (destination : List PathName)
    (tree : Tree) : PmM File Archive Tree :=
  extract setting .build package destination tree

def extractInstallation (package : Entry) (destination : List PathName)
    (tree : Tree) : PmM File Archive Tree :=
  extract setting .installation package destination tree

/-- A directory being filled and the snapshot of what is in it. -/
abbrev Unpacked (Tree : Type) := Tree × Snapshot

/-- The body of the loops over the installations a package imports. -/
def importInstallation (destination : List PathName)
    (unpacked : Unpacked Tree) (i : TreeImport) :
    PmM File Archive (Unpacked Tree) := do
  let tree ← extractInstallation setting i.package (destination ++ [i.path])
    unpacked.1
  let imported ← readInstallationSnapshot setting.faults i.package
  let snapshot ← merge unpacked.2 imported
  return (tree, snapshot)

def extractSelf (package : Entry) (destination : List PathName)
    (self : List LocalImport) (tree : Tree) : PmM File Archive Tree :=
  self.foldlM (fun tree i =>
    extractSource setting package i.source (destination ++ [i.path]) tree) tree

def unpackSource : Nat → Entry → List PathName → Unpacked Tree →
    PmM File Archive (Unpacked Tree)
  | 0, _, _, _ => throw .outOfFuel
  | fuel + 1, package, destination, unpacked => do
      let deps ← readIndex setting.faults setting.externals package
      let tree ← extractSelf setting package destination deps.source.self
        unpacked.1
      let checksum ← readChecksum setting.faults setting.externals package
      let snapshot ← addEntry unpacked.2 package checksum
      let sources ← deps.source.importSource.foldlM (fun unpacked i =>
        unpackSource fuel i.package (destination ++ [i.path]) unpacked)
        (tree, snapshot)
      deps.source.importPackage.foldlM
        (importInstallation setting destination) sources

/-! ## Building -/

def buildEmpty (package : Entry) : PmM File Archive Unit := do
  logLine (.buildEmpty package)
  packBuild setting.faults setting.externals package setting.externals.empty
  let checksum ← readChecksumAt setting.faults setting.externals
    (.readEmptyChecksum package) package
  writeSnapshot setting.faults .build package
    (Finmap.singleton package checksum)

def build (fuel : Nat) (package : Entry) : PmM File Archive Unit := do
  logLine (.build package)
  let (source, snapshot) ← unpackSource setting fuel package []
    (setting.externals.empty, ∅)
  let installation ← query setting.faults (.install package) fun _ =>
    setting.externals.install source
  packBuild setting.faults setting.externals package installation
  writeSnapshot setting.faults .build package snapshot

def buildInstallation (fuel : Nat) (package : Entry) :
    PmM File Archive Unit := do
  logLine (.buildInstallation package)
  let built ← extractBuild setting package [] setting.externals.empty
  let snapshot ← readBuildSnapshot setting.faults package
  let deps ← readIndex setting.faults setting.externals package
  let tree ← extractSelf setting package [] deps.package.self built
  let sources ← deps.package.importSource.foldlM (fun unpacked i =>
    unpackSource setting fuel i.package [i.path] unpacked) (tree, snapshot)
  let (installation, snapshot) ← deps.package.importPackage.foldlM
    (importInstallation setting []) sources
  packInstallation setting.faults setting.externals package installation
  writeSnapshot setting.faults .installation package snapshot

end Bacs.Pm
