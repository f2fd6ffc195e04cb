import Mathlib
import Bacs.Foundation.Disk
import Bacs.Foundation.LexicalPath
import Bacs.Pm.Distributor

/-!
# Packages under the names of their files

A package directory is made ready for publishing in place: each of its
sources is packed into an archive beside it, and a checksum file is written.
A repository fetches these files into a directory of its cache.  The format
gives their names on both sides, and two of them may be the same.
-/

namespace Bacs.Pm.Publishing

open LexicalPath

variable {File Archive Tree : Type}

/-- The archiver of the format, on what is below the directory that it runs
in, and the writer of the checksum file. -/
structure Publisher (File Archive Tree : Type)
    extends Externals File Archive Tree where
  packFrom : (List String → Option (Node File)) → Option File
  writeChecksum : SnapshotEntry → File

variable (publisher : Publisher File Archive Tree) (format : Format)

/-! ## Creating -/

section Create

variable (source : List String)

/-- The place of `source / name`. -/
def locate (name : String) : List String :=
  walk source (stepsOf name)

def packContents (archive file : List String) (disk : Disk String File) :
    Option (Disk String File) :=
  if disk.isDirectory file then do
    let packed ← publisher.packFrom (disk.below file)
    disk.write archive packed
  else none

/-- The body of the loop over the sources; a source that does not exist
cannot be packed either. -/
def packSource (state : Disk String File × SnapshotEntry)
    (srcName : SourceId) : Option (Disk String File × SnapshotEntry) := do
  let dst := locate source (srcName ++ format.archiveSuffix)
  let disk ← packContents publisher dst (locate source srcName) state.1
  let file ← disk.file? dst
  return (disk, state.2.insert srcName (publisher.checksum file))

/-- `remove_all`, which removes a directory last and by the path it is given;
`.` cannot be removed. -/
def removeSource (disk : Disk String File) (srcName : SourceId) :
    Option (Disk String File) :=
  if (srcName.toList.splitOn '/').getLast? = some ['.'] then none
  else some (disk.removeAll (locate source srcName))

def leaf (path : String) : String :=
  String.ofList ((path.toList.splitOn '/').getLast?.getD [])

def create (strip : Bool) (disk : Disk String File) :
    Option (Disk String File) := do
  let indexFile ← disk.file? (locate source format.getIndex)
  let checksum : SnapshotEntry :=
    Finmap.singleton format.getIndex (publisher.checksum indexFile)
  let index ← publisher.parseIndex indexFile
  let (disk, checksum) ←
    index.sources.foldlM (packSource publisher format source) (disk, checksum)
  let disk ← disk.write (locate source format.getChecksum)
    (publisher.writeChecksum checksum)
  if strip then index.sources.foldlM (removeSource source) disk
  else some disk

/-- The files of the package directory by the names they are fetched with. -/
def published (disk : Disk String File) (name : String) : Option File :=
  disk.file? (locate source name)

end Create

/-! ## Fetching -/

/-- The files in the directory of the cache for the sources of a package. -/
abbrev Library (File : Type) := String → Option File

/-- `source_file_path`: a name must be its own last component, as also the
name of a root is.  The file has the name without the slashes of a root. -/
def sourceFilePath (name : String) : Option String :=
  if '/' ∉ name.toList ∨ ∀ character ∈ name.toList, character = '/'
  then some name
  else
    match name.toList with
    | '/' :: '/' :: base =>
        if '/' ∈ base then none else some (String.ofList base)
    | _ => none

def stored (library : Library File) (name : String) : Option File := do
  let path ← sourceFilePath name
  library path

section Fetch

variable (package : Entry) (remote : String → Option File)

def outdated (library : Library File) (path : String)
    (checksum : Checksum) : Bool :=
  match library path with
  | none => true
  | some file => publisher.checksum file != checksum

def updateFile (url path : String) (checksum : Checksum)
    (library : Library File) : Option (Library File) :=
  if outdated publisher library path checksum then do
    let file ← remote url
    let library := Function.update library path (some file)
    if outdated publisher library path checksum then none else some library
  else some library

def readChecksum (library : Library File) : Option SnapshotEntry := do
  let path ← sourceFilePath format.getChecksum
  let file ← library path
  publisher.parseChecksum file

def readIndex (library : Library File) : Option Index := do
  let path ← sourceFilePath format.getIndex
  let file ← library path
  let index ← publisher.parseIndex file
  return index.absolute package

def updateMeta (library : Library File) : Option (Library File) := do
  let checksumFile ← remote format.getChecksum
  let checksumPath ← sourceFilePath format.getChecksum
  let library := Function.update library checksumPath (some checksumFile)
  let indexPath ← sourceFilePath format.getIndex
  let entry ← readChecksum publisher format library
  let checksum ← entry.lookup format.getIndex
  updateFile publisher remote format.getIndex indexPath checksum library

def updateSource (library : Library File) (srcName : SourceId) :
    Option (Library File) := do
  let name := srcName ++ format.archiveSuffix
  let path ← sourceFilePath name
  let entry ← readChecksum publisher format library
  let checksum ← entry.lookup srcName
  updateFile publisher remote name path checksum library

def updateSources (library : Library File) : Option (Library File) := do
  let index ← readIndex publisher format package library
  index.sources.foldlM (updateSource publisher format remote) library

end Fetch

end Bacs.Pm.Publishing
