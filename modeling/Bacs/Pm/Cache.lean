import Bacs.Foundation.Ensures
import Bacs.Foundation.Slot
import Bacs.Pm.Index

/-!
# The package cache and the file operations on it

For every package the cache keeps the files fetched from the remote
repository, and for its build and its installation an archive and the
snapshot it was made from.  The files of the cache are taken to have paths of
their own.

A program over the cache is an `EStateM` computation.  Any file operation in
it may fail; the faults of a run say which ones do and what they leave.
-/

namespace Bacs.Pm

variable {File Archive Tree : Type}

/-- The two kinds of archives that are built. -/
inductive Kind where
  | build
  | installation
  deriving DecidableEq, Repr

structure Product (Archive : Type) where
  archive : Option Archive
  snapshot : Slot Snapshot

def Product.missing : Product Archive :=
  { archive := none, snapshot := .absent }

structure PackageFiles (File Archive : Type) where
  checksum : Option File
  index : Option File
  source : SourceId → Option File
  build : Product Archive
  installation : Product Archive

def PackageFiles.missing : PackageFiles File Archive :=
  { checksum := none, index := none, source := fun _ => none
    build := .missing, installation := .missing }

inductive Target where
  | index
  | source (source : SourceId)
  deriving DecidableEq, Repr

namespace PackageFiles

variable (files : PackageFiles File Archive)

def product : Kind → Product Archive
  | .build => files.build
  | .installation => files.installation

def setProduct (product : Product Archive) :
    Kind → PackageFiles File Archive
  | .build => { files with build := product }
  | .installation => { files with installation := product }

def file : Target → Option File
  | .index => files.index
  | .source source => files.source source

def setFile (file : Option File) : Target → PackageFiles File Archive
  | .index => { files with index := file }
  | .source source =>
      { files with source := Function.update files.source source file }

variable {files} {product : Product Archive} {kind other : Kind}

@[simp] theorem product_setProduct :
    (files.setProduct product kind).product kind = product := by
  cases kind <;> rfl

theorem product_setProduct_of_ne (different : other ≠ kind) :
    (files.setProduct product kind).product other = files.product other := by
  cases kind <;> cases other <;> first | rfl | exact absurd rfl different

@[simp] theorem setProduct_setProduct {first : Product Archive} :
    (files.setProduct first kind).setProduct product kind =
      files.setProduct product kind := by
  cases kind <;> rfl

@[simp] theorem checksum_setProduct :
    (files.setProduct product kind).checksum = files.checksum := by
  cases kind <;> rfl

@[simp] theorem index_setProduct :
    (files.setProduct product kind).index = files.index := by
  cases kind <;> rfl

@[simp] theorem source_setProduct :
    (files.setProduct product kind).source = files.source := by
  cases kind <;> rfl

@[simp] theorem file_setFile {file : Option File} {target : Target} :
    (files.setFile file target).file target = file := by
  cases target <;> simp [setFile, PackageFiles.file]

theorem file_setFile_of_ne {file : Option File} {target other : Target}
    (different : other ≠ target) :
    (files.setFile file target).file other = files.file other := by
  cases target with
  | index =>
      cases other with
      | index => exact absurd rfl different
      | source _ => rfl
  | source source =>
      cases other with
      | index => rfl
      | source second =>
          have apart : second ≠ source := by
            intro given
            subst given
            exact different rfl
          simp [setFile, PackageFiles.file, apart]

@[simp] theorem checksum_setFile {file : Option File} {target : Target} :
    (files.setFile file target).checksum = files.checksum := by
  cases target <;> rfl

@[simp] theorem product_setFile {file : Option File} {target : Target} :
    (files.setFile file target).product kind = files.product kind := by
  cases target <;> cases kind <;> rfl

end PackageFiles

structure Cache (File Archive : Type) where
  version : Slot String
  files : Entry → PackageFiles File Archive

namespace Cache

def empty : Cache File Archive :=
  { version := .absent, files := fun _ => .missing }

def update (cache : Cache File Archive) (package : Entry)
    (change : PackageFiles File Archive → PackageFiles File Archive) :
    Cache File Archive :=
  { cache with
    files := Function.update cache.files package
      (change (cache.files package)) }

variable {cache : Cache File Archive} {package other : Entry}
  {change : PackageFiles File Archive → PackageFiles File Archive}

@[simp] theorem files_update_self :
    (cache.update package change).files package =
      change (cache.files package) := by
  simp [update]

theorem files_update_of_ne (different : other ≠ package) :
    (cache.update package change).files other = cache.files other := by
  simp [update, different]

@[simp] theorem update_update
    {again : PackageFiles File Archive → PackageFiles File Archive} :
    (cache.update package change).update package again =
      cache.update package fun files => again (change files) := by
  simp [update]

/-- A field that a change of one package keeps is kept everywhere. -/
theorem files_update_frame {Value : Type}
    (field : PackageFiles File Archive → Value)
    (kept : field (change (cache.files package)) =
      field (cache.files package)) (other : Entry) :
    field ((cache.update package change).files other) =
      field (cache.files other) := by
  by_cases same : other = package
  · subst same
    rw [files_update_self]
    exact kept
  · rw [files_update_of_ne same]

end Cache

/-! ## What is not part of the package manager -/

/-- The archiver, the builder and the file formats.  Unpacking gives the tree
of what was packed; `merge` puts a tree into another one at a path, as
`merge_directories` does. -/
structure Externals (File Archive Tree : Type) where
  version : String
  checksum : File → Checksum
  parseIndex : File → Option Index
  parseChecksum : File → Option SnapshotEntry
  unpackSource : File → Option Tree
  pack : Tree → Archive
  unpack : Archive → Option Tree
  install : Tree → Option Tree
  empty : Tree
  merge : Tree → List PathName → Tree → Option Tree

/-- The files of the remote repository, by package and name. -/
abbrev Remote (File : Type) := Entry → String → Option File

/-! ## Programs -/

/-- The parts that the files kept for a package consist of. -/
inductive Piece where
  | checksum
  | file (target : Target)
  | archive (kind : Kind)
  | snapshot (kind : Kind)
  deriving DecidableEq, Repr

inductive Operation where
  | loadMeta
  | resetSource
  | resetPackage
  | saveMeta
  | fetchChecksum (package : Entry)
  | copyChecksum (package : Entry)
  | checkFile (package : Entry) (target : Target)
  | fetch (package : Entry) (target : Target)
  | readIndex (package : Entry)
  | readChecksum (package : Entry)
  /-- The checksum file is read after the archive of an empty build has been
  packed. -/
  | readEmptyChecksum (package : Entry)
  | readSnapshot (kind : Kind) (package : Entry)
  | checkOutdated (kind : Kind) (package : Entry)
  | extractSource (package : Entry) (source : SourceId)
  | extract (kind : Kind) (package : Entry)
  | install (package : Entry)
  | pack (kind : Kind) (package : Entry)
  | writeSnapshot (kind : Kind) (package : Entry) (snapshot : Snapshot)

/-- What a failing operation leaves of the file it writes; `none` for an
archive is the archive that was there. -/
structure Residue (File Archive : Type) where
  file : Option File
  archive : Option (Option Archive)
  snapshot : Slot Snapshot
  version : Slot String
  removed : Entry → Piece → Bool

/-- The faults of a run: which of its file operations fail, counted from its
beginning, and what they leave. -/
structure Faults (File Archive : Type) where
  aborts : Nat → Bool
  residue : Nat → Residue File Archive

/-- A failed operation, with the cache before it and what it leaves. -/
structure Abort (File Archive : Type) where
  operation : Operation
  before : Cache File Archive
  residue : Residue File Archive

inductive Failure (File Archive : Type) where
  /-- `circular_dependencies_error` -/
  | circular (package : Entry)
  | assertion
  | outOfFuel
  | operation (abort : Abort File Archive)

/-- Lines of the log. -/
inductive Event where
  | updateMeta (package : Entry)
  | updateSources (package : Entry)
  | buildEmpty (package : Entry)
  | build (package : Entry)
  | buildInstallation (package : Entry)
  deriving DecidableEq, Repr

structure Machine (File Archive : Type) where
  cache : Cache File Archive
  clock : Nat
  log : List Event

abbrev PmM (File Archive : Type) :=
  EStateM (Failure File Archive) (Machine File Archive)

variable (faults : Faults File Archive)

/-- A file operation: `action` is what it does, unless it fails, and `spoil`
what it leaves if it fails. -/
def perform {Value : Type} (operation : Operation)
    (spoil : Residue File Archive → Cache File Archive → Cache File Archive)
    (action : Cache File Archive → Option (Value × Cache File Archive)) :
    PmM File Archive Value := fun machine =>
  let residue := faults.residue machine.clock
  let next := { machine with clock := machine.clock + 1 }
  match if faults.aborts machine.clock then none else action machine.cache with
  | some (value, cache) => .ok value { next with cache }
  | none =>
      .error (.operation ⟨operation, machine.cache, residue⟩)
        { next with cache := spoil residue machine.cache }

def query {Value : Type} (operation : Operation)
    (read : Cache File Archive → Option Value) : PmM File Archive Value :=
  perform faults operation (fun _ cache => cache) fun cache =>
    (read cache).map fun value => (value, cache)

/-- A file operation on the files of one package that cannot fail by itself. -/
def store (operation : Operation) (package : Entry)
    (spoil : Residue File Archive → PackageFiles File Archive →
      PackageFiles File Archive)
    (change : PackageFiles File Archive → PackageFiles File Archive) :
    PmM File Archive Unit :=
  perform faults operation
    (fun residue cache => cache.update package (spoil residue))
    fun cache => some ((), cache.update package change)

def logLine (event : Event) : PmM File Archive Unit :=
  modify fun machine => { machine with log := event :: machine.log }

def assert (condition : Bool) : PmM File Archive Unit :=
  if condition then pure () else throw .assertion

/-! ## Cache operations -/

variable (externals : Externals File Archive Tree)

/-- The index of a package, with absolute references. -/
def Cache.indexOf (cache : Cache File Archive) (package : Entry) :
    Option Index := do
  let file ← (cache.files package).index
  let index ← externals.parseIndex file
  return index.absolute package

def Cache.checksumOf (cache : Cache File Archive) (package : Entry) :
    Option SnapshotEntry := do
  let file ← (cache.files package).checksum
  externals.parseChecksum file

def readIndex (package : Entry) : PmM File Archive Index :=
  query faults (.readIndex package) fun cache =>
    cache.indexOf externals package

def readChecksumAt (operation : Operation) (package : Entry) :
    PmM File Archive SnapshotEntry :=
  query faults operation fun cache => cache.checksumOf externals package

def readChecksum (package : Entry) : PmM File Archive SnapshotEntry :=
  readChecksumAt faults externals (.readChecksum package) package

def readSnapshot (kind : Kind) (package : Entry) :
    PmM File Archive Snapshot :=
  query faults (.readSnapshot kind package) fun cache =>
    ((cache.files package).product kind).snapshot.read

def readBuildSnapshot (package : Entry) : PmM File Archive Snapshot :=
  readSnapshot faults .build package

def readInstallationSnapshot (package : Entry) : PmM File Archive Snapshot :=
  readSnapshot faults .installation package

def pack (kind : Kind) (package : Entry) (tree : Tree) :
    PmM File Archive Unit :=
  store faults (.pack kind package) package
    (fun residue files =>
      let product := files.product kind
      files.setProduct
        { product with archive := residue.archive.getD product.archive } kind)
    (fun files => files.setProduct
      { files.product kind with archive := some (externals.pack tree) } kind)

def packBuild (package : Entry) (tree : Tree) : PmM File Archive Unit :=
  pack faults externals .build package tree

def packInstallation (package : Entry) (tree : Tree) :
    PmM File Archive Unit :=
  pack faults externals .installation package tree

def writeSnapshot (kind : Kind) (package : Entry) (snapshot : Snapshot) :
    PmM File Archive Unit :=
  store faults (.writeSnapshot kind package snapshot) package
    (fun residue files => files.setProduct
      { files.product kind with snapshot := residue.snapshot } kind)
    (fun files => files.setProduct
      { files.product kind with snapshot := .value snapshot } kind)

/-- Whether an archive has to be built again, `none` if that cannot be
found out. -/
def Product.outdated (product : Product Archive) (snapshot : Snapshot) :
    Option Bool :=
  if product.archive.isNone then some true
  else match product.snapshot with
    | .absent => some true
    | .garbled => none
    | .value written => some (snapshot != written)

def outdated (kind : Kind) (package : Entry) (snapshot : Snapshot) :
    PmM File Archive Bool :=
  query faults (.checkOutdated kind package) fun cache =>
    ((cache.files package).product kind).outdated snapshot

def buildOutdated (package : Entry) (snapshot : Snapshot) :
    PmM File Archive Bool :=
  outdated faults .build package snapshot

def installationOutdated (package : Entry) (snapshot : Snapshot) :
    PmM File Archive Bool :=
  outdated faults .installation package snapshot

/-! ## Verification -/

/-- Remove some of the parts kept for a package. -/
def PackageFiles.strip (removed : Piece → Bool)
    (files : PackageFiles File Archive) : PackageFiles File Archive :=
  let kept (kind : Kind) : Product Archive :=
    { archive :=
        if removed (.archive kind) then none else (files.product kind).archive
      snapshot :=
        if removed (.snapshot kind) then .absent
        else (files.product kind).snapshot }
  { checksum := if removed .checksum then none else files.checksum
    index := if removed (.file .index) then none else files.index
    source := fun source =>
      if removed (.file (.source source)) then none else files.source source
    build := kept .build
    installation := kept .installation }

/-- Whether a part lies in the source directory of the cache. -/
def Piece.isSource : Piece → Bool
  | .checksum => true
  | .file _ => true
  | .archive _ => false
  | .snapshot _ => false

def Cache.strip (removed : Entry → Piece → Bool)
    (cache : Cache File Archive) : Cache File Archive :=
  { cache with
    files := fun package => (cache.files package).strip (removed package) }

def resetDir (operation : Operation) (inside : Piece → Bool) :
    PmM File Archive Unit :=
  perform faults operation
    (fun residue cache => cache.strip fun package piece =>
      inside piece && residue.removed package piece)
    fun cache => some ((), cache.strip fun _ piece => inside piece)

def clean_ : PmM File Archive Unit := do
  resetDir faults .resetSource Piece.isSource
  resetDir faults .resetPackage (fun piece => !piece.isSource)

def saveMeta : PmM File Archive Unit :=
  perform faults .saveMeta
    (fun residue cache => { cache with version := residue.version })
    fun cache => some ((), { cache with version := .value externals.version })

def loadMeta : PmM File Archive String :=
  query faults .loadMeta fun cache => cache.version.read

/-- An unreadable meta file is treated as one of another version.  The two
directories of the cache are created if they are missing; here they always
exist. -/
def verifyAndRepair : PmM File Archive Unit := do
  let outdated ← tryCatch
    (do
      let version ← loadMeta faults
      return version != externals.version)
    fun _ => pure true
  if outdated then do
    clean_ faults
    saveMeta faults externals
  else pure ()

end Bacs.Pm
