import Bacs.Foundation.Disk
import Bacs.Pm.Repository

/-!
# Installations in directories

The extractor unpacks the cached installation of a package into a directory,
and puts the cached snapshot beside it as a meta file.  The meta file tells
whether the directory has to be filled again.

The directory is on a disk of its own.  Any file operation on this disk may
fail; what the system does says which ones do, and what they leave.
-/

namespace Bacs.Pm

variable {File Archive Content Value : Type}

/-- `extract_config::installation`; both paths are relative. -/
structure ExtractConfig where
  metaPath : List String
  /-- If there is none, data is placed in the root folder. -/
  dataPath : Option (List String)
  deriving Repr

/-- `destination / m_config.installation.meta` -/
def ExtractConfig.metaPlace (config : ExtractConfig)
    (destination : List String) : List String :=
  destination ++ config.metaPath

def ExtractConfig.dataPlace (config : ExtractConfig)
    (destination : List String) : List String :=
  destination ++ config.dataPath.getD []

structure SnapshotFormat (Content : Type) where
  read : Content → Option Snapshot
  write : Snapshot → Content
  garbled : Content
  read_write : ∀ snapshot, read (write snapshot) = some snapshot
  read_garbled : read garbled = none

/-- The file that a snapshot is cached in. -/
def SnapshotFormat.file (format : SnapshotFormat Content) :
    Slot Snapshot → Option Content
  | .absent => none
  | .garbled => some format.garbled
  | .value snapshot => some (format.write snapshot)

/-- What is in a file that a snapshot is copied to. -/
def SnapshotFormat.slot (format : SnapshotFormat Content)
    (content : Content) : Slot Snapshot :=
  match format.read content with
  | none => .garbled
  | some snapshot => .value snapshot

theorem SnapshotFormat.slot_file {format : SnapshotFormat Content}
    {slot : Slot Snapshot} {content : Content}
    (file : format.file slot = some content) :
    format.slot content = slot := by
  unfold SnapshotFormat.slot
  cases slot with
  | absent => cases file
  | garbled =>
      cases file
      rw [format.read_garbled]
  | value snapshot =>
      cases file
      rw [format.read_write]

namespace Extractor

inductive Operation where
  | checkMeta
  | lastWriteTime
  | readMeta
  | resetDir
  | unpack
  /-- Whether the archive brought a file with the name of the meta file. -/
  | findMeta
  | copyMeta
  | touchMeta
  /-- `symlink_status` -/
  | status
  | createDirectories
  deriving DecidableEq, Repr

/-- What the system does at a file operation.  Times of files are not kept
track of; it may give any. -/
structure Response (Content : Type) where
  aborts : Bool
  time : Int
  lastWriteTime : Int
  removed : List (List String)
  unpacked : Disk String Content
  copied : Option Content
  /-- How many directories are there after failing to create some. -/
  created : Nat

structure Abort (Content : Type) where
  operation : Operation
  before : Disk String Content
  after : Disk String Content

inductive Failure (File Archive Content : Type) where
  | cache (failure : Pm.Failure File Archive)
  | operation (abort : Abort Content)
  /-- `installation_meta_exists_error` -/
  | metaExists

/-- The cache of the repository and the disk with the directory. -/
structure Site (File Archive Content : Type) where
  machine : Machine File Archive
  disk : Disk String Content
  /-- The number of file operations on the disk so far. -/
  clock : Nat

abbrev SiteM (File Archive Content : Type) :=
  EStateM (Failure File Archive Content) (Site File Archive Content)

structure Station (File Archive Content : Type) extends
    Setting File Archive (Disk String Content) where
  snapshots : SnapshotFormat Content
  config : ExtractConfig
  system : Nat → Response Content

variable (station : Station File Archive Content)

def onCache (program : PmM File Archive Value) :
    SiteM File Archive Content Value := fun site =>
  match program site.machine with
  | .ok value machine => .ok value { site with machine }
  | .error failure machine => .error (.cache failure) { site with machine }

def operate (operation : Operation)
    (spoil : Response Content → Disk String Content → Disk String Content)
    (action : Site File Archive Content →
      Option (Value × Disk String Content)) :
    SiteM File Archive Content Value := fun site =>
  let response := station.system site.clock
  let next := { site with clock := site.clock + 1 }
  match if response.aborts then none else action site with
  | some (value, disk) => .ok value { next with disk }
  | none =>
      let after := spoil response site.disk
      .error (.operation ⟨operation, site.disk, after⟩)
        { next with disk := after }

def inspect (operation : Operation)
    (read : Disk String Content → Option Value) :
    SiteM File Archive Content Value :=
  operate station operation (fun _ disk => disk) fun site =>
    (read site.disk).map fun value => (value, site.disk)

/-- `reset_dir` -/
def resetDir (place : List String) : SiteM File Archive Content Unit :=
  operate station .resetDir
    (fun response disk => response.removed.foldl
      (fun disk names => disk.removeAll (place ++ names)) disk)
    fun site => do
      let disk ← (site.disk.removeAll place).makeDirectory place
      return ((), disk)

/-- `create_directories` -/
def createDirectories (place : List String) :
    SiteM File Archive Content Unit :=
  operate station .createDirectories
    (fun response disk =>
      (disk.makeDirectories (place.inits.take response.created)).getD disk)
    fun site => do
      let disk ← site.disk.makeDirectories place.inits
      return ((), disk)

variable (package : Entry) (destination : List String)

/-- `unpack_installation`, into an empty directory. -/
def unpackInstallation (place : List String) :
    SiteM File Archive Content Unit :=
  operate station .unpack
    (fun response disk => (disk.graft place response.unpacked).getD disk)
    fun site => do
      let archive ← (site.machine.cache.files package).installation.archive
      let tree ← station.externals.unpack archive
      let disk ← site.disk.graft place tree
      return ((), disk)

def extract (place : List String) : SiteM File Archive Content Unit := do
  resetDir station place
  unpackInstallation station package place

/-- `copy_file`, which fails if there is something already. -/
def copyMeta : SiteM File Archive Content Unit :=
  operate station .copyMeta
    (fun response disk =>
      if disk.node (station.config.metaPlace destination) = none then
        (response.copied.bind
          (disk.write (station.config.metaPlace destination))).getD disk
      else disk)
    fun site => do
      let content ← station.snapshots.file
        (site.machine.cache.files package).installation.snapshot
      let place := station.config.metaPlace destination
      if site.disk.node place = none then
        let disk ← site.disk.write place content
        return ((), disk)
      else none

def touchMeta : SiteM File Archive Content Unit :=
  inspect station .touchMeta fun disk =>
    (disk.node (station.config.metaPlace destination)).map fun _ => ()

def install : SiteM File Archive Content Unit := do
  resetDir station destination
  extract station package (station.config.dataPlace destination)
  let found ← inspect station .findMeta fun disk =>
    some (disk.node (station.config.metaPlace destination)).isSome
  if found then throw .metaExists
  copyMeta station package destination
  touchMeta station destination

/-- `is_regular_file(meta)` -/
def checkMeta : SiteM File Archive Content Bool :=
  inspect station .checkMeta fun disk =>
    some (disk.file? (station.config.metaPlace destination)).isSome

/-- A meta file that cannot be read is treated as one that is outdated. -/
def readMeta : SiteM File Archive Content (Option Snapshot) :=
  tryCatch
    (inspect station .readMeta fun disk => do
      let content ← disk.file? (station.config.metaPlace destination)
      let snapshot ← station.snapshots.read content
      return some snapshot)
    fun _ => pure none

def storedSnapshot : SiteM File Archive Content (Option Snapshot) := do
  if ← checkMeta station destination then readMeta station destination
  else pure none

/-- Whether the snapshot beside the data is missing or not the cached one. -/
def outdated : SiteM File Archive Content Bool := do
  match ← storedSnapshot station destination with
  | none => pure true
  | some snapshot => do
      let cached ←
        onCache (readInstallationSnapshot station.faults package)
      pure (snapshot != cached)

def update : SiteM File Archive Content Unit := do
  if ← outdated station package destination then
    install station package destination
  else touchMeta station destination

def outOfRange (now lifetime lastWriteTime : Int) : Bool :=
  now > lifetime + lastWriteTime || lastWriteTime > lifetime + now

/-- Whether the meta file is missing or too old, or too new. -/
def needUpdate (lifetime : Int) : SiteM File Archive Content Bool := do
  let regular ← checkMeta station destination
  if !regular then return true
  let site ← get
  let response := station.system site.clock
  let written ← inspect station .lastWriteTime fun disk =>
    (disk.node (station.config.metaPlace destination)).map fun _ =>
      response.lastWriteTime
  return outOfRange response.time lifetime written

end Extractor

/-! ## Calls of the repository -/

namespace Extractor

variable (station : Station File Archive Content) (fuel : Nat)
  (package : Entry) (destination : List String)

/-- `repository::install` -/
def repositoryInstall : SiteM File Archive Content Unit := do
  let _ ← onCache (Pm.update station.toSetting fuel package)
  install station package destination

/-- `repository::update` with a destination -/
def repositoryUpdate : SiteM File Archive Content Unit := do
  let _ ← onCache (Pm.update station.toSetting fuel package)
  update station package destination

/-- `repository::update` with a destination and a lifetime -/
def repositoryUpdateAfter (lifetime : Int) :
    SiteM File Archive Content Unit := do
  if ← needUpdate station destination lifetime then
    repositoryUpdate station fuel package destination
  else pure ()

end Extractor

end Bacs.Pm
