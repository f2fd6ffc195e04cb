import Bacs.Pm.Cache

/-!
# Fetching packages

The checksum file of a package is fetched anew in every run; its index and
its archives only when the cached file has another checksum.
-/

namespace Bacs.Pm

variable {File Archive Tree : Type}

/-- `format_config::name`. -/
structure Format where
  archiveSuffix : String
  index : Option String
  checksum : Option String
  deriving Repr

def Format.getIndex (format : Format) : String :=
  format.index.getD "index"

/-- Like `get_index`, it looks at the configured name of the index. -/
def Format.getChecksum (format : Format) : String :=
  format.index.getD "checksum"

def Format.remoteName (format : Format) : Target → String
  | .index => format.getIndex
  | .source source => source ++ format.archiveSuffix

def Format.checksumName (format : Format) : Target → String
  | .index => format.getIndex
  | .source source => source

/-- What a run of the package manager works with. -/
structure Setting (File Archive Tree : Type) where
  externals : Externals File Archive Tree
  format : Format
  remote : Remote File
  faults : Faults File Archive

variable (setting : Setting File Archive Tree)

/-- The remote file of a package; an empty reference has no address. -/
def Setting.resource (package : Entry) (name : String) : Option File :=
  if package.empty then none else setting.remote package name

def fileOutdated (package : Entry) (target : Target) (checksum : Checksum) :
    PmM File Archive Bool :=
  query setting.faults (.checkFile package target) fun cache =>
    match (cache.files package).file target with
    | none => some true
    | some file => some (setting.externals.checksum file != checksum)

def fetch (package : Entry) (target : Target) : PmM File Archive Unit :=
  perform setting.faults (.fetch package target)
    (fun residue cache =>
      cache.update package fun files => files.setFile residue.file target)
    fun cache => do
      let file ← setting.resource package (setting.format.remoteName target)
      return ((), cache.update package fun files =>
        files.setFile (some file) target)

/-- `update_file`; the checksum fails to match after the download like an
operation on the file fails. -/
def updateFile (package : Entry) (target : Target) (checksum : Checksum) :
    PmM File Archive Unit := do
  if ← fileOutdated setting package target checksum then do
    fetch setting package target
    query setting.faults (.checkFile package target) fun cache =>
      match (cache.files package).file target with
      | none => none
      | some file =>
          if setting.externals.checksum file = checksum then some () else none
  else pure ()

/-- The checksum that the checksum file of the package gives for a file. -/
def expectedChecksum (package : Entry) (target : Target) :
    PmM File Archive Checksum :=
  query setting.faults (.readChecksum package) fun cache => do
    let entry ← cache.checksumOf setting.externals package
    entry.lookup (setting.format.checksumName target)

def updateMeta (package : Entry) : PmM File Archive Unit := do
  logLine (.updateMeta package)
  let checksumFile ← query setting.faults (.fetchChecksum package) fun _ =>
    setting.resource package setting.format.getChecksum
  store setting.faults (.copyChecksum package) package
    (fun residue files => { files with checksum := residue.file })
    (fun files => { files with checksum := some checksumFile })
  let checksum ← expectedChecksum setting package .index
  updateFile setting package .index checksum

def updateSources (package : Entry) : PmM File Archive Unit := do
  logLine (.updateSources package)
  let deps ← readIndex setting.faults setting.externals package
  deps.sources.foldlM (fun _ source => do
    let checksum ← expectedChecksum setting package (.source source)
    updateFile setting package (.source source) checksum) ()

end Bacs.Pm
