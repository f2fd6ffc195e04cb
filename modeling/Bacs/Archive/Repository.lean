import Bacs.Archive.Storage
import Mathlib.Data.Finmap

/-!
# The operations of the archive repository

The functions of `repository_impl.cpp`, cut at the points where they take and
release their locks: a function whose name ends in `Locked` is what runs
under `m_lock`.  As in the source, a trailing underscore marks a function
that expects its caller to hold the lock.
-/

namespace Bacs.Archive

variable {Directory Problem Tree : Type}
variable (externals : Externals Directory Problem Tree)
  (faults : Faults Problem)

def validateId (id : ProblemId) : RepositoryM Problem Tree Unit :=
  if isAllowedId id then pure () else throw (.invalidId id)

def validateFlag (flag : FlagName) : RepositoryM Problem Tree Unit :=
  if isAllowedFlag flag then pure () else throw (.invalidFlag flag)

def validateFlagSet (flags : FlagSet) : RepositoryM Problem Tree Unit :=
  flags.forM fun flag => validateFlag flag.toName

/-! ## Revisions -/

/-- The loop that stores a checksum as bytes, the low byte first. -/
def revisionBytes : Nat → UInt32 → Revision
  | 0, _ => []
  | size + 1, value => (value &&& 0xFF).toUInt8 :: revisionBytes size (value >>> 8)

/-- The revision of an archive with the given contents. -/
def hashRevision (contents : Bytes) : Revision :=
  revisionBytes 4 (externals.crc32 contents)

def computeHashRevision (id : ProblemId) :
    RepositoryM Problem Tree Revision :=
  fallible faults .readData harmless do
    let dir ← openDir .readData id
    match dir.data with
    | none => throw (.fileSystem .readData)
    | some contents => pure (hashRevision externals contents)

def readRevision_ (id : ProblemId) : RepositoryM Problem Tree Revision :=
  fallible faults .readRevision harmless do
    let dir ← openDir .readRevision id
    match dir.revision.read with
    | none => throw (.parse .readRevision)
    | some revision => pure revision

def writeRevision_ (id : ProblemId) (revision : Revision) :
    RepositoryM Problem Tree Unit :=
  fallible faults .writeRevision
    (fun residue store => store.update id fun dir =>
      { dir with revision := residue.revision }) do
    let _ ← openDir .writeRevision id
    modify fun store => store.update id fun dir =>
      { dir with revision := .value revision }

def updateArchiveRevision_ : RepositoryM Problem Tree Unit :=
  modify Store.renew

/-! ## Flags -/

def existsProblem (id : ProblemId) : RepositoryM Problem Tree Bool := do
  validateId id
  fallible faults .checkExists harmless do
    return ((← get).dir id).isSome

def hasFlag (id : ProblemId) (flag : FlagName) :
    RepositoryM Problem Tree Bool := do
  validateId id
  validateFlag flag
  fallible faults (.checkFlag flag) harmless do
    match (← get).dir id with
    | none => pure false
    | some dir => pure (dir.hasFlag flag)

def isReadOnly (id : ProblemId) : RepositoryM Problem Tree Bool :=
  hasFlag faults id readOnlyFlag

def isLocked (id : ProblemId) : RepositoryM Problem Tree Bool := do
  if ← hasFlag faults id lockedFlag then pure true
  else hasFlag faults id readOnlyFlag

def flags_ (id : ProblemId) : RepositoryM Problem Tree FlagSet :=
  fallible faults .listFlags harmless do
    let dir ← openDir .listFlags id
    match dir.flags with
    | none => throw (.fileSystem .listFlags)
    | some names => names.mapM fun flag => do
        validateFlag flag
        return flagCast flag

def setFlag_ (id : ProblemId) (flag : FlagName) :
    RepositoryM Problem Tree Unit :=
  fallible faults (.touchFlag flag)
    (fun residue store =>
      if residue.flagCreated && !isDirectoryName flag
      then store.update id (·.addFlag flag) else store) do
    let dir ← openDir (.touchFlag flag) id
    if dir.flags.isNone || isDirectoryName flag
    then throw (.fileSystem (.touchFlag flag))
    else modify fun store => store.update id (·.addFlag flag)

def unsetFlag_ (id : ProblemId) (flag : FlagName) :
    RepositoryM Problem Tree Unit :=
  fallible faults (.removeFlag flag) harmless do
    match ((← get).dir id).bind (·.flags) with
    | none => pure ()
    | some _ =>
        if isDirectoryName flag
        then throw (.fileSystem (.removeFlag flag))
        else modify fun store => store.update id (·.removeFlag flag)

/-! ## Status -/

def status_ (id : ProblemId) : RepositoryM Problem Tree Status := do
  let revision ← readRevision_ faults id
  let flags ← flags_ faults id
  return { flags, revision }

def statusResult_ (id : ProblemId) :
    RepositoryM Problem Tree StatusResult := do
  if ← existsProblem faults id then
    return .status (← status_ faults id)
  else return statusNotFound

/-- The `StatusMap` message. -/
abbrev StatusMap := Finmap fun _ : ProblemId => StatusResult

def existing_ : RepositoryM Problem Tree (List ProblemId) :=
  fallible faults .listProblems harmless do
    let ids := (← get).problems.keys
    ids.forM validateId
    return ids

def statusAll_ (ids : List ProblemId) : RepositoryM Problem Tree StatusMap :=
  ids.foldlM (fun statusMap id => do
    let result ← statusResult_ faults id
    return statusMap.insert id result) ∅

def statusAll : RepositoryM Problem Tree StatusMap := do
  statusAll_ faults (← existing_ faults)

/-- The `CachedStatusMap` message. -/
structure CachedStatusMap where
  status : Option StatusMap
  revision : String

def statusAllIfChanged (revision : String) :
    RepositoryM Problem Tree CachedStatusMap := do
  let current := externals.uuid (← get).archiveRevision
  if current = revision then return { status := none, revision := current }
  else return { status := some (← statusAll faults), revision := current }

/-! ## Changing flags -/

/-- A request of one of the operations that change the flags of a problem. -/
inductive FlagEdit where
  | setFlag (flag : FlagName)
  | setFlags (flags : FlagSet)
  | unsetFlag (flag : FlagName)
  | unsetFlags (flags : FlagSet)
  | clearFlags
  deriving DecidableEq, Repr

/-- The checks made before the problem is looked up. -/
def FlagEdit.validate : FlagEdit → RepositoryM Problem Tree Unit
  | .setFlag flag => do
      validateFlag flag
      if flag = pendingImportFlag then throw (.flagCantBeSet flag)
  | .setFlags flags => validateFlagSet flags
  | .unsetFlag flag => validateFlag flag
  | .unsetFlags flags => validateFlagSet flags
  | .clearFlags => pure ()

/-- The change itself, for a problem that is not read-only. -/
def FlagEdit.perform (id : ProblemId) :
    FlagEdit → RepositoryM Problem Tree Unit
  | .setFlag flag => setFlag_ faults id flag
  | .setFlags flags => flags.forM fun flag => setFlag_ faults id flag.toName
  | .unsetFlag flag =>
      -- The comparison is the other way than the source's comment says:
      -- `IGNORE` is the only flag removed here.
      if flag = ignoreFlag then unsetFlag_ faults id flag else pure ()
  | .unsetFlags flags => flags.forM fun flag =>
      if flag.toName ≠ ignoreFlag ∧ flag.toName ≠ pendingImportFlag
      then unsetFlag_ faults id flag.toName else pure ()
  | .clearFlags => fallible faults .listFlags harmless do
      let dir ← openDir .listFlags id
      match dir.flags with
      | none => throw (.fileSystem .listFlags)
      | some names => names.forM fun flag =>
          if flag ≠ ignoreFlag ∧ flag ≠ pendingImportFlag
          then unsetFlag_ faults id flag else pure ()

def editFlagsLocked (id : ProblemId) (edit : FlagEdit) :
    RepositoryM Problem Tree StatusResult := do
  if ← existsProblem faults id then
    if ← isReadOnly faults id then return statusError .readOnly
    else
      edit.perform faults id
      return .status (← status_ faults id)
  else return statusNotFound

/-- What the flag operations do before they take the lock: whether the
problem is worth locking for. -/
def editFlagsCheck (id : ProblemId) (edit : FlagEdit) :
    RepositoryM Problem Tree Bool := do
  validateId id
  edit.validate
  existsProblem faults id

def editFlags (id : ProblemId) (edit : FlagEdit) :
    RepositoryM Problem Tree StatusResult := do
  if ← editFlagsCheck faults id edit then editFlagsLocked faults id edit
  else return statusNotFound

def setFlag (id : ProblemId) (flag : FlagName) :
    RepositoryM Problem Tree StatusResult :=
  editFlags faults id (.setFlag flag)

def setFlags (id : ProblemId) (flags : FlagSet) :
    RepositoryM Problem Tree StatusResult :=
  editFlags faults id (.setFlags flags)

def unsetFlag (id : ProblemId) (flag : FlagName) :
    RepositoryM Problem Tree StatusResult :=
  editFlags faults id (.unsetFlag flag)

def unsetFlags (id : ProblemId) (flags : FlagSet) :
    RepositoryM Problem Tree StatusResult :=
  editFlags faults id (.unsetFlags flags)

def clearFlags (id : ProblemId) : RepositoryM Problem Tree StatusResult :=
  editFlags faults id .clearFlags

/-! ## Scheduling imports -/

def prepareImport_ (id : ProblemId) : RepositoryM Problem Tree Unit :=
  setFlag_ faults id pendingImportFlag

/-- The answer says whether the import should be posted. -/
def prepareImport (id : ProblemId) : RepositoryM Problem Tree Bool := do
  validateId id
  if ← existsProblem faults id then
    prepareImport_ faults id
    return true
  else return false

def postImport_ (id : ProblemId) : RepositoryM Problem Tree Unit :=
  modify fun store => store.post id

/-! ## Upload -/

/-- Remove one of the files of a problem, which need not exist. -/
def removeFile (operation : FileOperation) (id : ProblemId)
    (change : ProblemDir Problem → ProblemDir Problem) :
    RepositoryM Problem Tree Unit :=
  fallible faults operation harmless do
    modify fun store => store.update id change

def createDirectory (id : ProblemId) : RepositoryM Problem Tree Unit :=
  fallible faults .createDirectory harmless do
    modify fun store => store.create id

def createFlags (id : ProblemId) : RepositoryM Problem Tree Unit :=
  fallible faults .createFlags harmless do
    modify fun store => store.update id fun dir =>
      { dir with flags := some [] }

def packContents (id : ProblemId) (location : Directory) :
    RepositoryM Problem Tree Unit :=
  fallible faults .pack
    (fun residue store => store.update id fun dir =>
      { dir with data := residue.data }) do
    modify fun store => store.update id fun dir =>
      { dir with data := some (externals.pack location) }

/-- The checks before the lock is taken; the answer is an error to report. -/
def uploadCheck (id : ProblemId) (location : Directory) :
    RepositoryM Problem Tree (Option StatusResult) := do
  validateId id
  let hasFormat ← fallible faults .checkFormat harmless do
    return externals.hasFormat location
  if !hasFormat then return some (statusError .invalidFormat)
  else if ← isLocked faults id then return some (statusError .locked)
  else return none

/-- Empty the directory of a problem that exists, or create the directory of
a new one. -/
def resetProblem (id : ProblemId) : RepositoryM Problem Tree Unit := do
  if ← existsProblem faults id then
    removeFile faults .removeData id fun dir => { dir with data := none }
    removeFile faults .removeRevision id fun dir =>
      { dir with revision := .absent }
    removeFile faults .removeImportResult id fun dir =>
      { dir with importResult := .absent }
  else
    createDirectory faults id
    createFlags faults id

/-- Store the new archive and its revision, and schedule an import. -/
def storeProblem (id : ProblemId) (location : Directory) :
    RepositoryM Problem Tree Unit := do
  packContents externals faults id location
  let revision ← computeHashRevision externals faults id
  writeRevision_ faults id revision
  prepareImport_ faults id
  postImport_ id

def uploadLocked (id : ProblemId) (location : Directory) :
    RepositoryM Problem Tree StatusResult := do
  if ← isLocked faults id then return statusError .locked
  else
    resetProblem faults id
    storeProblem externals faults id location
    return .status (← status_ faults id)

def upload (id : ProblemId) (location : Directory) :
    RepositoryM Problem Tree StatusResult := do
  match ← uploadCheck externals faults id location with
  | some refusal => return refusal
  | none => uploadLocked externals faults id location

/-! ## Import -/

/-- `download_` into a temporary directory. -/
def download_ (id : ProblemId) : RepositoryM Problem Tree Directory :=
  fallible faults .unpack harmless do
    let dir ← openDir .unpack id
    match dir.data.bind externals.unpack with
    | none => throw (.fileSystem .unpack)
    | some contents => pure contents

/-- The revision an import works on: the stored one, regenerated if it can
not be read. -/
def importRevision_ (id : ProblemId) : RepositoryM Problem Tree Revision :=
  tryCatch (readRevision_ faults id) fun _ => do
    let revision ← computeHashRevision externals faults id
    writeRevision_ faults id revision
    return revision

/-- The first section of `import`. -/
def importReadLocked (id : ProblemId) :
    RepositoryM Problem Tree (Option (Revision × Directory)) := do
  if ← existsProblem faults id then
    let revision ← importRevision_ externals faults id
    let contents ← download_ externals faults id
    return some (revision, contents)
  else return none

/-- The second part of `import`, without a lock: convert the copy into the
package tree of the problem and publish it. -/
def importConvert (seed : Nat) (id : ProblemId) (revision : Revision)
    (contents : Directory) (before : Option Tree) :
    Except String Problem × Option Tree :=
  match externals.convert seed id revision contents before with
  | (.error reason, tree) => (.error reason, tree)
  | (.ok problem, tree) =>
      match externals.createRecursively seed tree with
      | (.error reason, packed) => (.error reason, packed)
      | (.ok _, packed) => (.ok problem, packed)

def importResultOf : Except String Problem → ImportResult Problem
  | .error reason => importErrorReason reason
  | .ok problem => .problem problem

def readImportResult_ (id : ProblemId) :
    RepositoryM Problem Tree (ImportResult Problem) :=
  fallible faults .readImportResult harmless do
    let dir ← openDir .readImportResult id
    match dir.importResult.read with
    | none => throw (.parse .readImportResult)
    | some result => pure result

def writeImportResult_ (id : ProblemId) (result : ImportResult Problem) :
    RepositoryM Problem Tree Unit :=
  fallible faults .writeImportResult
    (fun residue store => store.update id fun dir =>
      { dir with importResult := residue.importResult }) do
    let _ ← openDir .writeImportResult id
    modify fun store => store.update id fun dir =>
      { dir with importResult := .value result }

/-- Mark a problem that can not be imported, and unmark one that can. -/
def markIgnored_ (id : ProblemId) :
    Except String Problem → RepositoryM Problem Tree Unit
  | .ok _ => unsetFlag_ faults id ignoreFlag
  | .error _ => setFlag_ faults id ignoreFlag

/-- Store the result of an import of the current archive. -/
def commitImport_ (id : ProblemId) (outcome : Except String Problem) :
    RepositoryM Problem Tree Unit := do
  writeImportResult_ faults id (importResultOf outcome)
  updateArchiveRevision_
  markIgnored_ faults id outcome
  unsetFlag_ faults id pendingImportFlag

/-- The answer of a committed import, which reads the flags last. -/
def importAnswer_ (id : ProblemId) (revision : Revision) :
    Except String Problem → RepositoryM Problem Tree StatusResult
  | .error reason => return statusErrorReason reason
  | .ok _ => return .status { flags := ← flags_ faults id, revision }

/-- The last section of `import`. -/
def importCommitLocked (id : ProblemId) (revision : Revision)
    (outcome : Except String Problem) :
    RepositoryM Problem Tree StatusResult := do
  if ← existsProblem faults id then
    let currentRevision ← readRevision_ faults id
    if currentRevision ≠ revision then
      return statusErrorReason "Problem was changed during import"
    else
      commitImport_ faults id outcome
      importAnswer_ faults id revision outcome
  else return statusErrorReason "Problem was removed during import"

def importResult (id : ProblemId) :
    RepositoryM Problem Tree (ImportResult Problem) := do
  validateId id
  if ← existsProblem faults id then
    if ← hasFlag faults id pendingImportFlag
    then return importError .pendingImport
    else readImportResult_ faults id
  else return importNotFound

end Bacs.Archive
