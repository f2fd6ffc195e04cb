import Bacs.Archive.Problem
import Bacs.Foundation.Ensures
import Bacs.Foundation.Slot
import Mathlib.Data.List.AList

/-!
# The problem directories and the file operations on them

Every problem has a directory with the packed archive, the revision,
the import result and one empty file for each flag.  A program over this storage
is an `EStateM` computation: an exception leaves the storage as it is at the
point where it was thrown.

Any file operation may fail.  The faults of a call say which operations fail
in it and what the failing operation leaves behind.

The directories of different problems are disjoint.  This is true of all ids
but `.` and `..`, which are those of the repository itself and of what it is
in: what an operation does when it is called with one of them is not modelled.
-/

namespace Bacs.Archive

structure ProblemDir (Problem : Type) where
  data : Option Bytes
  revision : Slot Revision
  importResult : Slot (ImportResult Problem)
  /-- The file names in the flags directory; `none` if there is none. -/
  flags : Option (List FlagName)
  deriving DecidableEq, Repr

/-- A directory just created for a new problem. -/
def ProblemDir.created {Problem : Type} : ProblemDir Problem :=
  { data := none, revision := .absent, importResult := .absent, flags := none }

/-- The names `.` and `..` are no files: opening one for writing and removing
it fail. -/
def isDirectoryName (name : String) : Bool :=
  name == "." || name == ".."

@[simp] theorem isDirectoryName_reserved (flag : Flag.Reserved) :
    isDirectoryName flag.name = false := by
  cases flag <;> decide

namespace ProblemDir

variable {Problem : Type} (dir : ProblemDir Problem) (flag : FlagName)

def hasFlag : Bool :=
  match dir.flags with
  | none => false
  | some names => names.contains flag || isDirectoryName flag

def addFlag : ProblemDir Problem :=
  { dir with flags := dir.flags.map (List.insert flag) }

def removeFlag : ProblemDir Problem :=
  { dir with flags := dir.flags.map (List.filter (· != flag)) }

/-- The flag is set: it has a file in the flags directory. -/
def Flagged : Prop :=
  ∃ names, dir.flags = some names ∧ flag ∈ names

instance : Decidable (dir.Flagged flag) :=
  match found : dir.flags with
  | none => .isFalse (by simp [Flagged, found])
  | some names =>
      decidable_of_iff (flag ∈ names) (by simp [Flagged, found])

variable {dir flag} {other : FlagName}

theorem hasFlag_iff (proper : isDirectoryName flag = false) :
    dir.hasFlag flag = true ↔ dir.Flagged flag := by
  unfold hasFlag Flagged
  cases dir.flags with
  | none => simp
  | some names => simp [proper]

theorem flagged_addFlag :
    (dir.addFlag flag).Flagged other ↔
      dir.Flagged other ∨ (other = flag ∧ dir.flags.isSome) := by
  unfold addFlag Flagged
  cases dir.flags with
  | none => simp
  | some names => simp [or_comm]

theorem flagged_removeFlag :
    (dir.removeFlag flag).Flagged other ↔
      dir.Flagged other ∧ other ≠ flag := by
  unfold removeFlag Flagged
  cases dir.flags with
  | none => simp
  | some names => simp

end ProblemDir

structure Store (Problem Tree : Type) where
  problems : AList (fun _ : ProblemId => ProblemDir Problem)
  /-- The package trees below the package repository, one for each problem. -/
  published : ProblemId → Option Tree
  /-- How often `m_revision.update()` was called. -/
  archiveRevision : Nat
  /-- The imports posted to the executor and not yet started. -/
  posted : List ProblemId

inductive FileOperation where
  | checkFormat
  | checkExists
  | checkFlag (flag : FlagName)
  | createDirectory
  | createFlags
  | removeData
  | removeRevision
  | removeImportResult
  | pack
  | readData
  | unpack
  | readRevision
  | writeRevision
  | readImportResult
  | writeImportResult
  | touchFlag (flag : FlagName)
  | removeFlag (flag : FlagName)
  | listFlags
  | listProblems
  deriving DecidableEq, Repr

/-- What a failing operation leaves in the file it was about to write. -/
structure Residue (Problem : Type) where
  data : Option Bytes
  revision : Slot Revision
  importResult : Slot (ImportResult Problem)
  flagCreated : Bool

/-- The operations that fail in a call. -/
abbrev Faults (Problem : Type) := FileOperation → Option (Residue Problem)

def noFaults {Problem : Type} : Faults Problem := fun _ => none

@[simp] theorem noFaults_apply {Problem : Type} (operation : FileOperation) :
    (noFaults : Faults Problem) operation = none := rfl

inductive Exception where
  | invalidId (id : ProblemId)
  | invalidFlag (flag : FlagName)
  | flagCantBeSet (flag : FlagName)
  | fileSystem (operation : FileOperation)
  | parse (operation : FileOperation)
  deriving DecidableEq, Repr

/-- The third-party parts the repository is configured with. -/
structure Externals (Directory Problem Tree : Type) where
  /-- The uploaded directory has a `format` file. -/
  hasFormat : Directory → Bool
  /-- `archiver::pack_contents` and `archiver::unpack`. -/
  pack : Directory → Bytes
  unpack : Bytes → Option Directory
  crc32 : Bytes → UInt32
  /-- The string form of the n-th generated archive revision. -/
  uuid : Nat → String
  /-- `importer::convert` into a destination with the given contents; the
  first argument stands for everything else the outcome depends on. -/
  convert : Nat → ProblemId → Revision → Directory → Option Tree →
    Except String Problem × Option Tree
  /-- `pm::repository::create_recursively` on the destination. -/
  createRecursively : Nat → Option Tree → Except String Unit × Option Tree

variable {Problem Tree : Type}

abbrev RepositoryM (Problem Tree : Type) :=
  EStateM Exception (Store Problem Tree)

namespace Store

def dir (store : Store Problem Tree) (id : ProblemId) :
    Option (ProblemDir Problem) :=
  store.problems.lookup id

def put (store : Store Problem Tree) (id : ProblemId)
    (dir : ProblemDir Problem) : Store Problem Tree :=
  { store with problems := store.problems.insert id dir }

/-- Change the directory of an existing problem. -/
def update (store : Store Problem Tree) (id : ProblemId)
    (change : ProblemDir Problem → ProblemDir Problem) :
    Store Problem Tree :=
  match store.dir id with
  | none => store
  | some before => store.put id (change before)

def create (store : Store Problem Tree) (id : ProblemId) :
    Store Problem Tree :=
  store.put id .created

def post (store : Store Problem Tree) (id : ProblemId) : Store Problem Tree :=
  { store with posted := store.posted ++ [id] }

def renew (store : Store Problem Tree) : Store Problem Tree :=
  { store with archiveRevision := store.archiveRevision + 1 }

section Lemmas

variable (store : Store Problem Tree) (id other : ProblemId)
  (dir dir' : ProblemDir Problem)
  (change : ProblemDir Problem → ProblemDir Problem)

@[simp] theorem dir_put_self : (store.put id dir).dir id = some dir := by
  simp [put, Store.dir]

@[simp] theorem dir_put_of_ne (different : other ≠ id) :
    (store.put id dir).dir other = store.dir other := by
  simp [put, Store.dir, AList.lookup_insert_ne different]

@[simp] theorem put_put :
    (store.put id dir).put id dir' = store.put id dir' := by
  simp [put]

@[simp] theorem published_put :
    (store.put id dir).published = store.published := rfl

@[simp] theorem archiveRevision_put :
    (store.put id dir).archiveRevision = store.archiveRevision := rfl

@[simp] theorem posted_put : (store.put id dir).posted = store.posted := rfl

theorem update_of_dir {store : Store Problem Tree} {id : ProblemId}
    {dir : ProblemDir Problem} (found : store.dir id = some dir) :
    store.update id change = store.put id (change dir) := by
  simp [update, found]

@[simp] theorem update_put :
    (store.put id dir).update id change = store.put id (change dir) := by
  simp [update]

@[simp] theorem dir_update_self :
    (store.update id change).dir id = (store.dir id).map change := by
  unfold update
  cases found : store.dir id with
  | none => simp [found]
  | some before => simp

@[simp] theorem dir_update_of_ne (different : other ≠ id) :
    (store.update id change).dir other = store.dir other := by
  unfold update
  cases store.dir id with
  | none => rfl
  | some before => simp [different]

@[simp] theorem published_update :
    (store.update id change).published = store.published := by
  unfold update
  cases store.dir id <;> rfl

@[simp] theorem archiveRevision_update :
    (store.update id change).archiveRevision = store.archiveRevision := by
  unfold update
  cases store.dir id <;> rfl

@[simp] theorem posted_update :
    (store.update id change).posted = store.posted := by
  unfold update
  cases store.dir id <;> rfl

@[simp] theorem dir_create_self :
    (store.create id).dir id = some .created := by
  simp [create]

@[simp] theorem dir_create_of_ne (different : other ≠ id) :
    (store.create id).dir other = store.dir other := by
  simp [create, different]

@[simp] theorem dir_post : (store.post id).dir other = store.dir other := rfl

@[simp] theorem published_post :
    (store.post id).published = store.published := rfl

@[simp] theorem archiveRevision_post :
    (store.post id).archiveRevision = store.archiveRevision := rfl

@[simp] theorem posted_post :
    (store.post id).posted = store.posted ++ [id] := rfl

@[simp] theorem dir_renew : store.renew.dir other = store.dir other := rfl

@[simp] theorem published_renew :
    store.renew.published = store.published := rfl

@[simp] theorem archiveRevision_renew :
    store.renew.archiveRevision = store.archiveRevision + 1 := rfl

@[simp] theorem posted_renew : store.renew.posted = store.posted := rfl

@[simp] theorem update_renew :
    store.renew.update id change = (store.update id change).renew := by
  unfold update
  rw [dir_renew]
  cases store.dir id <;> rfl

end Lemmas

/-- Every existing problem satisfies `holds`. -/
def All (holds : ProblemId → ProblemDir Problem → Prop)
    (store : Store Problem Tree) : Prop :=
  ∀ id dir, store.dir id = some dir → holds id dir

section All

variable {holds : ProblemId → ProblemDir Problem → Prop}
  {store : Store Problem Tree} {id : ProblemId}

theorem All.put {dir : ProblemDir Problem} (all : store.All holds)
    (own : holds id dir) : (store.put id dir).All holds := by
  intro other dir' found
  by_cases same : other = id
  · subst other
    rw [dir_put_self, Option.some.injEq] at found
    subst found
    exact own
  · rw [dir_put_of_ne _ _ _ _ same] at found
    exact all other dir' found

theorem All.update {change : ProblemDir Problem → ProblemDir Problem}
    (all : store.All holds) (own : ∀ dir, holds id dir → holds id (change dir)) :
    (store.update id change).All holds := by
  cases found : store.dir id with
  | none => simpa [Store.update, found] using all
  | some dir =>
      rw [update_of_dir _ found]
      exact all.put (own dir (all id dir found))

end All

end Store

/-- Perform an operation unless it fails in this call. -/
def fallible {α : Type} (faults : Faults Problem) (operation : FileOperation)
    (damage : Residue Problem →
      Store Problem Tree → Store Problem Tree)
    (action : RepositoryM Problem Tree α) : RepositoryM Problem Tree α :=
  match faults operation with
  | none => action
  | some residue => do
      modify (damage residue)
      throw (.fileSystem operation)

/-- A failing operation that only reads leaves nothing behind. -/
def harmless : Residue Problem → Store Problem Tree → Store Problem Tree :=
  fun _ store => store

/-- The directory of a problem; opening a file below a missing one fails. -/
def openDir (operation : FileOperation) (id : ProblemId) :
    RepositoryM Problem Tree (ProblemDir Problem) := do
  match (← get).dir id with
  | some dir => pure dir
  | none => throw (.fileSystem operation)

end Bacs.Archive
