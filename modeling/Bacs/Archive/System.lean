import Bacs.Archive.Repository
import Bacs.Foundation.Runs

/-!
# Clients, the executor and their interleavings

Every thread is a client or an executor thread and runs one operation at a
time.  An operation is a sequence of steps that end where a lock is taken or
released, and the steps of different threads interleave in any order.  Each
section under `m_lock` is one step, because every other section needs the
same lock.

Before they take the lock, the flag operations, `prepare_import` and `import`
look up whether the problem exists.  Problems are never removed, so a lookup
that succeeds is repeated with the same answer under the lock, and one that
fails ends the operation; both are part of the locked step here.  The first
check of `upload` is a step of its own, because flags may change after it.

Operations that only read are functions of the state and no steps.

Every problem has a directory of its own here.  The ids `.` and `..`, which are
not refused, lead to the directory of all problems and to its parent instead.
Nothing is said about what an operation called with them does, and the results
that depend on it are about runs in which they are not used.
-/

namespace Bacs.Archive

open Foundation (execute Runs)

/-- What a thread is doing. -/
inductive Task (Directory Problem : Type) where
  | idle
  /-- `upload` has passed its first check. -/
  | uploading (id : ProblemId) (location : Directory)
  /-- `schedule_import` and `schedule_import_all`: the ids still to prepare
  and those to post when the scope is left. -/
  | scheduling (rest scheduled : List ProblemId)
  | posting (scheduled : List ProblemId)
  /-- `import` waits for `m_import_lock`. -/
  | importWaiting (id : ProblemId)
  | importReading (id : ProblemId)
  | importConverting (id : ProblemId) (revision : Revision)
      (contents : Directory)
  | importCommitting (id : ProblemId) (revision : Revision)
      (outcome : Except String Problem)

structure System (Directory Problem Tree : Type) where
  store : Store Problem Tree
  tasks : Nat → Task Directory Problem
  /-- The thread that holds `m_import_lock`. -/
  importing : Option Nat

inductive Action (Directory Problem : Type) where
  | upload (thread : Nat) (id : ProblemId) (location : Directory)
      (faults : Faults Problem)
  | uploadLocked (thread : Nat) (faults : Faults Problem)
  | editFlags (id : ProblemId) (edit : FlagEdit) (faults : Faults Problem)
  | schedule (thread : Nat) (ids : List ProblemId)
  | prepare (thread : Nat) (faults : Faults Problem)
  | post (thread : Nat)
  | callImport (thread : Nat) (id : ProblemId)
  /-- An executor thread takes one of the posted imports. -/
  | runPosted (thread : Nat) (index : Nat)
  | lockImports (thread : Nat)
  | importRead (thread : Nat) (faults : Faults Problem)
  | importConvert (thread : Nat) (seed : Nat)
  | importCommit (thread : Nat) (faults : Faults Problem)

variable {Directory Problem Tree : Type}

def Action.ids : Action Directory Problem → List ProblemId
  | .upload _ id _ _ => [id]
  | .editFlags id _ _ => [id]
  | .schedule _ ids => ids
  | .callImport _ id => [id]
  | _ => []

/-- The operation is not called with `.` or `..`. -/
def Action.Named (action : Action Directory Problem) : Prop :=
  ∀ id ∈ action.ids, isDirectoryName id = false

instance (action : Action Directory Problem) : Decidable action.Named := by
  unfold Action.Named
  infer_instance

/-- The storage after a program, however it ends. -/
def after {α : Type} (program : RepositoryM Problem Tree α)
    (store : Store Problem Tree) : Store Problem Tree :=
  match program store with
  | .ok _ final => final
  | .error _ final => final

namespace System

def initial : System Directory Problem Tree :=
  { store :=
      { problems := ∅
        published := fun _ => none
        archiveRevision := 0
        posted := [] }
    tasks := fun _ => .idle
    importing := none }

def goOn (system : System Directory Problem Tree) (thread : Nat)
    (task : Task Directory Problem) : System Directory Problem Tree :=
  { system with tasks := Function.update system.tasks thread task }

/-- The thread leaves `import` and releases `m_import_lock`. -/
def endImport (system : System Directory Problem Tree) (thread : Nat) :
    System Directory Problem Tree :=
  { system.goOn thread .idle with importing := none }

end System

variable (externals : Externals Directory Problem Tree)

/-- One step of the system; `none` where the action is not possible. -/
def step (system : System Directory Problem Tree) :
    Action Directory Problem → Option (System Directory Problem Tree)
  | .upload thread id location faults =>
      match system.tasks thread with
      | .idle =>
          match uploadCheck externals faults id location system.store with
          | .ok none store =>
              some { system.goOn thread (.uploading id location) with store }
          | .ok (some _) store => some { system with store }
          | .error _ store => some { system with store }
      | _ => none
  | .uploadLocked thread faults =>
      match system.tasks thread with
      | .uploading id location =>
          some { system.goOn thread .idle with
            store := after (uploadLocked externals faults id location)
              system.store }
      | _ => none
  | .editFlags id edit faults =>
      some { system with
        store := after (editFlags faults id edit) system.store }
  | .schedule thread ids =>
      match system.tasks thread with
      | .idle => some (system.goOn thread (.scheduling ids []))
      | _ => none
  | .prepare thread faults =>
      match system.tasks thread with
      | .scheduling [] scheduled =>
          some (system.goOn thread (.posting scheduled))
      | .scheduling (id :: rest) scheduled =>
          match prepareImport faults id system.store with
          | .ok true store =>
              some { system.goOn thread
                (.scheduling rest (scheduled.insert id)) with store }
          | .ok false store =>
              some { system.goOn thread (.scheduling rest scheduled) with
                store }
          -- An exception leaves the scope, which posts what is scheduled.
          | .error _ store =>
              some { system.goOn thread (.posting scheduled) with store }
      | _ => none
  | .post thread =>
      match system.tasks thread with
      | .posting [] => some (system.goOn thread .idle)
      | .posting (id :: rest) =>
          some { system.goOn thread (.posting rest) with
            store := after (postImport_ id) system.store }
      | _ => none
  | .callImport thread id =>
      match system.tasks thread with
      | .idle =>
          if isAllowedId id then some (system.goOn thread (.importWaiting id))
          else some system
      | _ => none
  | .runPosted thread index =>
      match system.tasks thread, system.store.posted[index]? with
      | .idle, some id =>
          some { system.goOn thread (.importWaiting id) with
            store := { system.store with
              posted := system.store.posted.eraseIdx index } }
      | _, _ => none
  | .lockImports thread =>
      match system.tasks thread, system.importing with
      | .importWaiting id, none =>
          some { system.goOn thread (.importReading id) with
            importing := some thread }
      | _, _ => none
  | .importRead thread faults =>
      match system.tasks thread with
      | .importReading id =>
          match importReadLocked externals faults id system.store with
          | .ok (some (revision, contents)) store =>
              some { system.goOn thread
                (.importConverting id revision contents) with store }
          | .ok none store => some { system.endImport thread with store }
          | .error _ store => some { system.endImport thread with store }
      | _ => none
  | .importConvert thread seed =>
      match system.tasks thread with
      | .importConverting id revision contents =>
          let converted := importConvert externals seed id revision contents
            (system.store.published id)
          some { system.goOn thread
            (.importCommitting id revision converted.1) with
            store := { system.store with
              published :=
                Function.update system.store.published id converted.2 } }
      | _ => none
  | .importCommit thread faults =>
      match system.tasks thread with
      | .importCommitting id revision outcome =>
          some { system.endImport thread with
            store := after (importCommitLocked faults id revision outcome)
              system.store }
      | _ => none

/-! ## A small configuration

Two directories can be uploaded; an archive is one byte long.  Conversion
fails for every seed but `0`.
-/

namespace Sample

/-- CRC-32 with the standard polynomial, one bit at a time. -/
def crc32 (contents : Bytes) : UInt32 :=
  let round (crc : UInt32) : UInt32 :=
    if crc &&& 1 = 1 then (crc >>> 1) ^^^ 0xEDB88320 else crc >>> 1
  let process (crc : UInt32) (byte : UInt8) : UInt32 :=
    round^[8] (crc ^^^ byte.toUInt32)
  contents.foldl process 0xFFFFFFFF ^^^ 0xFFFFFFFF

def configuration : Externals Bool Bool Bool where
  hasFormat := fun _ => true
  pack := fun location => [if location then 1 else 0]
  unpack := fun archive => archive.head?.map (· == 1)
  crc32 := crc32
  uuid := fun count => String.ofList (List.replicate count 'u')
  convert := fun seed _ _ contents before =>
    if seed = 0 then (.ok contents, some contents)
    else (.error "conversion failed", before)
  createRecursively := fun _ tree => (.ok (), tree)

/-- One imported problem with the given flags, and an upload to it that has
passed its first check. -/
def system (flags : List FlagName) : System Bool Bool Bool :=
  { store :=
      { problems := (∅ : AList fun _ : ProblemId => ProblemDir Bool).insert
          "p"
          { data := some [1]
            revision := .value (hashRevision configuration [1])
            importResult := .value (.problem true)
            flags := some flags }
        published := fun _ => some true
        archiveRevision := 1
        posted := [] }
    tasks := Function.update (fun _ => .idle) 0 (.uploading "p" true)
    importing := none }

/-- One problem is uploaded and imported by an executor thread. -/
def importRun : List (Action Bool Bool) :=
  [.upload 0 "p" true noFaults, .uploadLocked 0 noFaults, .runPosted 1 0,
    .lockImports 1, .importRead 1 noFaults, .importConvert 1 0,
    .importCommit 1 noFaults]

def reach (actions : List (Action Bool Bool)) : System Bool Bool Bool :=
  (execute (step configuration) .initial actions).getD .initial

theorem reach_run {actions : List (Action Bool Bool)}
    {allowed : System Bool Bool Bool → Action Bool Bool → Prop}
    (possible : (execute (step configuration) .initial actions).isSome)
    (permitted : ∀ state, ∀ action ∈ actions, allowed state action) :
    Runs (step configuration) allowed .initial (reach actions) := by
  obtain ⟨final, executed⟩ := Option.isSome_iff_exists.mp possible
  rw [reach, executed]
  exact Runs.of_execute permitted executed

end Sample

end Bacs.Archive
