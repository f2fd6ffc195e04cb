import Bacs.Pm.Installation
import Bacs.Pm.Places

/-!
# The cache of installations

Threads ask for the installations of packages.  Whether one has to be updated
is looked at without a lock; it is updated under an exclusive lock, and an
entry holds a shared lock, which is taken after the exclusive one has been
released.

Every operation on the lock is a step of its own, and so are the look at an
installation, the preparation of its directory, its update, and cleaning the
cache.  What is done in a step under the exclusive lock may fail.
-/

namespace Bacs.Pm.Extractor.SharedCache

variable {File Archive Content : Type}

structure Config (File Archive Content : Type) where
  root : List String
  lifetime : Int
  externals : Externals File Archive (Disk String Content)
  format : Format
  snapshots : SnapshotFormat Content
  /-- `installation.meta` -/
  metaName : String
  /-- The extractor asserts that the meta file is not among the data. -/
  metaName_ne : metaName ≠ "data"

/-- What a step finds in the remote, in the repository cache and in the
system. -/
structure Surroundings (File Archive Content : Type) where
  fuel : Nat
  remote : Remote File
  faults : Faults File Archive
  cache : Cache File Archive
  system : Nat → Response Content

inductive Thread where
  | idle
  /-- `get` has found that an update is needed. -/
  | waiting (package : Entry)
  | preparing (package : Entry)
  | updating (package : Entry)
  | updated (package : Entry)
  /-- `get` is about to construct the entry. -/
  | entering (package : Entry)
  | waitingClean
  | cleaning
  /-- The exclusive lock is released at the end of `clean`, or because an
  exception was thrown. -/
  | leaving
  deriving DecidableEq, Repr

def Thread.exclusive : Thread → Bool
  | .idle => false
  | .waiting _ => false
  | .preparing _ => true
  | .updating _ => true
  | .updated _ => true
  | .entering _ => false
  | .waitingClean => false
  | .cleaning => true
  | .leaving => true

structure State (Content : Type) where
  disk : Disk String Content
  threads : List Thread
  /-- The packages of all entries that are held, copies included. -/
  held : List Entry

inductive Action (File Archive Content : Type) where
  | get (package : Entry) (surroundings : Surroundings File Archive Content)
  | clean
  | lock
  | prepare (surroundings : Surroundings File Archive Content)
  | update (surroundings : Surroundings File Archive Content)
  | reset (surroundings : Surroundings File Archive Content)
  | unlock
  /-- `entry::entry`, which takes the shared lock -/
  | enter
  | copy (package : Entry)
  | release (package : Entry)

variable (config : Config File Archive Content)

/-- `m_config.root / package.location() / installation_subdir` -/
def Config.directory (package : Entry) : List String :=
  Places.packageRoot config.root package ++ [".install"]

def Config.station (surroundings : Surroundings File Archive Content) :
    Station File Archive Content :=
  { externals := config.externals
    format := config.format
    remote := surroundings.remote
    faults := surroundings.faults
    snapshots := config.snapshots
    config := { metaPath := [config.metaName], dataPath := some ["data"] }
    system := surroundings.system }

section Programs

variable (surroundings : Surroundings File Archive Content)
  (package : Entry)

def clean_ : SiteM File Archive Content Unit :=
  resetDir (config.station surroundings) config.root

/-- What is done before the update: something else than a directory in its
place makes the whole cache be cleaned. -/
def prepareDirectory : SiteM File Archive Content Unit := do
  let status ← inspect (config.station surroundings) .status fun disk =>
    some (disk.node (config.directory package))
  match status with
  | some .directory => pure ()
  | none =>
      createDirectories (config.station surroundings)
        (config.directory package)
  | some (.file _) => do
      clean_ config surroundings
      createDirectories (config.station surroundings)
        (config.directory package)

def needUpdate : SiteM File Archive Content Bool :=
  Extractor.needUpdate (config.station surroundings)
    (config.directory package) config.lifetime

def updateDirectory : SiteM File Archive Content Unit :=
  repositoryUpdateAfter (config.station surroundings) surroundings.fuel
    package (config.directory package) config.lifetime

end Programs

def site (surroundings : Surroundings File Archive Content)
    (disk : Disk String Content) : Site File Archive Content :=
  ⟨⟨surroundings.cache, 0, []⟩, disk, 0⟩

/-- A step under the exclusive lock, and what the thread does after it. -/
def State.perform (state : State Content) (index : Nat)
    (program : SiteM File Archive Content Unit)
    (surroundings : Surroundings File Archive Content) (next : Thread) :
    State Content :=
  match program (site surroundings state.disk) with
  | .ok _ final =>
      { state with disk := final.disk, threads := state.threads.set index next }
  | .error _ final =>
      { state with
        disk := final.disk, threads := state.threads.set index .leaving }

def State.goOn (state : State Content) (index : Nat) (next : Thread) :
    State Content :=
  { state with threads := state.threads.set index next }

def State.shareable (state : State Content) : Bool :=
  state.threads.all fun thread => !thread.exclusive

def State.free (state : State Content) : Bool :=
  state.shareable && state.held.isEmpty

/-- One step of a thread; entries are copied and released by anyone. -/
def step (state : State Content) :
    Nat × Action File Archive Content → Option (State Content)
  | (index, .get package surroundings) =>
      if state.threads[index]? = some .idle then
        match needUpdate config surroundings package
            (site surroundings state.disk) with
        | .ok true _ => some (state.goOn index (.waiting package))
        | .ok false _ => some (state.goOn index (.entering package))
        | .error _ _ => some state
      else none
  | (index, .clean) =>
      if state.threads[index]? = some .idle then
        some (state.goOn index .waitingClean)
      else none
  | (index, .lock) =>
      if state.free then
        match state.threads[index]? with
        | some (.waiting package) =>
            some (state.goOn index (.preparing package))
        | some .waitingClean => some (state.goOn index .cleaning)
        | _ => none
      else none
  | (index, .prepare surroundings) =>
      match state.threads[index]? with
      | some (.preparing package) =>
          some (state.perform index
            (prepareDirectory config surroundings package) surroundings
            (.updating package))
      | _ => none
  | (index, .update surroundings) =>
      match state.threads[index]? with
      | some (.updating package) =>
          some (state.perform index
            (updateDirectory config surroundings package) surroundings
            (.updated package))
      | _ => none
  | (index, .reset surroundings) =>
      match state.threads[index]? with
      | some .cleaning =>
          some (state.perform index (clean_ config surroundings)
            surroundings .leaving)
      | _ => none
  | (index, .unlock) =>
      match state.threads[index]? with
      | some (.updated package) => some (state.goOn index (.entering package))
      | some .leaving => some (state.goOn index .idle)
      | _ => none
  | (index, .enter) =>
      if state.shareable then
        match state.threads[index]? with
        | some (.entering package) =>
            some { state.goOn index .idle with held := package :: state.held }
        | _ => none
      else none
  | (_, .copy package) =>
      if state.shareable ∧ package ∈ state.held then
        some { state with held := package :: state.held }
      else none
  | (_, .release package) =>
      if package ∈ state.held then
        some { state with held := state.held.erase package }
      else none

end Bacs.Pm.Extractor.SharedCache
