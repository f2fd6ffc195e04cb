import Bacs.Foundation.Holding
import Bacs.Foundation.Runs

/-!
# Locking files

A file lock is taken in two steps: the mutex of its path inside the process,
and the lock of the file among the processes.  Callers are threads that use
file locks.  Waiting takes any time, so that others act between the two steps
of `timedLock`; how long a wait lasts and whether a call throws is decided
from outside.
-/

namespace Bacs.Process

open Foundation

variable {Process Path : Type} [DecidableEq Process] [DecidableEq Path]

/-- A thread that uses a file lock of a path in its process. -/
structure Caller (Process Path : Type) where
  process : Process
  path : Path
  object : Nat
  thread : Nat
  deriving DecidableEq, Repr

/-- The mutex of a path is one of a process. -/
def Caller.place (caller : Caller Process Path) : Process × Path :=
  (caller.process, caller.path)

inductive Outcome where
  | returned (success : Bool)
  | thrown
  deriving DecidableEq, Repr

inductive Waited where
  | acquired
  | timedOut
  | thrown
  deriving DecidableEq, Repr

structure Locking (Process Path : Type) where
  /-- Who has the mutex of a path inside a process. -/
  mlock : Process × Path → Option (Caller Process Path)
  /-- On whose behalf a process has the lock of a file. -/
  flock : Path → Option (Caller Process Path)
  /-- Who has the mutex and waits for the file in `timedLock`. -/
  waiting : Caller Process Path → Bool
  /-- Who has been told to have the lock and has not given it up. -/
  entered : Caller Process Path → Bool
  /-- The call of `tryLock` or `timedLock` that has just returned. -/
  last : Option (Caller Process Path × Outcome)

namespace Locking

variable (locking : Locking Process Path) (caller : Caller Process Path)

def initial : Locking Process Path :=
  ⟨fun _ => none, fun _ => none, fun _ => false, fun _ => false, none⟩

def HasMutex : Prop :=
  Holds Caller.place locking.mlock caller

def HasFile : Prop :=
  Holds Caller.path locking.flock caller

instance : Decidable (locking.HasMutex caller) :=
  inferInstanceAs (Decidable (locking.mlock _ = _))

instance : Decidable (locking.HasFile caller) :=
  inferInstanceAs (Decidable (locking.flock _ = _))

def mutexFree : Bool :=
  (locking.mlock caller.place).isNone

/-- The lock of a file excludes other processes only. -/
def fileFree : Bool :=
  (locking.flock caller.path).all fun holder =>
    holder.process = caller.process

def lockMutex : Locking Process Path :=
  { locking with
    mlock := Function.update locking.mlock caller.place (some caller) }

def lockFile : Locking Process Path :=
  { locking with
    flock := Function.update locking.flock caller.path (some caller) }

def unlockMutex : Locking Process Path :=
  { locking with
    mlock := Function.update locking.mlock caller.place none }

def unlockFile : Locking Process Path :=
  { locking with flock := Function.update locking.flock caller.path none }

def wait (begins : Bool) : Locking Process Path :=
  { locking with waiting := Function.update locking.waiting caller begins }

def enter (inside : Bool) : Locking Process Path :=
  { locking with entered := Function.update locking.entered caller inside }

/-- A call of `tryLock` or `timedLock` returns. -/
def leave (outcome : Outcome) : Locking Process Path :=
  { locking with
    entered :=
      if outcome = .returned true then
        Function.update locking.entered caller true
      else locking.entered
    last := some (caller, outcome) }

/-- `boost::try_lock(m_mutex->mlock, m_mutex->flock)`: minus one where both
locks are taken, and otherwise the number of the one that is not. -/
def boostTryLock : Int × Locking Process Path :=
  if !locking.mutexFree caller then (0, locking)
  else if !locking.fileFree caller then (1, locking)
  else (-1, (locking.lockMutex caller).lockFile caller)

/-- The scope guard of `timed_lock`, with the flags that it has captured. -/
def scopeExit (hasMlock hasFlock : Bool) : Locking Process Path :=
  if !hasMlock || !hasFlock then
    let locking := if hasFlock then locking.unlockFile caller else locking
    if hasMlock then locking.unlockMutex caller else locking
  else locking

inductive Action (Process Path : Type) where
  /-- `boost::lock`, when both locks are free or it throws. -/
  | lock (caller : Caller Process Path) (throws : Bool)
  | tryLock (caller : Caller Process Path) (throws : Bool)
  /-- Waiting for the mutex in `timedLock`. -/
  | timedMutex (caller : Caller Process Path) (waited : Waited)
  /-- Waiting for the file in `timedLock`. -/
  | timedFile (caller : Caller Process Path) (waited : Waited)
  | unlock (caller : Caller Process Path)
  deriving DecidableEq, Repr

/-- The mutex is not recursive: no caller that has it locks again.  The flags
are captured before they are set. -/
def step (locking : Locking Process Path) :
    Action Process Path → Option (Locking Process Path)
  | .lock caller throws =>
      if locking.HasMutex caller then none
      else if throws then some { locking with last := none }
      else if locking.mutexFree caller && locking.fileFree caller then
        some { ((locking.lockMutex caller).lockFile caller).enter caller true
          with last := none }
      else none
  | .tryLock caller throws =>
      if locking.HasMutex caller then none
      else if throws then some (locking.leave caller .thrown)
      else
        let (result, locking) := locking.boostTryLock caller
        some (locking.leave caller (.returned (result != 0)))
  | .timedMutex caller .acquired =>
      if locking.mutexFree caller then
        some { (locking.lockMutex caller).wait caller true with last := none }
      else none
  | .timedMutex caller waited =>
      if locking.HasMutex caller then none
      else
        some ((locking.scopeExit caller false false).leave caller
          (if waited = .thrown then .thrown else .returned false))
  | .timedFile caller .acquired =>
      if locking.waiting caller && locking.fileFree caller then
        some ((((locking.lockFile caller).wait caller false).scopeExit caller
          false false).leave caller (.returned true))
      else none
  | .timedFile caller waited =>
      if locking.waiting caller then
        some (((locking.wait caller false).scopeExit caller
          false false).leave caller
            (if waited = .thrown then .thrown else .returned false))
      else none
  | .unlock caller =>
      if locking.HasMutex caller ∧ locking.HasFile caller then
        some { ((locking.unlockFile caller).unlockMutex caller).enter
          caller false with last := none }
      else none

end Locking

end Bacs.Process
