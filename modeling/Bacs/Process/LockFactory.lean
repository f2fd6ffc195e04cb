import Mathlib.Data.Finset.Card
import Bacs.Foundation.Runs

/-!
# File locks and their factory

The factory has one mutex for each path, and the file locks share it.  Which
pointers there are to a mutex decides when the factory gives it up: one for
each file lock that refers to it and one in the registry.
-/

namespace Bacs.Process

open Foundation

variable {Name Path : Type} [DecidableEq Name] [DecidableEq Path]

/-- `m_factory` and `m_mutex`; there is one factory. -/
structure FileLock where
  factory : Bool
  mutex : Option Nat
  deriving DecidableEq, Repr

/-- `file_lock()` -/
def FileLock.invalid : FileLock :=
  ⟨false, none⟩

/-- `operator bool` -/
def FileLock.valid (lock : FileLock) : Bool :=
  lock.factory

/-- The mutexes that have been made are numbered, and each has its path. -/
structure LockState (Name Path : Type) where
  objects : Finset Name
  lock : Name → FileLock
  mutexes : List Path
  /-- `m_instances` -/
  instances : List Nat

namespace LockState

def initial : LockState Name Path :=
  ⟨∅, fun _ => .invalid, [], []⟩

def path (state : LockState Name Path) (mutex : Nat) : Option Path :=
  state.mutexes[mutex]?

/-- The file locks that refer to a mutex. -/
def holders (state : LockState Name Path) (mutex : Nat) : Finset Name :=
  state.objects.filter fun name => (state.lock name).mutex = some mutex

def useCount (state : LockState Name Path) (mutex : Nat) : Nat :=
  (state.holders mutex).card + state.instances.count mutex

def set (state : LockState Name Path) (name : Name) (lock : FileLock) :
    LockState Name Path :=
  { state with lock := Function.update state.lock name lock }

def construct (state : LockState Name Path) (name : Name)
    (lock : FileLock) : LockState Name Path :=
  { state.set name lock with objects := insert name state.objects }

def tryFindMutex (state : LockState Name Path) (path : Path) : Option Nat :=
  state.instances.find? fun mutex => state.path mutex == some path

def insertMutex (state : LockState Name Path) (path : Path) :
    LockState Name Path :=
  { state with
    mutexes := state.mutexes ++ [path]
    instances := state.mutexes.length :: state.instances }

/-- `get`, into a new object; `opens` tells whether the lock file opens. -/
def get (state : LockState Name Path) (name : Name) (path : Path)
    (opens : Bool) : LockState Name Path :=
  match state.tryFindMutex path with
  | some mutex => state.construct name ⟨true, some mutex⟩
  | none =>
      if opens then
        (state.insertMutex path).construct name
          ⟨true, some state.mutexes.length⟩
      -- The exception leaves before the mutex is inserted.
      else state

/-- `try_erase(m_mutex)` of a file lock. -/
def tryErase (state : LockState Name Path) (name : Name) :
    LockState Name Path :=
  match (state.lock name).mutex with
  | none => state
  | some mutex =>
      if state.useCount mutex = 2 ∧ mutex ∈ state.instances then
        let dropped := state.set name ⟨(state.lock name).factory, none⟩
        if dropped.useCount mutex = 1 then
          { dropped with instances := state.instances.erase mutex }
        else dropped.set name ⟨(state.lock name).factory, some mutex⟩
      else state

def swap (state : LockState Name Path) (left right : Name) :
    LockState Name Path :=
  { state with lock := state.lock ∘ Equiv.swap left right }

def moveConstruct (state : LockState Name Path) (name source : Name) :
    LockState Name Path :=
  (state.construct name (state.lock source)).set source .invalid

def moveAssign (state : LockState Name Path) (target source : Name) :
    LockState Name Path :=
  (state.swap target source).set source .invalid

def destroy (state : LockState Name Path) (name : Name) :
    LockState Name Path :=
  let state :=
    if (state.lock name).valid then state.tryErase name else state
  { state with objects := state.objects.erase name }

inductive Operation (Name Path : Type) where
  | defaultConstruct (name : Name)
  | get (name : Name) (path : Path) (opens : Bool)
  | moveConstruct (name source : Name)
  | moveAssign (target source : Name)
  | swap (left right : Name)
  | destroy (name : Name)
  deriving DecidableEq, Repr

/-- New objects get names that are free, and others are operated on while
they live. -/
def step (state : LockState Name Path) :
    Operation Name Path → Option (LockState Name Path)
  | .defaultConstruct name =>
      if name ∈ state.objects then none
      else some (state.construct name .invalid)
  | .get name path opens =>
      if name ∈ state.objects then none
      else some (state.get name path opens)
  | .moveConstruct name source =>
      if name ∈ state.objects ∨ source ∉ state.objects then none
      else some (state.moveConstruct name source)
  | .moveAssign target source =>
      if target ∈ state.objects ∧ source ∈ state.objects then
        some (state.moveAssign target source)
      else none
  | .swap left right =>
      if left ∈ state.objects ∧ right ∈ state.objects then
        some (state.swap left right)
      else none
  | .destroy name =>
      if name ∈ state.objects then some (state.destroy name) else none

end LockState

end Bacs.Process
