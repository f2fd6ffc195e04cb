import Mathlib.Data.Finset.Card
import Mathlib.Logic.Equiv.Basic
import Bacs.Foundation.Runs

/-!
# Entries of caches

An entry refers to the lock of its cache, or to none.  Each special member
function is made of `swap`, `lock` and `unlock`.
-/

namespace Bacs.Pm

variable {Object Name Cache Path : Type}

/-- `m_lock` and `m_root` -/
structure CacheEntry (Cache Path : Type) where
  lock : Option Cache
  root : Path
  deriving DecidableEq, Repr

/-- The entries that live, and the shared locks that they hold. -/
structure EntryState (Object Cache Path : Type) where
  objects : Finset Object
  entry : Object → CacheEntry Cache Path
  shared : Cache → Nat
  underflow : Bool

namespace EntryState

def initial [Inhabited Path] : EntryState Object Cache Path :=
  ⟨∅, fun _ => ⟨none, default⟩, fun _ => 0, false⟩

variable [DecidableEq Object] [DecidableEq Cache]
  (state : EntryState Object Cache Path)

def put (object : Object) (entry : CacheEntry Cache Path) :
    EntryState Object Cache Path :=
  { state with
    objects := insert object state.objects
    entry := Function.update state.entry object entry }

def lock (object : Object) : EntryState Object Cache Path :=
  match (state.entry object).lock with
  | none => state
  | some cache =>
      { state with
        shared := Function.update state.shared cache
          (state.shared cache + 1) }

def unlock (object : Object) : EntryState Object Cache Path :=
  match (state.entry object).lock with
  | none => state
  | some cache =>
      { state with
        entry := Function.update state.entry object
          { state.entry object with lock := none }
        shared := Function.update state.shared cache
          (state.shared cache - 1)
        underflow := state.underflow || state.shared cache == 0 }

def swap (left right : Object) : EntryState Object Cache Path :=
  { state with entry := state.entry ∘ Equiv.swap left right }

/-- `entry()` -/
def construct [Inhabited Path] (object : Object) :
    EntryState Object Cache Path :=
  state.put object ⟨none, default⟩

/-- `entry(lock_, root)`, which `cache::get` returns -/
def constructLocked (object : Object) (cache : Cache) (root : Path) :
    EntryState Object Cache Path :=
  (state.put object ⟨some cache, root⟩).lock object

def copyConstruct (object source : Object) : EntryState Object Cache Path :=
  (state.put object (state.entry source)).lock object

def moveConstruct [Inhabited Path] (object source : Object) :
    EntryState Object Cache Path :=
  ((state.construct object).swap object source).unlock source

def moveAssign (target source : Object) : EntryState Object Cache Path :=
  (state.swap target source).unlock source

def destroy (object : Object) : EntryState Object Cache Path :=
  { state.unlock object with objects := state.objects.erase object }

end EntryState

/-- The copy that copy assignment makes is an object without a name. -/
abbrev EntryObject (Name : Type) := Option Name

inductive EntryOperation (Name Cache Path : Type) where
  | construct (name : Name)
  /-- `cache::get`, which may throw. -/
  | get (name : Name) (cache : Cache) (root : Path) (throws : Bool)
  | copyConstruct (name source : Name)
  | moveConstruct (name source : Name)
  | copyAssign (target source : Name)
  | moveAssign (target source : Name)
  | swap (left right : Name)
  | destroy (name : Name)
  deriving DecidableEq, Repr

namespace EntryState

variable [DecidableEq Name] [DecidableEq Cache]

def copyAssign (state : EntryState (EntryObject Name) Cache Path)
    (target source : Name) : EntryState (EntryObject Name) Cache Path :=
  ((state.copyConstruct none (some source)).swap (some target) none).destroy
    none

/-- New objects get names that are free, and others are operated on while
they live. -/
def step [Inhabited Path]
    (state : EntryState (EntryObject Name) Cache Path) :
    EntryOperation Name Cache Path →
      Option (EntryState (EntryObject Name) Cache Path)
  | .construct name =>
      if some name ∈ state.objects then none
      else some (state.construct (some name))
  | .get name cache root throws =>
      if some name ∈ state.objects then none
      else if throws then some state
      else some (state.constructLocked (some name) cache root)
  | .copyConstruct name source =>
      if some name ∈ state.objects ∨ some source ∉ state.objects then none
      else some (state.copyConstruct (some name) (some source))
  | .moveConstruct name source =>
      if some name ∈ state.objects ∨ some source ∉ state.objects then none
      else some (state.moveConstruct (some name) (some source))
  | .copyAssign target source =>
      if some target ∈ state.objects ∧ some source ∈ state.objects then
        some (state.copyAssign target source)
      else none
  | .moveAssign target source =>
      if some target ∈ state.objects ∧ some source ∈ state.objects then
        some (state.moveAssign (some target) (some source))
      else none
  | .swap left right =>
      if some left ∈ state.objects ∧ some right ∈ state.objects then
        some (state.swap (some left) (some right))
      else none
  | .destroy name =>
      if some name ∈ state.objects then some (state.destroy (some name))
      else none

end EntryState

end Bacs.Pm
