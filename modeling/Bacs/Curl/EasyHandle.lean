import Mathlib.Logic.Equiv.Basic
import Bacs.Foundation.Runs

/-!
# Easy handles and their objects

An easy object owns a handle of curl, or none.  The handle carries a private
pointer, by which the callbacks find the object again.
-/

namespace Bacs.Curl

open Foundation

/-- The handles are numbered in the order in which they are created. -/
structure EasyState (Object : Type) where
  /-- `m_curl` of the objects that live. -/
  objects : Object → Option (Option Nat)
  created : Nat
  /-- `CURLOPT_PRIVATE` -/
  pointer : Nat → Option Object
  cleaned : Nat → Nat

namespace EasyState

variable {Object : Type}

def initial : EasyState Object :=
  ⟨fun _ => none, 0, fun _ => none, fun _ => 0⟩

def curl (state : EasyState Object) (object : Object) : Option Nat :=
  (state.objects object).join

/-- `curl_easy_init`; the new handle has the last number. -/
def easyInit (state : EasyState Object) : EasyState Object :=
  { state with
    created := state.created + 1
    pointer := Function.update state.pointer state.created none }

/-- `curl_easy_duphandle`, which copies the private pointer too. -/
def easyDuphandle (state : EasyState Object) (handle : Nat) :
    EasyState Object :=
  { state with
    created := state.created + 1
    pointer := Function.update state.pointer state.created
      (state.pointer handle) }

/-- `curl_easy_reset` -/
def easyReset (state : EasyState Object) (handle : Nat) :
    EasyState Object :=
  { state with pointer := Function.update state.pointer handle none }

/-- `curl_easy_cleanup`, if there is a handle. -/
def easyCleanup (state : EasyState Object) :
    Option Nat → EasyState Object
  | some handle =>
      { state with
        cleaned := Function.update state.cleaned handle
          (state.cleaned handle + 1) }
  | none => state

variable [DecidableEq Object] (state : EasyState Object)

def put (object : Object) (curl : Option Nat) : EasyState Object :=
  { state with objects := Function.update state.objects object (some curl) }

def init (object : Object) : EasyState Object :=
  match state.curl object with
  | some handle =>
      { state with
        pointer := Function.update state.pointer handle (some object) }
  | none => state

/-- `easy()`, and `easy(CURL *)` for a handle that is not captured. -/
def construct (object : Object) : EasyState Object :=
  (state.easyInit.put object (some state.created)).init object

/-- `easy(nullptr)` -/
def constructNull (object : Object) : EasyState Object :=
  state.put object none

/-- `operator=(nullptr)` -/
def assignNull (object : Object) : EasyState Object :=
  (state.easyCleanup (state.curl object)).put object none

def destroy (object : Object) : EasyState Object :=
  let state := state.assignNull object
  { state with objects := Function.update state.objects object none }

def swap (object curl : Object) : EasyState Object :=
  (((state.put object (state.curl curl)).put curl (state.curl object)).init
    object).init curl

def moveConstruct (object curl : Object) : EasyState Object :=
  ((state.put object (state.curl curl)).put curl none).init object

def moveAssign (object curl : Object) : EasyState Object :=
  ((state.put object (state.curl curl)).put curl none).init object

def reset (object : Object) : EasyState Object :=
  match state.curl object with
  | some handle => state.easyReset handle
  | none => state

/-- How copying goes: the handle may fail to be duplicated, and the options
may throw when they are copied or set. -/
inductive Copying where
  | done
  | notDuplicated
  | throws
  deriving DecidableEq, Repr

/-- The copy constructor, and whether the object has been made.  An object
that throws while it is made is not destroyed. -/
def copyConstruct (object curl : Object) (copying : Copying) :
    EasyState Object × Bool :=
  match state.curl curl, copying with
  | some handle, .done =>
      (((state.easyDuphandle handle).put object
        (some state.created)).init object, true)
  | none, .done => (state.put object none, true)
  | some handle, .throws => (state.easyDuphandle handle, false)
  | some _, .notDuplicated => (state, false)
  | none, _ => (state, false)

end EasyState

/-- The copy that copy assignment makes is an object without a name. -/
abbrev EasyObject (Name : Type) := Option Name

namespace EasyState

variable {Name : Type} [DecidableEq Name]

def copyAssign (state : EasyState (EasyObject Name)) (object curl : Name)
    (copying : Copying) : EasyState (EasyObject Name) :=
  match state.copyConstruct none (some curl) copying with
  | (state, true) => (state.swap none (some object)).destroy none
  | (state, false) => state

inductive Action (Name : Type) where
  | construct (name : Name)
  | constructNull (name : Name)
  | copyConstruct (name source : Name) (copying : Copying)
  | moveConstruct (name source : Name)
  | copyAssign (target source : Name) (copying : Copying)
  | moveAssign (target source : Name)
  | assignNull (target : Name)
  | swap (first second : Name)
  | reset (name : Name)
  | destroy (name : Name)
  deriving DecidableEq, Repr

def lives (state : EasyState (EasyObject Name)) (name : Name) : Bool :=
  (state.objects (some name)).isSome

/-- Objects are made under names that are free, and only objects with a handle
are reset. -/
def step (state : EasyState (EasyObject Name)) :
    Action Name → Option (EasyState (EasyObject Name))
  | .construct name =>
      if state.lives name then none else some (state.construct name)
  | .constructNull name =>
      if state.lives name then none else some (state.constructNull name)
  | .copyConstruct name source copying =>
      if state.lives name || !state.lives source then none
      else some (state.copyConstruct name source copying).1
  | .moveConstruct name source =>
      if state.lives name || !state.lives source then none
      else some (state.moveConstruct name source)
  | .copyAssign target source copying =>
      if state.lives target && state.lives source then
        some (state.copyAssign target source copying)
      else none
  | .moveAssign target source =>
      if state.lives target && state.lives source then
        some (state.moveAssign target source)
      else none
  | .assignNull target =>
      if state.lives target then some (state.assignNull target) else none
  | .swap first second =>
      if state.lives first && state.lives second then
        some (state.swap first second)
      else none
  | .reset name =>
      if (state.curl name).isSome then some (state.reset name) else none
  | .destroy name =>
      if state.lives name then some (state.destroy name) else none

end EasyState

end Bacs.Curl
