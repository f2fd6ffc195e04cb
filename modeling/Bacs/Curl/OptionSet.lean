import Mathlib.Data.List.FinRange
import Bacs.Foundation.Tiling

/-!
# Sets of curl options

An option that keeps its data itself is stored in the option set, as one
object that is shared by the slots of all its ids.  Where another option takes
one of these ids, the object is unset from the handle and leaves all of its
slots.

Objects have addresses, and pointers to them are compared by address.  A
failing assertion does not end an operation here: it is noted, and the
operation goes on as it does without assertions.
-/

namespace Bacs.Curl

open Foundation

/-- The distance of the ids of one type from those of the next. -/
def optionType : Nat := 10000

/-- `curl_opt_id` -/
def curlOptId (id : Nat) : Nat :=
  if optionType ≤ id then curlOptId (id - optionType) else id
termination_by id
decreasing_by
  have positive : 0 < optionType := Nat.zero_lt_succ _
  omega

/-- `CURLoption`, whose ids are below `CURLOPT_LASTENTRY` without their
type. -/
structure CurlOption (lastEntry : Nat) where
  id : Nat
  known : curlOptId id < lastEntry

variable {lastEntry : Nat} {Handle Name Value : Type}

/-- The place of an id in `m_options`. -/
def CurlOption.slot (id : CurlOption lastEntry) : Fin lastEntry :=
  ⟨curlOptId id.id, id.known⟩

/-- What an option is made of: its ids and `m_impl`. -/
structure OptionBase (lastEntry : Nat) (Value : Type) where
  ids : List (CurlOption lastEntry)
  value : Value

/-- `shared_option_ptr` -/
structure SharedOption (lastEntry : Nat) (Value : Type) where
  address : Nat
  option : OptionBase lastEntry Value

def OptionBase.slots (option : OptionBase lastEntry Value) :
    List (Fin lastEntry) :=
  option.ids.map CurlOption.slot

def SharedOption.slots (opt : SharedOption lastEntry Value) :
    List (Fin lastEntry) :=
  opt.option.slots

/-- `m_options` -/
abbrev OptionSet (lastEntry : Nat) (Value : Type) :=
  Fin lastEntry → Option (SharedOption lastEntry Value)

/-- What is done to a handle, by the option at an address. -/
inductive Event (Handle : Type) where
  | setopt (handle : Handle) (address : Nat)
  | unsetopt (handle : Handle) (address : Nat)
  deriving DecidableEq, Repr

inductive Assertion where
  /-- `!range.empty()` in `store_and_setopt` -/
  | idsGiven
  /-- `m_options[other_id_]` -/
  | otherStored
  /-- `m_options[other_id_] == opt` -/
  | otherSame
  /-- `!m_options[id_]` -/
  | isUnset
  deriving DecidableEq, Repr

/-! ## One option set -/

/-- An option set while an operation is done on it. -/
structure Work (lastEntry : Nat) (Handle Value : Type) where
  options : OptionSet lastEntry Value
  log : List (Event Handle)
  failed : List Assertion

namespace Work

variable (handle : Handle) (work : Work lastEntry Handle Value)

def check (holds : Bool) (assertion : Assertion) :
    Work lastEntry Handle Value :=
  if holds then work
  else { work with failed := work.failed ++ [assertion] }

def record (event : Event Handle) : Work lastEntry Handle Value :=
  { work with log := work.log ++ [event] }

/-- The loop of `unsetopt` for one of the ids of the stored option. -/
def resetOther (opt : SharedOption lastEntry Value)
    (work : Work lastEntry Handle Value) (otherId : CurlOption lastEntry) :
    Work lastEntry Handle Value :=
  let other := work.options otherId.slot
  let work := work.check other.isSome .otherStored
  let work := work.check
    (other.map SharedOption.address == some opt.address) .otherSame
  { work with options := Function.update work.options otherId.slot none }

def unsetopt (id : CurlOption lastEntry) : Work lastEntry Handle Value :=
  let work :=
    match work.options id.slot with
    | none => work
    | some opt =>
        (opt.option.ids.foldl (resetOther opt) work).record
          (.unsetopt handle opt.address)
  work.check (work.options id.slot).isNone .isUnset

/-- The loop of `setopt_` and of `store_and_setopt`. -/
def unsetAll (ids : List (CurlOption lastEntry)) :
    Work lastEntry Handle Value :=
  ids.foldl (fun work id => work.unsetopt handle id) work

/-- `setopt_` with `retention_policy::by_curl` -/
def setoptByCurl (opt : SharedOption lastEntry Value) :
    Work lastEntry Handle Value :=
  (work.unsetAll handle opt.option.ids).record (.setopt handle opt.address)

/-- The option stays stored if `opt->setopt` throws. -/
def storeAndSetopt (opt : SharedOption lastEntry Value) :
    Work lastEntry Handle Value :=
  let work := work.check (!opt.option.ids.isEmpty) .idsGiven
  let work := work.unsetAll handle opt.option.ids
  let work := { work with options := fill work.options opt.slots (some opt) }
  work.record (.setopt handle opt.address)

end Work

namespace OptionSet

/-- The copy constructor, which clones what it finds in a slot. -/
def copy (set : OptionSet lastEntry Value) (next : Nat) :
    OptionSet lastEntry Value :=
  fun slot => (set slot).map fun opt => ⟨next + slot, opt.option⟩

/-- The loop of `setopt(curl)`: the options that are set, and whether it comes
to its end.  It stops at an option that throws. -/
def setoptEach (throws : SharedOption lastEntry Value → Bool) :
    List (Option (SharedOption lastEntry Value)) → List Nat →
      List (SharedOption lastEntry Value) × Bool
  | [], _ => ([], true)
  | none :: rest, seen => setoptEach throws rest seen
  | some opt :: rest, seen =>
      if opt.address ∈ seen then setoptEach throws rest seen
      else if throws opt then ([opt], false)
      else
        let (applied, ended) :=
          setoptEach throws rest (opt.address :: seen)
        (opt :: applied, ended)

def setopt (set : OptionSet lastEntry Value)
    (throws : SharedOption lastEntry Value → Bool) :
    List (SharedOption lastEntry Value) × Bool :=
  setoptEach throws ((List.finRange lastEntry).map set) []

end OptionSet

/-! ## Any number of option sets -/

inductive RetentionPolicy where
  | byWrapper
  | byCurl
  deriving DecidableEq, Repr

structure State (lastEntry : Nat) (Handle Name Value : Type) where
  sets : Name → Option (OptionSet lastEntry Value)
  /-- The addresses from here on have not been used. -/
  next : Nat
  log : List (Event Handle)
  failed : List Assertion

inductive Action (lastEntry : Nat) (Handle Name Value : Type) where
  | construct (name : Name)
  | copyConstruct (name source : Name)
  | moveConstruct (name source : Name)
  | copyAssign (target source : Name)
  | moveAssign (target source : Name)
  | swap (first second : Name)
  | clear (name : Name)
  | setopt (name : Name) (handle : Handle) (policy : RetentionPolicy)
    (option : OptionBase lastEntry Value)
  /-- `setopt(curl)`, with the options that throw -/
  | apply (name : Name) (handle : Handle)
    (throws : SharedOption lastEntry Value → Bool)
  | destroy (name : Name)

namespace State

variable [DecidableEq Name] (state : State lastEntry Handle Name Value)

def put (name : Name) (set : Option (OptionSet lastEntry Value)) :
    State lastEntry Handle Name Value :=
  { state with sets := Function.update state.sets name set }

/-- The copy is a new set, and what was in the target is destroyed. -/
def putCopy (target : Name) (set : OptionSet lastEntry Value) :
    State lastEntry Handle Name Value :=
  { state.put target (some (set.copy state.next)) with
    next := state.next + lastEntry }

def putMoved (target source : Name) (set : OptionSet lastEntry Value) :
    State lastEntry Handle Name Value :=
  (state.put source (some fun _ => none)).put target (some set)

def setopt (name : Name) (set : OptionSet lastEntry Value) (handle : Handle)
    (policy : RetentionPolicy) (option : OptionBase lastEntry Value) :
    State lastEntry Handle Name Value :=
  let work : Work lastEntry Handle Value := ⟨set, state.log, state.failed⟩
  let opt : SharedOption lastEntry Value := ⟨state.next, option⟩
  let work :=
    match policy with
    | .byWrapper => work.storeAndSetopt handle opt
    | .byCurl => work.setoptByCurl handle opt
  { sets := Function.update state.sets name (some work.options)
    next := state.next + 1
    log := work.log
    failed := work.failed }

end State

/-- `none` where a set that is used does not exist, or a new one does. -/
def step [DecidableEq Name] (state : State lastEntry Handle Name Value) :
    Action lastEntry Handle Name Value →
      Option (State lastEntry Handle Name Value)
  | .construct name =>
      if (state.sets name).isNone then
        some (state.put name (some fun _ => none))
      else none
  | .copyConstruct name source =>
      if (state.sets name).isNone then
        (state.sets source).map fun set => state.putCopy name set
      else none
  | .moveConstruct name source =>
      if (state.sets name).isNone then
        (state.sets source).map fun set => state.putMoved name source set
      else none
  | .copyAssign target source =>
      if (state.sets target).isSome then
        (state.sets source).map fun set => state.putCopy target set
      else none
  | .moveAssign target source =>
      if (state.sets target).isSome then
        (state.sets source).map fun set => state.putMoved target source set
      else none
  | .swap first second =>
      (state.sets first).bind fun set =>
        (state.sets second).map fun other =>
          (state.put first (some other)).put second (some set)
  | .clear name =>
      (state.sets name).map fun _ => state.put name (some fun _ => none)
  | .setopt name handle policy option =>
      (state.sets name).map fun set =>
        state.setopt name set handle policy option
  | .apply name handle throws =>
      (state.sets name).map fun set =>
        { state with
          log := state.log ++ (set.setopt throws).1.map fun opt =>
            .setopt handle opt.address }
  | .destroy name =>
      (state.sets name).map fun _ => state.put name none

def initial : State lastEntry Handle Name Value where
  sets := fun _ => none
  next := 0
  log := []
  failed := []

end Bacs.Curl
