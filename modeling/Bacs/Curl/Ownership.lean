import Mathlib.Logic.Equiv.Basic
import Bacs.Curl.Replacement
import Bacs.Foundation.Channel
import Bacs.Foundation.Runs

/-!
# Ownership of stored options

Every stored option is in one option set, in all the slots of its ids, until
it is unset once or goes with its set.  This holds as long as no set is copied
that has an option with several ids, since a copy has a clone in every slot.
-/

namespace Bacs.Curl

open Foundation

variable {lastEntry : Nat} {Handle Name Value : Type}
  {opt other : SharedOption lastEntry Value}

/-! ## The history of an option -/

def Event.unsetFrom (address : Nat) : Event Handle → Option Handle
  | .setopt _ _ => none
  | .unsetopt handle unset => if unset = address then some handle else none

/-- The handles from which the option at an address has been unset. -/
def unsetsIn (log : List (Event Handle)) (address : Nat) : List Handle :=
  log.filterMap (Event.unsetFrom address)

section Log

variable {handle : Handle} {log later : List (Event Handle)}
  {address : Nat} {opts : List (SharedOption lastEntry Value)}

@[simp] theorem unsetsIn_append :
    unsetsIn (log ++ later) address =
      unsetsIn log address ++ unsetsIn later address :=
  List.filterMap_append

theorem unsetsIn_setopts :
    unsetsIn (opts.map fun opt => .setopt handle opt.address) address =
      [] := by
  rw [unsetsIn, List.filterMap_map]
  exact List.filterMap_eq_nil_iff.mpr fun _ _ => rfl

theorem unsetsIn_unsets_of_not_mem (handle : Handle)
    (absent : address ∉ opts.map SharedOption.address) :
    unsetsIn (opts.map fun opt => .unsetopt handle opt.address) address =
      [] := by
  rw [unsetsIn, List.filterMap_map]
  apply List.filterMap_eq_nil_iff.mpr
  intro opt member
  apply if_neg
  intro same
  exact absent (same ▸ List.mem_map_of_mem member)

theorem unsetsIn_unsets_of_mem
    (distinct : (opts.map SharedOption.address).Nodup)
    (member : address ∈ opts.map SharedOption.address) :
    unsetsIn (opts.map fun opt => .unsetopt handle opt.address) address =
      [handle] := by
  induction opts with
  | nil => cases member
  | cons first opts induction =>
      obtain ⟨notAgain, distinct⟩ := List.nodup_cons.mp distinct
      obtain same | member := List.mem_cons.mp member
      · have nothing := unsetsIn_unsets_of_not_mem handle notAgain
        rw [same]
        rw [unsetsIn] at nothing ⊢
        rw [List.map_cons, List.filterMap_cons, nothing]
        simp [Event.unsetFrom]
      · have different : first.address ≠ address := by
          intro same
          exact notAgain (same ▸ member)
        have once := induction distinct member
        rw [unsetsIn] at once ⊢
        rw [List.map_cons, List.filterMap_cons, once]
        simp [Event.unsetFrom, different]

end Log

/-! ## States -/

variable {state next : State lastEntry Handle Name Value}
  {name : Name} {set : OptionSet lastEntry Value}

def State.Stores (state : State lastEntry Handle Name Value) (name : Name)
    (opt : SharedOption lastEntry Value) : Prop :=
  ∃ set, state.sets name = some set ∧ Lies set opt

def State.unsets (state : State lastEntry Handle Name Value) :
    Nat → List Handle :=
  unsetsIn state.log

structure Valid (state : State lastEntry Handle Name Value) : Prop where
  tiled : ∀ name set, state.sets name = some set →
    Tiled SharedOption.slots set
  known : ∀ name opt, state.Stores name opt → opt.address < state.next
  own : ∀ name opt name' opt', state.Stores name opt →
    state.Stores name' opt' → opt.address = opt'.address →
      name = name' ∧ opt = opt'
  pristine : ∀ name opt, state.Stores name opt →
    state.unsets opt.address = []
  fresh : ∀ address, state.next ≤ address → state.unsets address = []
  once : ∀ address, (state.unsets address).length ≤ 1
  unchecked : ∀ assertion ∈ state.failed, assertion = .idsGiven

theorem initial_valid :
    Valid (initial : State lastEntry Handle Name Value) where
  tiled := by nofun
  known := by
    rintro name opt ⟨set, nothing, _⟩
    cases nothing
  own := by
    rintro name opt name' opt' ⟨set, nothing, _⟩
    cases nothing
  pristine := by
    rintro name opt ⟨set, nothing, _⟩
    cases nothing
  fresh := fun _ _ => rfl
  once := fun _ => Nat.zero_le 1
  unchecked := by nofun

theorem Valid.rearrange (valid : Valid state) (origin : Equiv.Perm Name)
    {sets : Name → Option (OptionSet lastEntry Value)}
    (comes : ∀ name set, sets name = some set →
      set = (fun _ => none) ∨ state.sets (origin name) = some set) :
    Valid { state with sets := sets } := by
  have stores : ∀ name opt,
      State.Stores { state with sets := sets } name opt →
        state.Stores (origin name) opt := by
    rintro name opt ⟨set, there, slot, stored⟩
    obtain empty | earlier := comes name set there
    · subst empty
      cases stored
    · exact ⟨set, earlier, slot, stored⟩
  constructor
  · intro name set there
    obtain empty | earlier := comes name set there
    · subst empty
      exact Tiled.empty
    · exact valid.tiled _ set earlier
  · intro name opt stored
    exact valid.known _ opt (stores name opt stored)
  · intro name opt name' opt' stored stored' same
    obtain ⟨sameName, sameOpt⟩ := valid.own _ opt _ opt'
      (stores name opt stored) (stores name' opt' stored') same
    exact ⟨origin.injective sameName, sameOpt⟩
  · intro name opt stored
    exact valid.pristine _ opt (stores name opt stored)
  · exact valid.fresh
  · exact valid.once
  · exact valid.unchecked

theorem apply_valid (valid : Valid state) (handle : Handle)
    (opts : List (SharedOption lastEntry Value)) :
    Valid { state with
      log := state.log ++ opts.map fun opt =>
        .setopt handle opt.address } := by
  have same : ∀ address,
      unsetsIn (state.log ++ opts.map fun opt =>
        .setopt handle opt.address) address = state.unsets address := by
    intro address
    rw [unsetsIn_append, unsetsIn_setopts, List.append_nil]
    rfl
  constructor
  · exact valid.tiled
  · exact valid.known
  · exact valid.own
  · intro name opt stored
    exact (same opt.address).trans (valid.pristine name opt stored)
  · intro address later
    exact (same address).trans (valid.fresh address later)
  · intro address
    exact (congrArg List.length (same address)).trans_le
      (valid.once address)
  · exact valid.unchecked

theorem source_of_guarded {guard : Prop} [Decidable guard]
    {found : Option (OptionSet lastEntry Value)}
    {make : OptionSet lastEntry Value → State lastEntry Handle Name Value}
    (taken : (if guard then found.map make else none) = some next) :
    ∃ set, found = some set ∧ make set = next := by
  split at taken
  · exact Option.map_eq_some_iff.mp taken
  · cases taken

/-! ## Copies -/

/-- Every stored option has all of its ids in one slot. -/
def Clonable (set : OptionSet lastEntry Value) : Prop :=
  ∀ slot opt, set slot = some opt → ∀ other ∈ opt.slots, other = slot

/-- A copy keeps the ids of its options together just when every option of the
set has only one slot. -/
theorem copy_tiled_iff (tiled : Tiled SharedOption.slots set) (next : Nat) :
    Tiled SharedOption.slots (set.copy next) ↔ Clonable set := by
  apply tiled.copy_iff
  · intro slot opt
    rfl
  · intro slot other opt same
    have sameAddress := congrArg SharedOption.address same
    exact Fin.ext (Nat.add_left_cancel sameAddress)

theorem lies_copy {next : Nat} (stored : Lies (set.copy next) opt) :
    ∃ slot, set slot ≠ none ∧ opt.address = next + (slot : Fin lastEntry) ∧
      set.copy next slot = some opt := by
  obtain ⟨slot, stored⟩ := stored
  obtain ⟨original, there, isCopy⟩ := Option.map_eq_some_iff.mp stored
  refine ⟨slot, ?_, ?_, stored⟩
  · rw [there]
    exact Option.some_ne_none original
  · rw [← isCopy]

/-! ## Options that are taken off -/

section Replaced

variable {work : Work lastEntry Handle Value}
  {removed : List (SharedOption lastEntry Value)}
  {handle : Handle} {option : OptionBase lastEntry Value}
  (replaced : Replaced handle ⟨state.next, option⟩
    ⟨set, state.log, state.failed⟩ work removed)

include replaced

theorem unsets_replaced (address : Nat) :
    unsetsIn work.log address = state.unsets address ++
      unsetsIn (removed.map fun opt => .unsetopt handle opt.address)
        address := by
  rw [replaced.log, unsetsIn_append, unsetsIn_append]
  have last : unsetsIn [Event.setopt handle state.next] address = [] := rfl
  rw [last, List.append_nil]
  rfl

theorem unsets_of_not_removed {address : Nat}
    (absent : address ∉ removed.map SharedOption.address) :
    unsetsIn work.log address = state.unsets address := by
  rw [unsets_replaced replaced, unsetsIn_unsets_of_not_mem handle absent,
    List.append_nil]

variable (there : state.sets name = some set)

include there

theorem removed_stored (member : opt ∈ removed) : state.Stores name opt :=
  ⟨set, there, ((replaced.meets opt).mp member).1⟩

variable (valid : Valid state)

include valid

theorem unsets_of_removed (member : opt ∈ removed) :
    unsetsIn work.log opt.address = [handle] := by
  have stored := removed_stored replaced there member
  have distinct : (removed.map SharedOption.address).Nodup := by
    apply List.Nodup.map_on _ replaced.distinct
    intro first isRemoved second isRemoved' same
    exact (valid.own name first name second
      (removed_stored replaced there isRemoved)
      (removed_stored replaced there isRemoved') same).2
  rw [unsets_replaced replaced, valid.pristine name opt stored,
    unsetsIn_unsets_of_mem distinct (List.mem_map_of_mem member)]
  rfl

/-- An address that is not in use is not that of an option taken off. -/
theorem not_removed_of_fresh {address : Nat} (later : state.next ≤ address) :
    address ∉ removed.map SharedOption.address := by
  intro member
  obtain ⟨opt, isRemoved, same⟩ := List.mem_map.mp member
  have known := valid.known name opt
    (removed_stored replaced there isRemoved)
  omega

theorem not_removed_of_stored {other : Name}
    (stored : state.Stores other opt)
    (kept : other = name → opt ∉ removed) :
    opt.address ∉ removed.map SharedOption.address := by
  intro member
  obtain ⟨taken, isRemoved, same⟩ := List.mem_map.mp member
  obtain ⟨sameName, sameOpt⟩ := valid.own name taken other opt
    (removed_stored replaced there isRemoved) stored same
  exact kept sameName.symm (sameOpt ▸ isRemoved)

end Replaced

section Steps

variable [DecidableEq Name] {target source : Name} {handle : Handle}
  {policy : RetentionPolicy} {option : OptionBase lastEntry Value}

theorem set_of_update {sets : Name → Option (OptionSet lastEntry Value)}
    {made : OptionSet lastEntry Value}
    (there : Function.update sets target (some made) name = some set) :
    name = target ∧ made = set ∨ name ≠ target ∧ sets name = some set := by
  by_cases same : name = target
  · subst same
    rw [Function.update_self] at there
    exact .inl ⟨rfl, Option.some.inj there⟩
  · rw [Function.update_of_ne same] at there
    exact .inr ⟨same, there⟩

theorem stores_update {made : OptionSet lastEntry Value}
    {next : Nat} {log : List (Event Handle)} {failed : List Assertion}
    (stored : State.Stores
      ⟨Function.update state.sets target (some made), next, log, failed⟩
      name opt) :
    name = target ∧ Lies made opt ∨ name ≠ target ∧
      state.Stores name opt := by
  obtain ⟨set, there, stored⟩ := stored
  obtain ⟨same, isMade⟩ | ⟨different, there⟩ := set_of_update there
  · exact .inl ⟨same, isMade ▸ stored⟩
  · exact .inr ⟨different, set, there, stored⟩

theorem putCopy_valid (valid : Valid state)
    (there : state.sets source = some set) (clonable : Clonable set) :
    Valid (state.putCopy target set) := by
  have tiled := valid.tiled source set there
  have stores : ∀ name opt, (state.putCopy target set).Stores name opt →
      (∃ slot : Fin lastEntry, name = target ∧
        opt.address = state.next + slot ∧
          set.copy state.next slot = some opt) ∨
        name ≠ target ∧ state.Stores name opt := by
    intro name opt stored
    obtain ⟨same, stored⟩ | others := stores_update stored
    · obtain ⟨slot, _, address, stored⟩ := lies_copy stored
      exact .inl ⟨slot, same, address, stored⟩
    · exact .inr others
  constructor
  · intro name made isMade
    obtain ⟨_, isCopy⟩ | ⟨_, earlier⟩ := set_of_update isMade
    · rw [← isCopy]
      exact (copy_tiled_iff tiled state.next).mpr clonable
    · exact valid.tiled name made earlier
  · intro name opt stored
    obtain ⟨slot, _, address, _⟩ | ⟨_, stored⟩ := stores name opt stored
    · rw [address]
      exact Nat.add_lt_add_left slot.isLt state.next
    · exact Nat.lt_add_right lastEntry (valid.known name opt stored)
  · intro name opt name' opt' stored stored' same
    obtain ⟨slot, isTarget, address, copied⟩ | ⟨notTarget, stored⟩ :=
      stores name opt stored
    · obtain ⟨slot', isTarget', address', copied'⟩ | ⟨_, stored'⟩ :=
        stores name' opt' stored'
      · refine ⟨isTarget.trans isTarget'.symm, ?_⟩
        rw [address, address'] at same
        have sameSlot := Fin.ext (Nat.add_left_cancel same)
        rw [sameSlot] at copied
        exact Option.some.inj (copied.symm.trans copied')
      · have earlier := valid.known name' opt' stored'
        omega
    · obtain ⟨slot', _, address', _⟩ | ⟨_, stored'⟩ :=
        stores name' opt' stored'
      · have earlier := valid.known name opt stored
        omega
      · exact valid.own name opt name' opt' stored stored' same
  · intro name opt stored
    obtain ⟨slot, _, address, _⟩ | ⟨_, stored⟩ := stores name opt stored
    · exact valid.fresh _ (address ▸ Nat.le_add_right state.next slot)
    · exact valid.pristine name opt stored
  · intro address later
    exact valid.fresh address (Nat.le_of_add_right_le later)
  · exact valid.once
  · exact valid.unchecked

/-! ## Setting an option -/

/-- What becomes of the stored options when an option is set: those with an id
in common are unset once, and the others stay. -/
structure Replaces (state next : State lastEntry Handle Name Value)
    (name : Name) (handle : Handle) (option : OptionBase lastEntry Value) :
    Prop where
  replaced : ∀ opt, state.Stores name opt →
    (∃ slot ∈ option.slots, slot ∈ opt.slots) →
      (∀ other, ¬ next.Stores other opt) ∧
        next.unsets opt.address = [handle]
  kept : ∀ opt, state.Stores name opt →
    ¬ (∃ slot ∈ option.slots, slot ∈ opt.slots) →
      next.Stores name opt ∧ next.unsets opt.address = []

theorem setopt_replaced (handle : Handle) (policy : RetentionPolicy)
    (valid : Valid state)
    (there : state.sets name = some set)
    (separate : Separate option.slots set) :
    ∃ work removed,
      Replaced handle ⟨state.next, option⟩ ⟨set, state.log, state.failed⟩
        work removed ∧
      state.setopt name set handle policy option =
        ⟨Function.update state.sets name (some work.options), state.next + 1,
          work.log, work.failed⟩ := by
  have tiled := valid.tiled name set there
  cases policy with
  | byWrapper =>
      obtain ⟨removed, replaced⟩ := storeAndSetopt_replaced
        ⟨set, state.log, state.failed⟩ handle ⟨state.next, option⟩
        tiled separate
      exact ⟨_, removed, replaced, rfl⟩
  | byCurl =>
      obtain ⟨removed, replaced⟩ := setoptByCurl_replaced
        ⟨set, state.log, state.failed⟩ handle ⟨state.next, option⟩
        tiled separate
      exact ⟨_, removed, replaced, rfl⟩

section Set

variable {work : Work lastEntry Handle Value}
  {removed : List (SharedOption lastEntry Value)}
  (there : state.sets name = some set)
  (replaced : Replaced handle ⟨state.next, option⟩
    ⟨set, state.log, state.failed⟩ work removed)

include there replaced

theorem stores_replaced {name' : Name}
    (stored : State.Stores
      (⟨Function.update state.sets name (some work.options),
        state.next + 1, work.log, work.failed⟩ :
          State lastEntry Handle Name Value) name' opt) :
    (name' = name ∧ opt = ⟨state.next, option⟩) ∨
      state.Stores name' opt ∧ (name' = name → opt ∉ removed) := by
  obtain ⟨same, stored⟩ | ⟨different, stored⟩ := stores_update stored
  · obtain isNew | ⟨earlier, isKept⟩ := replaced.origin opt stored
    · exact .inl ⟨same, isNew⟩
    · subst same
      exact .inr ⟨⟨set, there, earlier⟩, fun _ => isKept⟩
  · exact .inr ⟨stored, fun same => absurd same different⟩

variable (valid : Valid state)

include valid

theorem replaced_valid :
    Valid (⟨Function.update state.sets name (some work.options),
      state.next + 1, work.log, work.failed⟩ :
        State lastEntry Handle Name Value) := by
  constructor
  · intro other made isMade
    obtain ⟨_, isSet⟩ | ⟨_, earlier⟩ := set_of_update isMade
    · rw [← isSet]
      exact replaced.tiled
    · exact valid.tiled other made earlier
  · intro other opt stored
    obtain ⟨_, isNew⟩ | ⟨stored, _⟩ :=
      stores_replaced there replaced stored
    · subst isNew
      exact Nat.lt_succ_self state.next
    · exact Nat.lt_succ_of_lt (valid.known other opt stored)
  · intro other opt other' opt' stored stored' same
    obtain ⟨isName, isNew⟩ | ⟨stored, _⟩ :=
      stores_replaced there replaced stored
    · obtain ⟨isName', isNew'⟩ | ⟨stored', _⟩ :=
        stores_replaced there replaced stored'
      · exact ⟨isName.trans isName'.symm, isNew.trans isNew'.symm⟩
      · have earlier := valid.known other' opt' stored'
        rw [← same, isNew] at earlier
        exact absurd earlier (Nat.lt_irrefl state.next)
    · obtain ⟨_, isNew'⟩ | ⟨stored', _⟩ :=
        stores_replaced there replaced stored'
      · have earlier := valid.known other opt stored
        rw [same, isNew'] at earlier
        exact absurd earlier (Nat.lt_irrefl state.next)
      · exact valid.own other opt other' opt' stored stored' same
  · intro other opt stored
    obtain ⟨_, isNew⟩ | ⟨stored, isKept⟩ :=
      stores_replaced there replaced stored
    · subst isNew
      exact (unsets_of_not_removed replaced (not_removed_of_fresh replaced
        there valid (Nat.le_refl state.next))).trans
          (valid.fresh _ (Nat.le_refl state.next))
    · exact (unsets_of_not_removed replaced (not_removed_of_stored replaced
        there valid stored isKept)).trans (valid.pristine other opt stored)
  · intro address later
    have later := Nat.le_of_succ_le later
    exact (unsets_of_not_removed replaced (not_removed_of_fresh replaced
      there valid later)).trans (valid.fresh address later)
  · intro address
    by_cases taken : address ∈ removed.map SharedOption.address
    · obtain ⟨opt, isRemoved, same⟩ := List.mem_map.mp taken
      have once := unsets_of_removed replaced there valid isRemoved
      rw [same] at once
      exact Nat.le_of_eq (congrArg List.length once)
    · have same := unsets_of_not_removed replaced taken
      exact (congrArg List.length same).trans_le (valid.once address)
  · intro assertion member
    obtain earlier | isGiven := replaced.failed assertion member
    · exact valid.unchecked assertion earlier
    · exact isGiven

theorem replaced_replaces :
    Replaces state ⟨Function.update state.sets name (some work.options),
      state.next + 1, work.log, work.failed⟩ name handle option := by
  constructor
  · rintro opt ⟨found, isFound, lies⟩ meets
    cases there.symm.trans isFound
    have stored : state.Stores name opt := ⟨set, there, lies⟩
    have isRemoved := (replaced.meets opt).mpr ⟨lies, meets⟩
    constructor
    · intro other storedLater
      obtain ⟨_, isNew⟩ | ⟨earlier, isKept⟩ :=
        stores_replaced there replaced storedLater
      · have known := valid.known name opt stored
        rw [isNew] at known
        exact Nat.lt_irrefl state.next known
      · obtain ⟨same, _⟩ := valid.own other opt name opt earlier stored rfl
        exact isKept same isRemoved
    · exact unsets_of_removed replaced there valid isRemoved
  · rintro opt ⟨found, isFound, lies⟩ apart
    cases there.symm.trans isFound
    have stored : state.Stores name opt := ⟨set, there, lies⟩
    have isKept : opt ∉ removed :=
      fun isRemoved => apart ((replaced.meets opt).mp isRemoved).2
    constructor
    · exact ⟨work.options, Function.update_self .., replaced.kept opt lies
        isKept⟩
    · exact (unsets_of_not_removed replaced (not_removed_of_stored replaced
        there valid stored fun _ => isKept)).trans
          (valid.pristine name opt stored)

end Set

/-! ## Runs -/

/-- The options that are replaced have different slots for their ids, and
those of a set that is copied have one slot. -/
def Allowed (state : State lastEntry Handle Name Value) :
    Action lastEntry Handle Name Value → Prop
  | .setopt name _ _ option =>
      ∀ set, state.sets name = some set → Separate option.slots set
  | .copyConstruct _ source =>
      ∀ set, state.sets source = some set → Clonable set
  | .copyAssign _ source =>
      ∀ set, state.sets source = some set → Clonable set
  | _ => True

instance (slots : List (Fin lastEntry)) (set : OptionSet lastEntry Value) :
    Decidable (Separate slots set) :=
  decidable_of_iff
    (∀ slot, ∀ opt ∈ set slot, (∃ slot ∈ slots, slot ∈ opt.slots) →
      opt.slots.Nodup)
    ⟨fun separate opt ⟨slot, stored⟩ => separate slot opt stored,
      fun separate slot opt stored => separate opt ⟨slot, stored⟩⟩

instance (set : OptionSet lastEntry Value) : Decidable (Clonable set) :=
  inferInstanceAs (Decidable
    (∀ slot, ∀ opt ∈ set slot, ∀ other ∈ opt.slots, other = slot))

instance (state : State lastEntry Handle Name Value)
    (action : Action lastEntry Handle Name Value) :
    Decidable (Allowed state action) :=
  match action with
  | .setopt name _ _ option => inferInstanceAs (Decidable
      (∀ set ∈ state.sets name, Separate option.slots set))
  | .copyConstruct _ source | .copyAssign _ source =>
      inferInstanceAs (Decidable
        (∀ set ∈ state.sets source, Clonable set))
  | .construct _ | .moveConstruct _ _ | .moveAssign _ _ | .swap _ _
  | .clear _ | .apply _ _ _ | .destroy _ => inferInstanceAs (Decidable True)

theorem putMoved_valid (valid : Valid state)
    (there : state.sets source = some set) :
    Valid (state.putMoved target source set) := by
  apply valid.rearrange (Equiv.swap target source)
  intro name made isMade
  obtain ⟨isTarget, same⟩ | ⟨notTarget, isMade⟩ := set_of_update isMade
  · right
    rw [isTarget, Equiv.swap_apply_left, ← same]
    exact there
  · obtain ⟨_, same⟩ | ⟨notSource, isMade⟩ := set_of_update isMade
    · exact .inl same.symm
    · right
      rw [Equiv.swap_apply_of_ne_of_ne notTarget notSource]
      exact isMade

theorem swap_valid (valid : Valid state) {first second : Name}
    {other : OptionSet lastEntry Value}
    (there : state.sets first = some set)
    (isOther : state.sets second = some other) :
    Valid ((state.put first (some other)).put second (some set)) := by
  apply valid.rearrange (Equiv.swap first second)
  intro name made isMade
  right
  obtain ⟨isSecond, same⟩ | ⟨notSecond, isMade⟩ := set_of_update isMade
  · rw [isSecond, Equiv.swap_apply_right, ← same]
    exact there
  · obtain ⟨isFirst, same⟩ | ⟨notFirst, isMade⟩ := set_of_update isMade
    · rw [isFirst, Equiv.swap_apply_left, ← same]
      exact isOther
    · rw [Equiv.swap_apply_of_ne_of_ne notFirst notSecond]
      exact isMade

theorem empty_valid (valid : Valid state) (name : Name) :
    Valid (state.put name (some fun _ => none)) := by
  apply valid.rearrange (Equiv.refl Name)
  intro other made isMade
  obtain ⟨_, same⟩ | ⟨_, isMade⟩ := set_of_update isMade
  · exact .inl same.symm
  · exact .inr isMade

theorem destroy_valid (valid : Valid state) (name : Name) :
    Valid (state.put name none) := by
  apply valid.rearrange (Equiv.refl Name)
  intro other made isMade
  by_cases same : other = name
  · subst same
    cases (Function.update_self ..).symm.trans isMade
  · exact .inr ((Function.update_of_ne same ..).symm.trans isMade)

theorem step_valid {action : Action lastEntry Handle Name Value}
    (valid : Valid state) (allowed : Allowed state action)
    (taken : step state action = some next) : Valid next := by
  cases action with
  | construct name =>
      simp only [step] at taken
      split at taken
      · cases taken
        exact empty_valid valid name
      · cases taken
  | copyConstruct name source =>
      obtain ⟨set, there, made⟩ := source_of_guarded taken
      subst made
      exact putCopy_valid valid there (allowed set there)
  | moveConstruct name source =>
      obtain ⟨set, there, made⟩ := source_of_guarded taken
      subst made
      exact putMoved_valid valid there
  | copyAssign target source =>
      obtain ⟨set, there, made⟩ := source_of_guarded taken
      subst made
      exact putCopy_valid valid there (allowed set there)
  | moveAssign target source =>
      obtain ⟨set, there, made⟩ := source_of_guarded taken
      subst made
      exact putMoved_valid valid there
  | swap first second =>
      obtain ⟨set, there, taken⟩ := Option.bind_eq_some_iff.mp taken
      obtain ⟨other, isOther, made⟩ := Option.map_eq_some_iff.mp taken
      subst made
      exact swap_valid valid there isOther
  | clear name =>
      obtain ⟨set, there, made⟩ := Option.map_eq_some_iff.mp taken
      subst made
      exact empty_valid valid name
  | setopt name handle policy option =>
      obtain ⟨set, there, made⟩ := Option.map_eq_some_iff.mp taken
      subst made
      obtain ⟨work, removed, replaced, made⟩ := setopt_replaced
        handle policy valid there (allowed set there)
      rw [made]
      exact replaced_valid there replaced valid
  | apply name handle throws =>
      obtain ⟨set, there, made⟩ := Option.map_eq_some_iff.mp taken
      subst made
      exact apply_valid valid handle _
  | destroy name =>
      obtain ⟨set, there, made⟩ := Option.map_eq_some_iff.mp taken
      subst made
      exact destroy_valid valid name

/-- What `setopt(curl)` sets: options of the set, none of them twice; and, if
none of them throws, one for every slot in use, which is the option that is
stored there. -/
def AppliesOnce (state next : State lastEntry Handle Name Value)
    (name : Name) (handle : Handle)
    (throws : SharedOption lastEntry Value → Bool) : Prop :=
  ∃ applied : List (SharedOption lastEntry Value),
    next.log = state.log ++
        (applied.map fun opt => .setopt handle opt.address) ∧
      (applied.map SharedOption.address).Nodup ∧
      (∀ opt ∈ applied, state.Stores name opt) ∧
      ((∀ opt, state.Stores name opt → throws opt = false) →
        ∀ set slot opt, state.sets name = some set → set slot = some opt →
          applied.filter (fun other => slot ∈ other.slots) = [opt])

/-- A copied set has the same option for every slot. -/
def Copies (state next : State lastEntry Handle Name Value)
    (target source : Name) : Prop :=
  ∃ set copied, state.sets source = some set ∧
    next.sets target = some copied ∧
    ∀ slot, (copied slot).map SharedOption.option =
      (set slot).map SharedOption.option

theorem apply_once (valid : Valid state)
    {throws : SharedOption lastEntry Value → Bool}
    (taken : step state (.apply name handle throws) = some next) :
    AppliesOnce state next name handle throws := by
  obtain ⟨set, there, made⟩ := Option.map_eq_some_iff.mp taken
  subst made
  obtain ⟨once, stored⟩ := setopt_once set throws
  refine ⟨_, rfl, once, fun opt member => ⟨set, there, stored opt member⟩, ?_⟩
  intro works found slot opt isFound isStored
  cases there.symm.trans isFound
  apply setopt_all (valid.tiled name set there)
  · intro first second isFirst isSecond same
    exact (valid.own name first name second ⟨set, there, isFirst⟩
      ⟨set, there, isSecond⟩ same).2
  · exact fun other lies => works other ⟨set, there, lies⟩
  · exact isStored

theorem putCopy_copies (there : state.sets source = some set) :
    Copies state (state.putCopy target set) target source := by
  refine ⟨set, set.copy state.next, there, Function.update_self .., ?_⟩
  intro slot
  exact Option.map_map ..

theorem copies_of_step
    (taken : step state (.copyConstruct target source) = some next ∨
      step state (.copyAssign target source) = some next) :
    Copies state next target source := by
  obtain taken | taken := taken
  · obtain ⟨set, there, made⟩ := source_of_guarded taken
    subst made
    exact putCopy_copies there
  · obtain ⟨set, there, made⟩ := source_of_guarded taken
    subst made
    exact putCopy_copies there

theorem setopt_replaces (valid : Valid state)
    (allowed : Allowed state (.setopt name handle policy option))
    (taken : step state (.setopt name handle policy option) = some next) :
    Replaces state next name handle option := by
  obtain ⟨set, there, made⟩ := Option.map_eq_some_iff.mp taken
  subst made
  obtain ⟨work, removed, replaced, made⟩ := setopt_replaced handle policy
    valid there (allowed set there)
  rw [made]
  exact replaced_replaces there replaced valid

/-- The ids of a stored option stay together, no assertion of `unsetopt`
fails, and options are unset once when they are replaced and set once by
`setopt(curl)`, copied sets included. -/
theorem options_owned
    (run : Runs step Allowed
      (initial : State lastEntry Handle Name Value) state) :
    (∀ name set, state.sets name = some set →
        Tiled SharedOption.slots set) ∧
      (∀ assertion ∈ state.failed, assertion = .idsGiven) ∧
      (∀ address, (state.unsets address).length ≤ 1) ∧
      (∀ name handle policy option next,
        Allowed state (.setopt name handle policy option) →
        step state (.setopt name handle policy option) = some next →
          Replaces state next name handle option) ∧
      (∀ name handle throws next,
        step state (.apply name handle throws) = some next →
          AppliesOnce state next name handle throws) ∧
      (∀ target source next,
        step state (.copyConstruct target source) = some next ∨
          step state (.copyAssign target source) = some next →
            Copies state next target source) := by
  have valid : Valid state :=
    run.invariant initial_valid fun _ _ _ valid allowed taken =>
      step_valid valid allowed taken
  refine ⟨valid.tiled, valid.unchecked, valid.once, ?_, ?_, ?_⟩
  · intro name handle policy option next allowed taken
    exact setopt_replaces valid allowed taken
  · intro name handle throws next taken
    exact apply_once valid taken
  · intro target source next taken
    exact copies_of_step taken

end Steps

/-! ## Callbacks and headers -/

namespace Sample

def id (id : Nat) (known : curlOptId id < 24) : CurlOption 24 :=
  ⟨id, known⟩

/-- `CURLOPT_WRITEFUNCTION` and `CURLOPT_WRITEDATA` -/
def writefunction (value : String) : OptionBase 24 String where
  ids := [id 20011 (by decide +kernel), id 10001 (by decide +kernel)]
  value := value

/-- `CURLOPT_HTTPHEADER` -/
def httpheader (value : String) : OptionBase 24 String where
  ids := [id 10023 (by decide +kernel)]
  value := value

abbrev SampleAction := Action 24 Unit Nat String

/-- A callback is replaced, and a set with headers is copied. -/
def replaced : List SampleAction :=
  [.construct 0, .setopt 0 () .byWrapper (writefunction "first"),
    .setopt 0 () .byWrapper (writefunction "second"), .construct 1,
    .setopt 1 () .byWrapper (httpheader "header"), .copyConstruct 2 1,
    .setopt 2 () .byCurl (httpheader "none")]

def copied : List SampleAction :=
  [.construct 0, .setopt 0 () .byWrapper (writefunction "first"),
    .copyConstruct 1 0]

end Sample

theorem options_owned_sample :
    ∃ state : State 24 Unit Nat String,
      state.unsets 0 = [()] ∧ state.unsets 1 = [] ∧ state.failed = [] ∧
        ∀ address, (state.unsets address).length ≤ 1 := by
  have executed : (executeWhile step Allowed initial Sample.replaced).map
      (fun state => (state.unsets 0, state.unsets 1, state.failed)) =
      some ([()], [], []) := by
    decide +kernel
  obtain ⟨state, reached, same⟩ := Option.map_eq_some_iff.mp executed
  simp only [Prod.mk.injEq] at same
  obtain ⟨first, second, failed⟩ := same
  have owned := options_owned (Runs.of_executeWhile reached)
  exact ⟨state, first, second, failed, owned.2.2.1⟩

/-- The ids of a callback are apart in a copied set, `setopt(curl)` sets it
twice, and replacing it there fails an assertion. -/
theorem options_not_owned :
    ∃ state next : State 24 Unit Nat String,
      Runs step (fun _ _ => True) initial state ∧
        (∃ set, state.sets 1 = some set ∧
          ¬ Tiled SharedOption.slots set ∧
          (set.setopt fun _ => false).1.map (fun opt => opt.option.value) =
            ["first", "first"]) ∧
        step state (.setopt 1 () .byWrapper
          (Sample.writefunction "second")) = some next ∧
        .otherSame ∈ next.failed := by
  have executed : (execute step initial Sample.copied).map
      (fun state => (state.sets 1).map fun set =>
        ((set 11).map fun opt => (opt.address, opt.slots),
          (set 1).map SharedOption.address,
          (set.setopt fun _ => false).1.map
            fun opt => opt.option.value)) =
      some (some (some (12, [11, 1]), some 2, ["first", "first"])) := by
    decide +kernel
  have failing : ((execute step initial Sample.copied).bind fun state =>
      (step state (.setopt 1 () .byWrapper
        (Sample.writefunction "second"))).map State.failed) =
      some [.otherSame] := by
    decide +kernel
  obtain ⟨state, reached, same⟩ := Option.map_eq_some_iff.mp executed
  obtain ⟨set, there, same⟩ := Option.map_eq_some_iff.mp same
  simp only [Prod.mk.injEq] at same
  obtain ⟨function, data, twice⟩ := same
  obtain ⟨state', reached', failing⟩ := Option.bind_eq_some_iff.mp failing
  cases reached.symm.trans reached'
  obtain ⟨next, taken, failed⟩ := Option.map_eq_some_iff.mp failing
  refine ⟨state, next, Runs.of_execute (fun _ _ _ => trivial) reached,
    ⟨set, there, ?_, twice⟩, taken, ?_⟩
  · intro tiled
    obtain ⟨opt, stored, same⟩ := Option.map_eq_some_iff.mp function
    simp only [Prod.mk.injEq] at same
    obtain ⟨address, slots⟩ := same
    have covered := (tiled 11 opt stored).2 1 (slots ▸ by decide)
    rw [covered] at data
    have sameAddress : opt.address = 2 := Option.some.inj data
    omega
  · rw [failed]
    exact List.mem_singleton_self _

end Bacs.Curl
