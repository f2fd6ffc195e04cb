import Bacs.Process.LockFactory

/-!
# The registry of file locks

File locks of one path share one mutex.  The registry has no mutex that is
not in use, as long as no move assignment takes the place of the last file
lock of a mutex: the destructor gives a mutex up, but the move assignment does
not.
-/

namespace Bacs.Process.LockState

open Foundation

variable {Name Path : Type} {state next : LockState Name Path}
  {name source target : Name} {mutex : Nat}

def InUse (state : LockState Name Path) (mutex : Nat) : Prop :=
  ∃ name ∈ state.objects, (state.lock name).mutex = some mutex

structure Coherent (state : LockState Name Path) : Prop where
  valid : ∀ name ∈ state.objects,
    (state.lock name).valid = (state.lock name).mutex.isSome
  nodup : state.instances.Nodup
  known : ∀ mutex ∈ state.instances, mutex < state.mutexes.length
  distinct : ∀ mutex ∈ state.instances, ∀ other ∈ state.instances,
    state.path mutex = state.path other → mutex = other
  held : ∀ mutex, state.InUse mutex → mutex ∈ state.instances

theorem initial_coherent :
    (initial : LockState Name Path).Coherent where
  valid := by simp [initial]
  nodup := List.nodup_nil
  known := by simp [initial]
  distinct := by simp [initial]
  held := by simp [initial, InUse]

/-- Only mutexes in use are in the registry. -/
def Tidy (state : LockState Name Path) : Prop :=
  ∀ mutex ∈ state.instances, state.InUse mutex

/-- File locks of one path share their mutex, and the registry has exactly
the mutexes in use. -/
def Registered (state : LockState Name Path) : Prop :=
  (∀ left ∈ state.objects, ∀ right ∈ state.objects,
    (state.lock left).valid → (state.lock right).valid →
    (state.lock left).mutex.bind state.path =
      (state.lock right).mutex.bind state.path →
    (state.lock left).mutex = (state.lock right).mutex) ∧
  ∀ mutex, mutex ∈ state.instances ↔
    ∃ name ∈ state.objects, (state.lock name).valid ∧
      (state.lock name).mutex = some mutex

theorem Coherent.registered_iff (coherent : state.Coherent) :
    state.Registered ↔ state.Tidy := by
  have referring : ∀ mutex, state.InUse mutex ↔
      ∃ name ∈ state.objects, (state.lock name).valid ∧
        (state.lock name).mutex = some mutex := by
    intro mutex
    constructor
    · rintro ⟨name, live, refers⟩
      have valid := coherent.valid name live
      rw [refers] at valid
      exact ⟨name, live, valid, refers⟩
    · rintro ⟨name, live, _, refers⟩
      exact ⟨name, live, refers⟩
  constructor
  · rintro ⟨_, exact⟩ mutex member
    exact (referring mutex).mpr ((exact mutex).mp member)
  · intro tidy
    constructor
    · intro left liveLeft right liveRight validLeft validRight same
      rw [coherent.valid left liveLeft, Option.isSome_iff_exists]
        at validLeft
      rw [coherent.valid right liveRight, Option.isSome_iff_exists]
        at validRight
      obtain ⟨first, refersLeft⟩ := validLeft
      obtain ⟨second, refersRight⟩ := validRight
      rw [refersLeft, refersRight] at same ⊢
      have equal := coherent.distinct
        first (coherent.held first ⟨left, liveLeft, refersLeft⟩)
        second (coherent.held second ⟨right, liveRight, refersRight⟩) same
      rw [equal]
    · intro mutex
      rw [← referring]
      exact ⟨tidy mutex, coherent.held mutex⟩

/-! ## Moves -/

/-- File locks are handed around, and the registry stays as it is. -/
structure Rearranged (state next : LockState Name Path) : Prop where
  mutexes : next.mutexes = state.mutexes
  instances : next.instances = state.instances
  locks : ∀ name ∈ next.objects, next.lock name = .invalid ∨
    ∃ source ∈ state.objects, next.lock name = state.lock source

theorem Rearranged.inUse (rearranged : Rearranged state next)
    (used : next.InUse mutex) : state.InUse mutex := by
  obtain ⟨name, live, refers⟩ := used
  rcases rearranged.locks name live with empty | ⟨source, live', same⟩
  · rw [empty] at refers
    cases refers
  · exact ⟨source, live', same ▸ refers⟩

theorem Rearranged.coherent (rearranged : Rearranged state next)
    (coherent : state.Coherent) : next.Coherent where
  valid := by
    intro name live
    rcases rearranged.locks name live with empty | ⟨source, live', same⟩
    · rw [empty]
      rfl
    · rw [same]
      exact coherent.valid source live'
  nodup := by
    rw [rearranged.instances]
    exact coherent.nodup
  known := by
    rw [rearranged.instances, rearranged.mutexes]
    exact coherent.known
  distinct := by
    simp only [rearranged.instances, path, rearranged.mutexes]
    exact coherent.distinct
  held := by
    intro mutex used
    rw [rearranged.instances]
    exact coherent.held mutex (rearranged.inUse used)

theorem mem_holders :
    name ∈ state.holders mutex ↔
      name ∈ state.objects ∧ (state.lock name).mutex = some mutex :=
  Finset.mem_filter

/-- Two pointers are those of the registry and of one file lock. -/
theorem useCount_eq_two_iff (coherent : state.Coherent)
    (live : name ∈ state.objects)
    (refers : (state.lock name).mutex = some mutex) :
    state.useCount mutex = 2 ↔
      ∀ other ∈ state.objects, (state.lock other).mutex = some mutex →
        other = name := by
  have registered : state.instances.count mutex = 1 :=
    List.count_eq_one_of_mem coherent.nodup
      (coherent.held mutex ⟨name, live, refers⟩)
  have own : name ∈ state.holders mutex := mem_holders.mpr ⟨live, refers⟩
  unfold useCount
  rw [registered]
  constructor
  · intro two other live' refers'
    obtain ⟨single, all⟩ := Finset.card_eq_one.mp (Nat.succ.inj two)
    rw [all, Finset.mem_singleton] at own
    have other' : other ∈ state.holders mutex :=
      mem_holders.mpr ⟨live', refers'⟩
    rw [all, Finset.mem_singleton] at other'
    rw [other', own]
  · intro alone
    have all : state.holders mutex = {name} := by
      apply Finset.eq_singleton_iff_unique_mem.mpr
      exact ⟨own, fun other member =>
        alone other (mem_holders.mp member).1 (mem_holders.mp member).2⟩
    rw [all, Finset.card_singleton]

section Objects

variable [DecidableEq Name]

theorem set_lock_self {lock : FileLock} :
    (state.set name lock).lock name = lock :=
  Function.update_self ..

theorem set_lock_of_ne {lock : FileLock} {other : Name}
    (different : other ≠ name) :
    (state.set name lock).lock other = state.lock other :=
  Function.update_of_ne different ..

theorem construct_lock_of_ne {lock : FileLock} {other : Name}
    (different : other ≠ name) :
    (state.construct name lock).lock other = state.lock other :=
  Function.update_of_ne different ..

theorem construct_lock_self {lock : FileLock} :
    (state.construct name lock).lock name = lock :=
  Function.update_self ..

theorem construct_rearranged :
    Rearranged state (state.construct name .invalid) where
  mutexes := rfl
  instances := rfl
  locks := by
    intro other live
    by_cases same : other = name
    · subst same
      exact .inl construct_lock_self
    · rcases Finset.mem_insert.mp live with here | live
      · exact absurd here same
      · exact .inr ⟨other, live, construct_lock_of_ne same⟩

theorem construct_tidy (free : name ∉ state.objects) (tidy : state.Tidy) :
    (state.construct name .invalid).Tidy := by
  intro mutex member
  obtain ⟨other, live, refers⟩ := tidy mutex member
  have different : other ≠ name := by
    rintro rfl
    exact free live
  refine ⟨other, Finset.mem_insert_of_mem live, ?_⟩
  rw [construct_lock_of_ne different]
  exact refers

theorem moveConstruct_lock {other : Name} :
    (state.moveConstruct name source).lock other =
      if other = source then .invalid
      else if other = name then state.lock source
      else state.lock other := by
  simp [moveConstruct, set, construct, Function.update_apply]

theorem moveConstruct_rearranged (live : source ∈ state.objects) :
    Rearranged state (state.moveConstruct name source) where
  mutexes := rfl
  instances := rfl
  locks := by
    intro other member
    rw [moveConstruct_lock]
    split_ifs with emptied made
    · exact .inl rfl
    · exact .inr ⟨source, live, rfl⟩
    · rcases Finset.mem_insert.mp member with here | kept
      · exact absurd here made
      · exact .inr ⟨other, kept, rfl⟩

theorem moveConstruct_tidy (free : name ∉ state.objects)
    (live : source ∈ state.objects) (tidy : state.Tidy) :
    (state.moveConstruct name source).Tidy := by
  have apart : name ≠ source := by
    rintro rfl
    exact free live
  intro mutex member
  obtain ⟨other, live', refers⟩ := tidy mutex member
  by_cases moved : other = source
  · subst moved
    refine ⟨name, Finset.mem_insert_self .., ?_⟩
    rw [moveConstruct_lock, if_neg apart, if_pos rfl]
    exact refers
  · have old : other ≠ name := by
      rintro rfl
      exact free live'
    refine ⟨other, Finset.mem_insert_of_mem live', ?_⟩
    rw [moveConstruct_lock, if_neg moved, if_neg old]
    exact refers

theorem swap_mem {left right : Name} (liveLeft : left ∈ state.objects)
    (liveRight : right ∈ state.objects) (live : name ∈ state.objects) :
    Equiv.swap left right name ∈ state.objects := by
  rw [Equiv.swap_apply_def]
  split_ifs <;> assumption

theorem swap_rearranged {left right : Name}
    (liveLeft : left ∈ state.objects) (liveRight : right ∈ state.objects) :
    Rearranged state (state.swap left right) where
  mutexes := rfl
  instances := rfl
  locks := fun _ live =>
    .inr ⟨_, swap_mem liveLeft liveRight live, rfl⟩

theorem swap_inUse {left right : Name} (liveLeft : left ∈ state.objects)
    (liveRight : right ∈ state.objects) (used : state.InUse mutex) :
    (state.swap left right).InUse mutex := by
  obtain ⟨other, live, refers⟩ := used
  refine ⟨_, swap_mem liveLeft liveRight live, ?_⟩
  simpa [swap] using refers

theorem moveAssign_lock {other : Name} :
    (state.moveAssign target source).lock other =
      if other = source then .invalid
      else if other = target then state.lock source
      else state.lock other := by
  simp only [moveAssign, set, swap, Function.update_apply]
  split_ifs with emptied assigned
  · rfl
  · rw [assigned, Function.comp_apply, Equiv.swap_apply_left]
  · rw [Function.comp_apply, Equiv.swap_apply_of_ne_of_ne assigned emptied]

theorem moveAssign_rearranged (live : source ∈ state.objects) :
    Rearranged state (state.moveAssign target source) where
  mutexes := rfl
  instances := rfl
  locks := by
    intro other member
    rw [moveAssign_lock]
    split_ifs
    · exact .inl rfl
    · exact .inr ⟨source, live, rfl⟩
    · exact .inr ⟨other, member, rfl⟩

/-- The target refers to no mutex, or is not the only one to do so. -/
def Spared (state : LockState Name Path) (target : Name) : Prop :=
  (state.lock target).mutex = none ∨
    ∃ name ∈ state.objects, name ≠ target ∧
      (state.lock name).mutex = (state.lock target).mutex

instance (state : LockState Name Path) (target : Name) :
    Decidable (state.Spared target) :=
  inferInstanceAs (Decidable (_ ∨ ∃ name ∈ state.objects, _))

/-- What another file lock than the target refers to stays in use. -/
theorem moveAssign_inUse (live : target ∈ state.objects)
    (member : name ∈ state.objects) (different : name ≠ target)
    (refers : (state.lock name).mutex = some mutex) :
    (state.moveAssign target source).InUse mutex := by
  by_cases moved : name = source
  · subst moved
    refine ⟨target, live, ?_⟩
    rw [moveAssign_lock, if_neg different.symm, if_pos rfl]
    exact refers
  · refine ⟨name, member, ?_⟩
    rw [moveAssign_lock, if_neg moved, if_neg different]
    exact refers

theorem moveAssign_tidy_iff (coherent : state.Coherent)
    (live : target ∈ state.objects) (live' : source ∈ state.objects)
    (tidy : state.Tidy) :
    (state.moveAssign target source).Tidy ↔ state.Spared target := by
  constructor
  · intro after
    cases refers : (state.lock target).mutex with
    | none => exact .inl refers
    | some mutex =>
        have member := coherent.held mutex ⟨target, live, refers⟩
        obtain ⟨other, among, refers'⟩ := after mutex member
        rw [moveAssign_lock] at refers'
        split_ifs at refers' with emptied assigned
        · cases refers'
        · have apart : source ≠ target := by
            rw [← assigned]
            exact fun same => emptied same.symm
          exact .inr ⟨source, live', apart, refers'.trans refers.symm⟩
        · exact .inr ⟨other, among, assigned, refers'.trans refers.symm⟩
  · intro spared mutex member
    obtain ⟨other, among, refers⟩ := tidy mutex member
    by_cases overwritten : other = target
    · subst overwritten
      rcases spared with none | ⟨second, among', different, same⟩
      · rw [none] at refers
        cases refers
      · exact moveAssign_inUse live among' different (same.trans refers)
    · exact moveAssign_inUse live among overwritten refers

/-! ## New file locks -/

theorem construct_inUse_iff (free : name ∉ state.objects) {made : Nat} :
    (state.construct name ⟨true, some made⟩).InUse mutex ↔
      state.InUse mutex ∨ mutex = made := by
  constructor
  · rintro ⟨other, live, refers⟩
    by_cases same : other = name
    · subst same
      rw [construct_lock_self] at refers
      exact .inr (Option.some.inj refers).symm
    · rcases Finset.mem_insert.mp live with here | live
      · exact absurd here same
      · rw [construct_lock_of_ne same] at refers
        exact .inl ⟨other, live, refers⟩
  · rintro (⟨other, live, refers⟩ | rfl)
    · have different : other ≠ name := by
        rintro rfl
        exact free live
      refine ⟨other, Finset.mem_insert_of_mem live, ?_⟩
      rw [construct_lock_of_ne different]
      exact refers
    · exact ⟨name, Finset.mem_insert_self .., by rw [construct_lock_self]⟩

theorem construct_coherent (free : name ∉ state.objects) {made : Nat}
    (coherent : state.Coherent) (member : made ∈ state.instances) :
    (state.construct name ⟨true, some made⟩).Coherent where
  valid := by
    intro other live
    by_cases same : other = name
    · subst same
      rw [construct_lock_self]
      rfl
    · rw [construct_lock_of_ne same]
      exact coherent.valid other
        ((Finset.mem_insert.mp live).resolve_left same)
  nodup := coherent.nodup
  known := coherent.known
  distinct := coherent.distinct
  held := by
    intro mutex used
    rcases (construct_inUse_iff free).mp used with before | rfl
    · exact coherent.held mutex before
    · exact member

/-! ## Destruction -/

/-- The destructor of the last file lock of a mutex gives the mutex up. -/
theorem tryErase_last (coherent : state.Coherent)
    (live : name ∈ state.objects)
    (refers : (state.lock name).mutex = some mutex)
    (alone : ∀ other ∈ state.objects,
      (state.lock other).mutex = some mutex → other = name) :
    state.tryErase name =
      { state.set name ⟨(state.lock name).factory, none⟩ with
        instances := state.instances.erase mutex } := by
  have member := coherent.held mutex ⟨name, live, refers⟩
  have two := (useCount_eq_two_iff coherent live refers).mpr alone
  have none' : (state.set name
      ⟨(state.lock name).factory, none⟩).holders mutex = ∅ := by
    apply Finset.eq_empty_of_forall_notMem
    intro other held
    obtain ⟨live', refers'⟩ := mem_holders.mp held
    by_cases same : other = name
    · subst same
      rw [set_lock_self] at refers'
      cases refers'
    · rw [set_lock_of_ne same] at refers'
      exact same (alone other live' refers')
  have unique : (state.set name
      ⟨(state.lock name).factory, none⟩).useCount mutex = 1 := by
    have registered : state.instances.count mutex = 1 :=
      List.count_eq_one_of_mem coherent.nodup member
    rw [useCount, none', Finset.card_empty, Nat.zero_add]
    exact registered
  unfold tryErase
  rw [refers]
  simp only [two, member, unique, and_self, if_true]

theorem tryErase_shared (coherent : state.Coherent)
    (live : name ∈ state.objects)
    (refers : (state.lock name).mutex = some mutex)
    (shared : ∃ other ∈ state.objects, other ≠ name ∧
      (state.lock other).mutex = some mutex) :
    state.tryErase name = state := by
  have more : state.useCount mutex ≠ 2 := by
    rw [ne_eq, useCount_eq_two_iff coherent live refers]
    intro alone
    obtain ⟨other, live', different, refers'⟩ := shared
    exact different (alone other live' refers')
  unfold tryErase
  rw [refers]
  simp only [more, false_and, if_false]

/-- The destructor leaves every other file lock alone. -/
structure Destroyed (state : LockState Name Path) (name : Name)
    (next : LockState Name Path) : Prop where
  objects : next.objects = state.objects.erase name
  mutexes : next.mutexes = state.mutexes
  locks : ∀ other, other ≠ name → next.lock other = state.lock other
  instances : next.instances.Sublist state.instances
  kept : ∀ mutex, mutex ∈ next.instances ↔
    mutex ∈ state.instances ∧
      ((state.lock name).mutex = some mutex →
        ∃ other ∈ state.objects, other ≠ name ∧
          (state.lock other).mutex = some mutex)

theorem destroy_destroyed (coherent : state.Coherent)
    (live : name ∈ state.objects) :
    Destroyed state name (state.destroy name) := by
  have valid := coherent.valid name live
  cases refers : (state.lock name).mutex with
  | none =>
      rw [refers] at valid
      have same : state.destroy name =
          { state with objects := state.objects.erase name } := by
        simp [destroy, valid]
      rw [same]
      exact ⟨rfl, rfl, fun _ _ => rfl, List.Sublist.refl _,
        by simp [refers]⟩
  | some mutex =>
      rw [refers] at valid
      have same : state.destroy name =
          { state.tryErase name with
            objects := (state.tryErase name).objects.erase name } := by
        simp [destroy, valid]
      by_cases shared : ∃ other ∈ state.objects, other ≠ name ∧
          (state.lock other).mutex = some mutex
      · rw [same, tryErase_shared coherent live refers shared]
        refine ⟨rfl, rfl, fun _ _ => rfl, List.Sublist.refl _, ?_⟩
        intro other
        constructor
        · intro member
          refine ⟨member, ?_⟩
          rw [refers]
          rintro ⟨⟩
          exact shared
        · exact And.left
      · have alone : ∀ other ∈ state.objects,
            (state.lock other).mutex = some mutex → other = name := by
          intro other live' refers'
          by_contra different
          exact shared ⟨other, live', different, refers'⟩
        rw [same, tryErase_last coherent live refers alone]
        refine ⟨rfl, rfl, ?_, List.erase_sublist, ?_⟩
        · intro other different
          exact set_lock_of_ne different
        · intro other
          rw [coherent.nodup.mem_erase_iff, refers]
          constructor
          · rintro ⟨different, member⟩
            refine ⟨member, ?_⟩
            rintro ⟨⟩
            exact absurd rfl different
          · rintro ⟨member, needed⟩
            refine ⟨?_, member⟩
            rintro rfl
            exact shared (needed rfl)

theorem Destroyed.coherent (destroyed : Destroyed state name next)
    (coherent : state.Coherent) : next.Coherent where
  valid := by
    intro other live
    rw [destroyed.objects] at live
    obtain ⟨different, live⟩ := Finset.mem_erase.mp live
    rw [destroyed.locks other different]
    exact coherent.valid other live
  nodup := coherent.nodup.sublist destroyed.instances
  known := by
    intro mutex member
    rw [destroyed.mutexes]
    exact coherent.known mutex (destroyed.instances.subset member)
  distinct := by
    intro mutex member other member'
    simp only [path, destroyed.mutexes]
    exact coherent.distinct mutex (destroyed.instances.subset member)
      other (destroyed.instances.subset member')
  held := by
    rintro mutex ⟨other, live, refers⟩
    rw [destroyed.objects] at live
    obtain ⟨different, live⟩ := Finset.mem_erase.mp live
    rw [destroyed.locks other different] at refers
    apply (destroyed.kept mutex).mpr
    exact ⟨coherent.held mutex ⟨other, live, refers⟩,
      fun _ => ⟨other, live, different, refers⟩⟩

theorem Destroyed.tidy (destroyed : Destroyed state name next)
    (tidy : state.Tidy) : next.Tidy := by
  intro mutex member
  obtain ⟨before, needed⟩ := (destroyed.kept mutex).mp member
  have other : ∃ other ∈ state.objects, other ≠ name ∧
      (state.lock other).mutex = some mutex := by
    obtain ⟨other, live, refers⟩ := tidy mutex before
    by_cases same : other = name
    · subst same
      exact needed refers
    · exact ⟨other, live, same, refers⟩
  obtain ⟨other, live, different, refers⟩ := other
  refine ⟨other, ?_, ?_⟩
  · rw [destroyed.objects]
    exact Finset.mem_erase.mpr ⟨different, live⟩
  · rw [destroyed.locks other different]
    exact refers

end Objects

/-! ## Lookup -/

/-- The registry with a new mutex for a path that it did not have. -/
theorem insertMutex_coherent {path : Path} (coherent : state.Coherent)
    (absent : ∀ mutex ∈ state.instances, state.path mutex ≠ some path) :
    (state.insertMutex path).Coherent := by
  have older : ∀ mutex ∈ state.instances,
      (state.insertMutex path).path mutex = state.path mutex :=
    fun mutex member =>
      List.getElem?_append_left (coherent.known mutex member)
  have made : (state.insertMutex path).path state.mutexes.length =
      some path := by
    simp [insertMutex, LockState.path]
  constructor
  · exact coherent.valid
  · apply List.nodup_cons.mpr
    refine ⟨?_, coherent.nodup⟩
    intro member
    exact Nat.lt_irrefl _ (coherent.known _ member)
  · intro mutex member
    rw [insertMutex, List.length_append]
    rcases List.mem_cons.mp member with rfl | member
    · exact Nat.lt_succ_self _
    · exact Nat.lt_succ_of_lt (coherent.known mutex member)
  · intro mutex member other member' same
    rcases List.mem_cons.mp member with rfl | old
    · rcases List.mem_cons.mp member' with rfl | old'
      · rfl
      · rw [made, older other old'] at same
        exact absurd same.symm (absent other old')
    · rcases List.mem_cons.mp member' with rfl | old'
      · rw [made, older mutex old] at same
        exact absurd same (absent mutex old)
      · rw [older mutex old, older other old'] at same
        exact coherent.distinct mutex old other old' same
  · intro mutex used
    exact List.mem_cons_of_mem _ (coherent.held mutex used)

variable [DecidableEq Path]

theorem tryFindMutex_some {path : Path}
    (found : state.tryFindMutex path = some mutex) :
    mutex ∈ state.instances ∧ state.path mutex = some path := by
  constructor
  · exact List.mem_of_find?_eq_some found
  · simpa using List.find?_some found

theorem tryFindMutex_none {path : Path}
    (found : state.tryFindMutex path = none) :
    ∀ mutex ∈ state.instances, state.path mutex ≠ some path := by
  simpa [tryFindMutex] using found

variable [DecidableEq Name]

theorem get_coherent (free : name ∉ state.objects)
    (coherent : state.Coherent) (path : Path) (opens : Bool) :
    (state.get name path opens).Coherent := by
  unfold get
  split
  case h_1 mutex found =>
    exact construct_coherent free coherent (tryFindMutex_some found).1
  case h_2 found =>
    split
    · have inserted := insertMutex_coherent coherent
        (tryFindMutex_none found)
      have free' : name ∉ (state.insertMutex path).objects := free
      exact construct_coherent free' inserted List.mem_cons_self
    · exact coherent

theorem get_tidy (free : name ∉ state.objects) (tidy : state.Tidy)
    (path : Path) (opens : Bool) :
    (state.get name path opens).Tidy := by
  unfold get
  split
  case h_1 made found =>
    intro mutex member
    exact (construct_inUse_iff free).mpr (.inl (tidy mutex member))
  case h_2 found =>
    split
    · have free' : name ∉ (state.insertMutex path).objects := free
      intro mutex member
      apply (construct_inUse_iff free').mpr
      rcases List.mem_cons.mp member with rfl | old
      · exact .inr rfl
      · exact .inl (tidy mutex old)
    · exact tidy

/-! ## Runs -/

/-- A move assignment spares the mutex of its target. -/
def Allowed (state : LockState Name Path) :
    Operation Name Path → Prop
  | .moveAssign target _ => state.Spared target
  | _ => True

instance : ∀ (state : LockState Name Path) (operation),
    Decidable (state.Allowed operation)
  | state, .moveAssign target _ =>
      inferInstanceAs (Decidable (state.Spared target))
  | _, .defaultConstruct _ | _, .get .. | _, .moveConstruct ..
  | _, .swap .. | _, .destroy _ => inferInstanceAs (Decidable True)

theorem step_coherent {operation : Operation Name Path}
    (coherent : state.Coherent) (taken : state.step operation = some next) :
    next.Coherent := by
  cases operation with
  | defaultConstruct name =>
      obtain ⟨_, ⟨⟩⟩ := Option.ite_none_left_eq_some.mp taken
      exact construct_rearranged.coherent coherent
  | get name path opens =>
      obtain ⟨free, ⟨⟩⟩ := Option.ite_none_left_eq_some.mp taken
      exact get_coherent free coherent path opens
  | moveConstruct name source =>
      obtain ⟨usable, ⟨⟩⟩ := Option.ite_none_left_eq_some.mp taken
      have live : source ∈ state.objects := by
        by_contra dead
        exact usable (.inr dead)
      exact (moveConstruct_rearranged live).coherent coherent
  | moveAssign target source =>
      obtain ⟨live, ⟨⟩⟩ := Option.ite_none_right_eq_some.mp taken
      exact (moveAssign_rearranged live.2).coherent coherent
  | swap left right =>
      obtain ⟨live, ⟨⟩⟩ := Option.ite_none_right_eq_some.mp taken
      exact (swap_rearranged live.1 live.2).coherent coherent
  | destroy name =>
      obtain ⟨live, ⟨⟩⟩ := Option.ite_none_right_eq_some.mp taken
      exact (destroy_destroyed coherent live).coherent coherent

/-- A step leaves the registry tidy exactly if it is allowed. -/
theorem step_tidy_iff {operation : Operation Name Path}
    (coherent : state.Coherent) (tidy : state.Tidy)
    (taken : state.step operation = some next) :
    next.Tidy ↔ state.Allowed operation := by
  cases operation with
  | defaultConstruct name =>
      obtain ⟨free, ⟨⟩⟩ := Option.ite_none_left_eq_some.mp taken
      exact iff_of_true (construct_tidy free tidy) trivial
  | get name path opens =>
      obtain ⟨free, ⟨⟩⟩ := Option.ite_none_left_eq_some.mp taken
      exact iff_of_true (get_tidy free tidy path opens) trivial
  | moveConstruct name source =>
      obtain ⟨usable, ⟨⟩⟩ := Option.ite_none_left_eq_some.mp taken
      have free : name ∉ state.objects := fun live => usable (.inl live)
      have live : source ∈ state.objects := by
        by_contra dead
        exact usable (.inr dead)
      exact iff_of_true (moveConstruct_tidy free live tidy) trivial
  | moveAssign target source =>
      obtain ⟨live, ⟨⟩⟩ := Option.ite_none_right_eq_some.mp taken
      exact moveAssign_tidy_iff coherent live.1 live.2 tidy
  | swap left right =>
      obtain ⟨live, ⟨⟩⟩ := Option.ite_none_right_eq_some.mp taken
      exact iff_of_true
        (fun mutex member => swap_inUse live.1 live.2 (tidy mutex member))
        trivial
  | destroy name =>
      obtain ⟨live, ⟨⟩⟩ := Option.ite_none_right_eq_some.mp taken
      exact iff_of_true ((destroy_destroyed coherent live).tidy tidy) trivial

/-- While move assignments spare the mutexes of their targets the registry
has exactly the mutexes in use, and the first one that does not leaves a
mutex behind. -/
theorem registered_of_runs {final : LockState Name Path}
    (run : Runs step Allowed initial final) :
    final.Registered ∧
      ∀ operation next, final.step operation = some next →
        (next.Registered ↔ final.Allowed operation) := by
  have kept : final.Coherent ∧ final.Tidy := by
    apply run.invariant
    · exact ⟨initial_coherent, by simp [Tidy, initial]⟩
    · rintro before operation after ⟨coherent, tidy⟩ allowed taken
      exact ⟨step_coherent coherent taken,
        (step_tidy_iff coherent tidy taken).mpr allowed⟩
  obtain ⟨coherent, tidy⟩ := kept
  constructor
  · exact coherent.registered_iff.mpr tidy
  · intro operation next taken
    rw [(step_coherent coherent taken).registered_iff]
    exact step_tidy_iff coherent tidy taken

/-- Two file locks of one path, of which one takes the other's place. -/
theorem registered_of_runs_shared :
    ∃ final : LockState String String,
      executeWhile step Allowed initial [.get "first" "path" true,
        .get "second" "path" true, .moveAssign "first" "second",
        .destroy "second"] = some final ∧ final.Registered := by
  obtain ⟨final, reached⟩ : ∃ final : LockState String String,
      executeWhile step Allowed initial [.get "first" "path" true,
        .get "second" "path" true, .moveAssign "first" "second",
        .destroy "second"] = some final := ⟨_, rfl⟩
  exact ⟨final, reached,
    (registered_of_runs (Runs.of_executeWhile reached)).1⟩

/-- A move assignment takes the place of the only file lock of a path. -/
theorem registered_moveAssign :
    ∃ final : LockState String String,
      execute step initial [.get "first" "left" true,
        .get "second" "right" true, .moveAssign "first" "second"] =
          some final ∧ ¬ final.Registered := by
  refine ⟨_, rfl, ?_⟩
  rintro ⟨_, exact⟩
  obtain ⟨name, live, _, refers⟩ := (exact 0).mp (by decide)
  revert name
  decide

end Bacs.Process.LockState
