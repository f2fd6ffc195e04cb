import Bacs.Pm.CacheEntry

/-!
# The locks that entries hold

A shared lock is held for each entry that is not empty.  Constructing an
entry, swapping two of them, unlocking one and giving up an empty one keep
the balance, and the other operations are made of these.
-/

namespace Bacs.Pm.EntryState

open Foundation

variable {Object Name Cache Path : Type}

section Balance

variable [DecidableEq Cache] {state : EntryState Object Cache Path}
  {object left right : Object}

/-- The entries of a cache that are not empty. -/
def holders (state : EntryState Object Cache Path) (cache : Cache) :
    Finset Object :=
  state.objects.filter fun object => (state.entry object).lock = some cache

structure Balanced (state : EntryState Object Cache Path) : Prop where
  shared : ∀ cache, state.shared cache = (state.holders cache).card
  underflow : state.underflow = false

theorem mem_holders {cache : Cache} :
    object ∈ state.holders cache ↔
      object ∈ state.objects ∧ (state.entry object).lock = some cache :=
  Finset.mem_filter

theorem initial_balanced [Inhabited Path] :
    (initial : EntryState Object Cache Path).Balanced where
  shared _ := rfl
  underflow := rfl

theorem lock_objects : (state.lock object).objects = state.objects := by
  unfold lock
  split <;> rfl

variable [DecidableEq Object]

theorem holders_put (fresh : object ∉ state.objects)
    (entry : CacheEntry Cache Path) (cache : Cache) :
    (state.put object entry).holders cache =
      if entry.lock = some cache then insert object (state.holders cache)
      else state.holders cache := by
  have others : (state.put object entry).holders cache =
      (insert object state.objects).filter fun other =>
        (Function.update state.entry object entry other).lock = some cache :=
    rfl
  have kept : (state.objects.filter fun other =>
      (Function.update state.entry object entry other).lock = some cache) =
        state.holders cache := by
    apply Finset.filter_congr
    intro other member
    rw [Function.update_of_ne]
    rintro rfl
    exact fresh member
  rw [others, Finset.filter_insert, kept, Function.update_self]

theorem Balanced.put_lock (balanced : state.Balanced)
    (fresh : object ∉ state.objects) (entry : CacheEntry Cache Path) :
    ((state.put object entry).lock object).Balanced := by
  have absent : ∀ cache, object ∉ state.holders cache :=
    fun cache member => fresh (mem_holders.1 member).1
  have here : (state.put object entry).entry object = entry := by
    simp [put]
  constructor
  · intro cache
    unfold lock
    rw [here]
    cases refers : entry.lock with
    | none =>
        rw [holders_put fresh]
        simpa [refers, put] using balanced.shared cache
    | some held =>
        change Function.update state.shared held (state.shared held + 1) cache =
          ((state.put object entry).holders cache).card
        rw [holders_put fresh, refers]
        by_cases same : held = cache
        · rw [if_pos (congrArg some same), same, Function.update_self,
            Finset.card_insert_of_notMem (absent cache), balanced.shared]
        · rw [if_neg fun equal => same (Option.some.inj equal),
            Function.update_of_ne (Ne.symm same), balanced.shared]
  · unfold lock
    split <;> exact balanced.underflow

theorem Balanced.swap (balanced : state.Balanced)
    (liveLeft : left ∈ state.objects) (liveRight : right ∈ state.objects) :
    (state.swap left right).Balanced := by
  have live : ∀ other, Equiv.swap left right other ∈ state.objects ↔
      other ∈ state.objects := by
    intro other
    rw [Equiv.swap_apply_def]
    split_ifs with isLeft isRight
    · simp [isLeft, liveLeft, liveRight]
    · simp [isRight, liveLeft, liveRight]
    · rfl
  have moved : ∀ cache, (state.swap left right).holders cache =
      (state.holders cache).map (Equiv.swap left right).toEmbedding := by
    intro cache
    ext other
    rw [Finset.mem_map_equiv, mem_holders, mem_holders, Equiv.symm_swap, live]
    rfl
  constructor
  · intro cache
    rw [moved, Finset.card_map]
    exact balanced.shared cache
  · exact balanced.underflow

theorem unlock_lock : ((state.unlock object).entry object).lock = none := by
  unfold unlock
  split
  case h_1 refers => exact refers
  case h_2 => simp

theorem unlock_objects : (state.unlock object).objects = state.objects := by
  unfold unlock
  split <;> rfl

theorem holders_unlock {held : Cache}
    (refers : (state.entry object).lock = some held) (cache : Cache) :
    (state.unlock object).holders cache =
      if held = cache then (state.holders cache).erase object
      else state.holders cache := by
  ext other
  have entries : (state.unlock object).entry = Function.update state.entry
      object { state.entry object with lock := none } := by
    unfold unlock
    rw [refers]
  rw [mem_holders, unlock_objects, entries]
  by_cases same : other = object
  · rw [same, Function.update_self]
    by_cases here : held = cache
    · simp [here]
    · simp [here, mem_holders, refers]
  · rw [Function.update_of_ne same]
    by_cases here : held = cache
    · simp [here, mem_holders, same]
    · simp [here, mem_holders]

theorem Balanced.unlock (balanced : state.Balanced)
    (live : object ∈ state.objects) : (state.unlock object).Balanced := by
  cases refers : (state.entry object).lock with
  | none =>
      unfold EntryState.unlock
      rw [refers]
      exact balanced
  | some held =>
      have member : object ∈ state.holders held := mem_holders.2 ⟨live, refers⟩
      have positive : 0 < (state.holders held).card :=
        Finset.card_pos.2 ⟨object, member⟩
      constructor
      · intro cache
        have counts : (state.unlock object).shared = Function.update
            state.shared held (state.shared held - 1) := by
          unfold EntryState.unlock
          rw [refers]
        rw [counts, holders_unlock refers]
        by_cases same : held = cache
        · subst same
          rw [if_pos rfl, Function.update_self, Finset.card_erase_of_mem member,
            balanced.shared]
        · rw [if_neg same, Function.update_of_ne (Ne.symm same),
            balanced.shared]
      · unfold EntryState.unlock
        rw [refers]
        have held : state.shared held ≠ 0 := by
          rw [balanced.shared]
          omega
        simp [balanced.underflow, held]

theorem Balanced.destroy (balanced : state.Balanced)
    (live : object ∈ state.objects) : (state.destroy object).Balanced := by
  have unlocked := balanced.unlock live
  constructor
  · intro cache
    have same : (state.destroy object).holders cache =
        (state.unlock object).holders cache := by
      have others : (state.destroy object).holders cache =
          ((state.unlock object).holders cache).erase object := by
        rw [holders, holders, unlock_objects]
        exact Finset.filter_erase _ _ _
      rw [others, Finset.erase_eq_of_notMem]
      rw [mem_holders, unlock_lock]
      simp
    rw [same]
    exact unlocked.shared cache
  · exact unlocked.underflow

variable [Inhabited Path]

theorem Balanced.construct (balanced : state.Balanced)
    (fresh : object ∉ state.objects) : (state.construct object).Balanced := by
  have locked := balanced.put_lock fresh ⟨none, default⟩
  have empty : ((state.construct object).entry object).lock = none := by
    simp [EntryState.construct, put]
  unfold lock at locked
  rw [show ((state.put object ⟨none, default⟩).entry object).lock = none from
    empty] at locked
  exact locked

theorem Balanced.moveConstruct (balanced : state.Balanced)
    (fresh : object ∉ state.objects) (live : left ∈ state.objects) :
    (state.moveConstruct object left).Balanced := by
  have made : object ∈ (state.construct object).objects :=
    Finset.mem_insert_self object state.objects
  have kept : left ∈ (state.construct object).objects :=
    Finset.mem_insert_of_mem live
  exact ((balanced.construct fresh).swap made kept).unlock kept

end Balance

/-! ## Operations on entries with names -/

section Named

variable [DecidableEq Name] [DecidableEq Cache]
  {state next : EntryState (EntryObject Name) Cache Path}

/-- Between operations there is no temporary object. -/
structure Settled (state : EntryState (EntryObject Name) Cache Path) :
    Prop extends state.Balanced where
  named : none ∉ state.objects

theorem Settled.copyAssign (settled : state.Settled) {target source : Name}
    (live : some target ∈ state.objects) :
    (state.copyAssign target source).Settled := by
  have copied := settled.toBalanced.put_lock settled.named
    (state.entry (some source))
  have made : none ∈ (state.copyConstruct none (some source)).objects := by
    rw [copyConstruct, lock_objects]
    exact Finset.mem_insert_self none state.objects
  have kept : some target ∈
      (state.copyConstruct none (some source)).objects := by
    rw [copyConstruct, lock_objects]
    exact Finset.mem_insert_of_mem live
  refine ⟨(copied.swap kept made).destroy made, ?_⟩
  exact Finset.notMem_erase none _

variable [Inhabited Path]

theorem step_settled {operation : EntryOperation Name Cache Path}
    (settled : state.Settled) (taken : state.step operation = some next) :
    next.Settled := by
  have balanced := settled.toBalanced
  cases operation with
  | construct name =>
      simp only [step] at taken
      split at taken
      · cases taken
      · cases taken
        refine ⟨balanced.construct ‹_›, ?_⟩
        simpa [EntryState.construct, put] using settled.named
  | get name cache root throws =>
      simp only [step] at taken
      split at taken
      · cases taken
      split at taken
      · cases taken
        exact settled
      · cases taken
        refine ⟨balanced.put_lock ‹_› _, ?_⟩
        rw [constructLocked, lock_objects]
        simpa [put] using settled.named
  | copyConstruct name source =>
      simp only [step] at taken
      split at taken
      · cases taken
      case isFalse able =>
        cases taken
        refine ⟨balanced.put_lock (fun live => able (.inl live)) _, ?_⟩
        rw [copyConstruct, lock_objects]
        simpa [put] using settled.named
  | moveConstruct name source =>
      simp only [step] at taken
      split at taken
      · cases taken
      case isFalse able =>
        cases taken
        refine ⟨balanced.moveConstruct (fun live => able (.inl live))
          (not_not.1 fun dead => able (.inr dead)), ?_⟩
        rw [moveConstruct, unlock_objects]
        simpa [EntryState.swap, EntryState.construct, put] using settled.named
  | copyAssign target source =>
      simp only [step] at taken
      split at taken
      case isTrue live =>
        cases taken
        exact settled.copyAssign live.1
      · cases taken
  | moveAssign target source =>
      simp only [step] at taken
      split at taken
      case isTrue live =>
        cases taken
        refine ⟨(balanced.swap live.1 live.2).unlock live.2, ?_⟩
        rw [moveAssign, unlock_objects]
        exact settled.named
      · cases taken
  | swap left right =>
      simp only [step] at taken
      split at taken
      case isTrue live =>
        cases taken
        exact ⟨balanced.swap live.1 live.2, settled.named⟩
      · cases taken
  | destroy name =>
      simp only [step] at taken
      split at taken
      case isTrue live =>
        cases taken
        refine ⟨balanced.destroy live, ?_⟩
        exact fun member => settled.named (Finset.mem_of_mem_erase member)
      · cases taken

end Named

/-- On each cache exactly one shared lock is held for each live entry that is
not empty, no lock is released too often, and none is left at the end. -/
theorem shared_locks_counted [DecidableEq Name] [DecidableEq Cache]
    [Inhabited Path] {final : EntryState (EntryObject Name) Cache Path}
    (run : Runs step (fun _ _ => True) initial final) :
    (∀ cache, final.shared cache = (final.holders cache).card) ∧
      final.underflow = false ∧
      (final.objects = ∅ → ∀ cache, final.shared cache = 0) := by
  have settled : final.Settled :=
    run.invariant ⟨initial_balanced, Finset.notMem_empty none⟩
      fun _ _ _ settled _ taken => step_settled settled taken
  refine ⟨settled.shared, settled.underflow, ?_⟩
  intro empty cache
  rw [settled.shared, holders, empty]
  rfl

/-- Entries of two caches, assigned to themselves and to each other. -/
theorem shared_locks_counted_assigned :
    ∃ final : EntryState (EntryObject Nat) Bool String,
      execute step initial [.get 0 false "first" false,
        .get 1 true "second" false, .copyConstruct 2 0, .copyAssign 0 0,
        .moveAssign 1 0, .moveAssign 2 2] = some final ∧
      (final.shared false = 1 ∧ final.shared true = 0) ∧
      ∀ cache, final.shared cache = (final.holders cache).card := by
  obtain ⟨final, reached, counts⟩ :
      ∃ final : EntryState (EntryObject Nat) Bool String,
        execute step initial [.get 0 false "first" false,
          .get 1 true "second" false, .copyConstruct 2 0, .copyAssign 0 0,
          .moveAssign 1 0, .moveAssign 2 2] = some final ∧
        final.shared false = 1 ∧ final.shared true = 0 := ⟨_, rfl, rfl, rfl⟩
  exact ⟨final, reached, counts, (shared_locks_counted
    (Runs.of_execute (fun _ _ _ => trivial) reached)).1⟩

end Bacs.Pm.EntryState
