import Bacs.Process.FileLock

/-!
# Exclusive file locks

A call that is refused the file when it has the mutex answers wrongly: the
number of the lock that is not taken counts as success, and the flags that the
scope guard has captured are those from before the locks.  Where no call comes
to this point, callers have both locks or neither when a call returns.
-/

namespace Bacs.Process.Locking

open Foundation

variable {Process Path : Type} {locking next : Locking Process Path}
  {caller other : Caller Process Path}

/-- The last call has given its caller both locks or none. -/
def Answered (locking : Locking Process Path) : Prop :=
  ∀ caller outcome, locking.last = some (caller, outcome) →
    (outcome = .returned true ↔
      locking.HasMutex caller ∧ locking.HasFile caller) ∧
    (outcome ≠ .returned true →
      ¬ locking.HasMutex caller ∧ ¬ locking.HasFile caller)

/-- At most one caller has been told to have the lock of a path, and it has
both locks. -/
def Exclusive (locking : Locking Process Path) : Prop :=
  (∀ caller other, locking.entered caller → locking.entered other →
    caller.path = other.path → caller = other) ∧
  ∀ caller, locking.entered caller →
    locking.HasMutex caller ∧ locking.HasFile caller

/-- Who has the mutex has been told so or is waiting for the file. -/
structure Kept (locking : Locking Process Path) : Prop where
  mutexes : Keyed Caller.place locking.mlock
  files : Keyed Caller.path locking.flock
  mutex : ∀ caller, locking.HasFile caller → locking.HasMutex caller
  entered : ∀ caller, locking.entered caller = true ↔
    locking.HasMutex caller ∧ locking.HasFile caller
  waiting : ∀ caller, locking.waiting caller = true ↔
    locking.HasMutex caller ∧ ¬ locking.HasFile caller

theorem Kept.exclusive (kept : locking.Kept) : locking.Exclusive := by
  constructor
  · intro caller other inside inside' same
    exact Holds.unique ((kept.entered caller).mp inside).2
      ((kept.entered other).mp inside').2 same
  · intro caller
    exact (kept.entered caller).mp

theorem mutexFree_iff :
    locking.mutexFree caller = true ↔ locking.mlock caller.place = none :=
  Option.isNone_iff_eq_none

theorem not_hasMutex_of_mutexFree (free : locking.mutexFree caller)
    (same : other.place = caller.place) : ¬ locking.HasMutex other := by
  intro held
  rw [HasMutex, Holds, same, mutexFree_iff.mp free] at held
  cases held

/-- Whatever a step does for one caller, it changes nothing for others. -/
structure For (caller : Caller Process Path)
    (locking next : Locking Process Path) : Prop where
  mutexes : Keyed Caller.place next.mlock
  files : Keyed Caller.path next.flock
  mutex : ∀ other, other ≠ caller →
    (next.HasMutex other ↔ locking.HasMutex other)
  file : ∀ other, other ≠ caller →
    (next.HasFile other ↔ locking.HasFile other)
  entered : ∀ other, other ≠ caller →
    next.entered other = locking.entered other
  waiting : ∀ other, other ≠ caller →
    next.waiting other = locking.waiting other

theorem Kept.change (kept : locking.Kept) (caller : Caller Process Path)
    (change : For caller locking next)
    (mutex : next.HasFile caller → next.HasMutex caller)
    (entered : next.entered caller = true ↔
      next.HasMutex caller ∧ next.HasFile caller)
    (waiting : next.waiting caller = true ↔
      next.HasMutex caller ∧ ¬ next.HasFile caller) : next.Kept where
  mutexes := change.mutexes
  files := change.files
  mutex := by
    intro other
    by_cases same : other = caller
    · subst same
      exact mutex
    · rw [change.mutex other same, change.file other same]
      exact kept.mutex other
  entered := by
    intro other
    by_cases same : other = caller
    · subst same
      exact entered
    · rw [change.mutex other same, change.file other same,
        change.entered other same]
      exact kept.entered other
  waiting := by
    intro other
    by_cases same : other = caller
    · subst same
      exact waiting
    · rw [change.mutex other same, change.file other same,
        change.waiting other same]
      exact kept.waiting other

theorem Kept.same (kept : locking.Kept)
    {last : Option (Caller Process Path × Outcome)} :
    Kept { locking with last := last } :=
  ⟨kept.mutexes, kept.files, kept.mutex, kept.entered, kept.waiting⟩

theorem initial_kept : (initial : Locking Process Path).Kept := by
  constructor
  · intro place holder found
    cases found
  · intro path holder found
    cases found
  · intro caller held
    cases held
  · intro caller
    exact iff_of_false (by simp [initial]) fun both => by cases both.1
  · intro caller
    exact iff_of_false (by simp [initial]) fun held => by cases held.1

/-! ## Answers -/

theorem answered_of_none (none : locking.last = none) :
    locking.Answered := by
  intro caller outcome returned
  rw [none] at returned
  cases returned

theorem answered_iff {outcome : Outcome}
    (returned : locking.last = some (caller, outcome)) :
    locking.Answered ↔
      (outcome = .returned true ↔
        locking.HasMutex caller ∧ locking.HasFile caller) ∧
      (outcome ≠ .returned true →
        ¬ locking.HasMutex caller ∧ ¬ locking.HasFile caller) := by
  constructor
  · intro answered
    exact answered caller outcome returned
  · intro right other outcome' returned'
    rw [returned] at returned'
    cases returned'
    exact right

theorem answered_of_both (returned : locking.last =
      some (caller, .returned true))
    (hasMutex : locking.HasMutex caller) (hasFile : locking.HasFile caller) :
    locking.Answered := by
  rw [answered_iff returned]
  exact ⟨iff_of_true rfl ⟨hasMutex, hasFile⟩, fun wrong => absurd rfl wrong⟩

theorem answered_of_neither {outcome : Outcome}
    (returned : locking.last = some (caller, outcome))
    (failed : outcome ≠ .returned true)
    (noMutex : ¬ locking.HasMutex caller)
    (noFile : ¬ locking.HasFile caller) : locking.Answered := by
  rw [answered_iff returned]
  exact ⟨iff_of_false failed fun both => noMutex both.1,
    fun _ => ⟨noMutex, noFile⟩⟩

/-! ## Steps -/

variable [DecidableEq Process]

/-- Nobody has the file of a path whose mutex is free, or is with a caller
that has no file. -/
theorem Kept.flock_eq_none (kept : locking.Kept)
    (free : locking.fileFree caller)
    (alone : ∀ holder, locking.HasMutex holder →
      holder.place = caller.place → ¬ locking.HasFile holder) :
    locking.flock caller.path = none := by
  cases held : locking.flock caller.path with
  | none => rfl
  | some holder =>
      have process : holder.process = caller.process := by
        simpa [fileFree, held] using free
      have path := kept.files _ holder held
      have file : locking.HasFile holder := kept.files.holds held
      exact absurd file (alone holder (kept.mutex holder file)
        (Prod.ext process path))

variable [DecidableEq Path]

section Steps

variable {last : Option (Caller Process Path × Outcome)}

theorem Kept.both (kept : locking.Kept) (mutex : locking.mutexFree caller)
    (file : locking.fileFree caller) :
    Kept { (locking.lockMutex caller).lockFile caller with
      entered := Function.update locking.entered caller true
      last := last } ∧
    ((locking.lockMutex caller).lockFile caller).HasMutex caller ∧
    ((locking.lockMutex caller).lockFile caller).HasFile caller := by
  have without := not_hasMutex_of_mutexFree mutex rfl
  have free : locking.flock caller.path = none :=
    kept.flock_eq_none file fun holder held same _ =>
      not_hasMutex_of_mutexFree mutex same held
  have mutexes := Holds.take_iff (mutexFree_iff.mp mutex)
  have files := Holds.take_iff free
  have hasMutex := (mutexes caller).mpr (.inl rfl)
  have hasFile := (files caller).mpr (.inl rfl)
  refine ⟨?_, hasMutex, hasFile⟩
  apply kept.change caller
  · constructor
    · exact kept.mutexes.take caller
    · exact kept.files.take caller
    · intro other different
      exact (mutexes other).trans (or_iff_right different)
    · intro other different
      exact (files other).trans (or_iff_right different)
    · intro other different
      exact Function.update_of_ne different ..
    · intro other _
      rfl
  · exact fun _ => hasMutex
  · exact iff_of_true (Function.update_self ..) ⟨hasMutex, hasFile⟩
  · apply iff_of_false
    · exact fun waits => without ((kept.waiting caller).mp waits).1
    · exact fun none => none.2 hasFile

theorem Kept.takeMutex (kept : locking.Kept)
    (mutex : locking.mutexFree caller) :
    Kept { (locking.lockMutex caller).wait caller true with
      last := last } := by
  have without := not_hasMutex_of_mutexFree mutex rfl
  have noFile : ¬ locking.HasFile caller :=
    fun file => without (kept.mutex caller file)
  have mutexes := Holds.take_iff (mutexFree_iff.mp mutex)
  have hasMutex := (mutexes caller).mpr (.inl rfl)
  apply kept.change caller
  · constructor
    · exact kept.mutexes.take caller
    · exact kept.files
    · intro other different
      exact (mutexes other).trans (or_iff_right different)
    · intro other _
      exact Iff.rfl
    · intro other _
      rfl
    · intro other different
      exact Function.update_of_ne different ..
  · exact fun _ => hasMutex
  · apply iff_of_false
    · exact fun inside => without ((kept.entered caller).mp inside).1
    · exact fun both => noFile both.2
  · exact iff_of_true (Function.update_self ..) ⟨hasMutex, noFile⟩

theorem Kept.takeFile (kept : locking.Kept) (waits : locking.waiting caller)
    (file : locking.fileFree caller) :
    Kept { (locking.lockFile caller).wait caller false with
      entered := Function.update locking.entered caller true
      last := last } ∧
    locking.HasMutex caller ∧ (locking.lockFile caller).HasFile caller := by
  obtain ⟨hasMutex, noFile⟩ := (kept.waiting caller).mp waits
  have free : locking.flock caller.path = none := by
    apply kept.flock_eq_none file
    intro holder held same
    have equal := Holds.unique held hasMutex same
    rw [equal]
    exact noFile
  have files := Holds.take_iff free
  have hasFile := (files caller).mpr (.inl rfl)
  refine ⟨?_, hasMutex, hasFile⟩
  apply kept.change caller
  · constructor
    · exact kept.mutexes
    · exact kept.files.take caller
    · intro other _
      exact Iff.rfl
    · intro other different
      exact (files other).trans (or_iff_right different)
    · intro other different
      exact Function.update_of_ne different ..
    · intro other different
      exact Function.update_of_ne different ..
  · exact fun _ => hasMutex
  · exact iff_of_true (Function.update_self ..) ⟨hasMutex, hasFile⟩
  · apply iff_of_false
    · rw [Bool.not_eq_true]
      exact Function.update_self ..
    · exact fun none => none.2 hasFile

theorem Kept.release (kept : locking.Kept)
    (hasMutex : locking.HasMutex caller) (hasFile : locking.HasFile caller) :
    Kept { ((locking.unlockFile caller).unlockMutex caller).enter
      caller false with last := last } := by
  have mutexes := Holds.release_iff hasMutex
  have files := Holds.release_iff hasFile
  have noMutex := fun held => ((mutexes caller).mp held).1 rfl
  have noFile := fun held => ((files caller).mp held).1 rfl
  apply kept.change caller
  · constructor
    · exact kept.mutexes.release _
    · exact kept.files.release _
    · intro other different
      exact (mutexes other).trans (and_iff_right different)
    · intro other different
      exact (files other).trans (and_iff_right different)
    · intro other different
      exact Function.update_of_ne different ..
    · intro other _
      rfl
  · exact fun held => absurd held noFile
  · apply iff_of_false
    · rw [Bool.not_eq_true]
      exact Function.update_self ..
    · exact fun both => noFile both.2
  · apply iff_of_false
    · exact fun waits => ((kept.waiting caller).mp waits).2 hasFile
    · exact fun held => noMutex held.1

end Steps

/-! ## Runs -/

/-- No call is refused the file when it has the mutex. -/
def Allowed (locking : Locking Process Path) : Action Process Path → Prop
  | .tryLock caller false =>
      locking.mutexFree caller → locking.fileFree caller
  | .timedFile _ waited => waited = .acquired
  | _ => True

instance : ∀ (locking : Locking Process Path) (action),
    Decidable (locking.Allowed action)
  | locking, .tryLock caller false => inferInstanceAs (Decidable
      (locking.mutexFree caller = true → locking.fileFree caller = true))
  | _, .timedFile _ waited =>
      inferInstanceAs (Decidable (waited = .acquired))
  | _, .tryLock _ true | _, .lock .. | _, .timedMutex .. | _, .unlock _ =>
      inferInstanceAs (Decidable True)

theorem leave_of_ne {outcome : Outcome} (failed : outcome ≠ .returned true) :
    locking.leave caller outcome =
      { locking with last := some (caller, outcome) } := by
  simp [leave, failed]

theorem leave_spec (kept : locking.Kept) (outcome : Outcome)
    (failed : outcome ≠ .returned true)
    (without : ¬ locking.HasMutex caller) :
    (locking.leave caller outcome).Kept ∧
      (locking.leave caller outcome).Answered := by
  rw [leave_of_ne failed]
  exact ⟨kept.same, answered_of_neither rfl failed without
    fun file => without (kept.mutex caller file)⟩

theorem lock_spec (kept : locking.Kept) {throws : Bool}
    (taken : locking.step (.lock caller throws) = some next) :
    next.Kept ∧ next.Answered := by
  obtain ⟨_, taken⟩ := Option.ite_none_left_eq_some.mp taken
  split at taken
  case isTrue =>
    cases taken
    exact ⟨kept.same, answered_of_none rfl⟩
  case isFalse =>
    obtain ⟨free, ⟨⟩⟩ := Option.ite_none_right_eq_some.mp taken
    rw [Bool.and_eq_true] at free
    exact ⟨(kept.both free.1 free.2).1, answered_of_none rfl⟩

theorem tryLock_spec (kept : locking.Kept) {throws : Bool}
    (taken : locking.step (.tryLock caller throws) = some next) :
    (locking.Allowed (.tryLock caller throws) → next.Kept) ∧
      (next.Answered ↔ locking.Allowed (.tryLock caller throws)) := by
  obtain ⟨without, taken⟩ := Option.ite_none_left_eq_some.mp taken
  cases throws with
  | true =>
      cases taken
      obtain ⟨kept', answered⟩ :=
        leave_spec kept .thrown (by simp) without
      exact ⟨fun _ => kept', iff_of_true answered trivial⟩
  | false =>
      simp only [Bool.false_eq_true, if_false, boostTryLock] at taken
      cases mutex : locking.mutexFree caller with
      | false =>
          simp only [mutex] at taken
          cases taken
          obtain ⟨kept', answered⟩ :=
            leave_spec kept (.returned false) (by simp) without
          refine ⟨fun _ => kept', iff_of_true answered ?_⟩
          intro free
          rw [mutex] at free
          cases free
      | true =>
          cases file : locking.fileFree caller with
          | false =>
              simp only [mutex, file] at taken
              cases taken
              have forbidden :
                  ¬ locking.Allowed (.tryLock caller false) := by
                intro allowed
                rw [allowed mutex] at file
                cases file
              refine ⟨fun allowed => absurd allowed forbidden,
                iff_of_false ?_ forbidden⟩
              intro answered
              exact without ((answered caller _ rfl).1.mp rfl).1
          | true =>
              simp only [mutex, file] at taken
              cases taken
              obtain ⟨kept', hasMutex, hasFile⟩ := kept.both mutex file
              exact ⟨fun _ => kept', iff_of_true
                (answered_of_both rfl hasMutex hasFile) fun _ => file⟩

theorem timedMutex_spec (kept : locking.Kept) {waited : Waited}
    (taken : locking.step (.timedMutex caller waited) = some next) :
    next.Kept ∧ next.Answered := by
  cases waited with
  | acquired =>
      obtain ⟨free, ⟨⟩⟩ := Option.ite_none_right_eq_some.mp taken
      exact ⟨kept.takeMutex free, answered_of_none rfl⟩
  | timedOut =>
      obtain ⟨without, ⟨⟩⟩ := Option.ite_none_left_eq_some.mp taken
      exact leave_spec kept (.returned false) (by simp) without
  | thrown =>
      obtain ⟨without, ⟨⟩⟩ := Option.ite_none_left_eq_some.mp taken
      exact leave_spec kept .thrown (by simp) without

/-- The mutex stays locked when a call leaves without the file. -/
theorem not_answered_of_waiting (kept : locking.Kept)
    (waits : locking.waiting caller) {outcome : Outcome}
    (failed : outcome ≠ .returned true) :
    ¬ ((locking.wait caller false).leave caller outcome).Answered := by
  rw [leave_of_ne failed]
  intro answered
  exact ((answered caller outcome rfl).2 failed).1
    ((kept.waiting caller).mp waits).1

theorem timedFile_spec (kept : locking.Kept) {waited : Waited}
    (taken : locking.step (.timedFile caller waited) = some next) :
    (locking.Allowed (.timedFile caller waited) → next.Kept) ∧
      (next.Answered ↔ locking.Allowed (.timedFile caller waited)) := by
  cases waited with
  | acquired =>
      obtain ⟨free, ⟨⟩⟩ := Option.ite_none_right_eq_some.mp taken
      rw [Bool.and_eq_true] at free
      obtain ⟨kept', hasMutex, hasFile⟩ := kept.takeFile free.1 free.2
      exact ⟨fun _ => kept', iff_of_true
        (answered_of_both rfl hasMutex hasFile) rfl⟩
  | timedOut =>
      obtain ⟨waits, ⟨⟩⟩ := Option.ite_none_right_eq_some.mp taken
      have forbidden : ¬ locking.Allowed (.timedFile caller .timedOut) := nofun
      exact ⟨fun allowed => absurd allowed forbidden, iff_of_false
        (not_answered_of_waiting kept waits (by simp)) forbidden⟩
  | thrown =>
      obtain ⟨waits, ⟨⟩⟩ := Option.ite_none_right_eq_some.mp taken
      have forbidden : ¬ locking.Allowed (.timedFile caller .thrown) := nofun
      exact ⟨fun allowed => absurd allowed forbidden, iff_of_false
        (not_answered_of_waiting kept waits (by simp)) forbidden⟩

theorem unlock_spec (kept : locking.Kept)
    (taken : locking.step (.unlock caller) = some next) :
    next.Kept ∧ next.Answered := by
  obtain ⟨held, ⟨⟩⟩ := Option.ite_none_right_eq_some.mp taken
  exact ⟨kept.release held.1 held.2, answered_of_none rfl⟩

theorem step_spec (kept : locking.Kept) {action : Action Process Path}
    (taken : locking.step action = some next) :
    (locking.Allowed action → next.Kept) ∧
      (next.Answered ↔ locking.Allowed action) := by
  cases action with
  | lock caller throws =>
      obtain ⟨kept', answered⟩ := lock_spec kept taken
      exact ⟨fun _ => kept', iff_of_true answered trivial⟩
  | tryLock caller throws => exact tryLock_spec kept taken
  | timedMutex caller waited =>
      obtain ⟨kept', answered⟩ := timedMutex_spec kept taken
      exact ⟨fun _ => kept', iff_of_true answered trivial⟩
  | timedFile caller waited => exact timedFile_spec kept taken
  | unlock caller =>
      obtain ⟨kept', answered⟩ := unlock_spec kept taken
      exact ⟨fun _ => kept', iff_of_true answered trivial⟩

/-- While no call is refused the file when it has the mutex, every answer is
right and at most one caller has a path; and the first call that is refused it
answers wrongly. -/
theorem answered_of_runs {final : Locking Process Path}
    (run : Runs step Allowed initial final) :
    final.Answered ∧ final.Exclusive ∧
      ∀ action next, final.step action = some next →
        (next.Answered ↔ final.Allowed action) := by
  have held : final.Kept ∧ final.Answered := by
    apply run.invariant
    · exact ⟨initial_kept, answered_of_none rfl⟩
    · rintro before action after ⟨kept, _⟩ allowed taken
      obtain ⟨kept', answered⟩ := step_spec kept taken
      exact ⟨kept' allowed, answered.mpr allowed⟩
  refine ⟨held.2, held.1.exclusive, ?_⟩
  intro action next taken
  exact (step_spec held.1 taken).2

/-! ## Two processes -/

def firstCaller : Caller Nat String :=
  ⟨1, "lock", 0, 0⟩

def secondCaller : Caller Nat String :=
  ⟨2, "lock", 0, 0⟩

theorem answered_of_runs_timed :
    ∃ final : Locking Nat String,
      executeWhile step Allowed initial [.tryLock firstCaller false,
        .unlock firstCaller, .timedMutex secondCaller .acquired,
        .timedFile secondCaller .acquired] = some final ∧
          final.Answered ∧ final.entered secondCaller = true := by
  obtain ⟨final, reached, inside⟩ : ∃ final : Locking Nat String,
      executeWhile step Allowed initial [.tryLock firstCaller false,
        .unlock firstCaller, .timedMutex secondCaller .acquired,
        .timedFile secondCaller .acquired] = some final ∧
          final.entered secondCaller = true := ⟨_, rfl, rfl⟩
  exact ⟨final, reached, (answered_of_runs
    (Runs.of_executeWhile reached)).1, inside⟩

/-- While one process has the file, another is told to have it too, and a call
that waits for it in vain keeps the mutex. -/
theorem answered_fails :
    (∃ final : Locking Nat String,
      execute step initial [.tryLock firstCaller false,
        .tryLock secondCaller false] = some final ∧
      ¬ final.Answered ∧ ¬ final.Exclusive) ∧
    ∃ final : Locking Nat String,
      execute step initial [.tryLock firstCaller false,
        .timedMutex secondCaller .acquired,
        .timedFile secondCaller .timedOut] = some final ∧
      ¬ final.Answered := by
  constructor
  · refine ⟨_, rfl, ?_, ?_⟩
    · intro answered
      have both := (answered secondCaller (.returned true) rfl).1.mp rfl
      exact absurd both.1 (by decide)
    · rintro ⟨alone, _⟩
      have same := alone firstCaller secondCaller rfl rfl rfl
      exact absurd same (by decide)
  · refine ⟨_, rfl, ?_⟩
    intro answered
    have neither := (answered secondCaller (.returned false) rfl).2 (by simp)
    exact neither.1 (by decide)

end Bacs.Process.Locking
