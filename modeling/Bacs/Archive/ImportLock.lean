import Bacs.Archive.Transitions

/-!
# What the import lock gives

When uploads do not fail halfway, the directory of every problem stays
listable, at most one thread works on an import, and the import it works on
is of the stored revision unless `PENDING_IMPORT` announces another one.
The imports themselves may fail anywhere.
-/

namespace Bacs.Archive

open Foundation

variable {Directory Problem Tree : Type}
variable {externals : Externals Directory Problem Tree}
variable {system next : System Directory Problem Tree}

/-- The thread holds `m_import_lock`. -/
def Task.HoldsImportLock : Task Directory Problem → Prop
  | .importReading _ => True
  | .importConverting .. => True
  | .importCommitting .. => True
  | _ => False

/-- The thread imports this revision of the problem. -/
def Task.WorksOn (id : ProblemId) (revision : Revision) :
    Task Directory Problem → Prop
  | .importConverting id' revision' _ => id' = id ∧ revision' = revision
  | .importCommitting id' revision' _ => id' = id ∧ revision' = revision
  | _ => False

theorem Task.WorksOn.holdsImportLock {task : Task Directory Problem}
    {id : ProblemId} {revision : Revision}
    (works : task.WorksOn id revision) : task.HoldsImportLock := by
  cases task <;> first | exact works.elim | trivial

/-- No file operation fails once an upload holds its lock. -/
def Action.UploadsSucceed : Action Directory Problem → Prop
  | .uploadLocked _ faults => faults = noFaults
  | _ => True

def WellFormed (id : ProblemId) (dir : ProblemDir Problem) : Prop :=
  isAllowedId id ∧ dir.Listable

/-- The problem has the revision, or an import of it is pending. -/
def Current (revision : Revision) (dir : ProblemDir Problem) : Prop :=
  ¬ dir.Flagged pendingImportFlag → dir.revision.read = some revision

def Store.CurrentAt (id : ProblemId) (revision : Revision)
    (store : Store Problem Tree) : Prop :=
  ∀ dir, store.dir id = some dir → Current revision dir

/-- Whoever holds the import lock is known to the system. -/
def Exclusive (tasks : Nat → Task Directory Problem)
    (importing : Option Nat) : Prop :=
  ∀ thread, (tasks thread).HoldsImportLock → importing = some thread

structure Orderly (system : System Directory Problem Tree) : Prop where
  wellFormed : system.store.All WellFormed
  exclusive : Exclusive system.tasks system.importing
  current : ∀ thread id revision,
    (system.tasks thread).WorksOn id revision →
      system.store.CurrentAt id revision

@[simp] theorem System.goOn_tasks (thread other : Nat)
    (task : Task Directory Problem) :
    (system.goOn thread task).tasks other =
      if other = thread then task else system.tasks other :=
  Function.update_apply ..

theorem Exclusive.unique {tasks : Nat → Task Directory Problem}
    {importing : Option Nat} {thread other : Nat}
    (exclusive : Exclusive tasks importing)
    (holds : (tasks thread).HoldsImportLock)
    (alsoHolds : (tasks other).HoldsImportLock) : other = thread := by
  have first := exclusive thread holds
  have second := exclusive other alsoHolds
  rw [first, Option.some.injEq] at second
  exact second.symm

theorem Exclusive.goOn {tasks : Nat → Task Directory Problem}
    {importing : Option Nat} {thread : Nat}
    {task : Task Directory Problem}
    (exclusive : Exclusive tasks importing)
    (entitled : task.HoldsImportLock → importing = some thread) :
    Exclusive (Function.update tasks thread task) importing := by
  intro other holds
  rw [Function.update_apply] at holds
  split at holds
  · subst other
    exact entitled holds
  · exact exclusive other holds

theorem Exclusive.release {tasks : Nat → Task Directory Problem}
    {importing : Option Nat} {thread : Nat}
    (exclusive : Exclusive tasks importing)
    (holds : (tasks thread).HoldsImportLock) :
    Exclusive (Function.update tasks thread .idle) none := by
  intro other alsoHolds
  rw [Function.update_apply] at alsoHolds
  split at alsoHolds
  · exact alsoHolds.elim
  · rename_i different
    exact absurd (exclusive.unique holds alsoHolds) different

/-! ## The effect of an upload that does not fail -/

theorem uploadLocked_cases (externals : Externals Directory Problem Tree)
    (id : ProblemId) (location : Directory) {store : Store Problem Tree}
    (wellFormed : store.All WellFormed) :
    after (uploadLocked externals noFaults id location) store = store ∨
      (isAllowedId id ∧ store.Unlocked id ∧
        after (uploadLocked externals noFaults id location) store =
          (store.put id
            (.uploaded externals location (store.dir id))).post id) := by
  by_cases allowed : isAllowedId id
  · by_cases unlocked : store.Unlocked id
    · refine .inr ⟨allowed, unlocked, ?_⟩
      have listable : ∀ dir, store.dir id = some dir → dir.Listable :=
        fun dir found => (wellFormed id dir found).2
      refine after_of_ensures (· = _)
        ((uploadLocked_ensures allowed unlocked listable).mono ?_
          (fun _ _ stopped => stopped))
      exact fun _ _ ended => ended.2
    · simp only [Store.Unlocked, not_forall, not_and_or, not_not,
        exists_prop] at unlocked
      obtain ⟨dir, found, locked⟩ := unlocked
      exact .inl (after_of_ensures (· = _)
        (uploadLocked_protected found locked))
  · refine .inl (after_of_ensures (· = _) ?_)
    simp [uploadLocked, isLocked, hasFlag, ensures_validateId, allowed]

/-! ## The invariant -/

theorem WellFormed.addFlag {id : ProblemId} {dir : ProblemDir Problem}
    {flag : FlagName} (wellFormed : WellFormed id dir)
    (allowed : isAllowedFlag flag) : WellFormed id (dir.addFlag flag) :=
  ⟨wellFormed.1, wellFormed.2.addFlag allowed⟩

theorem WellFormed.removeFlag {id : ProblemId} {dir : ProblemDir Problem}
    {flag : FlagName} (wellFormed : WellFormed id dir) :
    WellFormed id (dir.removeFlag flag) :=
  ⟨wellFormed.1, wellFormed.2.removeFlag⟩

theorem WellFormed.uploaded {id : ProblemId} {store : Store Problem Tree}
    {location : Directory} (allowed : isAllowedId id)
    (wellFormed : store.All WellFormed) :
    WellFormed id (.uploaded externals location (store.dir id)) :=
  ⟨allowed, ProblemDir.uploaded_listable fun dir found =>
    (wellFormed id dir found).2⟩

theorem step_wellFormed {action : Action Directory Problem}
    (succeeds : action.UploadsSucceed)
    (taken : step externals system action = some next)
    (wellFormed : system.store.All WellFormed) :
    next.store.All WellFormed := by
  have effect := step_effect taken
  generalize next.store = final at effect ⊢
  cases effect with
  | quiet problems _ =>
      simpa [Store.All, Store.dir, problems] using wellFormed
  | @upload thread faults id location _ =>
      obtain rfl : faults = noFaults := succeeds
      rcases uploadLocked_cases externals id location wellFormed with
        same | ⟨allowed, _, same⟩
      · rw [same]
        exact wellFormed
      · rw [same]
        exact wellFormed.put (.uploaded allowed wellFormed)
  | edit =>
      refine after_keeps (·.All WellFormed) (editFlags_keeps ?_ ?_) wellFormed
      · exact fun _ _ adds held =>
          held.update fun _ own => own.addFlag adds.allowed
      · exact fun _ _ _ held => held.update fun _ own => own.removeFlag
  | prepare _ =>
      refine after_keeps (·.All WellFormed)
        (prepareImport_keeps fun _ held => ?_) wellFormed
      exact held.update fun _ own => own.addFlag (by decide)
  | read _ =>
      refine after_keeps (·.All WellFormed) (importReadLocked_keeps ?_)
        wellFormed
      intro store dir slot found held
      have own := held _ _ found
      exact held.put ⟨own.1, own.2⟩
  | commit _ =>
      refine after_keeps (·.All WellFormed) (importCommitLocked_keeps ?_ ?_)
        wellFormed
      · intro store dir slot found held
        have own := held _ _ found
        exact held.put ⟨own.1, own.2⟩
      · intro store dir after found committed held
        have before := held _ _ found
        exact held.put ⟨before.1, committed.listable before.2⟩

theorem step_exclusive {action : Action Directory Problem}
    (taken : step externals system action = some next)
    (exclusive : Exclusive system.tasks system.importing) :
    Exclusive next.tasks next.importing := by
  cases step_transition taken with
  | lockImports task free =>
      intro other holds
      change (Function.update system.tasks _ _ other).HoldsImportLock at holds
      rw [Function.update_apply] at holds
      split at holds
      · rename_i same
        exact congrArg some same.symm
      · have taken := exclusive other holds
        rw [free] at taken
        cases taken
  | importRead task run =>
      refine exclusive.goOn fun _ => exclusive _ ?_
      rw [task]
      trivial
  | importConvert task =>
      refine exclusive.goOn fun _ => exclusive _ ?_
      rw [task]
      trivial
  | importMissing task _ => exact exclusive.release (by rw [task]; trivial)
  | importReadFailed task _ => exact exclusive.release (by rw [task]; trivial)
  | importCommit task => exact exclusive.release (by rw [task]; trivial)
  | uploadRefused => exact exclusive
  | editFlags => exact exclusive
  | callImportRefused => exact exclusive
  | _ => exact exclusive.goOn fun impossible => impossible.elim

theorem uploadLocked_current {store : Store Problem Tree}
    {id other : ProblemId} {revision : Revision} {location : Directory}
    (wellFormed : store.All WellFormed)
    (current : store.CurrentAt id revision) :
    (after (uploadLocked externals noFaults other location) store).CurrentAt
      id revision := by
  rcases uploadLocked_cases externals other location wellFormed with
    same | ⟨_, _, same⟩
  · rw [same]
    exact current
  · rw [same]
    intro dir found
    by_cases own : id = other
    · subst other
      rw [Store.dir_post, Store.dir_put_self, Option.some.injEq] at found
      subst found
      have pending := ProblemDir.uploaded_pending externals location
        fun dir found => (wellFormed id dir found).2
      exact fun notPending => absurd pending notPending
    · rw [Store.dir_post, Store.dir_put_of_ne _ _ _ _ own] at found
      exact current dir found

theorem Store.CurrentAt.update {store : Store Problem Tree}
    {id other : ProblemId} {revision : Revision}
    {change : ProblemDir Problem → ProblemDir Problem}
    (current : store.CurrentAt id revision)
    (kept : ∀ dir, Current revision dir → Current revision (change dir)) :
    (store.update other change).CurrentAt id revision := by
  intro dir found
  by_cases own : id = other
  · subst other
    rw [Store.dir_update_self, Option.map_eq_some_iff] at found
    obtain ⟨before, foundBefore, rfl⟩ := found
    exact kept before (current before foundBefore)
  · rw [Store.dir_update_of_ne _ _ _ _ own] at found
    exact current dir found

theorem Current.addFlag {revision : Revision} {dir : ProblemDir Problem}
    {flag : FlagName} (current : Current revision dir) :
    Current revision (dir.addFlag flag) := by
  intro notPending
  rw [ProblemDir.flagged_addFlag, not_or] at notPending
  exact current notPending.1

theorem Current.removeFlag {revision : Revision} {dir : ProblemDir Problem}
    {flag : FlagName} (current : Current revision dir)
    (other : flag ≠ pendingImportFlag) :
    Current revision (dir.removeFlag flag) := by
  intro notPending
  rw [ProblemDir.flagged_removeFlag, not_and_not_right] at notPending
  exact current fun pending => other (notPending pending).symm

theorem editFlags_current {store : Store Problem Tree}
    {id other : ProblemId} {revision : Revision} {edit : FlagEdit}
    {faults : Faults Problem} (current : store.CurrentAt id revision) :
    (after (editFlags faults other edit) store).CurrentAt id revision := by
  refine after_keeps (·.CurrentAt id revision) (editFlags_keeps ?_ ?_) current
  · exact fun _ _ _ held => held.update fun _ own => own.addFlag
  · exact fun _ _ removes held =>
      held.update fun _ own => own.removeFlag removes.ne_pending

theorem prepareImport_current {store : Store Problem Tree}
    {id other : ProblemId} {revision : Revision}
    {faults : Faults Problem} (current : store.CurrentAt id revision) :
    (after (prepareImport faults other) store).CurrentAt id revision := by
  refine after_keeps (·.CurrentAt id revision)
    (prepareImport_keeps fun _ held => ?_) current
  exact held.update fun _ own => own.addFlag

theorem importReadLocked_current {store final : Store Problem Tree}
    {id : ProblemId} {faults : Faults Problem} {revision : Revision}
    {contents : Directory}
    (run : importReadLocked externals faults id store =
      .ok (some (revision, contents)) final) :
    final.CurrentAt id revision := by
  intro dir found _
  cases before : store.dir id with
  | none =>
      have missing := (importReadLocked_missing before).of_ok run
      cases missing.1
  | some dir' =>
      obtain ⟨revision', _, _, same, known, _⟩ :=
        (importReadLocked_ensures before).of_ok run
      simp only [Option.some.injEq, Prod.mk.injEq] at same
      obtain ⟨rfl, _⟩ := same
      obtain ⟨slot, stored, foundSlot⟩ := known.dir before
      rw [found, Option.some.injEq] at foundSlot
      subst foundSlot
      exact stored

theorem worksOn_update {tasks : Nat → Task Directory Problem}
    {thread other : Nat} {task : Task Directory Problem} {id : ProblemId}
    {revision : Revision}
    (works : (Function.update tasks thread task other).WorksOn id revision) :
    (other = thread ∧ task.WorksOn id revision) ∨
      (other ≠ thread ∧ (tasks other).WorksOn id revision) := by
  rw [Function.update_apply] at works
  split at works
  · exact .inl ⟨‹_›, works⟩
  · exact .inr ⟨‹_›, works⟩

theorem step_current {action : Action Directory Problem}
    (succeeds : action.UploadsSucceed)
    (taken : step externals system action = some next)
    (orderly : Orderly system) {thread : Nat} {id : ProblemId}
    {revision : Revision}
    (works : (next.tasks thread).WorksOn id revision) :
    next.store.CurrentAt id revision := by
  have current := orderly.current
  have alone : ∀ holder, (system.tasks holder).HoldsImportLock →
      thread ≠ holder → ¬ (system.tasks thread).WorksOn id revision :=
    fun holder holds different alsoWorks => different
      (orderly.exclusive.unique holds alsoWorks.holdsImportLock)
  cases step_transition taken with
  | uploadRefused => exact current thread id revision works
  | callImportRefused => exact current thread id revision works
  | editFlags => exact editFlags_current (current thread id revision works)
  | @uploadLocked _ faults =>
      obtain rfl : faults = noFaults := succeeds
      rcases worksOn_update works with ⟨_, impossible⟩ | ⟨_, works⟩
      · exact impossible.elim
      · exact uploadLocked_current orderly.wellFormed
          (current thread id revision works)
  | prepared _ run =>
      rcases worksOn_update works with ⟨_, impossible⟩ | ⟨_, works⟩
      · exact impossible.elim
      · rw [← after_ok run]
        exact prepareImport_current (current thread id revision works)
  | prepareFailed _ run =>
      rcases worksOn_update works with ⟨_, impossible⟩ | ⟨_, works⟩
      · exact impossible.elim
      · rw [← after_error run]
        exact prepareImport_current (current thread id revision works)
  | importRead task run =>
      rcases worksOn_update works with ⟨_, rfl, rfl⟩ | ⟨different, works⟩
      · exact importReadLocked_current run
      · exact absurd works (alone _ (by rw [task]; trivial) different)
  | importReadFailed task run =>
      rcases worksOn_update works with ⟨_, impossible⟩ | ⟨different, works⟩
      · exact impossible.elim
      · exact absurd works (alone _ (by rw [task]; trivial) different)
  | importConvert task =>
      rcases worksOn_update works with ⟨same, rfl, rfl⟩ | ⟨_, works⟩
      · subst same
        exact current thread _ _ (by rw [task]; exact ⟨rfl, rfl⟩)
      · exact current thread id revision works
  | importCommit task =>
      rcases worksOn_update works with ⟨_, impossible⟩ | ⟨different, works⟩
      · exact impossible.elim
      · exact absurd works (alone _ (by rw [task]; trivial) different)
  | _ =>
      rcases worksOn_update works with ⟨_, impossible⟩ | ⟨_, works⟩
      · exact impossible.elim
      · exact current thread id revision works

theorem initial_orderly :
    Orderly (System.initial : System Directory Problem Tree) where
  wellFormed := fun _ _ found => by simp [System.initial, Store.dir] at found
  exclusive := fun _ holds => holds.elim
  current := fun _ _ _ works => works.elim

theorem step_orderly {action : Action Directory Problem}
    (succeeds : action.UploadsSucceed)
    (taken : step externals system action = some next)
    (orderly : Orderly system) : Orderly next where
  wellFormed := step_wellFormed succeeds taken orderly.wellFormed
  exclusive := step_exclusive taken orderly.exclusive
  current := fun _ _ _ works => step_current succeeds taken orderly works

theorem run_orderly {allowed : System Directory Problem Tree →
      Action Directory Problem → Prop}
    (succeeds : ∀ system action, allowed system action →
      action.UploadsSucceed)
    (run : Runs (step externals) allowed .initial system) :
    Orderly system :=
  run.invariant initial_orderly fun _ _ _ orderly permitted taken =>
    step_orderly (succeeds _ _ permitted) taken orderly

end Bacs.Archive
