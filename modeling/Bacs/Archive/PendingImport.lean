import Bacs.Archive.ImportLock
import Bacs.Archive.Protection

/-!
# Who takes care of a pending import

`PENDING_IMPORT` should be set only while a job for the problem is queued,
about to be posted or running.  Two things break this: `set_flags` accepts the
flag, which `set_flag` refuses, and an import that ends with an exception
leaves the flag behind.  Every run without these two steps keeps the flag
attended.
-/

namespace Bacs.Archive

open Foundation

variable {Directory Problem Tree : Type}
variable {externals : Externals Directory Problem Tree}
variable {system next : System Directory Problem Tree}

/-- Nothing fails but the files that imports read and write. -/
def Action.OnlyImportsFail : Action Directory Problem → Prop
  | .upload _ _ _ faults => faults = noFaults
  | .uploadLocked _ faults => faults = noFaults
  | .editFlags _ _ faults => faults = noFaults
  | .prepare _ faults => faults = noFaults
  | _ => True

/-- The thread is about to post an import of the problem, or runs one. -/
def Task.Attends (id : ProblemId) : Task Directory Problem → Prop
  | .scheduling _ scheduled => id ∈ scheduled
  | .posting scheduled => id ∈ scheduled
  | .importWaiting id' => id' = id
  | .importReading id' => id' = id
  | .importConverting id' _ _ => id' = id
  | .importCommitting id' _ _ => id' = id
  | _ => False

/-- An import of the problem is queued, or a thread other than those excluded
attends to it. -/
def System.AttendedBy (system : System Directory Problem Tree)
    (threads : Nat → Prop) (id : ProblemId) : Prop :=
  id ∈ system.store.posted ∨
    ∃ thread, threads thread ∧ (system.tasks thread).Attends id

def System.Attended (system : System Directory Problem Tree)
    (id : ProblemId) : Prop :=
  system.AttendedBy (fun _ => True) id

/-! ## The steps after which the flag is attended -/

/-- The first section of import finds everything it needs. -/
def ReadSucceeds (externals : Externals Directory Problem Tree)
    (faults : Faults Problem) (dir : ProblemDir Problem) : Prop :=
  faults .checkExists = none ∧
    ((faults .readRevision = none ∧ dir.revision.read.isSome) ∨
      (faults .readData = none ∧ dir.data.isSome ∧
        faults .writeRevision = none)) ∧
    faults .unpack = none ∧ (dir.data.bind externals.unpack).isSome

/-- The last section of import gets to the point where it has removed
`PENDING_IMPORT`. -/
def CommitSucceeds (faults : Faults Problem)
    (outcome : Except String Problem) : Prop :=
  faults .checkExists = none ∧ faults .readRevision = none ∧
    faults .writeImportResult = none ∧
    (match outcome with
      | .ok _ => faults (.removeFlag ignoreFlag) = none
      | .error _ => faults (.touchFlag ignoreFlag) = none) ∧
    faults (.removeFlag pendingImportFlag) = none

/-- The step neither forges the flag nor leaves it behind: an edit that asks
for the flag comes when it is set or an import is on the way anyway, and
an import that ends before it has removed the flag is not the last one to attend
to the problem. -/
def KeepsAttended (externals : Externals Directory Problem Tree)
    (system : System Directory Problem Tree) :
    Action Directory Problem → Prop
  | .editFlags id edit _ => edit.Adds pendingImportFlag →
      ∀ dir, system.store.dir id = some dir →
        dir.Flagged readOnlyFlag ∨ dir.Flagged pendingImportFlag ∨
          system.Attended id
  | .importRead thread faults =>
      ∀ id dir, system.tasks thread = .importReading id →
        system.store.dir id = some dir → dir.Flagged pendingImportFlag →
          ReadSucceeds externals faults dir ∨
            system.AttendedBy (· ≠ thread) id
  | .importCommit thread faults =>
      ∀ id revision outcome dir,
        system.tasks thread = .importCommitting id revision outcome →
        system.store.dir id = some dir → dir.Flagged pendingImportFlag →
          CommitSucceeds faults outcome ∨ system.AttendedBy (· ≠ thread) id
  | _ => True

/-! ## The invariant -/

/-- The thread will remove the flag or post somebody who does: an import that
has already read its copy must have the stored revision. -/
def Task.Serves (id : ProblemId) (stored : Option Revision) :
    Task Directory Problem → Prop
  | .scheduling _ scheduled => id ∈ scheduled
  | .posting scheduled => id ∈ scheduled
  | .importWaiting id' => id' = id
  | .importReading id' => id' = id
  | .importConverting id' revision _ => id' = id ∧ stored = some revision
  | .importCommitting id' revision _ => id' = id ∧ stored = some revision
  | _ => False

def Store.revisionOf (store : Store Problem Tree) (id : ProblemId) :
    Option Revision :=
  (store.dir id).bind (·.revision.read)

def System.Served (system : System Directory Problem Tree)
    (id : ProblemId) : Prop :=
  id ∈ system.store.posted ∨
    ∃ thread, (system.tasks thread).Serves id (system.store.revisionOf id)

structure Tended (system : System Directory Problem Tree) : Prop where
  orderly : Orderly system
  served : ∀ id, system.store.HasFlag id pendingImportFlag →
    system.Served id

theorem Task.Serves.attends {task : Task Directory Problem} {id : ProblemId}
    {stored : Option Revision} (serves : task.Serves id stored) :
    task.Attends id := by
  cases task <;> first | exact serves | exact serves.1

theorem System.Served.attended {id : ProblemId} (served : system.Served id) :
    system.Attended id := by
  rcases served with posted | ⟨thread, serves⟩
  · exact .inl posted
  · exact .inr ⟨thread, trivial, serves.attends⟩

/-- A thread that attends to a problem serves it, unless it imports another
revision. -/
theorem Task.Attends.serves {task : Task Directory Problem} {id : ProblemId}
    {stored : Option Revision} (attends : task.Attends id)
    (current : ∀ revision, task.WorksOn id revision →
      stored = some revision) :
    task.Serves id stored := by
  cases task with
  | importConverting id' revision contents =>
      exact ⟨attends, current revision ⟨attends, rfl⟩⟩
  | importCommitting id' revision outcome =>
      exact ⟨attends, current revision ⟨attends, rfl⟩⟩
  | _ => exact attends

theorem Orderly.served {id : ProblemId} {dir : ProblemDir Problem}
    (orderly : Orderly system) (found : system.store.dir id = some dir)
    (notPending : ¬ dir.Flagged pendingImportFlag)
    (attended : system.Attended id) : system.Served id := by
  rcases attended with posted | ⟨thread, _, attends⟩
  · exact .inl posted
  · refine .inr ⟨thread, attends.serves fun revision works => ?_⟩
    rw [Store.revisionOf, found, Option.bind_some]
    exact orderly.current thread id revision works dir found notPending

/-- Somebody else than the holder of the import lock serves the problem, so
it does not matter which revision is stored. -/
theorem Exclusive.othersServe {thread : Nat} {id : ProblemId}
    (exclusive : Exclusive system.tasks system.importing)
    (holds : (system.tasks thread).HoldsImportLock) {other : Nat}
    (different : other ≠ thread)
    (attends : (system.tasks other).Attends id)
    (stored : Option Revision) :
    (system.tasks other).Serves id stored := by
  refine attends.serves fun revision works => ?_
  exact absurd (exclusive.unique holds works.holdsImportLock) different

/-- What one thread does keeps a problem served if its queued imports stay
queued, its revision stays and the thread hands on what it served. -/
theorem System.Served.step {id : ProblemId} {thread : Nat}
    {task : Task Directory Problem} {store : Store Problem Tree}
    {importing : Option Nat} (served : system.Served id)
    (posted : id ∈ system.store.posted →
      id ∈ store.posted ∨ task.Serves id (store.revisionOf id))
    (stored : store.revisionOf id = system.store.revisionOf id)
    (own : (system.tasks thread).Serves id (system.store.revisionOf id) →
      id ∈ store.posted ∨ task.Serves id (store.revisionOf id)) :
    System.Served { store, tasks := Function.update system.tasks thread task,
                    importing } id := by
  have handed : id ∈ store.posted ∨ task.Serves id (store.revisionOf id) →
      System.Served { store
                      tasks := Function.update system.tasks thread task
                      importing } id := by
    intro given
    obtain member | serves := given
    · exact .inl member
    · refine .inr ⟨thread, ?_⟩
      simpa using serves
  rcases served with member | ⟨other, serves⟩
  · exact handed (posted member)
  · by_cases same : other = thread
    · subst other
      exact handed (own serves)
    · refine .inr ⟨other, ?_⟩
      simpa [same, stored] using serves

/-! ## What the sections do to the flag -/

section Flag

variable {store : Store Problem Tree} {id other : ProblemId}
  {faults : Faults Problem} {flag : FlagName}

theorem hasFlag_congr {after : Store Problem Tree}
    (same : after.dir id = store.dir id) :
    after.HasFlag id flag ↔ store.HasFlag id flag := by
  simp [Store.HasFlag, same]

theorem revisionOf_congr {after : Store Problem Tree}
    (same : after.dir id = store.dir id) :
    after.revisionOf id = store.revisionOf id := by
  simp [Store.revisionOf, same]

structure FlagChange (id : ProblemId) (adds : Prop)
    (before after : Store Problem Tree) : Prop where
  posted : after.posted = before.posted
  revision : ∀ other, after.revisionOf other = before.revisionOf other
  pending : ∀ other, after.HasFlag other pendingImportFlag →
    before.HasFlag other pendingImportFlag ∨ (other = id ∧ adds)

theorem FlagChange.refl (id : ProblemId) (adds : Prop)
    (store : Store Problem Tree) : FlagChange id adds store store :=
  ⟨rfl, fun _ => rfl, fun _ => .inl⟩

theorem FlagChange.put {adds : Prop} {before after : Store Problem Tree}
    {dir dir' : ProblemDir Problem}
    (changed : FlagChange id adds before after)
    (found : after.dir id = some dir) (revision : dir'.revision = dir.revision)
    (pending : dir'.Flagged pendingImportFlag →
      dir.Flagged pendingImportFlag ∨ adds) :
    FlagChange id adds before (after.put id dir') where
  posted := changed.posted
  revision := by
    intro other
    rw [← changed.revision other]
    by_cases own : other = id
    · subst other
      simp [Store.revisionOf, found, revision]
    · exact revisionOf_congr (Store.dir_put_of_ne _ _ _ _ own)
  pending := by
    intro other given
    obtain ⟨dir'', found', flagged⟩ := given
    by_cases own : other = id
    · subst other
      rw [Store.dir_put_self, Option.some.injEq] at found'
      subst found'
      rcases pending flagged with before | added
      · exact changed.pending id ⟨dir, found, before⟩
      · exact .inr ⟨rfl, added⟩
    · rw [Store.dir_put_of_ne _ _ _ _ own] at found'
      exact changed.pending other ⟨dir'', found', flagged⟩

theorem FlagChange.update {adds : Prop} {before after : Store Problem Tree}
    {change : ProblemDir Problem → ProblemDir Problem}
    (changed : FlagChange id adds before after)
    (revision : ∀ dir, (change dir).revision = dir.revision)
    (pending : ∀ dir, (change dir).Flagged pendingImportFlag →
      dir.Flagged pendingImportFlag ∨ adds) :
    FlagChange id adds before (after.update id change) := by
  cases found : after.dir id with
  | none => simpa [Store.update, found] using changed
  | some dir =>
      rw [Store.update_of_dir _ found]
      exact changed.put found (revision dir) (pending dir)

theorem editFlags_change (faults : Faults Problem) (id : ProblemId)
    (edit : FlagEdit) (store : Store Problem Tree) :
    FlagChange id (edit.Adds pendingImportFlag) store
      (after (editFlags faults id edit) store) := by
  refine after_keeps (FlagChange id (edit.Adds pendingImportFlag) store)
    (editFlags_keeps ?_ ?_) (.refl ..)
  · intro flag state adds changed
    refine changed.update (fun _ => rfl) fun dir flagged => ?_
    rw [ProblemDir.flagged_addFlag] at flagged
    rcases flagged with before | ⟨same, _⟩
    · exact .inl before
    · exact .inr (same ▸ adds)
  · intro flag state _ changed
    refine changed.update (fun _ => rfl) fun dir flagged => ?_
    rw [ProblemDir.flagged_removeFlag] at flagged
    exact .inl flagged.1

theorem editFlags_missing {edit : FlagEdit}
    (missing : store.dir id = none) :
    (after (editFlags faults id edit) store).dir id = none := by
  have kept : ∀ (change : ProblemDir Problem → ProblemDir Problem)
      (state : Store Problem Tree), state.dir id = none →
        (state.update id change).dir id = none := by
    intro change state absent
    rw [Store.dir_update_self, absent]
    rfl
  exact after_keeps (·.dir id = none)
    (editFlags_keeps (fun _ state _ => kept _ state)
      (fun _ state _ => kept _ state)) missing

theorem prepareImport_change (faults : Faults Problem) (id : ProblemId)
    (store : Store Problem Tree) :
    FlagChange id True store (after (prepareImport faults id) store) := by
  refine after_keeps (FlagChange id True store)
    (prepareImport_keeps fun state changed => ?_) (.refl ..)
  exact changed.update (fun _ => rfl) fun _ _ => .inr trivial

/-- Setting a flag changes nothing if it fails without a fault. -/
theorem setFlag_refused (store : Store Problem Tree) :
    Ensures (setFlag_ noFaults id flag) store
      (fun _ _ => True) (fun _ final => final = store) := by
  simp only [setFlag_, ensures_fallible, noFaults_apply, ensures_bind,
    ensures_openDir]
  cases store.dir id with
  | none => trivial
  | some dir =>
      by_cases refused : dir.flags.isNone || isDirectoryName flag
      · simp only [if_pos refused]
        rfl
      · simp only [if_neg refused]
        trivial

theorem prepareImport_failed {final : Store Problem Tree}
    {exception : Exception}
    (run : prepareImport noFaults id store = .error exception final) :
    final = store := by
  have contract : Ensures (prepareImport noFaults id) store
      (fun _ _ => True) (fun _ final => final = store) := by
    rw [prepareImport, ensures_bind, ensures_validateId]
    by_cases allowed : isAllowedId id
    · rw [if_pos allowed, ensures_bind, ensures_existsProblem allowed]
      simp only [noFaults_apply]
      cases (store.dir id).isSome with
      | false => trivial
      | true =>
          simp only [if_true, ensures_bind]
          exact (setFlag_refused store).mono (fun _ _ _ => trivial)
            (fun _ _ same => same)
    · rw [if_neg allowed]
  exact contract.of_error run

/-- The first section of import changes no flags and posts nothing. -/
theorem importReadLocked_change
    (externals : Externals Directory Problem Tree) (faults : Faults Problem)
    (id : ProblemId) (store : Store Problem Tree) :
    (after (importReadLocked externals faults id) store).posted =
        store.posted ∧
      ∀ other flag,
        (after (importReadLocked externals faults id) store).HasFlag other
          flag → store.HasFlag other flag := by
  refine after_keeps (fun state => state.posted = store.posted ∧
    ∀ other flag, state.HasFlag other flag → store.HasFlag other flag)
    (importReadLocked_keeps ?_) ⟨rfl, fun _ _ => fun set => set⟩
  intro state dir slot found given
  obtain ⟨posted, kept⟩ := given
  refine ⟨posted, ?_⟩
  intro other flag given
  obtain ⟨dir', found', flagged⟩ := given
  by_cases own : other = id
  · subst other
    rw [Store.dir_put_self, Option.some.injEq] at found'
    subst found'
    exact kept id flag ⟨dir, found, flagged⟩
  · rw [Store.dir_put_of_ne _ _ _ _ own] at found'
    exact kept other flag ⟨dir', found', flagged⟩

theorem importRevision_succeeds {dir : ProblemDir Problem}
    (found : store.dir id = some dir)
    (succeeds : (faults .readRevision = none ∧ dir.revision.read.isSome) ∨
      (faults .readData = none ∧ dir.data.isSome ∧
        faults .writeRevision = none)) :
    Ensures (importRevision_ externals faults id) store
      (fun _ final => ∃ slot,
        final.dir id = some { dir with revision := slot })
      (fun _ _ => False) := by
  rw [importRevision_, ensures_tryCatch, ensures_readRevision found]
  rcases succeeds with ⟨readable, stored⟩ | ⟨data, present, written⟩
  · rw [Option.isSome_iff_exists] at stored
    obtain ⟨revision, stored⟩ := stored
    simp only [readable, stored]
    exact ⟨dir.revision, found⟩
  · rw [Option.isSome_iff_exists] at present
    obtain ⟨archive, present⟩ := present
    have regenerated : Ensures (computeHashRevision externals faults id >>=
          fun revision => writeRevision_ faults id revision >>= fun _ =>
            pure revision) store
        (fun _ final => ∃ slot,
          final.dir id = some { dir with revision := slot })
        (fun _ _ => False) := by
      rw [ensures_bind, ensures_computeHashRevision found]
      simp only [data, present]
      rw [ensures_bind, ensures_writeRevision found]
      simp only [written]
      exact ⟨.value (hashRevision externals archive), by simp [present]⟩
    cases faults .readRevision with
    | some residue => exact regenerated
    | none =>
        cases stored : dir.revision.read with
        | none => exact regenerated
        | some revision => exact ⟨dir.revision, found⟩

theorem importReadLocked_succeeds {dir : ProblemDir Problem}
    (allowed : isAllowedId id) (found : store.dir id = some dir)
    (succeeds : ReadSucceeds externals faults dir) :
    Ensures (importReadLocked externals faults id) store
      (fun _ _ => True) (fun _ _ => False) := by
  obtain ⟨checked, revision, unpacks, contents⟩ := succeeds
  rw [importReadLocked, ensures_bind, ensures_existsProblem allowed]
  simp only [checked, found, Option.isSome_some, if_true, ensures_bind]
  refine (importRevision_succeeds found revision).mono ?_
    (fun _ _ impossible => impossible)
  intro _ middle given
  obtain ⟨slot, foundMiddle⟩ := given
  rw [Option.isSome_iff_exists] at contents
  obtain ⟨unpacked, contents⟩ := contents
  simp only [download_, ensures_fallible, unpacks, ensures_bind,
    ensures_openDir, foundMiddle, contents, ensures_pure]

theorem markIgnored_succeeds {dir : ProblemDir Problem}
    {outcome : Except String Problem} {names : List FlagName}
    (found : store.dir id = some dir) (directory : dir.flags = some names)
    (succeeds : match outcome with
      | .ok _ => faults (.removeFlag ignoreFlag) = none
      | .error _ => faults (.touchFlag ignoreFlag) = none) :
    Ensures (markIgnored_ faults id outcome) store
      (fun _ final => ∃ dir' names', final.dir id = some dir' ∧
        dir'.flags = some names')
      (fun _ _ => False) := by
  cases outcome with
  | ok problem =>
      rw [markIgnored_, ensures_unsetFlag found directory
        (isDirectoryName_reserved _)]
      simp only [succeeds]
      refine ⟨_, names.filter (· != ignoreFlag), Store.dir_put_self .., ?_⟩
      simp [ProblemDir.removeFlag, directory]
  | error reason =>
      rw [markIgnored_, ensures_setFlag found directory
        (isDirectoryName_reserved _)]
      simp only [succeeds]
      refine ⟨_, names.insert ignoreFlag, Store.dir_put_self .., ?_⟩
      simp [ProblemDir.addFlag, directory]

theorem commitImport_succeeds {dir : ProblemDir Problem}
    {outcome : Except String Problem} (found : store.dir id = some dir)
    (listable : dir.Listable) (succeeds : CommitSucceeds faults outcome) :
    Ensures (commitImport_ faults id outcome) store
      (fun _ _ => True) (fun _ _ => False) := by
  obtain ⟨_, _, written, marked, removed⟩ := succeeds
  obtain ⟨names, directory, _⟩ := listable
  rw [commitImport_, ensures_bind, ensures_writeImportResult found]
  simp only [written, ensures_bind, updateArchiveRevision_, ensures_modify]
  let dirAfter : ProblemDir Problem :=
    { dir with importResult := .value (importResultOf outcome) }
  have foundAfter :
      (store.put id dirAfter).renew.dir id = some dirAfter := by simp
  refine (markIgnored_succeeds foundAfter directory marked).mono ?_
    (fun _ _ impossible => impossible)
  intro _ middle given
  obtain ⟨dir', names', found', directory'⟩ := given
  rw [ensures_unsetFlag found' directory' (isDirectoryName_reserved _)]
  simp only [removed]

theorem importCommitLocked_clears {dir : ProblemDir Problem}
    {revision : Revision} {outcome : Except String Problem}
    (allowed : isAllowedId id) (found : store.dir id = some dir)
    (listable : dir.Listable) (current : dir.revision.read = some revision)
    (succeeds : CommitSucceeds faults outcome) :
    ¬ (after (importCommitLocked faults id revision outcome) store).HasFlag id
      pendingImportFlag := by
  apply after_of_ensures (¬ ·.HasFlag id pendingImportFlag)
  rw [importCommitLocked, ensures_bind, ensures_existsProblem allowed]
  simp only [succeeds.1, found, Option.isSome_some, if_true]
  rw [ensures_bind, ensures_readRevision found]
  simp only [succeeds.2.1, current, ne_eq, not_true_eq_false, if_false]
  rw [ensures_bind]
  apply ((commitImport_ensures found).and
    (commitImport_succeeds found listable succeeds)).mono
  · intro _ middle given
    obtain ⟨⟨_, cleared⟩, _⟩ := given
    have unflagged : ¬ middle.HasFlag id pendingImportFlag := by
      intro given
      obtain ⟨after, foundAfter, flagged⟩ := given
      exact cleared after foundAfter flagged
    apply ((importAnswer_pristine id revision
      outcome).ensures middle).mono
    · intro _ _ given
      subst given
      exact unflagged
    · intro _ _ given
      subst given
      exact unflagged
  · intro _ _ given
    obtain ⟨_, impossible⟩ := given
    exact impossible.elim

/-- The last section of import posts nothing and sets no `PENDING_IMPORT`;
it keeps the revision. -/
theorem importCommitLocked_change (faults : Faults Problem)
    (id : ProblemId) (revision : Revision) (outcome : Except String Problem)
    (store : Store Problem Tree) :
    FlagChange id False store
      (after (importCommitLocked faults id revision outcome) store) := by
  refine after_keeps (FlagChange id False store)
    (importCommitLocked_keeps ?_ ?_) (.refl ..)
  · intro state dir slot found changed
    exact changed.put found rfl .inl
  · intro state dir after found committed changed
    have put := changed.put found committed.revision fun flagged =>
      .inl (committed.pending flagged)
    exact ⟨put.posted, put.revision, put.pending⟩

end Flag

/-! ## Every step keeps pending imports served -/

theorem uploadLocked_served {thread : Nat} {id other : ProblemId}
    {location : Directory} (tended : Tended system)
    (task : system.tasks thread = .uploading id location)
    (pending : (after (uploadLocked externals noFaults id location)
      system.store).HasFlag other pendingImportFlag) :
    System.Served
      { system.goOn thread .idle with
        store := after (uploadLocked externals noFaults id location)
          system.store } other := by
  rcases uploadLocked_cases externals id location
    tended.orderly.wellFormed with same | ⟨_, _, same⟩
  · rw [same] at pending ⊢
    refine (tended.served other pending).step .inl rfl fun serves => ?_
    rw [task] at serves
    exact serves.elim
  · rw [same] at pending ⊢
    by_cases own : other = id
    · subst other
      exact .inl (List.mem_append_right _ List.mem_cons_self)
    · have unchanged : ((system.store.put id (.uploaded externals location
          (system.store.dir id))).post id).dir other =
            system.store.dir other := Store.dir_put_of_ne _ _ _ _ own
      rw [hasFlag_congr unchanged] at pending
      refine (tended.served other pending).step
        (fun member => .inl (List.mem_append_left _ member))
        (revisionOf_congr unchanged) fun serves => ?_
      rw [task] at serves
      exact serves.elim

theorem editFlags_served {id other : ProblemId} {edit : FlagEdit}
    {faults : Faults Problem} (tended : Tended system)
    (keeps : KeepsAttended externals system (.editFlags id edit faults))
    (pending : (after (editFlags faults id edit) system.store).HasFlag other
      pendingImportFlag) :
    System.Served
      { system with store := after (editFlags faults id edit) system.store }
        other := by
  have change := editFlags_change faults id edit system.store
  have before : system.Served other := by
    rcases change.pending other pending with set | ⟨rfl, adds⟩
    · exact tended.served other set
    · cases found : system.store.dir other with
      | none =>
          obtain ⟨dir, impossible, _⟩ := pending
          rw [editFlags_missing found] at impossible
          cases impossible
      | some dir =>
          by_cases set : dir.Flagged pendingImportFlag
          · exact tended.served other ⟨dir, found, set⟩
          · rcases keeps adds dir found with readOnly | pending | attended
            · have same : after (editFlags faults other edit) system.store =
                  system.store := after_of_ensures (· = system.store)
                    (editFlags_readOnly found readOnly)
              rw [same] at pending
              exact absurd (pending.flagged found) set
            · exact absurd pending set
            · exact tended.orderly.served found set attended
  rcases before with posted | ⟨thread, serves⟩
  · exact .inl (by rwa [change.posted])
  · exact .inr ⟨thread, by rwa [change.revision]⟩

theorem prepared_served {thread : Nat} {id other : ProblemId}
    {rest scheduled : List ProblemId} {faults : Faults Problem}
    (tended : Tended system)
    (task : system.tasks thread = .scheduling (id :: rest) scheduled)
    (pending : (after (prepareImport faults id) system.store).HasFlag other
      pendingImportFlag) :
    System.Served
      { system.goOn thread (.scheduling rest (scheduled.insert id)) with
        store := after (prepareImport faults id) system.store } other := by
  have change := prepareImport_change faults id system.store
  rcases change.pending other pending with set | ⟨rfl, _⟩
  · refine (tended.served other set).step
      (fun member => .inl (by rwa [change.posted])) (change.revision other)
      fun serves => .inr ?_
    rw [task] at serves
    exact List.mem_insert_of_mem serves
  · refine .inr ⟨thread, ?_⟩
    rw [System.goOn_tasks, if_pos rfl]
    exact List.mem_insert_self

/-- Whoever else attends to the problem goes on serving it when the holder of
the import lock leaves `import`. -/
theorem AttendedBy.served {thread : Nat} {id : ProblemId}
    {store : Store Problem Tree}
    (exclusive : Exclusive system.tasks system.importing)
    (holds : (system.tasks thread).HoldsImportLock)
    (posted : store.posted = system.store.posted)
    (attended : system.AttendedBy (· ≠ thread) id) :
    System.Served { system.endImport thread with store } id := by
  rcases attended with member | ⟨other, different, attends⟩
  · exact .inl (by rwa [posted])
  · refine .inr ⟨other, ?_⟩
    have serves := exclusive.othersServe holds different attends
      (store.revisionOf id)
    have unchanged : ({ system.endImport thread with store } :
        System Directory Problem Tree).tasks other = system.tasks other :=
      Function.update_of_ne different _ _
    rw [unchanged]
    exact serves

theorem Tended.othersAttend {thread : Nat} {id other : ProblemId}
    (tended : Tended system)
    (own : ∀ stored, (system.tasks thread).Serves other stored → other = id)
    (different : other ≠ id)
    (set : system.store.HasFlag other pendingImportFlag) :
    system.AttendedBy (· ≠ thread) other := by
  rcases tended.served other set with posted | ⟨worker, serves⟩
  · exact .inl posted
  · refine .inr ⟨worker, ?_, serves.attends⟩
    intro given
    subst given
    exact different (own _ serves)

theorem importReadFailed_served {thread : Nat} {id other : ProblemId}
    {faults : Faults Problem} {exception : Exception}
    {store : Store Problem Tree} (tended : Tended system)
    (task : system.tasks thread = .importReading id)
    (run : importReadLocked externals faults id system.store =
      .error exception store)
    (keeps : KeepsAttended externals system (.importRead thread faults))
    (pending : store.HasFlag other pendingImportFlag) :
    System.Served { system.endImport thread with store } other := by
  have change := importReadLocked_change externals faults id system.store
  rw [after_error run] at change
  have set := change.2 other _ pending
  have holds : (system.tasks thread).HoldsImportLock := by
    rw [task]
    trivial
  apply AttendedBy.served tended.orderly.exclusive holds change.1
  by_cases own : other = id
  · subst other
    obtain ⟨dir, found, flagged⟩ := set
    rcases keeps id dir task found flagged with succeeds | attended
    · have allowed := (tended.orderly.wellFormed id dir found).1
      exact ((importReadLocked_succeeds allowed found
        succeeds).of_error run).elim
    · exact attended
  · refine tended.othersAttend (fun stored serves => ?_) own set
    rw [task] at serves
    exact serves.symm

theorem importCommit_served {thread : Nat} {id other : ProblemId}
    {faults : Faults Problem} {revision : Revision}
    {outcome : Except String Problem} (tended : Tended system)
    (task : system.tasks thread = .importCommitting id revision outcome)
    (keeps : KeepsAttended externals system (.importCommit thread faults))
    (pending : (after (importCommitLocked faults id revision outcome)
      system.store).HasFlag other pendingImportFlag) :
    System.Served
      { system.endImport thread with
        store := after (importCommitLocked faults id revision outcome)
          system.store } other := by
  have change := importCommitLocked_change faults id revision outcome
    system.store
  have set : system.store.HasFlag other pendingImportFlag :=
    (change.pending other pending).resolve_right (by simp)
  have holds : (system.tasks thread).HoldsImportLock := by
    rw [task]
    trivial
  apply AttendedBy.served tended.orderly.exclusive holds change.posted
  by_cases own : other = id
  · subst other
    rcases tended.served id set with posted | ⟨worker, serves⟩
    · exact .inl posted
    · by_cases self : worker = thread
      · subst worker
        obtain ⟨dir, found, flagged⟩ := set
        rw [task, Store.revisionOf, found] at serves
        rcases keeps id revision outcome dir task found flagged with
          succeeds | attended
        · have wellFormed := tended.orderly.wellFormed id dir found
          exact absurd pending (importCommitLocked_clears wellFormed.1 found
            wellFormed.2 serves.2 succeeds)
        · exact attended
      · exact .inr ⟨worker, self, serves.attends⟩
  · refine tended.othersAttend (fun stored serves => ?_) own set
    rw [task] at serves
    exact serves.1.symm

theorem importRead_served {thread : Nat} {id other : ProblemId}
    {faults : Faults Problem} {revision : Revision} {contents : Directory}
    {store : Store Problem Tree} (tended : Tended system)
    (task : system.tasks thread = .importReading id)
    (run : importReadLocked externals faults id system.store =
      .ok (some (revision, contents)) store)
    (pending : store.HasFlag other pendingImportFlag) :
    System.Served
      { system.goOn thread (.importConverting id revision contents) with
        store } other := by
  have change := importReadLocked_change externals faults id system.store
  rw [after_ok run] at change
  have set := change.2 other _ pending
  have holds : (system.tasks thread).HoldsImportLock := by
    rw [task]
    trivial
  by_cases own : other = id
  · subst other
    refine .inr ⟨thread, ?_⟩
    rw [System.goOn_tasks, if_pos rfl]
    refine ⟨rfl, ?_⟩
    cases found : system.store.dir id with
    | none =>
        have missing := (importReadLocked_missing found).of_ok run
        cases missing.1
    | some dir =>
        obtain ⟨revision', _, _, same, known, _⟩ :=
          (importReadLocked_ensures found).of_ok run
        simp only [Option.some.injEq, Prod.mk.injEq] at same
        obtain ⟨rfl, _⟩ := same
        obtain ⟨slot, stored, foundAfter⟩ := known.dir found
        simpa [Store.revisionOf, foundAfter] using stored
  · have attended : system.AttendedBy (· ≠ thread) other := by
      refine tended.othersAttend (fun stored serves => ?_) own set
      rw [task] at serves
      exact serves.symm
    rcases attended with member | ⟨worker, different, attends⟩
    · exact .inl (by rwa [change.1])
    · refine .inr ⟨worker, ?_⟩
      rw [System.goOn_tasks, if_neg different]
      exact tended.orderly.exclusive.othersServe holds different attends _

theorem runPosted_served {thread index : Nat} {id other : ProblemId}
    (tended : Tended system) (task : system.tasks thread = .idle)
    (posted : system.store.posted[index]? = some id)
    (set : system.store.HasFlag other pendingImportFlag) :
    System.Served
      { system.goOn thread (.importWaiting id) with
        store := { system.store with
          posted := system.store.posted.eraseIdx index } } other := by
  refine (tended.served other set).step (fun member => ?_) rfl
    fun serves => ?_
  · by_cases own : id = other
    · exact .inr own
    · refine .inl ?_
      rw [List.mem_eraseIdx_iff_getElem?]
      obtain ⟨position, found⟩ := List.mem_iff_getElem?.mp member
      refine ⟨position, ?_, found⟩
      intro given
      subst given
      rw [posted, Option.some.injEq] at found
      exact own found
  · rw [task] at serves
    exact serves.elim

theorem step_served {action : Action Directory Problem}
    (onlyImports : action.OnlyImportsFail)
    (keeps : KeepsAttended externals system action)
    (taken : step externals system action = some next)
    (tended : Tended system) {id : ProblemId}
    (pending : next.store.HasFlag id pendingImportFlag) :
    next.Served id := by
  have served := tended.served id
  cases step_transition taken with
  | uploadPassed task =>
      exact (served pending).step .inl rfl (by simp [task, Task.Serves])
  | uploadRefused => exact served pending
  | @uploadLocked _ faults _ _ task =>
      obtain rfl : faults = noFaults := onlyImports
      exact uploadLocked_served tended task pending
  | editFlags => exact editFlags_served tended keeps pending
  | schedule task =>
      exact (served pending).step .inl rfl (by simp [task, Task.Serves])
  | preparedAll task =>
      refine (served pending).step .inl rfl fun serves => .inr ?_
      rwa [task] at serves
  | prepared task run =>
      rw [← after_ok run] at pending ⊢
      exact prepared_served tended task pending
  | prepareMissing task =>
      refine (served pending).step .inl rfl fun serves => .inr ?_
      rwa [task] at serves
  | @prepareFailed _ faults _ _ _ _ _ task run =>
      obtain rfl : faults = noFaults := onlyImports
      obtain rfl := prepareImport_failed run
      refine (served pending).step .inl rfl fun serves => .inr ?_
      rwa [task] at serves
  | postedAll task =>
      exact (served pending).step .inl rfl (by simp [task, Task.Serves])
  | @posted thread posted rest task =>
      refine (served pending).step
        (fun member => .inl (List.mem_append_left _ member)) rfl
        fun serves => ?_
      rw [task] at serves
      rcases List.mem_cons.mp serves with rfl | member
      · exact .inl (List.mem_append_right _ List.mem_cons_self)
      · exact .inr member
  | callImport task _ =>
      exact (served pending).step .inl rfl (by simp [task, Task.Serves])
  | callImportRefused => exact served pending
  | runPosted task posted => exact runPosted_served tended task posted pending
  | lockImports task _ =>
      refine (served pending).step .inl rfl fun serves => .inr ?_
      rwa [task] at serves
  | importRead task run => exact importRead_served tended task run pending
  | @importMissing _ _ id' task missing =>
      refine (served pending).step .inl rfl fun serves => ?_
      rw [task] at serves
      obtain rfl : id' = id := serves
      obtain ⟨dir, found, _⟩ := pending
      have impossible := missing.symm.trans found
      cases impossible
  | importReadFailed task run =>
      exact importReadFailed_served tended task run keeps pending
  | importConvert task =>
      refine (served pending).step .inl rfl fun serves => .inr ?_
      rwa [task] at serves
  | importCommit task => exact importCommit_served tended task keeps pending

theorem Action.OnlyImportsFail.uploadsSucceed
    {action : Action Directory Problem}
    (onlyImports : action.OnlyImportsFail) : action.UploadsSucceed := by
  cases action <;> first | exact onlyImports | trivial

/-- In every run in which each step keeps to the condition, a pending import
is attended in every state reached. -/
theorem pending_attended (externals : Externals Directory Problem Tree)
    (system : System Directory Problem Tree)
    (run : Runs (step externals)
      (fun system action => action.Named ∧ action.OnlyImportsFail ∧
        KeepsAttended externals system action) .initial system)
    (id : ProblemId)
    (pending : system.store.HasFlag id pendingImportFlag) :
    system.Attended id := by
  have tended : Tended system := by
    refine run.invariant
      { orderly := initial_orderly
        served := fun _ impossible => by
          obtain ⟨_, found, _⟩ := impossible
          simp [System.initial, Store.dir] at found } ?_
    intro before action after tended permitted taken
    obtain ⟨_, onlyImports, keeps⟩ := permitted
    exact
      { orderly := step_orderly onlyImports.uploadsSucceed taken
          tended.orderly
        served := fun _ pending =>
          step_served onlyImports keeps taken tended pending }
  exact (tended.served id pending).attended

theorem pending_attended_sample :
    (Sample.reach (Sample.importRun.take 2)).Attended "p" := by
  have named : ∀ action ∈ Sample.importRun.take 2, action.Named := by decide
  have run : Runs (step Sample.configuration)
      (fun system action => action.Named ∧ action.OnlyImportsFail ∧
        KeepsAttended Sample.configuration system action) .initial
      (Sample.reach (Sample.importRun.take 2)) := by
    apply Sample.reach_run rfl
    intro state action member
    refine ⟨named action member, ?_⟩
    revert action
    simp [Sample.importRun, Action.OnlyImportsFail, KeepsAttended]
  have stored : (Sample.reach (Sample.importRun.take 2)).store.dir "p" = some
      { data := some [1]
        revision := .value (hashRevision Sample.configuration [1])
        importResult := .absent
        flags := some [pendingImportFlag] } := by decide
  exact pending_attended Sample.configuration _ run "p"
    ⟨_, stored, by decide⟩

/-- After an import a client sets the flag again through `set_flags`. -/
def Sample.forgery : List (Action Bool Bool) :=
  Sample.importRun ++
    [.editFlags "p" (.setFlags [.reserved .pendingImport]) noFaults]

theorem pending_unattended : ¬ ∀ system : System Bool Bool Bool,
    Runs (step Sample.configuration)
      (fun _ action => action.Named ∧ action.OnlyImportsFail)
      .initial system →
    ∀ id, system.store.HasFlag id pendingImportFlag →
      system.Attended id := by
  intro attended
  have named : ∀ action ∈ Sample.forgery, action.Named := by decide
  have run : Runs (step Sample.configuration)
      (fun _ action => action.Named ∧ action.OnlyImportsFail) .initial
      (Sample.reach Sample.forgery) := by
    apply Sample.reach_run rfl
    intro state action member
    refine ⟨named action member, ?_⟩
    revert action
    simp [Sample.forgery, Sample.importRun, Action.OnlyImportsFail]
  have stored : (Sample.reach Sample.forgery).store.dir "p" = some
      { data := some [1]
        revision := .value (hashRevision Sample.configuration [1])
        importResult := .value (.problem true)
        flags := some [pendingImportFlag] } := by decide
  have posted : (Sample.reach Sample.forgery).store.posted = [] := rfl
  have idle : ∀ thread,
      (Sample.reach Sample.forgery).tasks thread = .idle := by
    intro thread
    match thread with
    | 0 => rfl
    | 1 => rfl
    | thread + 2 => rfl
  rcases attended _ run "p" ⟨_, stored, by decide⟩ with
    member | ⟨thread, _, attends⟩
  · rw [posted] at member
    cases member
  · rw [idle thread] at attends
    exact attends

end Bacs.Archive
