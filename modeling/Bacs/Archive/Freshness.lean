import Bacs.Archive.ImportLock

/-!
# Import results are fresh

An import reads the archive in one section and commits in another, and writes
the published package in between.  The stored result is nevertheless always
that of the stored archive, an outdated import changes nothing, and when
nothing is pending the published package belongs to the stored result.

A write that fails may break this: the result is written over the old one,
and a file that is cut off, even an empty one, can be a message.
-/

namespace Bacs.Archive

open Foundation

variable {Directory Problem Tree : Type}
variable {externals : Externals Directory Problem Tree}
variable {system next : System Directory Problem Tree}

/-- The outcome of converting exactly this archive. -/
def ConvertedFrom (externals : Externals Directory Problem Tree)
    (id : ProblemId) (archive : Bytes)
    (converted : Except String Problem × Option Tree) : Prop :=
  ∃ seed contents before, externals.unpack archive = some contents ∧
    importConvert externals seed id (hashRevision externals archive)
      contents before = converted

/-- Uploads succeed, and an import that fails to write a file leaves nothing
that can be read as something else. -/
def LeavesNoWreck (externals : Externals Directory Problem Tree)
    (system : System Directory Problem Tree) :
    Action Directory Problem → Prop
  | .uploadLocked _ faults => faults = noFaults
  | .importRead thread faults => ∀ id dir archive residue revision,
      system.tasks thread = .importReading id →
      system.store.dir id = some dir → dir.data = some archive →
      faults .writeRevision = some residue →
      residue.revision.read = some revision →
        revision = hashRevision externals archive
  | .importCommit thread faults => ∀ id revision outcome residue result,
      system.tasks thread = .importCommitting id revision outcome →
      faults .writeImportResult = some residue →
      residue.importResult.read = some result →
        result = importResultOf outcome
  | _ => True

/-- The stored revision and result belong to the stored archive. -/
structure Fresh (externals : Externals Directory Problem Tree)
    (id : ProblemId) (dir : ProblemDir Problem) : Prop where
  archive : ∃ location, dir.data = some (externals.pack location)
  revision : ∀ archive revision, dir.data = some archive →
    dir.revision.read = some revision →
      revision = hashRevision externals archive
  result : ∀ archive result, dir.data = some archive →
    dir.importResult.read = some result →
      ∃ outcome tree, result = importResultOf outcome ∧
        ConvertedFrom externals id archive (outcome, tree)

/-- A running import works on an archive that was uploaded once. -/
def Task.Genuine (externals : Externals Directory Problem Tree) :
    Task Directory Problem → Prop
  | .importConverting _ revision contents => ∃ location,
      revision = hashRevision externals (externals.pack location) ∧
      externals.unpack (externals.pack location) = some contents
  | .importCommitting id revision outcome => ∃ location tree,
      revision = hashRevision externals (externals.pack location) ∧
      ConvertedFrom externals id (externals.pack location) (outcome, tree)
  | _ => True

structure Consistent (externals : Externals Directory Problem Tree)
    (system : System Directory Problem Tree) : Prop where
  wellFormed : system.store.All WellFormed
  stored : system.store.All (Fresh externals)
  tasks : ∀ thread, (system.tasks thread).Genuine externals

/-! ## What keeps a problem fresh -/

theorem Fresh.changeFlags {id : ProblemId} {dir : ProblemDir Problem}
    (fresh : Fresh externals id dir) (flags : Option (List FlagName)) :
    Fresh externals id { dir with flags } :=
  ⟨fresh.archive, fresh.revision, fresh.result⟩

theorem Fresh.uploaded (id : ProblemId) (location : Directory)
    (before : Option (ProblemDir Problem)) :
    Fresh externals id (.uploaded externals location before) where
  archive := ⟨location, rfl⟩
  revision := by
    intro archive revision data read
    cases data
    cases read
    rfl
  result := by
    intro _ _ _ read
    cases read

theorem Fresh.rewriteRevision {id : ProblemId} {dir : ProblemDir Problem}
    {slot : Slot Revision} (fresh : Fresh externals id dir)
    (genuine : ∀ archive revision, dir.data = some archive →
      slot.read = some revision → revision = hashRevision externals archive) :
    Fresh externals id { dir with revision := slot } :=
  ⟨fresh.archive, genuine, fresh.result⟩

theorem Fresh.known {store final : Store Problem Tree} {id : ProblemId}
    {dir : ProblemDir Problem} {revision : Revision}
    (known : RevisionKnown externals store id dir revision final)
    (found : store.dir id = some dir) (fresh : store.All (Fresh externals)) :
    final.All (Fresh externals) := by
  rcases known with ⟨_, rfl⟩ | ⟨archive, data, rfl, rfl⟩
  · exact fresh
  · refine fresh.put ((fresh id dir found).rewriteRevision ?_)
    intro archive' revision data' read
    rw [data, Option.some.injEq] at data'
    cases read
    rw [data']

theorem importReadLocked_fresh {store : Store Problem Tree} {id : ProblemId}
    {faults : Faults Problem}
    (torn : ∀ dir archive residue revision, store.dir id = some dir →
      dir.data = some archive → faults .writeRevision = some residue →
      residue.revision.read = some revision →
        revision = hashRevision externals archive)
    (fresh : store.All (Fresh externals)) :
    (after (importReadLocked externals faults id) store).All
      (Fresh externals) := by
  apply after_of_ensures (·.All (Fresh externals))
  cases found : store.dir id with
  | none =>
      apply (importReadLocked_missing found).mono
      · intro _ _ given
        obtain ⟨_, rfl⟩ := given
        exact fresh
      · intro _ _ given
        subst given
        exact fresh
  | some dir =>
      apply (importReadLocked_ensures found).mono
      · intro _ final given
        obtain ⟨revision, _, _, _, known, _⟩ := given
        exact Fresh.known known found fresh
      · intro _ final given
        obtain rfl | ⟨residue, fault, rfl⟩ | ⟨revision, known⟩ := given
        · exact fresh
        · refine fresh.put ((fresh id dir found).rewriteRevision ?_)
          intro archive revision data read
          exact torn dir archive residue revision found data fault read
        · exact Fresh.known known found fresh

/-- An import of the current revision works on the stored archive, because
archives with the same revision are the same. -/
theorem Fresh.current {id : ProblemId} {dir : ProblemDir Problem}
    {location : Directory}
    (distinct : Set.InjOn (hashRevision externals)
      (Set.range externals.pack))
    (fresh : Fresh externals id dir)
    (current : dir.revision.read =
      some (hashRevision externals (externals.pack location))) :
    dir.data = some (externals.pack location) := by
  obtain ⟨location', stored⟩ := fresh.archive
  have sameRevision := fresh.revision _ _ stored current
  have same : externals.pack location = externals.pack location' :=
    distinct ⟨location, rfl⟩ ⟨location', rfl⟩ sameRevision
  rw [stored, same]

theorem Fresh.committed {id : ProblemId} {dir after : ProblemDir Problem}
    {location : Directory} {outcome : Except String Problem}
    {tree : Option Tree}
    (fresh : Fresh externals id dir)
    (stored : dir.data = some (externals.pack location))
    (converted : ConvertedFrom externals id (externals.pack location)
      (outcome, tree))
    (committed : dir.Committed outcome after) :
    Fresh externals id after := by
  refine ⟨⟨location, committed.data.trans stored⟩, ?_, ?_⟩
  · intro archive revision data read
    rw [committed.data] at data
    rw [committed.revision] at read
    exact fresh.revision archive revision data read
  · intro archive result data read
    rw [committed.data, stored, Option.some.injEq] at data
    rw [committed.importResult] at read
    subst data
    cases read
    exact ⟨outcome, tree, rfl, converted⟩

theorem importCommitLocked_fresh {store : Store Problem Tree}
    {id : ProblemId} {revision : Revision} {faults : Faults Problem}
    {outcome : Except String Problem}
    (distinct : Set.InjOn (hashRevision externals)
      (Set.range externals.pack))
    (torn : ∀ residue result, faults .writeImportResult = some residue →
      residue.importResult.read = some result →
        result = importResultOf outcome)
    (fresh : store.All (Fresh externals))
    (genuine : (Task.importCommitting id revision outcome :
      Task Directory Problem).Genuine externals) :
    (after (importCommitLocked faults id revision outcome) store).All
      (Fresh externals) := by
  obtain ⟨location, tree, rfl, converted⟩ := genuine
  apply after_of_ensures (·.All (Fresh externals))
  cases found : store.dir id with
  | none =>
      apply (importCommitLocked_missing found).mono
      · intro _ _ given
        subst given
        exact fresh
      · intro _ _ given
        subst given
        exact fresh
  | some dir =>
      have own := fresh id dir found
      have done : ∀ final, dir.revision.read =
            some (hashRevision externals (externals.pack location)) →
          CommitDone store id dir outcome final →
            final.All (Fresh externals) := by
        intro _ current given
        obtain ⟨after, committed, rfl⟩ := given
        have freshAfter := own.committed (own.current distinct current)
          converted committed
        exact fresh.put freshAfter
      apply (importCommitLocked_ensures found).mono
      · intro _ final given
        obtain ⟨_, rfl⟩ | ⟨current, same, _⟩ := given
        · exact fresh
        · exact done final current same
      · intro _ final given
        obtain rfl | ⟨current, ⟨residue, fault, rfl⟩ | same⟩ := given
        · exact fresh
        · refine fresh.put ⟨own.archive, own.revision, ?_⟩
          intro archive result data read
          rw [own.current distinct current, Option.some.injEq] at data
          subst data
          exact ⟨outcome, tree, torn residue result fault read, converted⟩
        · exact done final current same

/-! ## Every step keeps the problems fresh -/

theorem LeavesNoWreck.uploadsSucceed {action : Action Directory Problem}
    (orderly : LeavesNoWreck externals system action) :
    action.UploadsSucceed := by
  cases action <;> first | exact orderly | trivial

theorem step_fresh {action : Action Directory Problem}
    (distinct : Set.InjOn (hashRevision externals)
      (Set.range externals.pack))
    (permitted : LeavesNoWreck externals system action)
    (taken : step externals system action = some next)
    (consistent : Consistent externals system) :
    next.store.All (Fresh externals) := by
  obtain ⟨wellFormed, stored, tasks⟩ := consistent
  have effect := step_effect taken
  generalize next.store = final at effect ⊢
  cases effect with
  | quiet problems _ => simpa [Store.All, Store.dir, problems] using stored
  | @upload thread faults id location _ =>
      obtain rfl : faults = noFaults := permitted
      rcases uploadLocked_cases externals id location wellFormed with
        same | ⟨_, _, same⟩
      · rw [same]
        exact stored
      · rw [same]
        exact stored.put (.uploaded id location _)
  | edit =>
      refine after_keeps (·.All (Fresh externals))
        (editFlags_keeps ?_ ?_) stored
      · exact fun _ _ _ held => held.update fun _ own => own.changeFlags _
      · exact fun _ _ _ held => held.update fun _ own => own.changeFlags _
  | prepare _ =>
      refine after_keeps (·.All (Fresh externals))
        (prepareImport_keeps fun _ held => ?_) stored
      exact held.update fun _ own => own.changeFlags _
  | read task =>
      refine importReadLocked_fresh ?_ stored
      exact fun dir archive residue revision found =>
        permitted _ dir archive residue revision task found
  | @commit thread _ _ _ _ task =>
      have genuine := tasks thread
      rw [task] at genuine
      refine importCommitLocked_fresh distinct ?_ stored genuine
      exact fun residue result => permitted _ _ _ residue result task

theorem genuine_update {tasks : Nat → Task Directory Problem} {thread : Nat}
    {task : Task Directory Problem}
    (genuine : ∀ other, (tasks other).Genuine externals)
    (own : task.Genuine externals) (other : Nat) :
    (Function.update tasks thread task other).Genuine externals := by
  rw [Function.update_apply]
  split
  · exact own
  · exact genuine other

/-- The revision and the copy that an import takes are those of an archive
that was uploaded. -/
theorem importReadLocked_genuine {store final : Store Problem Tree}
    {id : ProblemId} {faults : Faults Problem} {revision : Revision}
    {contents : Directory} (fresh : store.All (Fresh externals))
    (run : importReadLocked externals faults id store =
      .ok (some (revision, contents)) final) :
    (Task.importConverting id revision contents :
      Task Directory Problem).Genuine externals := by
  cases found : store.dir id with
  | none =>
      have missing := (importReadLocked_missing found).of_ok run
      cases missing.1
  | some dir =>
      have own := fresh id dir found
      obtain ⟨location, stored⟩ := own.archive
      obtain ⟨revision', archive, contents', same, known, data, unpacked⟩ :=
        (importReadLocked_ensures found).of_ok run
      simp only [Option.some.injEq, Prod.mk.injEq] at same
      obtain ⟨rfl, rfl⟩ := same
      rw [stored, Option.some.injEq] at data
      subst data
      refine ⟨location, ?_, unpacked⟩
      rcases known with ⟨read, _⟩ | ⟨archive', data', hashed, _⟩
      · exact own.revision _ _ stored read
      · rw [stored, Option.some.injEq] at data'
        rw [hashed, data']

theorem step_genuine {action : Action Directory Problem}
    (taken : step externals system action = some next)
    (consistent : Consistent externals system) (thread : Nat) :
    (next.tasks thread).Genuine externals := by
  have tasks := consistent.tasks
  cases step_transition taken with
  | uploadRefused => exact tasks thread
  | callImportRefused => exact tasks thread
  | editFlags => exact tasks thread
  | importRead _ run =>
      exact genuine_update tasks
        (importReadLocked_genuine consistent.stored run) thread
  | @importConvert worker seed id revision contents task =>
      have genuine := tasks worker
      rw [task] at genuine
      obtain ⟨location, rfl, unpacked⟩ := genuine
      refine genuine_update tasks ?_ thread
      exact ⟨location, _, rfl, seed, contents, _, unpacked, rfl⟩
  | _ =>
      refine genuine_update tasks ?_ thread
      trivial

theorem initial_consistent :
    Consistent externals
      (System.initial : System Directory Problem Tree) where
  wellFormed := initial_orderly.wellFormed
  stored := fun _ _ found => by simp [System.initial, Store.dir] at found
  tasks := fun _ => trivial

theorem run_consistent
    (distinct : Set.InjOn (hashRevision externals)
      (Set.range externals.pack))
    (run : Runs (step externals) (LeavesNoWreck externals) .initial
      system) :
    Consistent externals system :=
  run.invariant initial_consistent fun _ _ _ consistent permitted taken =>
    { wellFormed := step_wellFormed permitted.uploadsSucceed taken
        consistent.wellFormed
      stored := step_fresh distinct permitted taken consistent
      tasks := step_genuine taken consistent }

/-! ## An outdated import changes nothing -/

theorem outdated_commit {thread : Nat} {faults : Faults Problem}
    {id : ProblemId} {revision : Revision} {outcome : Except String Problem}
    (task : system.tasks thread = .importCommitting id revision outcome)
    (outdated : ∀ dir, system.store.dir id = some dir →
      dir.revision.read ≠ some revision)
    (taken : step externals system (.importCommit thread faults) =
      some next) :
    next.store = system.store := by
  cases step_transition taken with
  | importCommit task' =>
      rw [task, Task.importCommitting.injEq] at task'
      obtain ⟨rfl, rfl, rfl⟩ := task'
      apply after_of_ensures (· = system.store)
      cases found : system.store.dir id with
      | none => exact importCommitLocked_missing found
      | some dir =>
          have other := outdated dir found
          apply (importCommitLocked_ensures found).mono
          · intro _ final given
            obtain ⟨_, same⟩ | ⟨current, _⟩ := given
            · exact same
            · exact absurd current other
          · intro _ final given
            obtain same | ⟨current, _⟩ := given
            · exact same
            · exact absurd current other

/-! ## The published package -/

/-- A commit of a problem that has no import pending gets as far as storing
its result. -/
def StoresResult (system : System Directory Problem Tree) :
    Action Directory Problem → Prop
  | .importCommit thread faults => ∀ id revision outcome dir,
      system.tasks thread = .importCommitting id revision outcome →
      system.store.dir id = some dir →
        dir.Flagged pendingImportFlag ∨
          (faults .checkExists = none ∧ faults .readRevision = none ∧
            faults .writeImportResult = none)
  | _ => True

/-- Some import has converted the problem and is about to commit. -/
def System.Committing (system : System Directory Problem Tree)
    (id : ProblemId) : Prop :=
  ∃ thread revision outcome,
    system.tasks thread = .importCommitting id revision outcome

/-- If no import is pending, the result is stored and the published tree is
what the same conversion left, unless another one has just ended. -/
def Settled (externals : Externals Directory Problem Tree)
    (published : ProblemId → Option Tree) (busy : ProblemId → Prop)
    (id : ProblemId) (dir : ProblemDir Problem) : Prop :=
  ¬ dir.Flagged pendingImportFlag → ∃ archive outcome,
    dir.data = some archive ∧
    dir.importResult = .value (importResultOf outcome) ∧
    (¬ busy id → ConvertedFrom externals id archive (outcome, published id))

structure Published (externals : Externals Directory Problem Tree)
    (system : System Directory Problem Tree) : Prop where
  orderly : Orderly system
  consistent : Consistent externals system
  committing : ∀ thread id revision outcome,
    system.tasks thread = .importCommitting id revision outcome →
      ∃ location,
        revision = hashRevision externals (externals.pack location) ∧
        ConvertedFrom externals id (externals.pack location)
          (outcome, system.store.published id)
  settled : system.store.All
    (Settled externals system.store.published system.Committing)

section Settled

variable {published : ProblemId → Option Tree}
  {busy busy' : ProblemId → Prop} {id : ProblemId}
  {dir : ProblemDir Problem}

theorem Settled.mono (settled : Settled externals published busy id dir)
    (more : busy id → busy' id) :
    Settled externals published busy' id dir := by
  intro notPending
  obtain ⟨archive, outcome, data, result, converted⟩ := settled notPending
  exact ⟨archive, outcome, data, result,
    fun idle => converted fun busy => idle (more busy)⟩

theorem Settled.addFlag {flag : FlagName}
    (settled : Settled externals published busy id dir) :
    Settled externals published busy id (dir.addFlag flag) := by
  intro notPending
  rw [ProblemDir.flagged_addFlag, not_or] at notPending
  exact settled notPending.1

theorem Settled.removeFlag {flag : FlagName}
    (settled : Settled externals published busy id dir)
    (other : flag ≠ pendingImportFlag) :
    Settled externals published busy id (dir.removeFlag flag) := by
  intro notPending
  rw [ProblemDir.flagged_removeFlag, not_and_not_right] at notPending
  exact settled fun pending => other (notPending pending).symm

end Settled

/-- A thread that is about to commit stays so until it commits. -/
theorem step_committing {action : Action Directory Problem}
    (taken : step externals system action = some next)
    (noCommit : ∀ thread faults, action ≠ .importCommit thread faults)
    {id : ProblemId} (committing : system.Committing id) :
    next.Committing id := by
  obtain ⟨thread, revision, outcome, task⟩ := committing
  refine ⟨thread, revision, outcome, ?_⟩
  have kept : ∀ (worker : Nat) (new : Task Directory Problem),
      (∀ id revision outcome,
        system.tasks worker ≠ .importCommitting id revision outcome) →
      Function.update system.tasks worker new thread =
        .importCommitting id revision outcome := by
    intro worker new free
    have different : thread ≠ worker := by
      intro given
      subst given
      exact free id revision outcome task
    rw [Function.update_of_ne different]
    exact task
  cases step_transition taken with
  | uploadRefused => exact task
  | callImportRefused => exact task
  | editFlags => exact task
  | importCommit _ => exact absurd rfl (noCommit _ _)
  | uploadPassed old => exact kept _ _ (by simp [old])
  | uploadLocked old => exact kept _ _ (by simp [old])
  | schedule old => exact kept _ _ (by simp [old])
  | preparedAll old => exact kept _ _ (by simp [old])
  | prepared old _ => exact kept _ _ (by simp [old])
  | prepareMissing old => exact kept _ _ (by simp [old])
  | prepareFailed old _ => exact kept _ _ (by simp [old])
  | postedAll old => exact kept _ _ (by simp [old])
  | posted old => exact kept _ _ (by simp [old])
  | callImport old _ => exact kept _ _ (by simp [old])
  | runPosted old _ => exact kept _ _ (by simp [old])
  | lockImports old _ => exact kept _ _ (by simp [old])
  | importRead old _ => exact kept _ _ (by simp [old])
  | importMissing old _ => exact kept _ _ (by simp [old])
  | importReadFailed old _ => exact kept _ _ (by simp [old])
  | importConvert old => exact kept _ _ (by simp [old])

/-- The problems are settled and the published packages are these. -/
def SettledStore (externals : Externals Directory Problem Tree)
    (published : ProblemId → Option Tree) (busy : ProblemId → Prop)
    (store : Store Problem Tree) : Prop :=
  store.published = published ∧
    store.All (Settled externals published busy)

section SettledStore

variable {published : ProblemId → Option Tree} {busy : ProblemId → Prop}
  {store : Store Problem Tree} {id : ProblemId}

theorem SettledStore.put {dir : ProblemDir Problem}
    (settled : SettledStore externals published busy store)
    (own : Settled externals published busy id dir) :
    SettledStore externals published busy (store.put id dir) :=
  ⟨settled.1, settled.2.put own⟩

theorem SettledStore.update
    {change : ProblemDir Problem → ProblemDir Problem}
    (settled : SettledStore externals published busy store)
    (own : ∀ dir, Settled externals published busy id dir →
      Settled externals published busy id (change dir)) :
    SettledStore externals published busy (store.update id change) :=
  ⟨(Store.published_update ..).trans settled.1, settled.2.update own⟩

theorem editFlags_settled {edit : FlagEdit} {faults : Faults Problem}
    (settled : SettledStore externals published busy store) :
    SettledStore externals published busy
      (after (editFlags faults id edit) store) := by
  refine after_keeps (SettledStore externals published busy)
    (editFlags_keeps ?_ ?_) settled
  · exact fun _ _ _ held => held.update fun _ own => own.addFlag
  · exact fun _ _ removes held =>
      held.update fun _ own => own.removeFlag removes.ne_pending

theorem prepareImport_settled {faults : Faults Problem}
    (settled : SettledStore externals published busy store) :
    SettledStore externals published busy
      (after (prepareImport faults id) store) := by
  refine after_keeps (SettledStore externals published busy)
    (prepareImport_keeps fun _ held => ?_) settled
  exact held.update fun _ own => own.addFlag

theorem importReadLocked_settled {faults : Faults Problem}
    (settled : SettledStore externals published busy store) :
    SettledStore externals published busy
      (after (importReadLocked externals faults id) store) := by
  refine after_keeps (SettledStore externals published busy)
    (importReadLocked_keeps ?_) settled
  intro store dir slot found held
  have own := held.2 id dir found
  exact held.put own

theorem uploadLocked_settled {location : Directory}
    (wellFormed : store.All WellFormed)
    (settled : SettledStore externals published busy store) :
    SettledStore externals published busy
      (after (uploadLocked externals noFaults id location) store) := by
  rcases uploadLocked_cases externals id location wellFormed with
    same | ⟨_, _, same⟩
  · rw [same]
    exact settled
  · rw [same]
    refine settled.put fun notPending => absurd ?_ notPending
    exact ProblemDir.uploaded_pending externals location fun dir found =>
      (wellFormed id dir found).2

end SettledStore

/-- The step of a conversion: the problem is busy from now on. -/
theorem converted_settled {thread seed : Nat} {id : ProblemId}
    {revision : Revision} {contents : Directory}
    (settled : system.store.All
      (Settled externals system.store.published system.Committing))
    (committing : ∀ other, system.Committing other →
      (system.converted externals thread seed id revision
        contents).Committing other) :
    (system.converted externals thread seed id revision contents).store.All
      (Settled externals
        (system.converted externals thread seed id revision
          contents).store.published
        (system.converted externals thread seed id revision
          contents).Committing) := by
  intro other dir found notPending
  obtain ⟨archive, outcome, data, result, converted⟩ :=
    settled other dir found notPending
  refine ⟨archive, outcome, data, result, fun idle => ?_⟩
  by_cases own : other = id
  · subst other
    let outcome := (importConvert externals seed id revision contents
      (system.store.published id)).1
    exact absurd ⟨thread, revision, outcome, Function.update_self ..⟩ idle
  · have same : (system.converted externals thread seed id revision
        contents).store.published other = system.store.published other :=
      Function.update_of_ne own _ _
    rw [same]
    exact converted fun busy => idle (committing other busy)

/-- What a commit of the current revision leaves: the import still pending,
or its result. -/
theorem commit_leaves {thread : Nat} {faults : Faults Problem}
    {id : ProblemId} {revision : Revision} {outcome : Except String Problem}
    {dir : ProblemDir Problem}
    (task : system.tasks thread = .importCommitting id revision outcome)
    (allowed : isAllowedId id) (found : system.store.dir id = some dir)
    (current : dir.revision.read = some revision)
    (stores : StoresResult system (.importCommit thread faults))
    (taken : step externals system (.importCommit thread faults) =
      some next) :
    (dir.Flagged pendingImportFlag ∧ (next.store = system.store ∨
      ∃ importResult,
        next.store = system.store.put id { dir with importResult })) ∨
      CommitDone system.store id dir outcome next.store := by
  let leaves (final : Store Problem Tree) : Prop :=
    (dir.Flagged pendingImportFlag ∧ (final = system.store ∨
      ∃ importResult, final = system.store.put id { dir with importResult })) ∨
      CommitDone system.store id dir outcome final
  cases step_transition taken with
  | importCommit task' =>
      rw [task, Task.importCommitting.injEq] at task'
      obtain ⟨rfl, rfl, rfl⟩ := task'
      apply after_of_ensures leaves
      rcases stores id revision outcome dir task found with
        pending | ⟨checked, readable, written⟩
      · apply (importCommitLocked_ensures found).mono
        · intro _ final given
          obtain ⟨other, _⟩ | ⟨_, done, _⟩ := given
          · exact absurd current other
          · exact .inr done
        · intro _ final given
          obtain same | ⟨_, ⟨residue, _, same⟩ | done⟩ := given
          · exact .inl ⟨pending, .inl same⟩
          · exact .inl ⟨pending, .inr ⟨_, same⟩⟩
          · exact .inr done
      · exact (importCommitLocked_commits allowed found current checked
          readable written).mono (fun _ _ => .inr) (fun _ _ => .inr)

theorem Published.alone {thread : Nat} {id other : ProblemId}
    {revision : Revision} {outcome : Except String Problem}
    (published : Published externals system)
    (task : system.tasks thread = .importCommitting id revision outcome)
    (committing : system.Committing other) : other = id := by
  obtain ⟨worker, revision', outcome', task'⟩ := committing
  have holds : (system.tasks thread).HoldsImportLock := by
    rw [task]
    trivial
  have same : worker = thread := by
    apply published.orderly.exclusive.unique holds
    rw [task']
    trivial
  subst worker
  rw [task, Task.importCommitting.injEq] at task'
  exact task'.1.symm

/-- All problems are settled after the commit if that of the import is: the
others are so without any provision. -/
theorem Published.committed {thread : Nat} {id : ProblemId}
    {revision : Revision} {outcome : Except String Problem}
    {busy : ProblemId → Prop} {final : Store Problem Tree}
    (published : Published externals system)
    (task : system.tasks thread = .importCommitting id revision outcome)
    (same : final.published = system.store.published)
    (others : ∀ other, other ≠ id →
      final.dir other = system.store.dir other)
    (own : ∀ dir, final.dir id = some dir →
      Settled externals system.store.published busy id dir) :
    final.All (Settled externals final.published busy) := by
  intro other dir found
  rw [same]
  by_cases here : other = id
  · subst other
    exact own dir found
  · intro notPending
    rw [others other here] at found
    obtain ⟨archive, outcome, data, result, converted⟩ :=
      published.settled other dir found notPending
    refine ⟨archive, outcome, data, result, fun _ => converted ?_⟩
    exact fun committing => here (published.alone task committing)

theorem commit_settled {thread : Nat} {faults : Faults Problem}
    {id : ProblemId} {revision : Revision} {outcome : Except String Problem}
    (distinct : Set.InjOn (hashRevision externals)
      (Set.range externals.pack))
    (published : Published externals system)
    (task : system.tasks thread = .importCommitting id revision outcome)
    (stores : StoresResult system (.importCommit thread faults))
    (taken : step externals system (.importCommit thread faults) =
      some next) :
    next.store.All
      (Settled externals next.store.published next.Committing) := by
  have unchanged : next.store = system.store →
      (∀ dir, system.store.dir id = some dir →
        Settled externals system.store.published next.Committing id dir) →
      next.store.All
        (Settled externals next.store.published next.Committing) := by
    intro same own
    rw [same]
    exact published.committed task rfl (fun _ _ => rfl) own
  cases found : system.store.dir id with
  | none =>
      refine unchanged (outdated_commit task (by simp [found]) taken) ?_
      intro dir found'
      rw [found] at found'
      cases found'
  | some dir =>
      have onlyDir {holds : ProblemDir Problem → Prop} (own : holds dir) :
          ∀ dir', system.store.dir id = some dir' → holds dir' := by
        intro dir' found'
        exact Option.some.inj (found.symm.trans found') ▸ own
      by_cases current : dir.revision.read = some revision
      · rcases commit_leaves task (published.orderly.wellFormed id dir
          found).1 found current stores taken with
          ⟨pending, same | ⟨importResult, same⟩⟩ | ⟨after, committed, same⟩
        · exact unchanged same
            (onlyDir fun notPending => absurd pending notPending)
        · rw [same]
          refine published.committed task rfl
            (fun other => Store.dir_put_of_ne _ _ _ _) fun dir' found' => ?_
          rw [Store.dir_put_self, Option.some.injEq] at found'
          subst found'
          exact fun notPending => absurd pending notPending
        · obtain ⟨location, rfl, converted⟩ :=
            published.committing thread id revision outcome task
          have stored :=
            (published.consistent.stored id dir found).current distinct
              current
          rw [same]
          refine published.committed task rfl
            (fun other => Store.dir_put_of_ne _ _ _ _) fun dir' found' => ?_
          rw [Store.dir_renew, Store.dir_put_self, Option.some.injEq]
            at found'
          subst found'
          exact fun _ => ⟨_, outcome, committed.data.trans stored,
            committed.importResult, fun _ => converted⟩
      · refine unchanged (outdated_commit task (by simp [found, current])
          taken) (onlyDir fun notPending => ?_)
        refine absurd (published.orderly.current thread id revision ?_ dir
          found notPending) current
        rw [task]
        exact ⟨rfl, rfl⟩

theorem step_settled {action : Action Directory Problem}
    (distinct : Set.InjOn (hashRevision externals)
      (Set.range externals.pack))
    (permitted : LeavesNoWreck externals system action)
    (stores : StoresResult system action)
    (taken : step externals system action = some next)
    (published : Published externals system) :
    next.store.All
      (Settled externals next.store.published next.Committing) := by
  have settled := published.settled
  by_cases commits : ∃ thread faults, action = .importCommit thread faults
  · obtain ⟨thread, faults, rfl⟩ := commits
    cases step_transition taken with
    | importCommit task =>
        exact commit_settled distinct published task stores taken
  · have committing : ∀ id, system.Committing id → next.Committing id :=
      fun id => step_committing taken fun thread faults same =>
        commits ⟨thread, faults, same⟩
    have mono : SettledStore externals system.store.published
        system.Committing next.store →
          next.store.All
            (Settled externals next.store.published next.Committing) := by
      intro given
      obtain ⟨same, all⟩ := given
      rw [same]
      exact fun id dir found => (all id dir found).mono (committing id)
    have start : SettledStore externals system.store.published
        system.Committing system.store := ⟨rfl, settled⟩
    cases step_transition taken with
    | importConvert task => exact converted_settled settled committing
    | importCommit _ => exact absurd ⟨_, _, rfl⟩ commits
    | @uploadLocked _ faults =>
        obtain rfl : faults = noFaults := permitted
        exact mono (uploadLocked_settled published.orderly.wellFormed start)
    | editFlags => exact mono (editFlags_settled start)
    | prepared _ run =>
        rw [← after_ok run] at mono ⊢
        exact mono (prepareImport_settled start)
    | prepareFailed _ run =>
        rw [← after_error run] at mono ⊢
        exact mono (prepareImport_settled start)
    | importRead _ run =>
        rw [← after_ok run] at mono ⊢
        exact mono (importReadLocked_settled start)
    | importReadFailed _ run =>
        rw [← after_error run] at mono ⊢
        exact mono (importReadLocked_settled start)
    | _ => exact mono start

/-- The published tree is that of the import about to commit. -/
theorem step_converted {action : Action Directory Problem}
    (taken : step externals system action = some next)
    (published : Published externals system) {thread : Nat}
    {id : ProblemId} {revision : Revision} {outcome : Except String Problem}
    (task : next.tasks thread = .importCommitting id revision outcome) :
    ∃ location,
      revision = hashRevision externals (externals.pack location) ∧
      ConvertedFrom externals id (externals.pack location)
        (outcome, next.store.published id) := by
  obtain ⟨orderly, consistent, committing, _⟩ := published
  by_cases converts : ∃ worker seed, action = .importConvert worker seed
  · obtain ⟨worker, seed, rfl⟩ := converts
    cases step_transition taken with
    | @importConvert _ _ id' revision' contents task' =>
        have holds : (system.tasks worker).HoldsImportLock := by
          rw [task']
          trivial
        change Function.update system.tasks worker _ thread = _ at task
        rw [Function.update_apply] at task
        split at task
        · have genuine := consistent.tasks worker
          rw [task'] at genuine
          obtain ⟨location, rfl, unpacked⟩ := genuine
          rw [Task.importCommitting.injEq] at task
          obtain ⟨rfl, rfl, rfl⟩ := task
          refine ⟨location, rfl, seed, contents,
            system.store.published id', unpacked, ?_⟩
          refine Prod.ext rfl ?_
          exact (Function.update_self id' _ system.store.published).symm
        · rename_i different
          refine absurd (orderly.exclusive.unique holds ?_) different
          rw [task]
          trivial
  · have same := step_published taken fun worker seed equal =>
      converts ⟨worker, seed, equal⟩
    rw [same]
    apply committing thread id revision outcome
    have kept : ∀ (worker : Nat) (new : Task Directory Problem),
        (∀ id revision outcome,
          new ≠ .importCommitting id revision outcome) →
        Function.update system.tasks worker new thread =
          .importCommitting id revision outcome →
        system.tasks thread = .importCommitting id revision outcome := by
      intro worker new other updated
      rw [Function.update_apply] at updated
      split at updated
      · exact absurd updated (other _ _ _)
      · exact updated
    cases step_transition taken with
    | uploadRefused => exact task
    | callImportRefused => exact task
    | editFlags => exact task
    | importConvert _ => exact absurd ⟨_, _, rfl⟩ converts
    | _ => exact kept _ _ (by simp) task

theorem run_published
    (distinct : Set.InjOn (hashRevision externals)
      (Set.range externals.pack))
    (run : Runs (step externals) (fun system action =>
      LeavesNoWreck externals system action ∧ StoresResult system action)
      .initial system) :
    Published externals system := by
  refine run.invariant
    { orderly := initial_orderly
      consistent := initial_consistent
      committing := fun _ _ _ _ impossible => by cases impossible
      settled := fun _ _ found => by
        simp [System.initial, Store.dir] at found } ?_
  intro before action after published allowed taken
  obtain ⟨permitted, stores⟩ := allowed
  exact
    { orderly := step_orderly permitted.uploadsSucceed taken
        published.orderly
      consistent :=
        { wellFormed := step_wellFormed permitted.uploadsSucceed taken
            published.consistent.wellFormed
          stored := step_fresh distinct permitted taken published.consistent
          tasks := step_genuine taken published.consistent }
      committing := fun _ _ _ _ task => step_converted taken published task
      settled := step_settled distinct permitted stores taken published }

/-! ## Freshness -/

/-- A successful conversion replaces the whole destination tree. -/
def Externals.Replaces (externals : Externals Directory Problem Tree) :
    Prop :=
  ∀ seed id revision contents before problem tree,
    externals.convert seed id revision contents before =
      (.ok problem, tree) →
    externals.convert seed id revision contents none = (.ok problem, tree)

theorem importConvert_replaces (replaces : externals.Replaces) {seed : Nat}
    {id : ProblemId} {revision : Revision} {contents : Directory}
    {before tree : Option Tree} {problem : Problem}
    (converted : importConvert externals seed id revision contents before =
      (.ok problem, tree)) :
    importConvert externals seed id revision contents none =
      (.ok problem, tree) := by
  unfold importConvert at converted ⊢
  cases run : externals.convert seed id revision contents before with
  | mk outcome middle =>
      cases outcome with
      | error reason =>
          rw [run] at converted
          cases converted
      | ok problem' =>
          rw [run] at converted
          rw [replaces _ _ _ _ _ _ _ run]
          exact converted

/-- The thread runs an import of the problem. -/
def Task.Imports (id : ProblemId) : Task Directory Problem → Prop
  | .importReading id' => id' = id
  | .importConverting id' _ _ => id' = id
  | .importCommitting id' _ _ => id' = id
  | _ => False

/-- An import of another revision than the stored one commits nothing.  If
imports leave no wreck, a stored result is that of the stored archive, and if
they also store their results, then while no import of a problem runs or is
pending, the published package is what the import of the stored archive has
left. -/
theorem imports_fresh
    (externals : Externals Directory Problem Tree)
    (distinct : Set.InjOn (hashRevision externals)
      (Set.range externals.pack))
    (replaces : externals.Replaces) :
    (∀ system : System Directory Problem Tree,
      Runs (step externals) (fun _ action => action.Named) .initial system →
      ∀ thread faults id revision outcome next,
        system.tasks thread = .importCommitting id revision outcome →
        (∀ dir, system.store.dir id = some dir →
          dir.revision.read ≠ some revision) →
        step externals system (.importCommit thread faults) = some next →
          next.store = system.store) ∧
    (∀ system : System Directory Problem Tree,
      Runs (step externals) (fun system action => action.Named ∧
        LeavesNoWreck externals system action) .initial system →
      ∀ id dir result, system.store.dir id = some dir →
        dir.importResult.read = some result →
          ∃ archive outcome tree, dir.data = some archive ∧
            result = importResultOf outcome ∧
            ConvertedFrom externals id archive (outcome, tree)) ∧
    (∀ system : System Directory Problem Tree,
      Runs (step externals) (fun system action => action.Named ∧
        LeavesNoWreck externals system action ∧
          StoresResult system action) .initial system →
      ∀ id dir, system.store.dir id = some dir →
        (∀ thread, ¬ (system.tasks thread).Imports id) →
        ¬ dir.Flagged pendingImportFlag →
          ∃ archive outcome, dir.data = some archive ∧
            dir.importResult = .value (importResultOf outcome) ∧
            ConvertedFrom externals id archive
              (outcome, system.store.published id) ∧
            ∀ problem, outcome = .ok problem →
              ∃ seed contents, externals.unpack archive = some contents ∧
                importConvert externals seed id
                  (hashRevision externals archive) contents none =
                    (.ok problem, system.store.published id)) := by
  refine ⟨fun system _ => ?_, fun system run => ?_, fun system run => ?_⟩
  · intro thread faults id revision outcome next task outdated taken
    exact outdated_commit task outdated taken
  · intro id dir result found stored
    have consistent := run_consistent distinct
      (run.mono fun _ _ permitted => permitted.2)
    have fresh := consistent.stored id dir found
    obtain ⟨location, data⟩ := fresh.archive
    obtain ⟨outcome, tree, same, converted⟩ :=
      fresh.result _ _ data stored
    exact ⟨_, outcome, tree, data, same, converted⟩
  · intro id dir found idle notPending
    have published := run_published distinct
      (run.mono fun _ _ permitted => permitted.2)
    obtain ⟨archive, outcome, data, result, converted⟩ :=
      published.settled id dir found notPending
    have unoccupied : ¬ system.Committing id := by
      intro given
      obtain ⟨thread, revision, outcome, task⟩ := given
      apply idle thread
      rw [task]
      exact rfl
    have left := converted unoccupied
    refine ⟨archive, outcome, data, result, left, ?_⟩
    intro problem given
    subst given
    obtain ⟨seed, contents, before, unpacked, conversion⟩ := left
    exact ⟨seed, contents, unpacked,
      importConvert_replaces replaces conversion⟩

theorem Sample.distinct : Set.InjOn (hashRevision Sample.configuration)
    (Set.range Sample.configuration.pack) := by
  intro _ packed _ packed' same
  obtain ⟨first, rfl⟩ := packed
  obtain ⟨second, rfl⟩ := packed'
  cases first <;> cases second <;> first | rfl | exact absurd same (by decide)

theorem Sample.replaces : Sample.configuration.Replaces := by
  intro seed id revision contents before problem tree converted
  by_cases ok : seed = 0
  · subst ok
    exact converted
  · simp [Sample.configuration, ok] at converted

theorem imports_fresh_sample :
    let final := Sample.reach Sample.importRun
    ∃ archive outcome, final.store.dir "p" = some
        { data := some archive
          revision := .value (hashRevision Sample.configuration archive)
          importResult := .value (importResultOf outcome)
          flags := some [] } ∧
      ConvertedFrom Sample.configuration "p" archive
        (outcome, final.store.published "p") := by
  intro final
  have run : Runs (step Sample.configuration)
      (fun system action => action.Named ∧
        LeavesNoWreck Sample.configuration system action ∧
          StoresResult system action) .initial final := by
    have named : ∀ action ∈ Sample.importRun, action.Named := by decide
    apply Sample.reach_run rfl
    intro state action member
    refine ⟨named action member, ?_⟩
    revert action
    simp [Sample.importRun, LeavesNoWreck, StoresResult]
  have stored : final.store.dir "p" = some
      { data := some [1]
        revision := .value (hashRevision Sample.configuration [1])
        importResult := .value (.problem true)
        flags := some [] } := by decide
  have idle : ∀ thread, ¬ (final.tasks thread).Imports "p" := by
    intro thread
    match thread with
    | 0 => exact id
    | 1 => exact id
    | thread + 2 => exact id
  obtain ⟨archive, outcome, data, result, converted, _⟩ :=
    (imports_fresh Sample.configuration Sample.distinct
      Sample.replaces).2.2 final run "p" _ stored idle (by decide)
  refine ⟨archive, outcome, ?_, converted⟩
  rw [← result]
  cases data
  exact stored

/-- The result file is cut off before its first byte. -/
def Sample.resultCutOff : Faults Bool
  | .writeImportResult => some
      { data := none, revision := .absent, importResult := .value .notSet
        flagCreated := false }
  | _ => none

/-- The import of `p` can not write its result. -/
def Sample.cutOffRun : List (Action Bool Bool) :=
  Sample.importRun.take 6 ++ [.importCommit 1 Sample.resultCutOff]

theorem result_not_fresh :
    ¬ ∀ system : System Bool Bool Bool,
      Runs (step Sample.configuration)
        (fun _ action => action.Named ∧ action.UploadsSucceed)
        .initial system →
      ∀ id dir result, system.store.dir id = some dir →
        dir.importResult.read = some result →
          ∃ archive outcome tree, dir.data = some archive ∧
            result = importResultOf outcome ∧
            ConvertedFrom Sample.configuration id archive
              (outcome, tree) := by
  intro fresh
  have named : ∀ action ∈ Sample.cutOffRun, action.Named := by decide
  have run : Runs (step Sample.configuration)
      (fun _ action => action.Named ∧ action.UploadsSucceed) .initial
      (Sample.reach Sample.cutOffRun) := by
    apply Sample.reach_run rfl
    intro state action member
    refine ⟨named action member, ?_⟩
    revert action
    simp [Sample.cutOffRun, Sample.importRun, Action.UploadsSucceed]
  have stored : (Sample.reach Sample.cutOffRun).store.dir "p" = some
      { data := some [1]
        revision := .value (hashRevision Sample.configuration [1])
        importResult := .value .notSet
        flags := some [pendingImportFlag] } := by decide
  obtain ⟨_, outcome, _, _, result, _⟩ := fresh _ run "p" _ _ stored rfl
  cases outcome <;> cases result

end Bacs.Archive
