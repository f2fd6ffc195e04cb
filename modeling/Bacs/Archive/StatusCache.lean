import Bacs.Archive.Protection
import Bacs.Archive.UploadAtomicity

/-!
# The cached status map

`status_all_if_changed` compares archive revisions, but only the commit of
an import renews the archive revision.  Uploads, flag operations and scheduling
change what `status_all` answers without renewing it, so a client that
remembers an answer misses them.  In a run in which these operations change
no flag and no revision, the remembered answer is the current one, whatever
file operations fail.
-/

namespace Bacs.Archive

open Foundation

variable {Directory Problem Tree : Type}
variable {externals : Externals Directory Problem Tree}
variable {system next : System Directory Problem Tree}

/-! ## The steps that change no status -/

/-- What the edit would set is set and what it would remove is not. -/
def FlagEdit.Idle (edit : FlagEdit) (dir : ProblemDir Problem) : Prop :=
  edit.Valid → match edit with
    | .setFlag flag => isDirectoryName flag = false → dir.Flagged flag
    | .setFlags flags =>
        ∀ flag ∈ (flags.map Flag.toName).takeWhile (!isDirectoryName ·),
          dir.Flagged flag
    | .unsetFlag flag => flag = ignoreFlag → ¬ dir.Flagged flag
    | .unsetFlags flags => ∀ flag ∈ removals flags, ¬ dir.Flagged flag
    | .clearFlags => ∀ flag, flag ≠ ignoreFlag → flag ≠ pendingImportFlag →
        ¬ dir.Flagged flag

/-- The upload stops before it touches the revision, or it meets a problem
that waits for an import of the same archive and stores the same revision. -/
def UploadKeepsStatus (externals : Externals Directory Problem Tree)
    (faults : Faults Problem) (id : ProblemId) (location : Directory)
    (store : Store Problem Tree) : Prop :=
  Refused faults id store ∨
    match store.dir id with
    | none => (faults .createDirectory).isSome
    | some dir =>
        (faults .removeData).isSome ∨ (faults .removeRevision).isSome ∨
          (dir.Flagged pendingImportFlag ∧
            dir.revision =
              .value (hashRevision externals (externals.pack location)) ∧
            faults .removeImportResult = none ∧ faults .pack = none ∧
            faults .readData = none ∧ faults .writeRevision = none)

/-- Import reads the revision of the problem, or what it regenerates is the
same. -/
def ReadKeepsStatus (externals : Externals Directory Problem Tree)
    (faults : Faults Problem) (dir : ProblemDir Problem) : Prop :=
  faults .readRevision = none ∨
    ((∀ archive, dir.data = some archive →
      dir.revision = .value (hashRevision externals archive)) ∧
      ∀ residue, faults .writeRevision = some residue →
        residue.revision = dir.revision)

/-- The step changes no flag and no revision, or it commits an import. -/
def KeepsStatus (externals : Externals Directory Problem Tree)
    (system : System Directory Problem Tree) :
    Action Directory Problem → Prop
  | .uploadLocked thread faults => ∀ id location,
      system.tasks thread = .uploading id location →
        UploadKeepsStatus externals faults id location system.store
  | .editFlags id edit _ => ∀ dir, system.store.dir id = some dir →
      dir.Flagged readOnlyFlag ∨ edit.Idle dir
  | .prepare thread _ => ∀ id rest scheduled dir,
      system.tasks thread = .scheduling (id :: rest) scheduled →
      system.store.dir id = some dir → dir.Flagged pendingImportFlag
  | .importRead thread faults => ∀ id dir,
      system.tasks thread = .importReading id →
      system.store.dir id = some dir →
        ReadKeepsStatus externals faults dir
  | _ => True

/-- The flags and revisions of all problems and the archive revision are the
same. -/
structure SameStatus (before after : Store Problem Tree) : Prop where
  archiveRevision : after.archiveRevision = before.archiveRevision
  dirs : ∀ id, (after.dir id).map (fun dir => (dir.flags, dir.revision)) =
    (before.dir id).map (fun dir => (dir.flags, dir.revision))

section SameStatus

variable {before after store : Store Problem Tree} {id : ProblemId}

theorem SameStatus.refl (store : Store Problem Tree) :
    SameStatus store store :=
  ⟨rfl, fun _ => rfl⟩

theorem SameStatus.found {dir : ProblemDir Problem}
    (same : SameStatus before after) (found : before.dir id = some dir) :
    ∃ dir', after.dir id = some dir' ∧ dir'.flags = dir.flags ∧
      dir'.revision = dir.revision := by
  have dirs := same.dirs id
  rw [found, Option.map_some, Option.map_eq_some_iff] at dirs
  obtain ⟨dir', found', equal⟩ := dirs
  rw [Prod.mk.injEq] at equal
  exact ⟨dir', found', equal.1, equal.2⟩

/-- A change of one problem that has no effect on what `before` has stored
for it. -/
theorem SameStatus.update
    {change : ProblemDir Problem → ProblemDir Problem}
    (same : SameStatus before after)
    (idle : ∀ dir dir', before.dir id = some dir →
      dir'.flags = dir.flags → dir'.revision = dir.revision →
        (change dir').flags = dir.flags ∧
          (change dir').revision = dir.revision) :
    SameStatus before (after.update id change) where
  archiveRevision := (Store.archiveRevision_update ..).trans
    same.archiveRevision
  dirs := by
    intro other
    by_cases own : other = id
    · subst other
      cases stored : before.dir id with
      | none =>
          have dirs := same.dirs id
          rw [stored, Option.map_none, Option.map_eq_none_iff] at dirs
          rw [Store.dir_update_self, dirs]
          rfl
      | some dir =>
          obtain ⟨dir', found, flags, revision⟩ := same.found stored
          obtain ⟨flags', revision'⟩ := idle dir dir' stored flags revision
          rw [Store.dir_update_self, found]
          simp [flags', revision']
    · rw [Store.dir_update_of_ne _ _ _ _ own]
      exact same.dirs other

theorem SameStatus.addFlag {dir : ProblemDir Problem} {flag : FlagName}
    (same : SameStatus before after) (stored : before.dir id = some dir)
    (flagged : dir.Flagged flag) :
    SameStatus before (after.update id (·.addFlag flag)) := by
  refine same.update fun dir' dir'' stored' flags revision => ?_
  obtain rfl : dir' = dir := Option.some.inj (stored'.symm.trans stored)
  obtain ⟨names, directory, member⟩ := flagged
  refine ⟨?_, revision⟩
  simp [ProblemDir.addFlag, flags, directory, List.insert_of_mem member]

theorem SameStatus.removeFlag {dir : ProblemDir Problem} {flag : FlagName}
    (same : SameStatus before after) (stored : before.dir id = some dir)
    (unflagged : ¬ dir.Flagged flag) :
    SameStatus before (after.update id (·.removeFlag flag)) := by
  refine same.update fun dir' dir'' stored' flags revision => ?_
  obtain rfl : dir' = dir := Option.some.inj (stored'.symm.trans stored)
  refine ⟨?_, revision⟩
  cases directory : dir'.flags with
  | none => simp [ProblemDir.removeFlag, flags, directory]
  | some names =>
      have kept : names.filter (· != flag) = names := by
        rw [List.filter_eq_self]
        intro name member
        rw [bne_iff_ne]
        intro given
        subst given
        exact unflagged ⟨names, directory, member⟩
      simp [ProblemDir.removeFlag, flags, directory, kept]

theorem SameStatus.statuses (same : SameStatus before after) :
    after.statuses = before.statuses := by
  funext id
  have dirs := same.dirs id
  simp only [Store.statuses]
  cases stored : before.dir id with
  | none =>
      rw [stored, Option.map_none, Option.map_eq_none_iff] at dirs
      rw [dirs]
  | some dir =>
      obtain ⟨dir', found, flags, revision⟩ := same.found stored
      rw [found]
      simp [ProblemDir.status, flags, revision]

theorem SameStatus.trans (first : SameStatus before store)
    (second : SameStatus store after) : SameStatus before after :=
  ⟨second.archiveRevision.trans first.archiveRevision,
    fun id => (second.dirs id).trans (first.dirs id)⟩

theorem SameStatus.put {dir dir' : ProblemDir Problem}
    (found : before.dir id = some dir) (flags : dir'.flags = dir.flags)
    (revision : dir'.revision = dir.revision) :
    SameStatus before (before.put id dir') where
  archiveRevision := rfl
  dirs := by
    intro other
    by_cases own : other = id
    · subst other
      rw [Store.dir_put_self, found, Option.map_some, Option.map_some, flags,
        revision]
    · rw [Store.dir_put_of_ne _ _ _ _ own]

theorem SameStatus.complete (same : SameStatus before after)
    (complete : before.All Complete) : after.All Complete := by
  intro other dir found
  have dirs := same.dirs other
  rw [found, Option.map_some] at dirs
  obtain ⟨dir', stored, equal⟩ := Option.map_eq_some_iff.mp dirs.symm
  rw [Prod.mk.injEq] at equal
  obtain ⟨flags, revision⟩ := equal
  obtain ⟨⟨allowed, names, directory, valid⟩, readable⟩ :=
    complete other dir' stored
  exact ⟨⟨allowed, names, flags.symm.trans directory, valid⟩,
    revision ▸ readable⟩

end SameStatus

/-! ## What one step does to the statuses -/

theorem perform_sameStatus {store : Store Problem Tree} {id : ProblemId}
    {dir : ProblemDir Problem} {edit : FlagEdit} {faults : Faults Problem}
    (valid : edit.Valid) (stored : store.dir id = some dir)
    (listable : dir.Listable) (idle : edit.Idle dir) :
    Keeps (SameStatus store) (edit.perform faults id) := by
  have asked := idle valid
  cases edit with
  | setFlag flag =>
      exact setFlag_keeps fun proper state same =>
        same.addFlag stored (asked proper)
  | setFlags flags =>
      exact setFlags_keeps fun flag member state same =>
        same.addFlag stored (asked flag member)
  | unsetFlag flag =>
      refine Keeps.ite' (fun ignored => ?_) fun _ => Keeps.pure _
      exact unsetFlag_keeps fun _ state same =>
        same.removeFlag stored (asked ignored)
  | unsetFlags flags =>
      obtain ⟨names, directory, _⟩ := listable
      refine unsetFlags_keeps ?_ fun flag member state same =>
        same.removeFlag stored (asked flag member)
      intro state same
      obtain ⟨dir', found, flags, _⟩ := same.found stored
      exact ⟨dir', names, found, flags.trans directory⟩
  | clearFlags =>
      refine harmless_keeps ((openDir_keeps _ _).bind fun dir' => ?_)
      cases dir'.flags with
      | none => exact Keeps.throw _
      | some names =>
          refine Keeps.forM fun flag _ =>
            Keeps.ite' (fun removable => ?_) fun _ => Keeps.pure _
          exact unsetFlag_keeps fun _ state same =>
            same.removeFlag stored (asked flag removable.1 removable.2)

theorem editFlags_sameStatus (faults : Faults Problem)
    {store : Store Problem Tree} {id : ProblemId} {edit : FlagEdit}
    (complete : store.All Complete)
    (idle : ∀ dir, store.dir id = some dir →
      dir.Flagged readOnlyFlag ∨ edit.Idle dir) :
    SameStatus store (after (editFlags faults id edit) store) := by
  cases found : store.dir id with
  | none =>
      refine after_keeps (SameStatus store) (editFlags_keeps ?_ ?_) (.refl _)
      · intro flag state _ same
        refine same.update fun dir _ impossible => ?_
        rw [found] at impossible
        cases impossible
      · intro flag state _ same
        refine same.update fun dir _ impossible => ?_
        rw [found] at impossible
        cases impossible
  | some dir =>
      rcases idle dir found with readOnly | idle
      · have same : after (editFlags faults id edit) store = store :=
          after_of_ensures (· = store) (editFlags_readOnly found readOnly)
        rw [same]
        exact .refl _
      · exact after_keeps (SameStatus store)
          (editFlags_keeps_of_perform fun valid =>
            perform_sameStatus valid found (complete id dir found).1.2 idle)
          (.refl _)

theorem prepareImport_sameStatus (faults : Faults Problem)
    {store : Store Problem Tree} {id : ProblemId}
    (pending : ∀ dir, store.dir id = some dir →
      dir.Flagged pendingImportFlag) :
    SameStatus store (after (prepareImport faults id) store) := by
  refine after_keeps (SameStatus store)
    (prepareImport_keeps fun state same => ?_) (.refl _)
  cases found : store.dir id with
  | none =>
      refine same.update fun dir _ impossible => ?_
      rw [found] at impossible
      cases impossible
  | some dir => exact same.addFlag found (pending dir found)

/-- The archive of a problem that waits for its import is stored again. -/
theorem storeProblem_sameStatus {faults : Faults Problem}
    {store : Store Problem Tree} {id : ProblemId} {location : Directory}
    {dir : ProblemDir Problem} (found : store.dir id = some dir)
    (pending : dir.Flagged pendingImportFlag)
    (revision : dir.revision =
      .value (hashRevision externals (externals.pack location)))
    (packed : faults .pack = none) (read : faults .readData = none)
    (written : faults .writeRevision = none) :
    Ensures (storeProblem externals faults id location)
      (store.put id (.reset (some dir)))
      (fun _ => SameStatus store) (fun _ => SameStatus store) := by
  obtain ⟨names, directory, member⟩ := pending
  rw [storeProblem_iff (Store.dir_put_self ..)]
  simp only [packed, read, written, Store.put_put]
  have stored : SameStatus store (store.put id
      ((ProblemDir.reset (some dir)).stored externals location)) :=
    .put found rfl revision.symm
  have flagged : SameStatus store (store.put id
      (((ProblemDir.reset (some dir)).stored externals location).addFlag
        pendingImportFlag)) := by
    refine .put found ?_ revision.symm
    simp [ProblemDir.addFlag, ProblemDir.stored, ProblemDir.reset, directory,
      List.insert_of_mem member]
  have flags : (ProblemDir.reset (some dir)).flags = some names := directory
  rw [flags]
  cases faults (.touchFlag pendingImportFlag) with
  | none => exact ⟨flagged.archiveRevision, flagged.dirs⟩
  | some residue =>
      cases created : residue.flagCreated with
      | false => simpa [created] using stored
      | true => simpa [created] using flagged

theorem uploadLocked_sameStatus {faults : Faults Problem}
    {store : Store Problem Tree} {id : ProblemId} {location : Directory}
    (keeps : UploadKeepsStatus externals faults id location store) :
    SameStatus store
      (after (uploadLocked externals faults id location) store) := by
  apply after_of_ensures (SameStatus store)
  by_cases refused : Refused faults id store
  · apply (uploadLocked_refused refused).mono
    · intro _ final ended
      rw [ended.2]
      exact .refl store
    · intro _ final same
      rw [same]
      exact .refl store
  obtain ⟨allowed, _, _, checked, _⟩ := not_refused refused
  replace keeps := keeps.resolve_left refused
  have answered : ∀ final, SameStatus store final →
      Ensures (status_ faults id) final (fun _ => SameStatus store)
        (fun _ => SameStatus store) :=
    fun final same => status_pristine id (SameStatus store) final same
  rw [uploadLocked_started refused]
  cases found : store.dir id with
  | none =>
      rw [found] at keeps
      obtain ⟨residue, fault⟩ := Option.isSome_iff_exists.mp keeps
      rw [resetProblem_new allowed checked found]
      simp only [fault]
      exact .refl store
  | some dir =>
      rw [found] at keeps
      rw [resetProblem_existing allowed checked found]
      cases data : faults .removeData with
      | some residue => exact .refl store
      | none =>
      cases removed : faults .removeRevision with
      | some residue => exact .put found rfl rfl
      | none =>
      simp only [data, removed, Option.isSome_none, Bool.false_eq_true,
        false_or] at keeps
      obtain ⟨pending, revision, result, packed, read, written⟩ := keeps
      simp only [result]
      apply (storeProblem_sameStatus found pending revision packed read
        written).mono
      · exact fun _ stored same => answered stored same
      · exact fun _ _ same => same

theorem importReadLocked_sameStatus {faults : Faults Problem}
    {store : Store Problem Tree} {id : ProblemId}
    (complete : store.All Complete)
    (keeps : ∀ dir, store.dir id = some dir →
      ReadKeepsStatus externals faults dir) :
    SameStatus store
      (after (importReadLocked externals faults id) store) := by
  by_cases readable : faults .readRevision = none
  · rw [importReadLocked_unchanged complete readable]
    exact .refl store
  apply after_of_ensures (SameStatus store)
  cases found : store.dir id with
  | none =>
      apply (importReadLocked_missing found).mono
      · intro _ final ended
        rw [ended.2]
        exact .refl store
      · intro _ final same
        rw [same]
        exact .refl store
  | some dir =>
      obtain ⟨regenerated, damaged⟩ := (keeps dir found).resolve_left readable
      have known : ∀ revision final,
          RevisionKnown externals store id dir revision final →
            SameStatus store final := by
        intro revision final given
        obtain ⟨_, same⟩ | ⟨archive, data, rfl, rfl⟩ := given
        · rw [same]
          exact .refl store
        · exact .put found rfl (regenerated archive data).symm
      apply (importReadLocked_ensures found).mono
      · intro _ final given
        obtain ⟨revision, _, _, _, given, _⟩ := given
        exact known revision final given
      · intro _ final given
        obtain same | ⟨residue, fault, rfl⟩ | ⟨revision, given⟩ := given
        · rw [same]
          exact .refl store
        · exact .put found rfl (damaged residue fault)
        · exact known revision final given

/-- A commit leaves the flags and revisions or renews the archive revision. -/
theorem importCommitLocked_status (faults : Faults Problem) (id : ProblemId)
    (revision : Revision) (outcome : Except String Problem)
    (store : Store Problem Tree) :
    SameStatus store
        (after (importCommitLocked faults id revision outcome) store) ∨
      (after (importCommitLocked faults id revision outcome)
        store).archiveRevision = store.archiveRevision + 1 := by
  let renewed (final : Store Problem Tree) : Prop :=
    SameStatus store final ∨
      final.archiveRevision = store.archiveRevision + 1
  have unchanged : ∀ final, final = store → renewed final := by
    intro final same
    rw [same]
    exact .inl (.refl store)
  apply after_of_ensures renewed
  cases found : store.dir id with
  | none =>
      exact (importCommitLocked_missing found).mono
        (fun _ => unchanged) (fun _ => unchanged)
  | some dir =>
      have done : ∀ final, CommitDone store id dir outcome final →
          renewed final := by
        intro _ given
        obtain ⟨after, _, rfl⟩ := given
        exact .inr rfl
      apply (importCommitLocked_ensures found).mono
      · intro _ final given
        obtain ⟨_, same⟩ | ⟨_, same, _⟩ := given
        · exact unchanged final same
        · exact done final same
      · intro _ final given
        obtain same | ⟨_, ⟨_, _, rfl⟩ | same⟩ := given
        · exact unchanged final same
        · exact .inl (.put found rfl rfl)
        · exact done final same

/-- A step that meets the condition keeps all statuses or renews the archive
revision. -/
theorem step_statuses {action : Action Directory Problem}
    (keeps : KeepsStatus externals system action)
    (taken : step externals system action = some next)
    (complete : system.store.All Complete) :
    SameStatus system.store next.store ∨
      system.store.archiveRevision < next.store.archiveRevision := by
  have effect := step_effect taken
  generalize next.store = final at effect ⊢
  cases effect with
  | quiet problems revision =>
      exact .inl ⟨revision, fun id => by rw [Store.dir, problems]; rfl⟩
  | @upload thread faults id location task =>
      exact .inl (uploadLocked_sameStatus (keeps id location task))
  | @edit _ _ faults =>
      exact .inl (editFlags_sameStatus faults complete keeps)
  | @prepare _ faults _ _ _ task =>
      exact .inl (prepareImport_sameStatus faults fun dir =>
        keeps _ _ _ dir task)
  | @read thread faults _ task =>
      exact .inl (importReadLocked_sameStatus complete fun dir =>
        keeps _ dir task)
  | @commit thread faults id revision outcome task =>
      rcases importCommitLocked_status faults id revision outcome
        system.store with same | renewed
      · exact .inl same
      · exact .inr (by omega)

theorem step_archiveRevision {action : Action Directory Problem}
    (taken : step externals system action = some next) :
    system.store.archiveRevision ≤ next.store.archiveRevision := by
  have effect := step_effect taken
  generalize next.store = final at effect ⊢
  let later (final : Store Problem Tree) : Prop :=
    system.store.archiveRevision ≤ final.archiveRevision
  have start : later system.store := le_refl _
  have updated : ∀ id change store, later store →
      later (store.update id change) := fun id change store held => by
    change _ ≤ (store.update id change).archiveRevision
    rw [Store.archiveRevision_update]
    exact held
  cases effect with
  | quiet _ revision => exact revision.ge
  | upload _ =>
      exact after_keeps later
        (uploadLocked_keeps (updated _) (fun _ held => held)
          (fun _ held => held)) start
  | edit =>
      exact after_keeps later
        (editFlags_keeps (fun _ _ _ => updated _ _ _)
          (fun _ _ _ => updated _ _ _)) start
  | prepare _ =>
      exact after_keeps later (prepareImport_keeps fun _ => updated _ _ _)
        start
  | read _ =>
      exact after_keeps later (importReadLocked_keeps
        fun _ _ _ _ held => held) start
  | commit _ =>
      refine after_keeps later (importCommitLocked_keeps
        (fun _ _ _ _ held => held) fun store _ _ _ _ held => ?_) start
      exact Nat.le_succ_of_le held

/-! ## What a client may rely on -/

theorem statusAll_eq {store : Store Problem Tree} {statusMap : StatusMap}
    (complete : store.All Complete)
    (agrees : ∀ id, statusMap.lookup id = store.statuses id) :
    statusAll noFaults store = .ok statusMap store := by
  have contract : Ensures (statusAll noFaults) store _ (fun _ _ => False) :=
    statusAll_ensures complete
  cases run : statusAll noFaults store with
  | ok statusMap' final =>
      obtain ⟨rfl, agrees'⟩ := contract.of_ok run
      have same : statusMap' = statusMap :=
        Finmap.ext_lookup fun id => (agrees' id).trans (agrees id).symm
      rw [same]
  | error exception final => exact (contract.of_error run).elim

theorem statusAllIfChanged_answers {faults : Faults Problem}
    {store : Store Problem Tree} (asked : String) :
    Ensures (statusAllIfChanged externals faults asked) store
      (fun answer _ =>
        answer.revision = externals.uuid store.archiveRevision ∧
        match answer.status with
        | none => asked = externals.uuid store.archiveRevision
        | some statusMap => store.All Complete ∧
            ∀ id, statusMap.lookup id = store.statuses id)
      (fun _ _ => True) := by
  rw [statusAllIfChanged, ensures_bind, ensures_get]
  by_cases same : externals.uuid store.archiveRevision = asked
  · simp only [if_pos same, ensures_pure]
    exact ⟨trivial, same.symm⟩
  · simp only [if_neg same, ensures_bind]
    refine statusAll_answers.mono ?_ (fun _ _ stopped => stopped)
    intro statusMap _ read
    exact ⟨rfl, read.2⟩

/-- If every step since the answer that a client remembers keeps to the
condition and the archive says that nothing has changed, then the remembered
statuses are the current ones. -/
theorem remembered_status_current
    (externals : Externals Directory Problem Tree)
    (fresh : Function.Injective externals.uuid)
    (start final : System Directory Problem Tree)
    (run : Runs (step externals) (fun system action =>
      action.Named ∧ KeepsStatus externals system action) start final)
    (faults faults' : Faults Problem)
    (asked revision current : String) (statusMap : StatusMap)
    (remembered : statusAllIfChanged externals faults asked start.store =
      .ok ⟨some statusMap, revision⟩ start.store)
    (unchanged : statusAllIfChanged externals faults' revision final.store =
      .ok ⟨none, current⟩ final.store) :
    statusAll noFaults final.store = .ok statusMap final.store := by
  obtain ⟨revisionIs, complete, agrees⟩ :=
    (statusAllIfChanged_answers asked).of_ok remembered
  let kept (system : System Directory Problem Tree) : Prop :=
    SameStatus start.store system.store ∨
      start.store.archiveRevision < system.store.archiveRevision
  have keptFinal : kept final := by
    apply run.invariant (.inl (.refl _))
    intro before action after progress permitted taken
    have later := step_archiveRevision taken
    rcases progress with same | grown
    · rcases step_statuses permitted.2 taken (same.complete complete) with
        same' | grown'
      · exact .inl (same.trans same')
      · exact .inr (same.archiveRevision ▸ grown')
    · exact .inr (by omega)
  have asksCurrent :=
    ((statusAllIfChanged_answers revision).of_ok unchanged).2
  simp only at revisionIs asksCurrent
  rw [revisionIs] at asksCurrent
  have sameRevision := fresh asksCurrent
  rcases keptFinal with same | grown
  · refine statusAll_eq (same.complete complete) fun id => ?_
    rw [same.statuses]
    exact agrees id
  · omega

theorem Sample.fresh : Function.Injective Sample.configuration.uuid := by
  intro first second same
  have lengths := congrArg String.length same
  simpa [Sample.configuration] using lengths

theorem remembered_status_current_sample :
    let start := Sample.reach (Sample.importRun.take 2)
    let final : System Bool Bool Bool :=
      { start with
        store := after (editFlags noFaults "p"
          (.setFlags [.reserved .pendingImport])) start.store }
    statusAll noFaults final.store = .ok
      ((∅ : StatusMap).insert "p" (.status
        { flags := [.reserved .pendingImport]
          revision := hashRevision Sample.configuration [1] }))
      final.store := by
  intro start final
  have stored : start.store.dir "p" = some
      { data := some [1]
        revision := .value (hashRevision Sample.configuration [1])
        importResult := .absent
        flags := some [pendingImportFlag] } := by decide
  have keeps : KeepsStatus Sample.configuration start
      (.editFlags "p" (.setFlags [.reserved .pendingImport]) noFaults) := by
    intro dir found
    rw [stored, Option.some.injEq] at found
    subst found
    refine .inr fun _ flag member => ?_
    have asked := List.takeWhile_subset _ member
    simp only [List.map_cons, List.map_nil, List.mem_singleton] at asked
    subst asked
    exact ⟨_, rfl, List.mem_singleton_self _⟩
  have named : Action.Named (.editFlags "p"
      (.setFlags [.reserved .pendingImport]) noFaults :
        Action Bool Bool) := by decide
  exact remembered_status_current Sample.configuration Sample.fresh start
    final (Runs.single ⟨named, keeps⟩ rfl) noFaults noFaults
    "unknown" "" "" _ rfl rfl

def Action.NothingFails : Action Directory Problem → Prop
  | .upload _ _ _ faults => faults = noFaults
  | .uploadLocked _ faults => faults = noFaults
  | .editFlags _ _ faults => faults = noFaults
  | .prepare _ faults => faults = noFaults
  | .importRead _ faults => faults = noFaults
  | .importCommit _ faults => faults = noFaults
  | _ => True

/-- A client that remembers the empty archive misses the first upload, though
nothing fails. -/
theorem remembered_status_stale :
    ¬ ∀ (start final : System Bool Bool Bool)
      (asked revision current : String) (statusMap : StatusMap),
      Runs (step Sample.configuration)
        (fun _ action => action.Named ∧ action.NothingFails)
        .initial start →
      Runs (step Sample.configuration)
        (fun _ action => action.Named ∧ action.NothingFails) start final →
      statusAllIfChanged Sample.configuration noFaults asked start.store =
        .ok ⟨some statusMap, revision⟩ start.store →
      statusAllIfChanged Sample.configuration noFaults revision final.store =
        .ok ⟨none, current⟩ final.store →
      statusAll noFaults final.store = .ok statusMap final.store := by
  intro coherent
  have run : Runs (step Sample.configuration)
      (fun _ action => action.Named ∧ action.NothingFails) .initial
      (Sample.reach (Sample.importRun.take 2)) := by
    apply Sample.reach_run rfl
    intro state action member
    have named : ∀ action ∈ Sample.importRun.take 2, action.Named := by
      decide
    refine ⟨named action member, ?_⟩
    revert action
    simp [Sample.importRun, Action.NothingFails]
  have stale := coherent .initial _ "unknown" "" "" ∅ (Runs.refl _) run rfl rfl
  have status : statusAll noFaults
      (Sample.reach (Sample.importRun.take 2)).store = .ok
        ((∅ : StatusMap).insert "p" (.status
          { flags := [.reserved .pendingImport]
            revision := hashRevision Sample.configuration [1] }))
        (Sample.reach (Sample.importRun.take 2)).store := rfl
  rw [status, EStateM.Result.ok.injEq] at stale
  have lookups := congrArg (Finmap.lookup "p") stale.1
  simp at lookups

end Bacs.Archive
