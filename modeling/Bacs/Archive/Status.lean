import Bacs.Archive.ImportLock

/-!
# What `status_all` answers

When the directory of every problem is complete, the status of all problems
can be read, and it is determined by their flags and revisions.
-/

namespace Bacs.Archive

open Foundation

variable {Directory Problem Tree : Type}
variable {externals : Externals Directory Problem Tree}
variable {system next : System Directory Problem Tree}

def Complete (id : ProblemId) (dir : ProblemDir Problem) : Prop :=
  WellFormed id dir ∧ dir.revision.read.isSome

/-- The status of a problem whose directory is complete. -/
def ProblemDir.status (dir : ProblemDir Problem) : StatusResult :=
  .status
    { flags := (dir.flags.getD []).map flagCast
      revision := dir.revision.read.getD [] }

/-- The status of every problem that exists. -/
def Store.statuses (store : Store Problem Tree) (id : ProblemId) :
    Option StatusResult :=
  (store.dir id).map (·.status)

section Reading

variable {store : Store Problem Tree} {id : ProblemId}
  {dir : ProblemDir Problem} {faults : Faults Problem}
  {thrown : Exception → Store Problem Tree → Prop}

/-- What is answered of a problem whose directory is complete. -/
def StatusRead (store : Store Problem Tree) (id : ProblemId)
    (dir : ProblemDir Problem) (result : StatusResult)
    (final : Store Problem Tree) : Prop :=
  final = store ∧ Complete id dir ∧ result = dir.status

theorem statusResult_ensures (found : store.dir id = some dir)
    (complete : Complete id dir) :
    Ensures (statusResult_ noFaults id) store (StatusRead store id dir)
      thrown := by
  have ⟨⟨allowed, names, directory, valid⟩, stored⟩ := complete
  obtain ⟨revision, stored⟩ := Option.isSome_iff_exists.mp stored
  rw [statusResult_, ensures_bind, ensures_existsProblem allowed]
  simp only [noFaults_apply, found, Option.isSome_some, if_true,
    ensures_bind, ensures_pure]
  refine (status_ensures found stored directory valid (noFaults_apply _)
    (noFaults_apply _)).mono ?_ (fun _ _ stopped => stopped)
  intro _ final given
  obtain ⟨rfl, same⟩ := given
  refine ⟨same, complete, ?_⟩
  simp [ProblemDir.status, directory, stored]

theorem flagCasts_answers {names : List FlagName} :
    Ensures (names.mapM fun flag => do
        validateFlag flag
        return flagCast flag) store
      (fun flags final => final = store ∧
        (∀ flag ∈ names, isAllowedFlag flag) ∧ flags = names.map flagCast)
      (fun _ _ => True) := by
  by_cases allowed : ∀ flag ∈ names, isAllowedFlag flag
  · apply (flagCasts_ensures allowed).mono
    · intro flags final given
      exact ⟨given.2, allowed, given.1⟩
    · exact fun _ _ stopped => stopped
  · induction names with
    | nil => exact absurd (by simp) allowed
    | cons flag rest induction =>
        simp only [List.mapM_cons, ensures_bind, ensures_validateFlag]
        by_cases first : isAllowedFlag flag
        · rw [if_pos first]
          have others : ¬ ∀ flag ∈ rest, isAllowedFlag flag := by
            intro others
            apply allowed
            rw [List.forall_mem_cons]
            exact ⟨first, others⟩
          apply (induction others).mono
          · intro _ _ given
            exact absurd given.2.1 others
          · exact fun _ _ stopped => stopped
        · rw [if_neg first]
          trivial

theorem statusResult_answers (found : store.dir id = some dir) :
    Ensures (statusResult_ faults id) store (StatusRead store id dir)
      (fun _ _ => True) := by
  by_cases allowed : isAllowedId id
  swap
  · simp [statusResult_, existsProblem, ensures_validateId, allowed]
  rw [statusResult_, ensures_bind, ensures_existsProblem allowed]
  cases faults .checkExists with
  | some residue => trivial
  | none =>
  simp only [found, Option.isSome_some, if_true, ensures_bind, ensures_pure,
    status_, ensures_readRevision found]
  cases faults .readRevision with
  | some residue => trivial
  | none =>
  cases stored : dir.revision.read with
  | none => trivial
  | some revision =>
  simp only [flags_, ensures_fallible]
  cases faults .listFlags with
  | some residue => trivial
  | none =>
  simp only [ensures_bind, ensures_openDir, found]
  cases directory : dir.flags with
  | none => trivial
  | some names =>
  apply flagCasts_answers.mono
  · intro flags final given
    obtain ⟨same, valid, rfl⟩ := given
    refine ⟨same, ⟨⟨allowed, names, directory, valid⟩, by simp [stored]⟩, ?_⟩
    simp [ProblemDir.status, directory, stored]
  · exact fun _ _ stopped => stopped

/-- The map built so far has the status of the ids already visited. -/
theorem statusAll_visits
    (each : ∀ id dir, store.dir id = some dir →
      Ensures (statusResult_ faults id) store (StatusRead store id dir)
        thrown)
    {ids : List ProblemId} (exist : ∀ id ∈ ids, (store.dir id).isSome) :
    Ensures (statusAll_ faults ids) store
      (fun statusMap final => final = store ∧
        (∀ id ∈ ids, ∀ dir, store.dir id = some dir → Complete id dir) ∧
        ∀ id, statusMap.lookup id =
          if id ∈ ids then store.statuses id else none)
      thrown := by
  refine ensures_foldlM (fun done (statusMap : StatusMap) final =>
    final = store ∧
      (∀ id ∈ done, ∀ dir, store.dir id = some dir → Complete id dir) ∧
      ∀ id, statusMap.lookup id =
        if id ∈ done then store.statuses id else none)
    ids ?_ ⟨rfl, by simp, by simp⟩
  intro done id rest statusMap state split holds
  obtain ⟨same, complete, visited⟩ := holds
  rw [same]
  obtain ⟨dir, found⟩ := Option.isSome_iff_exists.mp
    (exist id (by simp [split]))
  rw [ensures_bind]
  refine (each id dir found).mono ?_ (fun _ _ stopped => stopped)
  intro _ final given
  obtain ⟨same', own, rfl⟩ := given
  refine ⟨same', ?_, fun other => ?_⟩
  · intro other member dir' found'
    rcases List.mem_append.mp member with earlier | last
    · exact complete other earlier dir' found'
    · obtain rfl := List.mem_singleton.mp last
      obtain rfl : dir = dir' := Option.some.inj (found.symm.trans found')
      exact own
  · by_cases own : other = id
    · subst other
      simp [Store.statuses, found]
    · rw [Finmap.lookup_insert_of_ne _ own, visited other]
      simp [own]

theorem statusAll_reads
    (each : ∀ id dir, store.dir id = some dir →
      Ensures (statusResult_ faults id) store (StatusRead store id dir)
        thrown)
    (existing : Ensures (existing_ faults) store
      (fun ids final => ids = store.problems.keys ∧ final = store) thrown) :
    Ensures (statusAll faults) store
      (fun statusMap final => final = store ∧ store.All Complete ∧
        ∀ id, statusMap.lookup id = store.statuses id) thrown := by
  have listed : ∀ id, id ∈ store.problems.keys ↔ (store.dir id).isSome :=
    fun id => (AList.lookup_isSome.trans AList.mem_keys).symm
  rw [statusAll, ensures_bind]
  refine existing.mono ?_ (fun _ _ stopped => stopped)
  intro _ final given
  obtain ⟨rfl, same⟩ := given
  rw [same]
  refine (statusAll_visits each fun id => (listed id).mp).mono ?_
    (fun _ _ stopped => stopped)
  intro statusMap _ given
  obtain ⟨same', complete, visited⟩ := given
  refine ⟨same', fun id dir found => ?_, fun id => ?_⟩
  · exact complete id ((listed id).mpr (by simp [found])) dir found
  · rw [visited id]
    by_cases present : id ∈ store.problems.keys
    · rw [if_pos present]
    · rw [if_neg present]
      rw [listed id, Bool.not_eq_true, Option.isSome_eq_false_iff,
        Option.isNone_iff_eq_none] at present
      rw [Store.statuses, present]
      rfl

theorem validateIds_ensures {ids : List ProblemId}
    (allowed : ∀ id ∈ ids, isAllowedId id) :
    Ensures (ids.forM validateId) store (fun _ final => final = store)
      thrown := by
  induction ids with
  | nil => exact rfl
  | cons id rest induction =>
      change Ensures (validateId id >>= fun _ => rest.forM validateId) store
        _ thrown
      rw [List.forall_mem_cons] at allowed
      rw [ensures_bind, ensures_validateId, if_pos allowed.1]
      exact induction allowed.2

theorem statusAll_ensures (complete : store.All Complete) :
    Ensures (statusAll noFaults) store
      (fun statusMap final => final = store ∧
        ∀ id, statusMap.lookup id = store.statuses id) thrown := by
  have existing : Ensures (existing_ noFaults) store
      (fun ids final => ids = store.problems.keys ∧ final = store)
      thrown := by
    simp only [existing_, ensures_fallible, noFaults_apply, ensures_bind,
      ensures_get, ensures_pure]
    refine (validateIds_ensures fun id member => ?_).mono
      (fun _ _ same => ⟨trivial, same⟩) (fun _ _ stopped => stopped)
    obtain ⟨dir, found⟩ := Option.isSome_iff_exists.mp
      (AList.lookup_isSome.mpr (AList.mem_keys.mpr member))
    exact (complete id dir found).1.1
  apply (statusAll_reads
    (fun id dir found => statusResult_ensures found (complete id dir found))
    existing).mono
  · intro statusMap final given
    exact ⟨given.1, given.2.2⟩
  · exact fun _ _ stopped => stopped

/-- If the status of all problems was answered, all directories are
complete. -/
theorem statusAll_answers :
    Ensures (statusAll faults) store
      (fun statusMap final => final = store ∧ store.All Complete ∧
        ∀ id, statusMap.lookup id = store.statuses id)
      (fun _ _ => True) := by
  apply statusAll_reads fun id dir found => statusResult_answers found
  rw [existing_, ensures_fallible]
  cases faults .listProblems with
  | some residue => trivial
  | none =>
  simp only [ensures_bind, ensures_get, ensures_pure]
  have validated : Keeps (· = store)
      (store.problems.keys.forM validateId :
        RepositoryM Problem Tree Unit) :=
    Keeps.forM fun id _ => validateId_pristine id _
  exact (validated store rfl).mono (fun _ _ same => ⟨trivial, same⟩)
    (fun _ _ _ => trivial)

end Reading

/-! ## Directories stay complete -/

/-- Import reads the revision of the problem, or what it writes in its place
can be read. -/
def Action.RevisionsSurvive : Action Directory Problem → Prop
  | .importRead _ faults => faults .readRevision = none ∨
      ∀ residue, faults .writeRevision = some residue →
        residue.revision.read.isSome
  | _ => True

theorem Complete.addFlag {id : ProblemId} {dir : ProblemDir Problem}
    {flag : FlagName} (complete : Complete id dir)
    (allowed : isAllowedFlag flag) : Complete id (dir.addFlag flag) :=
  ⟨complete.1.addFlag allowed, complete.2⟩

theorem Complete.removeFlag {id : ProblemId} {dir : ProblemDir Problem}
    {flag : FlagName} (complete : Complete id dir) :
    Complete id (dir.removeFlag flag) :=
  ⟨complete.1.removeFlag, complete.2⟩

theorem importReadLocked_unchanged {store : Store Problem Tree}
    {id : ProblemId} {faults : Faults Problem}
    (complete : store.All Complete)
    (readable : faults .readRevision = none) :
    after (importReadLocked externals faults id) store = store := by
  apply after_of_ensures (· = store)
  cases found : store.dir id with
  | none =>
      exact (importReadLocked_missing found).mono
        (fun _ _ ended => ended.2) (fun _ _ same => same)
  | some dir =>
      obtain ⟨⟨allowed, _⟩, stored⟩ := complete id dir found
      obtain ⟨revision, stored⟩ := Option.isSome_iff_exists.mp stored
      rw [importReadLocked, ensures_bind, ensures_existsProblem allowed]
      cases faults .checkExists with
      | some residue => rfl
      | none =>
          simp only [found, Option.isSome_some, if_true, ensures_bind]
          rw [importRevision_, ensures_tryCatch, ensures_readRevision found]
          simp only [readable, stored]
          exact ((download_pristine id).ensures store).mono
            (fun _ _ same => same) (fun _ _ same => same)

theorem importReadLocked_complete {store : Store Problem Tree}
    {id : ProblemId} {faults : Faults Problem}
    (complete : store.All Complete)
    (survives : faults .readRevision = none ∨
      ∀ residue, faults .writeRevision = some residue →
        residue.revision.read.isSome) :
    (after (importReadLocked externals faults id) store).All Complete := by
  rcases survives with readable | survives
  · rw [importReadLocked_unchanged complete readable]
    exact complete
  cases found : store.dir id with
  | none =>
      apply after_of_ensures (·.All Complete)
      apply (importReadLocked_missing found).mono
      · intro _ _ ended
        rw [ended.2]
        exact complete
      · intro _ _ same
        rw [same]
        exact complete
  | some dir =>
      obtain ⟨own, _⟩ := complete id dir found
      have known : ∀ revision final,
          RevisionKnown externals store id dir revision final →
            final.All Complete := by
        intro revision final given
        obtain ⟨_, rfl⟩ | ⟨_, _, _, rfl⟩ := given
        · exact complete
        · exact complete.put ⟨own, rfl⟩
      apply after_of_ensures (·.All Complete)
      apply (importReadLocked_ensures found).mono
      · intro _ final given
        obtain ⟨revision, _, _, _, given, _⟩ := given
        exact known revision final given
      · intro _ final given
        obtain rfl | ⟨residue, fault, rfl⟩ | ⟨revision, given⟩ := given
        · exact complete
        · exact complete.put ⟨own, survives residue fault⟩
        · exact known revision final given

theorem importCommitLocked_complete {store : Store Problem Tree}
    {id : ProblemId} {faults : Faults Problem} {revision : Revision}
    {outcome : Except String Problem} (complete : store.All Complete) :
    (after (importCommitLocked faults id revision outcome) store).All
      Complete := by
  refine after_keeps (·.All Complete) (importCommitLocked_keeps ?_ ?_)
    complete
  · intro store dir slot found held
    have own := held _ _ found
    exact held.put ⟨⟨own.1.1, own.1.2⟩, own.2⟩
  · intro store dir after found committed held
    have own := held _ _ found
    exact held.put ⟨⟨own.1.1, committed.listable own.1.2⟩,
      committed.revision ▸ own.2⟩

theorem step_complete {action : Action Directory Problem}
    (survives : action.RevisionsSurvive)
    (taken : step externals system action = some next)
    (uploads : ∀ thread faults id location,
      action = .uploadLocked thread faults →
      system.tasks thread = .uploading id location →
        (after (uploadLocked externals faults id location)
          system.store).All Complete)
    (complete : system.store.All Complete) :
    next.store.All Complete := by
  have effect := step_effect taken
  generalize next.store = final at effect ⊢
  cases effect with
  | quiet problems _ => simpa [Store.All, Store.dir, problems] using complete
  | upload task => exact uploads _ _ _ _ rfl task
  | edit =>
      refine after_keeps (·.All Complete) (editFlags_keeps ?_ ?_) complete
      · exact fun _ _ adds held =>
          held.update fun _ own => own.addFlag adds.allowed
      · exact fun _ _ _ held => held.update fun _ own => own.removeFlag
  | prepare _ =>
      refine after_keeps (·.All Complete)
        (prepareImport_keeps fun _ held => ?_) complete
      exact held.update fun _ own => own.addFlag (by decide)
  | read _ => exact importReadLocked_complete complete survives
  | commit _ => exact importCommitLocked_complete complete

theorem initial_complete :
    (System.initial : System Directory Problem Tree).store.All Complete :=
  fun _ _ found => by simp [System.initial, Store.dir] at found

end Bacs.Archive
