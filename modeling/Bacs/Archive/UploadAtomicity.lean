import Bacs.Archive.Status

/-!
# When an upload is atomic

The documentation of `upload` promises that it is atomic and resets the
flags.  It does neither: the files of the previous archive are removed before
the new one is packed, and the flags stay.  The promise is kept exactly when
the upload is refused, when the first change already fails, when every later
failure happens to leave what was there before, or when nothing fails and no
flag had to be reset.
-/

namespace Bacs.Archive

open Foundation

variable {Directory Problem Tree : Type}
variable {externals : Externals Directory Problem Tree}
  {faults : Faults Problem}
variable {store final : Store Problem Tree} {id : ProblemId}
  {location : Directory}

/-! ## The promise -/

/-- The files are the same and the flags are the same set. -/
structure ProblemDir.Same (before after : ProblemDir Problem) : Prop where
  data : after.data = before.data
  revision : after.revision = before.revision
  importResult : after.importResult = before.importResult
  directory : after.flags.isSome = before.flags.isSome
  flagged : ∀ flag, after.Flagged flag ↔ before.Flagged flag

def Store.Same (before after : Store Problem Tree) : Prop :=
  ∀ id, Option.Rel ProblemDir.Same (before.dir id) (after.dir id)

structure UploadDone (externals : Externals Directory Problem Tree)
    (id : ProblemId) (location : Directory)
    (before after : Store Problem Tree) : Prop where
  stored : ∃ dir, after.dir id = some dir ∧
    dir.data = some (externals.pack location) ∧
    dir.revision =
      .value (hashRevision externals (externals.pack location)) ∧
    dir.importResult = .absent ∧
    ∀ flag, dir.Flagged flag ↔ flag = pendingImportFlag
  posted : after.posted = before.posted ++ [id]
  others : ∀ other, other ≠ id → after.dir other = before.dir other

def Promise (externals : Externals Directory Problem Tree) (id : ProblemId)
    (location : Directory) (before : Store Problem Tree) :
    StatusResult → Store Problem Tree → Prop
  | .error _, after => before.Same after
  | .status _, after => UploadDone externals id location before after

/-- `upload` is atomic in this call. -/
def UploadKeepsPromise (externals : Externals Directory Problem Tree)
    (faults : Faults Problem) (id : ProblemId) (location : Directory)
    (store : Store Problem Tree) : Prop :=
  Ensures (upload externals faults id location) store
    (Promise externals id location store) (fun _ after => store.Same after)

def LockedKeepsPromise (externals : Externals Directory Problem Tree)
    (faults : Faults Problem) (id : ProblemId) (location : Directory)
    (store : Store Problem Tree) : Prop :=
  Ensures (uploadLocked externals faults id location) store
    (Promise externals id location store) (fun _ after => store.Same after)

/-! ## The condition -/

/-- The locked section stops before it changes anything. -/
def Refused (faults : Faults Problem) (id : ProblemId)
    (store : Store Problem Tree) : Prop :=
  isAllowedId id = false ∨
    (faults (.checkFlag lockedFlag)).isSome ∨
    (faults (.checkFlag readOnlyFlag)).isSome ∨
    (faults .checkExists).isSome ∨ ¬ store.Unlocked id

/-- A new problem: its directory can not be created, or nothing fails. -/
def AtomicNew (faults : Faults Problem) : Prop :=
  (faults .createDirectory).isSome ∨
    (faults .createFlags = none ∧ faults .pack = none ∧
      faults .readData = none ∧ faults .writeRevision = none ∧
      faults (.touchFlag pendingImportFlag) = none ∧
      faults .readRevision = none ∧ faults .listFlags = none)

/-- The files are what the upload has stored when it sets the flag. -/
def ProblemDir.Holds (externals : Externals Directory Problem Tree)
    (location : Directory) (dir : ProblemDir Problem) : Prop :=
  dir.data = some (externals.pack location) ∧
    dir.revision =
      .value (hashRevision externals (externals.pack location)) ∧
    dir.importResult = .absent

/-- An existing problem: the first operation that fails finds, apart from
what it damages itself, what was there before. -/
def AtomicOver (externals : Externals Directory Problem Tree)
    (faults : Faults Problem) (location : Directory)
    (dir : ProblemDir Problem) : Prop :=
  match faults .removeData with
  | some _ => True
  | none =>
  match faults .removeRevision with
  | some _ => dir.data = none
  | none =>
  match faults .removeImportResult with
  | some _ => dir.data = none ∧ dir.revision = .absent
  | none =>
  match faults .pack with
  | some residue =>
      dir.data = residue.data ∧ dir.revision = .absent ∧
        dir.importResult = .absent
  | none =>
  match faults .readData with
  | some _ =>
      dir.data = some (externals.pack location) ∧
        dir.revision = .absent ∧ dir.importResult = .absent
  | none =>
  match faults .writeRevision with
  | some residue =>
      dir.data = some (externals.pack location) ∧
        dir.revision = residue.revision ∧ dir.importResult = .absent
  | none =>
  match dir.flags with
  | none => dir.Holds externals location
  | some names =>
  match faults (.touchFlag pendingImportFlag) with
  | some residue =>
      dir.Holds externals location ∧
        (residue.flagCreated → pendingImportFlag ∈ names)
  | none =>
  if faults .readRevision = none ∧ faults .listFlags = none ∧
      names.all isAllowedFlag
  then ∀ flag ∈ names, flag = pendingImportFlag
  else dir.Holds externals location ∧ pendingImportFlag ∈ names

/-- The upload stops before it changes anything, or it finishes, or it fails
where that makes no difference. -/
def LockedAtomic (externals : Externals Directory Problem Tree)
    (faults : Faults Problem) (id : ProblemId) (location : Directory)
    (store : Store Problem Tree) : Prop :=
  Refused faults id store ∨
    match store.dir id with
    | none => AtomicNew faults
    | some dir => AtomicOver externals faults location dir

def UploadAtomic (externals : Externals Directory Problem Tree)
    (faults : Faults Problem) (id : ProblemId) (location : Directory)
    (store : Store Problem Tree) : Prop :=
  (faults .checkFormat).isSome ∨ externals.hasFormat location = false ∨
    LockedAtomic externals faults id location store

/-! ## Comparing storages -/

theorem ProblemDir.Same.refl (dir : ProblemDir Problem) : dir.Same dir :=
  ⟨rfl, rfl, rfl, rfl, fun _ => Iff.rfl⟩

theorem Store.Same.refl (store : Store Problem Tree) : store.Same store := by
  intro id
  cases store.dir id with
  | none => exact .none
  | some dir => exact .some (.refl dir)

theorem Store.same_put {dir after : ProblemDir Problem}
    (found : store.dir id = some dir) :
    store.Same (store.put id after) ↔ dir.Same after := by
  constructor
  · intro same
    have own := same id
    rw [found, Store.dir_put_self] at own
    cases own with
    | some own => exact own
  · intro own other
    by_cases equal : other = id
    · subst other
      rw [found, Store.dir_put_self]
      exact .some own
    · rw [Store.dir_put_of_ne _ _ _ _ equal]
      exact Store.Same.refl store other

theorem Store.not_same_of_new {dir : ProblemDir Problem}
    (missing : store.dir id = none) (found : final.dir id = some dir) :
    ¬ store.Same final := by
  intro same
  have own := same id
  rw [missing, found] at own
  cases own

/-! ## What each part of the upload leaves -/

theorem uploadLocked_refused (refused : Refused faults id store) :
    Ensures (uploadLocked externals faults id location) store
      (fun result final => (∃ error, result = .error error) ∧ final = store)
      (fun _ final => final = store) := by
  by_cases allowed : isAllowedId id
  swap
  · simp [uploadLocked, isLocked, hasFlag, ensures_validateId, allowed]
  rw [uploadLocked, ensures_bind, ensures_isLocked allowed]
  cases lockedFault : faults (.checkFlag lockedFlag) with
  | some residue => rfl
  | none =>
      by_cases locked : (store.dir id).any (·.hasFlag lockedFlag)
      · simp only [if_pos locked]
        exact ⟨⟨_, rfl⟩, rfl⟩
      · simp only [if_neg locked]
        cases readOnlyFault : faults (.checkFlag readOnlyFlag) with
        | some residue => trivial
        | none =>
            by_cases readOnly : (store.dir id).any (·.hasFlag readOnlyFlag)
            · simp only [readOnly, if_true]
              exact ⟨⟨_, rfl⟩, rfl⟩
            · have unlocked : store.Unlocked id := by
                intro dir found
                rw [found, Option.any_some,
                  ProblemDir.hasFlag_iff (isDirectoryName_reserved _)]
                  at locked readOnly
                exact ⟨locked, readOnly⟩
              simp only [Refused, allowed, lockedFault, readOnlyFault,
                unlocked, Bool.true_eq_false, Option.isSome_none,
                Bool.false_eq_true, not_true_eq_false, false_or, or_false,
                Option.isSome_iff_exists] at refused
              obtain ⟨residue, fault⟩ := refused
              simp only [readOnly, if_false, Bool.false_eq_true,
                resetProblem, ensures_bind, ensures_existsProblem allowed,
                fault]

theorem not_refused (started : ¬ Refused faults id store) :
    isAllowedId id ∧ faults (.checkFlag lockedFlag) = none ∧
      faults (.checkFlag readOnlyFlag) = none ∧
      faults .checkExists = none ∧ store.Unlocked id := by
  simpa only [Refused, not_or, Bool.not_eq_false, Bool.not_eq_true,
    Option.isSome_eq_false_iff, Option.isNone_iff_eq_none, not_not]
    using started

/-- An upload that is not refused gets to its first change. -/
theorem uploadLocked_started (started : ¬ Refused faults id store)
    {normal : StatusResult → Store Problem Tree → Prop}
    {thrown : Exception → Store Problem Tree → Prop} :
    Ensures (uploadLocked externals faults id location) store normal thrown ↔
      Ensures (resetProblem faults id) store
        (fun _ reset => Ensures (storeProblem externals faults id location)
          reset
          (fun _ stored => Ensures (status_ faults id) stored
            (fun status final => normal (.status status) final) thrown)
          thrown)
        thrown := by
  obtain ⟨allowed, lockedFault, readOnlyFault, _, unlocked⟩ :=
    not_refused started
  obtain ⟨locked, readOnly⟩ := unlocked.unprotected
  rw [uploadLocked, ensures_bind, ensures_isLocked allowed]
  simp [lockedFault, readOnlyFault, locked, readOnly]

theorem resetProblem_existing {dir : ProblemDir Problem}
    (allowed : isAllowedId id) (checked : faults .checkExists = none)
    (found : store.dir id = some dir)
    {holds damaged : Store Problem Tree → Prop} :
    Ensures (resetProblem faults id) store
        (fun _ => holds) (fun _ => damaged) ↔
      match faults .removeData with
      | some _ => damaged store
      | none =>
      match faults .removeRevision with
      | some _ => damaged (store.put id { dir with data := none })
      | none =>
      match faults .removeImportResult with
      | some _ => damaged (store.put id
          { dir with data := none, revision := .absent })
      | none => holds (store.put id (.reset (some dir))) := by
  rw [resetProblem, ensures_bind, ensures_existsProblem allowed]
  simp only [checked, found, Option.isSome_some, if_true, ensures_bind,
    ensures_removeFile, Store.update_of_dir _ found, Store.update_put]
  cases faults .removeData <;> cases faults .removeRevision <;>
    cases faults .removeImportResult <;> rfl

theorem resetProblem_new (allowed : isAllowedId id)
    (checked : faults .checkExists = none) (missing : store.dir id = none)
    {holds damaged : Store Problem Tree → Prop} :
    Ensures (resetProblem faults id) store
        (fun _ => holds) (fun _ => damaged) ↔
      match faults .createDirectory with
      | some _ => damaged store
      | none =>
      match faults .createFlags with
      | some _ => damaged (store.put id .created)
      | none => holds (store.put id (.reset none)) := by
  rw [resetProblem, ensures_bind, ensures_existsProblem allowed]
  simp only [checked, missing, Option.isSome_none, Bool.false_eq_true,
    if_false, ensures_bind, ensures_createDirectory, ensures_createFlags,
    Store.create, Store.update_put]
  cases faults .createDirectory <;> cases faults .createFlags <;> rfl

/-- The directory with the archive and its revision in place. -/
def ProblemDir.stored (externals : Externals Directory Problem Tree)
    (location : Directory) (dir : ProblemDir Problem) :
    ProblemDir Problem :=
  { dir with
    data := some (externals.pack location)
    revision := .value (hashRevision externals (externals.pack location)) }

theorem setFlag_withoutDirectory {dir : ProblemDir Problem}
    {normal : Unit → Store Problem Tree → Prop}
    {damaged : Store Problem Tree → Prop}
    (directory : dir.flags = none) :
    Ensures (setFlag_ faults id pendingImportFlag) (store.put id dir)
        normal (fun _ => damaged) ↔ damaged (store.put id dir) := by
  have bare : dir.addFlag pendingImportFlag = dir := by
    cases dir
    simp only at directory
    subst directory
    rfl
  simp only [setFlag_, ensures_fallible, ensures_bind, ensures_openDir,
    Store.dir_put_self, directory, Option.isNone_none, Bool.true_or, if_true,
    ensures_throw, Store.update_put, bare]
  cases faults (.touchFlag pendingImportFlag) with
  | none => rfl
  | some residue => simp

theorem storeProblem_iff {dir : ProblemDir Problem}
    (found : store.dir id = some dir)
    {holds damaged : Store Problem Tree → Prop} :
    Ensures (storeProblem externals faults id location) store
        (fun _ => holds) (fun _ => damaged) ↔
      match faults .pack with
      | some residue => damaged (store.put id
          { dir with data := residue.data })
      | none =>
      match faults .readData with
      | some _ => damaged (store.put id
          { dir with data := some (externals.pack location) })
      | none =>
      match faults .writeRevision with
      | some residue => damaged (store.put id
          { dir with
            data := some (externals.pack location)
            revision := residue.revision })
      | none =>
      match dir.flags with
      | none => damaged (store.put id (dir.stored externals location))
      | some _ =>
      match faults (.touchFlag pendingImportFlag) with
      | some residue => damaged (store.put id
          (if residue.flagCreated
            then (dir.stored externals location).addFlag pendingImportFlag
            else dir.stored externals location))
      | none => holds ((store.put id
          ((dir.stored externals location).addFlag pendingImportFlag)).post
            id) := by
  simp only [storeProblem, ensures_bind, ensures_packContents,
    Store.update_of_dir _ found]
  cases faults .pack with
  | some residue => rfl
  | none =>
      simp only
      rw [ensures_computeHashRevision (Store.dir_put_self ..)]
      cases faults .readData with
      | some residue => rfl
      | none =>
          simp only
          rw [ensures_writeRevision (Store.dir_put_self ..)]
          cases faults .writeRevision with
          | some residue => simp
          | none =>
              simp only [Store.put_put]
              change Ensures (setFlag_ faults id pendingImportFlag)
                (store.put id (dir.stored externals location)) _ _ ↔ _
              have sameFlags : (dir.stored externals location).flags =
                  dir.flags := rfl
              cases directory : dir.flags with
              | none =>
                  rw [directory] at sameFlags
                  exact setFlag_withoutDirectory sameFlags
              | some names =>
                  rw [directory] at sameFlags
                  rw [ensures_setFlag (Store.dir_put_self ..) sameFlags
                    (isDirectoryName_reserved _)]
                  cases faults (.touchFlag pendingImportFlag) with
                  | none => simp [postImport_]
                  | some residue =>
                      cases created : residue.flagCreated <;> simp [created]

theorem flagCasts_iff (names : List FlagName)
    {holds damaged : Store Problem Tree → Prop} :
    Ensures (names.mapM fun flag => do
        validateFlag flag
        return flagCast flag) store (fun _ => holds) (fun _ => damaged) ↔
      if names.all isAllowedFlag then holds store else damaged store := by
  induction names with
  | nil => simp
  | cons flag rest induction =>
      simp only [List.mapM_cons, ensures_bind, ensures_validateFlag,
        ensures_pure, List.all_cons]
      by_cases allowed : isAllowedFlag flag
      · simpa [allowed] using induction
      · simp [allowed]

/-- Reading the status back fails if one of its files can not be read or a
file in the flags directory is not named like a flag. -/
theorem status_iff {dir : ProblemDir Problem} {revision : Revision}
    {names : List FlagName} (found : store.dir id = some dir)
    (stored : dir.revision.read = some revision)
    (directory : dir.flags = some names)
    {holds damaged : Store Problem Tree → Prop} :
    Ensures (status_ faults id) store (fun _ => holds) (fun _ => damaged) ↔
      if faults .readRevision = none ∧ faults .listFlags = none ∧
          names.all isAllowedFlag
      then holds store else damaged store := by
  simp only [status_, ensures_bind, ensures_readRevision found, stored,
    flags_, ensures_fallible, ensures_openDir, found, directory, harmless,
    ensures_pure]
  cases readFault : faults .readRevision with
  | some residue => simp
  | none =>
      cases listFault : faults .listFlags with
      | some residue => simp
      | none =>
          simp only [true_and]
          exact flagCasts_iff names

/-! ## The condition is exact -/

theorem ProblemDir.same_files {dir : ProblemDir Problem}
    {data : Option Bytes} {revision : Slot Revision}
    {importResult : Slot (ImportResult Problem)} :
    dir.Same { data, revision, importResult, flags := dir.flags } ↔
      dir.data = data ∧ dir.revision = revision ∧
        dir.importResult = importResult := by
  constructor
  · intro same
    exact ⟨same.data.symm, same.revision.symm, same.importResult.symm⟩
  · intro given
    obtain ⟨rfl, rfl, rfl⟩ := given
    exact .refl dir

/-- Setting `PENDING_IMPORT` on top goes unnoticed if it was set. -/
theorem ProblemDir.same_flagged {dir after : ProblemDir Problem}
    {names : List FlagName} (directory : dir.flags = some names)
    (flags : after.flags = dir.flags) :
    dir.Same (after.addFlag pendingImportFlag) ↔
      dir.Same after ∧ pendingImportFlag ∈ names := by
  have flagged : ∀ flag, after.Flagged flag ↔ dir.Flagged flag := by
    intro flag
    rw [ProblemDir.Flagged, flags, ProblemDir.Flagged]
  have present : dir.Flagged pendingImportFlag ↔
      pendingImportFlag ∈ names := by
    simp [ProblemDir.Flagged, directory]
  constructor
  · intro same
    refine ⟨⟨same.data, same.revision, same.importResult, by rw [flags],
      flagged⟩, ?_⟩
    rw [← present, ← same.flagged, ProblemDir.flagged_addFlag]
    exact .inr ⟨rfl, by simp [flags, directory]⟩
  · intro given
    obtain ⟨same, member⟩ := given
    refine ⟨same.data, same.revision, same.importResult, ?_, ?_⟩
    · simp [ProblemDir.addFlag, flags]
    · intro flag
      rw [ProblemDir.flagged_addFlag, flagged]
      constructor
      · intro given
        obtain set | ⟨rfl, _⟩ := given
        · exact set
        · exact present.mpr member
      · exact .inl

theorem uploadDone_iff {dir : ProblemDir Problem} {names : List FlagName}
    (directory : dir.flags = some names)
    (holds : dir.Holds externals location) :
    UploadDone externals id location store
        ((store.put id (dir.addFlag pendingImportFlag)).post id) ↔
      ∀ flag ∈ names, flag = pendingImportFlag := by
  have flagged : ∀ flag, (dir.addFlag pendingImportFlag).Flagged flag ↔
      flag ∈ names ∨ flag = pendingImportFlag := by
    intro flag
    rw [ProblemDir.flagged_addFlag]
    simp [ProblemDir.Flagged, directory]
  constructor
  · intro given flag member
    obtain ⟨⟨dir', found, _, _, _, exact_⟩, _, _⟩ := given
    rw [Store.dir_post, Store.dir_put_self, Option.some.injEq] at found
    subst found
    exact (exact_ flag).mp ((flagged flag).mpr (.inl member))
  · intro only
    refine ⟨⟨dir.addFlag pendingImportFlag, by simp, holds.1, holds.2.1,
      holds.2.2, ?_⟩, rfl, ?_⟩
    · intro flag
      rw [flagged]
      exact ⟨fun set => set.elim (only flag) (fun same => same), .inr⟩
    · intro other different
      simp [different]

/-- What is promised once the flag is set: the answer reads the status. -/
theorem finished_iff {dir : ProblemDir Problem} {names : List FlagName}
    (directory : dir.flags = some names)
    (holds : dir.Holds externals location) :
    Ensures (status_ faults id)
        ((store.put id (dir.addFlag pendingImportFlag)).post id)
        (fun status => Promise externals id location store (.status status))
        (fun _ final => store.Same final) ↔
      if faults .readRevision = none ∧ faults .listFlags = none ∧
          names.all isAllowedFlag
      then ∀ flag ∈ names, flag = pendingImportFlag
      else store.Same (store.put id (dir.addFlag pendingImportFlag)) := by
  have allowed : (names.insert pendingImportFlag).all isAllowedFlag =
      names.all isAllowedFlag := by
    have pending : isAllowedFlag pendingImportFlag := by decide
    by_cases member : pendingImportFlag ∈ names
    · rw [List.insert_of_mem member]
    · rw [List.insert_of_not_mem member, List.all_cons, pending,
        Bool.true_and]
  have found : ((store.put id (dir.addFlag pendingImportFlag)).post id).dir
      id = some (dir.addFlag pendingImportFlag) := by simp
  have read : (dir.addFlag pendingImportFlag).revision.read =
      some (hashRevision externals (externals.pack location)) := by
    rw [ProblemDir.addFlag, holds.2.1]
    rfl
  have listed : (dir.addFlag pendingImportFlag).flags =
      some (names.insert pendingImportFlag) := by
    simp [ProblemDir.addFlag, directory]
  apply (status_iff found read listed).trans
  rw [allowed]
  split
  · exact uploadDone_iff directory holds
  · rfl

theorem existing_iff {dir : ProblemDir Problem}
    (started : ¬ Refused faults id store)
    (found : store.dir id = some dir) :
    LockedKeepsPromise externals faults id location store ↔
      AtomicOver externals faults location dir := by
  obtain ⟨allowed, _, _, checked, _⟩ := not_refused started
  rw [LockedKeepsPromise, uploadLocked_started started,
    resetProblem_existing allowed checked found, AtomicOver]
  cases faults .removeData with
  | some residue => simp [Store.Same.refl]
  | none =>
  simp only
  cases faults .removeRevision with
  | some residue =>
      simp only [Store.same_put found, ProblemDir.same_files, and_true]
  | none =>
  simp only
  cases faults .removeImportResult with
  | some residue =>
      simp only [Store.same_put found, ProblemDir.same_files, and_true]
  | none =>
  simp only [storeProblem_iff (Store.dir_put_self ..), Store.put_put]
  cases faults .pack with
  | some residue =>
      simp only [ProblemDir.reset, Store.same_put found,
        ProblemDir.same_files]
  | none =>
  simp only
  cases faults .readData with
  | some residue =>
      simp only [ProblemDir.reset, Store.same_put found,
        ProblemDir.same_files]
  | none =>
  simp only
  cases faults .writeRevision with
  | some residue =>
      simp only [ProblemDir.reset, Store.same_put found,
        ProblemDir.same_files]
  | none =>
  simp only
  let stored := (ProblemDir.reset (some dir)).stored externals location
  have sameStored : dir.Same stored ↔ dir.Holds externals location :=
    ProblemDir.same_files
  change (match dir.flags with | none => _ | some _ => _) ↔ _
  cases directory : dir.flags with
  | none => exact (Store.same_put found).trans sameStored
  | some names =>
  simp only
  have holds : stored.Holds externals location := ⟨rfl, rfl, rfl⟩
  have flags : stored.flags = dir.flags := rfl
  have sameFlagged := ProblemDir.same_flagged directory flags
  cases faults (.touchFlag pendingImportFlag) with
  | some residue =>
      apply (Store.same_put found).trans
      by_cases created : residue.flagCreated
      · simp only [created, if_true, forall_const]
        exact sameFlagged.trans (and_congr_left fun _ => sameStored)
      · simp only [created, Bool.false_eq_true, if_false, false_implies,
          and_true]
        exact sameStored
  | none =>
      apply (finished_iff (flags.trans directory) holds).trans
      split
      · rfl
      · apply (Store.same_put found).trans
        exact sameFlagged.trans (and_congr_left fun _ => sameStored)

/-- A new problem is only as it was if it has not been created. -/
theorem new_iff (started : ¬ Refused faults id store)
    (missing : store.dir id = none) :
    LockedKeepsPromise externals faults id location store ↔
      AtomicNew faults := by
  obtain ⟨allowed, _, _, checked, _⟩ := not_refused started
  have damaged : ∀ dir, store.Same (store.put id dir) ↔ False := fun dir =>
    iff_false_intro (Store.not_same_of_new missing (Store.dir_put_self ..))
  rw [LockedKeepsPromise, uploadLocked_started started,
    resetProblem_new allowed checked missing, AtomicNew]
  cases faults .createDirectory with
  | some residue => simp [Store.Same.refl]
  | none =>
  cases faults .createFlags with
  | some residue => simp [damaged]
  | none =>
  simp only [storeProblem_iff (Store.dir_put_self ..), Store.put_put]
  cases faults .pack with
  | some residue => simp [damaged]
  | none =>
  cases faults .readData with
  | some residue => simp [damaged]
  | none =>
  cases faults .writeRevision with
  | some residue => simp [damaged]
  | none =>
  let stored := (ProblemDir.reset (none : Option (ProblemDir Problem))).stored
    externals location
  have holds : stored.Holds externals location := ⟨rfl, rfl, rfl⟩
  have directory : stored.flags = some [] := rfl
  simp only [ProblemDir.reset]
  cases faults (.touchFlag pendingImportFlag) with
  | some residue => simp [damaged]
  | none =>
      apply (finished_iff directory holds).trans
      simp [damaged]

theorem locked_iff : LockedKeepsPromise externals faults id location store ↔
    LockedAtomic externals faults id location store := by
  by_cases refused : Refused faults id store
  · refine iff_of_true ?_ (.inl refused)
    apply (uploadLocked_refused refused).mono
    · intro _ final given
      obtain ⟨⟨error, rfl⟩, same⟩ := given
      rw [same]
      exact .refl store
    · intro _ final same
      rw [same]
      exact .refl store
  · rw [LockedAtomic, or_iff_right refused]
    cases found : store.dir id with
    | none => exact new_iff refused found
    | some dir => exact existing_iff refused found

/-- The checks before the lock answer with an error or let the upload go on. -/
theorem uploadCheck_ensures :
    Ensures (uploadCheck externals faults id location) store
      (fun refusal final => final = store ∧ match refusal with
        | some result => ∃ error, result = .error error
        | none => faults .checkFormat = none ∧
            externals.hasFormat location)
      (fun _ final => final = store) := by
  rw [uploadCheck, ensures_bind, ensures_validateId]
  by_cases allowed : isAllowedId id
  swap
  · rw [if_neg allowed]
  rw [if_pos allowed, ensures_bind, ensures_fallible]
  cases faults .checkFormat with
  | some residue => rfl
  | none =>
      simp only [ensures_pure]
      by_cases hasFormat : externals.hasFormat location
      · simp only [hasFormat, Bool.not_true, Bool.false_eq_true, if_false,
          ensures_bind]
        refine ((isLocked_pristine id).ensures store).mono ?_
          (fun _ _ same => same)
        intro locked final same
        cases locked with
        | false => exact ⟨same, trivial, trivial⟩
        | true => exact ⟨same, _, rfl⟩
      · simp only [hasFormat, Bool.not_false, if_true]
        exact ⟨rfl, _, rfl⟩

/-- If the locked section is not refused, neither is the upload before it. -/
theorem upload_started (started : ¬ Refused faults id store)
    (checked : faults .checkFormat = none)
    (hasFormat : externals.hasFormat location)
    {normal : StatusResult → Store Problem Tree → Prop}
    {thrown : Exception → Store Problem Tree → Prop} :
    Ensures (upload externals faults id location) store normal thrown ↔
      Ensures (uploadLocked externals faults id location) store normal
        thrown := by
  obtain ⟨allowed, lockedFault, readOnlyFault, _, unlocked⟩ :=
    not_refused started
  obtain ⟨locked, readOnly⟩ := unlocked.unprotected
  rw [upload, ensures_bind, uploadCheck, ensures_bind, ensures_validateId,
    if_pos allowed, ensures_bind, ensures_fallible]
  simp [checked, hasFormat, ensures_isLocked allowed, lockedFault,
    readOnlyFault, locked, readOnly]

theorem upload_iff : UploadKeepsPromise externals faults id location store ↔
    UploadAtomic externals faults id location store := by
  have atomic : LockedKeepsPromise externals faults id location store ∨
      ¬ (faults .checkFormat = none ∧ externals.hasFormat location) →
        UploadKeepsPromise externals faults id location store := by
    intro kept
    rw [UploadKeepsPromise, upload, ensures_bind]
    apply uploadCheck_ensures.mono
    · intro checked final kept'
      obtain ⟨same, answer⟩ := kept'
      obtain _ | result := checked
      · rw [same]
        exact kept.resolve_right (not_not.mpr answer)
      · obtain ⟨error, rfl⟩ := answer
        rw [same]
        exact Store.Same.refl store
    · intro _ final same
      rw [same]
      exact .refl store
  by_cases format : faults .checkFormat = none ∧ externals.hasFormat location
  · have conditions : UploadAtomic externals faults id location store ↔
        LockedAtomic externals faults id location store := by
      simp [UploadAtomic, format.1, format.2]
    rw [conditions, ← locked_iff]
    by_cases refused : Refused faults id store
    · have kept : LockedKeepsPromise externals faults id location store :=
        locked_iff.mpr (.inl refused)
      exact iff_of_true (atomic (.inl kept)) kept
    · exact upload_started refused format.1 format.2
  · apply iff_of_true (atomic (.inr format))
    cases checked : faults .checkFormat with
    | some residue => exact .inl (by simp [checked])
    | none =>
        refine .inr (.inl ?_)
        simpa [checked] using format

/-! ## The status of all problems after atomic uploads -/

theorem ProblemDir.Same.complete {before after : ProblemDir Problem}
    (same : before.Same after) (complete : Complete id before) :
    Complete id after := by
  obtain ⟨⟨allowed, names, directory, valid⟩, stored⟩ := complete
  refine ⟨⟨allowed, ?_⟩, by rwa [same.revision]⟩
  have present : after.flags.isSome := by rw [same.directory, directory]; rfl
  obtain ⟨names', directory'⟩ := Option.isSome_iff_exists.mp present
  refine ⟨names', directory', fun flag member => ?_⟩
  obtain ⟨names'', directory'', member''⟩ :=
    (same.flagged flag).mp ⟨names', directory', member⟩
  rw [directory, Option.some.injEq] at directory''
  subst directory''
  exact valid flag member''

theorem Store.Same.complete (same : store.Same final)
    (complete : store.All Complete) : final.All Complete := by
  intro other dir found
  have own := same other
  rw [found] at own
  cases stored : store.dir other with
  | none =>
      rw [stored] at own
      cases own
  | some before =>
      rw [stored] at own
      cases own with
      | some own => exact own.complete (complete other before stored)

theorem UploadDone.complete (allowed : isAllowedId id)
    (done : UploadDone externals id location store final)
    (complete : store.All Complete) : final.All Complete := by
  intro other dir found
  by_cases own : other = id
  · subst other
    obtain ⟨dir', found', _, revision, _, flagged⟩ := done.stored
    rw [found, Option.some.injEq] at found'
    subst found'
    obtain ⟨names, directory, _⟩ := (flagged _).mpr rfl
    refine ⟨⟨allowed, names, directory, fun flag member => ?_⟩, ?_⟩
    · rw [(flagged flag).mp ⟨names, directory, member⟩]
      decide
    · rw [revision]
      rfl
  · rw [done.others other own] at found
    exact complete other dir found

theorem uploadLocked_keepsComplete
    (atomic : LockedAtomic externals faults id location store)
    (complete : store.All Complete) :
    (after (uploadLocked externals faults id location) store).All
      Complete := by
  by_cases refused : Refused faults id store
  · have same : after (uploadLocked externals faults id location) store =
        store := after_of_ensures (· = store)
          ((uploadLocked_refused refused).mono (fun _ _ ended => ended.2)
            (fun _ _ same => same))
    rw [same]
    exact complete
  · have allowed := (not_refused refused).1
    refine after_of_ensures (·.All Complete)
      ((locked_iff.mpr atomic).mono ?_ ?_)
    · intro result final promise
      cases result with
      | error error => exact Store.Same.complete promise complete
      | status status => exact UploadDone.complete allowed promise complete
    · exact fun _ final same => Store.Same.complete same complete

/-- Every upload that takes the lock is atomic. -/
def UploadsAtomic (externals : Externals Directory Problem Tree)
    (system : System Directory Problem Tree) :
    Action Directory Problem → Prop
  | .uploadLocked thread faults => ∀ id location,
      system.tasks thread = .uploading id location →
        LockedAtomic externals faults id location system.store
  | _ => True

/-- An upload to an id that can be that of a problem keeps its promise exactly
under the condition, and if every upload of a run meets it, the status of all
problems can be read. -/
theorem upload_atomic (externals : Externals Directory Problem Tree) :
    (∀ faults id location (store : Store Problem Tree),
      isDirectoryName id = false →
      (UploadKeepsPromise externals faults id location store ↔
        UploadAtomic externals faults id location store)) ∧
    (∀ system : System Directory Problem Tree,
      Runs (step externals) (fun system action =>
        action.Named ∧ action.RevisionsSurvive ∧
          UploadsAtomic externals system action) .initial system →
      ∃ statusMap,
        statusAll noFaults system.store = .ok statusMap system.store) := by
  refine ⟨fun _ _ _ _ _ => upload_iff, fun system run => ?_⟩
  let complete (system : System Directory Problem Tree) : Prop :=
    system.store.All Complete
  have complete : complete system := by
    apply run.invariant initial_complete
    intro before action after complete permitted taken
    obtain ⟨_, survives, atomic⟩ := permitted
    refine step_complete survives taken ?_ complete
    intro thread faults id location given task
    subst given
    exact uploadLocked_keepsComplete (atomic id location task) complete
  have contract : Ensures (statusAll noFaults) system.store _
      (fun _ _ => False) := statusAll_ensures complete
  cases run : statusAll noFaults system.store with
  | ok statusMap final =>
      obtain ⟨rfl, _⟩ := contract.of_ok run
      exact ⟨statusMap, rfl⟩
  | error exception final => exact (contract.of_error run).elim

theorem upload_atomic_sample :
    UploadKeepsPromise Sample.configuration noFaults "p" true
      (Sample.reach Sample.importRun).store ∧
    ∃ statusMap,
      statusAll noFaults (Sample.reach (Sample.importRun.take 2)).store =
        .ok statusMap (Sample.reach (Sample.importRun.take 2)).store := by
  have existing : (Sample.reach Sample.importRun).store.dir "p" = some
      { data := some [1]
        revision := .value (hashRevision Sample.configuration [1])
        importResult := .value (.problem true)
        flags := some [] } := by decide
  have atomic : UploadAtomic Sample.configuration noFaults "p" true
      (Sample.reach Sample.importRun).store := by
    refine .inr (.inr (.inr ?_))
    simp [existing, AtomicOver]
  refine ⟨((upload_atomic Sample.configuration).1 _ _ _ _ (by decide)).mpr
    atomic, ?_⟩
  have checked : Runs (step Sample.configuration) (fun system action =>
      action.Named ∧ action.RevisionsSurvive ∧
        UploadsAtomic Sample.configuration system action) .initial
      (Sample.reach (Sample.importRun.take 1)) := by
    apply Sample.reach_run rfl
    intro state action member
    cases List.mem_singleton.mp member
    exact ⟨by decide, trivial, trivial⟩
  have missing :
      (Sample.reach (Sample.importRun.take 1)).store.dir "p" = none := rfl
  have permitted : Action.Named (.uploadLocked 0 noFaults : Action Bool Bool) ∧
      Action.RevisionsSurvive
        (.uploadLocked 0 noFaults : Action Bool Bool) ∧
      UploadsAtomic Sample.configuration
        (Sample.reach (Sample.importRun.take 1))
        (.uploadLocked 0 noFaults) := by
    refine ⟨by decide, trivial, ?_⟩
    intro id location task
    cases task
    refine .inr ?_
    simp [missing, AtomicNew]
  exact (upload_atomic Sample.configuration).2 _
    (checked.trans (Runs.single permitted rfl))

def Sample.packFails : Faults Bool
  | .pack => some
      { data := none, revision := .absent, importResult := .absent
        flagCreated := false }
  | _ => none

theorem upload_not_atomic :
    ¬ ∀ faults id location, UploadKeepsPromise Sample.configuration faults id
      location (Sample.reach Sample.importRun).store := by
  intro promise
  have same := (promise Sample.packFails "p" true).of_error rfl "p"
  have before : (Sample.reach Sample.importRun).store.dir "p" = some
      { data := some [1]
        revision := .value (hashRevision Sample.configuration [1])
        importResult := .value (.problem true)
        flags := some [] } := by decide
  rw [before] at same
  cases same with
  | some same => cases same.data

end Bacs.Archive
