import Bacs.Archive.Repository

/-!
# What the sections of the repository's operations do to the storage

The lookups only read.  For the sections that write, a `keeps` lemma reduces
a property of the storage to the single updates the section can make,
whichever of its operations fail, and an `ensures` lemma states what the
section has achieved when it ends normally.
-/

namespace Bacs.Archive

open Foundation

variable {Directory Problem Tree : Type}
variable {externals : Externals Directory Problem Tree}
  {faults : Faults Problem}
variable {holds : Store Problem Tree → Prop}

/-! ## Lookups -/

theorem fallible_keeps {α : Type} {operation : FileOperation}
    {damage : Residue Problem → Store Problem Tree → Store Problem Tree}
    {action : RepositoryM Problem Tree α}
    (damaged : ∀ residue store, faults operation = some residue →
      holds store → holds (damage residue store))
    (kept : Keeps holds action) :
    Keeps holds (fallible faults operation damage action) := by
  unfold fallible
  cases fault : faults operation with
  | none => exact kept
  | some residue =>
      exact (Keeps.modify fun store => damaged residue store fault).bind
        fun _ => Keeps.throw _

theorem harmless_keeps {α : Type} {operation : FileOperation}
    {action : RepositoryM Problem Tree α} (kept : Keeps holds action) :
    Keeps holds (fallible faults operation harmless action) :=
  fallible_keeps (fun _ _ _ held => held) kept

theorem openDir_keeps (operation : FileOperation) (id : ProblemId) :
    Keeps holds (openDir operation id : RepositoryM Problem Tree _) := by
  refine Keeps.get.bind fun store => ?_
  cases store.dir id with
  | none => exact Keeps.throw _
  | some dir => exact Keeps.pure dir

theorem validateId_pristine (id : ProblemId) :
    Pristine (validateId id : RepositoryM Problem Tree Unit) :=
  fun _ => Keeps.ite (Keeps.pure _) (Keeps.throw _)

theorem validateFlag_pristine (flag : FlagName) :
    Pristine (validateFlag flag : RepositoryM Problem Tree Unit) :=
  fun _ => Keeps.ite (Keeps.pure _) (Keeps.throw _)

theorem computeHashRevision_pristine (id : ProblemId) :
    Pristine (computeHashRevision externals faults id) := by
  intro holds
  refine harmless_keeps ((openDir_keeps _ _).bind fun dir => ?_)
  cases dir.data with
  | none => exact Keeps.throw _
  | some contents => exact Keeps.pure _

theorem readRevision_pristine (id : ProblemId) :
    Pristine (readRevision_ faults id :
      RepositoryM Problem Tree Revision) := by
  intro holds
  refine harmless_keeps ((openDir_keeps _ _).bind fun dir => ?_)
  cases dir.revision.read with
  | none => exact Keeps.throw _
  | some revision => exact Keeps.pure _

theorem existsProblem_pristine (id : ProblemId) :
    Pristine (existsProblem faults id : RepositoryM Problem Tree Bool) :=
  fun _ => (validateId_pristine id _).bind fun _ =>
    harmless_keeps (Keeps.get.bind fun _ => Keeps.pure _)

theorem hasFlag_pristine (id : ProblemId) (flag : FlagName) :
    Pristine (hasFlag faults id flag : RepositoryM Problem Tree Bool) := by
  intro holds
  refine (validateId_pristine id _).bind fun _ => ?_
  refine (validateFlag_pristine flag _).bind fun _ => ?_
  refine harmless_keeps (Keeps.get.bind fun store => ?_)
  cases store.dir id <;> exact Keeps.pure _

theorem isLocked_pristine (id : ProblemId) :
    Pristine (isLocked faults id : RepositoryM Problem Tree Bool) :=
  fun _ => (hasFlag_pristine id _ _).bind fun _ =>
    Keeps.ite (Keeps.pure _) (hasFlag_pristine id _ _)

theorem flags_pristine (id : ProblemId) :
    Pristine (flags_ faults id : RepositoryM Problem Tree FlagSet) := by
  intro holds
  refine harmless_keeps ((openDir_keeps _ _).bind fun dir => ?_)
  cases dir.flags with
  | none => exact Keeps.throw _
  | some names =>
      exact Keeps.mapM fun flag _ =>
        (validateFlag_pristine flag _).bind fun _ => Keeps.pure _

theorem status_pristine (id : ProblemId) :
    Pristine (status_ faults id : RepositoryM Problem Tree Status) :=
  fun _ => (readRevision_pristine id _).bind fun _ =>
    (flags_pristine id _).bind fun _ => Keeps.pure _

theorem download_pristine (id : ProblemId) :
    Pristine (download_ externals faults id) := by
  intro holds
  refine harmless_keeps ((openDir_keeps _ _).bind fun dir => ?_)
  cases dir.data.bind externals.unpack with
  | none => exact Keeps.throw _
  | some contents => exact Keeps.pure _

theorem uploadCheck_pristine (id : ProblemId) (location : Directory) :
    Pristine (uploadCheck externals faults id location) := by
  intro holds
  refine (validateId_pristine id _).bind fun _ => ?_
  refine (harmless_keeps (Keeps.pure _)).bind fun hasFormat => ?_
  refine Keeps.ite (Keeps.pure _) ((isLocked_pristine id _).bind fun _ => ?_)
  exact Keeps.ite (Keeps.pure _) (Keeps.pure _)

/-! ## Contracts of the single operations -/

section Contracts

variable {store : Store Problem Tree} {id : ProblemId} {flag : FlagName}
  {thrown : Exception → Store Problem Tree → Prop}

theorem ensures_fallible {α : Type} {operation : FileOperation}
    {damage : Residue Problem → Store Problem Tree → Store Problem Tree}
    {action : RepositoryM Problem Tree α}
    {normal : α → Store Problem Tree → Prop} :
    Ensures (fallible faults operation damage action) store normal thrown ↔
      match faults operation with
      | none => Ensures action store normal thrown
      | some residue =>
          thrown (.fileSystem operation) (damage residue store) := by
  unfold fallible
  cases faults operation with
  | none => exact Iff.rfl
  | some residue => simp

theorem ensures_openDir {operation : FileOperation}
    {normal : ProblemDir Problem → Store Problem Tree → Prop} :
    Ensures (openDir operation id) store normal thrown ↔
      match store.dir id with
      | none => thrown (.fileSystem operation) store
      | some dir => normal dir store := by
  unfold openDir
  rw [ensures_bind, ensures_get]
  cases store.dir id <;> simp

theorem ensures_validateId {normal : Unit → Store Problem Tree → Prop} :
    Ensures (validateId id) store normal thrown ↔
      if isAllowedId id then normal () store
      else thrown (.invalidId id) store := by
  unfold validateId
  split <;> simp

theorem ensures_validateFlag {normal : Unit → Store Problem Tree → Prop} :
    Ensures (validateFlag flag) store normal thrown ↔
      if isAllowedFlag flag then normal () store
      else thrown (.invalidFlag flag) store := by
  unfold validateFlag
  split <;> simp

theorem ensures_existsProblem {normal : Bool → Store Problem Tree → Prop}
    (allowed : isAllowedId id) :
    Ensures (existsProblem faults id) store normal thrown ↔
      match faults .checkExists with
      | none => normal (store.dir id).isSome store
      | some _ => thrown (.fileSystem .checkExists) store := by
  simp [existsProblem, ensures_validateId, allowed, ensures_fallible,
    harmless]

theorem ensures_hasFlag {normal : Bool → Store Problem Tree → Prop}
    (allowed : isAllowedId id) (allowedFlag : isAllowedFlag flag) :
    Ensures (hasFlag faults id flag) store normal thrown ↔
      match faults (.checkFlag flag) with
      | none => normal ((store.dir id).any (·.hasFlag flag)) store
      | some _ => thrown (.fileSystem (.checkFlag flag)) store := by
  simp only [hasFlag, ensures_bind, ensures_validateId, allowed, if_true,
    ensures_validateFlag, allowedFlag, ensures_fallible, harmless,
    ensures_get]
  cases store.dir id <;> simp

theorem ensures_removeFile {operation : FileOperation}
    {change : ProblemDir Problem → ProblemDir Problem}
    {normal : Unit → Store Problem Tree → Prop} :
    Ensures (removeFile faults operation id change) store normal thrown ↔
      match faults operation with
      | none => normal () (store.update id change)
      | some _ => thrown (.fileSystem operation) store := by
  simp [removeFile, ensures_fallible, harmless]

theorem ensures_createDirectory {normal : Unit → Store Problem Tree → Prop} :
    Ensures (createDirectory faults id) store normal thrown ↔
      match faults .createDirectory with
      | none => normal () (store.create id)
      | some _ => thrown (.fileSystem .createDirectory) store := by
  simp [createDirectory, ensures_fallible, harmless]

theorem ensures_createFlags {normal : Unit → Store Problem Tree → Prop} :
    Ensures (createFlags faults id) store normal thrown ↔
      match faults .createFlags with
      | none => normal () (store.update id fun dir =>
          { dir with flags := some [] })
      | some _ => thrown (.fileSystem .createFlags) store := by
  simp [createFlags, ensures_fallible, harmless]

theorem ensures_packContents {location : Directory}
    {normal : Unit → Store Problem Tree → Prop} :
    Ensures (packContents externals faults id location) store normal thrown ↔
      match faults .pack with
      | none => normal () (store.update id fun dir =>
          { dir with data := some (externals.pack location) })
      | some residue => thrown (.fileSystem .pack)
          (store.update id fun dir => { dir with data := residue.data }) := by
  simp [packContents, ensures_fallible]

variable {dir : ProblemDir Problem}

theorem ensures_computeHashRevision
    {normal : Revision → Store Problem Tree → Prop}
    (found : store.dir id = some dir) :
    Ensures (computeHashRevision externals faults id) store normal thrown ↔
      match faults .readData, dir.data with
      | none, some contents => normal (hashRevision externals contents) store
      | _, _ => thrown (.fileSystem .readData) store := by
  simp only [computeHashRevision, ensures_fallible, ensures_bind,
    ensures_openDir, found, harmless]
  cases faults .readData <;> cases dir.data <;> simp

theorem ensures_readRevision
    {normal : Revision → Store Problem Tree → Prop}
    (found : store.dir id = some dir) :
    Ensures (readRevision_ faults id) store normal thrown ↔
      match faults .readRevision, dir.revision.read with
      | none, some revision => normal revision store
      | none, none => thrown (.parse .readRevision) store
      | some _, _ => thrown (.fileSystem .readRevision) store := by
  simp only [readRevision_, ensures_fallible, ensures_bind,
    ensures_openDir, found, harmless]
  cases faults .readRevision <;> cases dir.revision.read <;> simp

theorem ensures_writeRevision {revision : Revision}
    {normal : Unit → Store Problem Tree → Prop}
    (found : store.dir id = some dir) :
    Ensures (writeRevision_ faults id revision) store normal thrown ↔
      match faults .writeRevision with
      | none => normal () (store.put id { dir with revision := .value revision })
      | some residue => thrown (.fileSystem .writeRevision)
          (store.put id { dir with revision := residue.revision }) := by
  simp only [writeRevision_, ensures_fallible, ensures_bind,
    ensures_openDir, found, ensures_modify, Store.update_of_dir _ found]

theorem ensures_writeImportResult {result : ImportResult Problem}
    {normal : Unit → Store Problem Tree → Prop}
    (found : store.dir id = some dir) :
    Ensures (writeImportResult_ faults id result) store normal thrown ↔
      match faults .writeImportResult with
      | none =>
          normal () (store.put id { dir with importResult := .value result })
      | some residue => thrown (.fileSystem .writeImportResult)
          (store.put id { dir with importResult := residue.importResult }) := by
  simp only [writeImportResult_, ensures_fallible, ensures_bind,
    ensures_openDir, found, ensures_modify, Store.update_of_dir _ found]

theorem ensures_setFlag {normal : Unit → Store Problem Tree → Prop}
    {names : List FlagName} (found : store.dir id = some dir)
    (directory : dir.flags = some names)
    (proper : isDirectoryName flag = false) :
    Ensures (setFlag_ faults id flag) store normal thrown ↔
      match faults (.touchFlag flag) with
      | none => normal () (store.put id (dir.addFlag flag))
      | some residue => thrown (.fileSystem (.touchFlag flag))
          (if residue.flagCreated then store.put id (dir.addFlag flag)
          else store) := by
  simp only [setFlag_, ensures_fallible, ensures_bind, ensures_openDir, found,
    directory, proper, Option.isNone_some, Bool.or_false, Bool.not_false,
    Bool.and_true, Bool.false_eq_true, if_false, ensures_modify,
    Store.update_of_dir _ found]

theorem ensures_unsetFlag {normal : Unit → Store Problem Tree → Prop}
    {names : List FlagName} (found : store.dir id = some dir)
    (directory : dir.flags = some names)
    (proper : isDirectoryName flag = false) :
    Ensures (unsetFlag_ faults id flag) store normal thrown ↔
      match faults (.removeFlag flag) with
      | none => normal () (store.put id (dir.removeFlag flag))
      | some _ => thrown (.fileSystem (.removeFlag flag)) store := by
  simp only [unsetFlag_, ensures_fallible, ensures_bind, ensures_get, found,
    Option.bind_some, directory, proper, Bool.false_eq_true, if_false,
    ensures_modify, Store.update_of_dir _ found, harmless]

theorem flagCasts_ensures {names : List FlagName}
    (allowed : ∀ flag ∈ names, isAllowedFlag flag) :
    Ensures (names.mapM fun flag => do
        validateFlag flag
        return flagCast flag) store
      (fun flags final => flags = names.map flagCast ∧ final = store)
      thrown := by
  induction names with
  | nil => exact ⟨rfl, rfl⟩
  | cons flag rest induction =>
      rw [List.forall_mem_cons] at allowed
      simp only [List.mapM_cons, ensures_bind, ensures_validateFlag,
        allowed.1, if_true, ensures_pure]
      refine (induction allowed.2).mono ?_ (fun _ _ stopped => stopped)
      intro flags _ given
      obtain ⟨rfl, rfl⟩ := given
      simp

theorem flags_ensures {names : List FlagName}
    (found : store.dir id = some dir) (directory : dir.flags = some names)
    (allowed : ∀ flag ∈ names, isAllowedFlag flag)
    (listed : faults .listFlags = none) :
    Ensures (flags_ faults id) store
      (fun flags final => flags = names.map flagCast ∧ final = store)
      thrown := by
  simp only [flags_, ensures_fallible, listed, ensures_bind, ensures_openDir,
    found, directory]
  exact flagCasts_ensures allowed

end Contracts

/-! ## Sections that change flags -/

/-- The request has passed the checks of its flags. -/
def FlagEdit.Valid : FlagEdit → Prop
  | .setFlag flag => isAllowedFlag flag ∧ flag ≠ pendingImportFlag
  | .setFlags flags => isAllowedFlagSet flags
  | .unsetFlag flag => isAllowedFlag flag
  | .unsetFlags flags => isAllowedFlagSet flags
  | .clearFlags => True

/-- The flags that the edit sets on a problem that is not read-only: those
asked for, up to the first one that can not be set. -/
def FlagEdit.Adds (edit : FlagEdit) (flag : FlagName) : Prop :=
  edit.Valid ∧ match edit with
    | .setFlag asked => flag = asked ∧ isDirectoryName flag = false
    | .setFlags asked =>
        flag ∈ (asked.map Flag.toName).takeWhile (!isDirectoryName ·)
    | _ => False

def FlagEdit.Removes (edit : FlagEdit) (flag : FlagName) : Prop :=
  isDirectoryName flag = false ∧ edit.Valid ∧ match edit with
    | .unsetFlag asked => flag = asked ∧ flag = ignoreFlag
    | .unsetFlags asked => flag ∈ asked.map Flag.toName ∧
        flag ≠ ignoreFlag ∧ flag ≠ pendingImportFlag
    | .clearFlags => flag ≠ ignoreFlag ∧ flag ≠ pendingImportFlag
    | _ => False

theorem FlagEdit.Adds.allowed {edit : FlagEdit} {flag : FlagName}
    (adds : edit.Adds flag) : isAllowedFlag flag := by
  obtain ⟨valid, asked⟩ := adds
  cases edit with
  | setFlag name =>
      rw [asked.1]
      exact valid.1
  | setFlags flags =>
      have member := List.takeWhile_subset _ asked
      rw [List.mem_map] at member
      obtain ⟨flag, member, rfl⟩ := member
      exact List.all_eq_true.mp valid flag member
  | _ => exact asked.elim

theorem FlagEdit.Removes.ne_pending {edit : FlagEdit} {flag : FlagName}
    (removes : edit.Removes flag) : flag ≠ pendingImportFlag := by
  obtain ⟨_, _, removes⟩ := removes
  cases edit with
  | unsetFlag asked =>
      rw [removes.2]
      decide
  | unsetFlags asked => exact removes.2.2
  | clearFlags => exact removes.2
  | _ => exact removes.elim

theorem setFlag_keeps {id : ProblemId} {flag : FlagName}
    (added : isDirectoryName flag = false → ∀ store, holds store →
      holds (store.update id (·.addFlag flag))) :
    Keeps holds (setFlag_ faults id flag :
      RepositoryM Problem Tree Unit) := by
  refine fallible_keeps ?_ ((openDir_keeps _ _).bind fun dir => ?_)
  · intro residue store _ held
    by_cases created : residue.flagCreated && !isDirectoryName flag
    · rw [if_pos created]
      simp only [Bool.and_eq_true, Bool.not_eq_true'] at created
      exact added created.2 store held
    · rw [if_neg created]
      exact held
  · by_cases refused : dir.flags.isNone || isDirectoryName flag
    · rw [if_pos refused]
      exact Keeps.throw _
    · rw [if_neg refused]
      simp only [Bool.or_eq_true, not_or, Bool.not_eq_true] at refused
      exact Keeps.modify (added refused.2)

theorem unsetFlag_keeps {id : ProblemId} {flag : FlagName}
    (removed : isDirectoryName flag = false → ∀ store, holds store →
      holds (store.update id (·.removeFlag flag))) :
    Keeps holds (unsetFlag_ faults id flag :
      RepositoryM Problem Tree Unit) := by
  refine harmless_keeps (Keeps.get.bind fun store => ?_)
  cases (store.dir id).bind (·.flags) with
  | none => exact Keeps.pure _
  | some names =>
      by_cases improper : isDirectoryName flag
      · rw [if_pos improper]
        exact Keeps.throw _
      · rw [if_neg improper]
        exact Keeps.modify (removed (by simpa using improper))

theorem validateFlagSet_ensures (flags : FlagSet)
    (store : Store Problem Tree) :
    Ensures (validateFlagSet flags) store
      (fun _ final => final = store ∧ isAllowedFlagSet flags)
      (fun _ final => final = store) := by
  induction flags with
  | nil => simp [validateFlagSet, isAllowedFlagSet]
  | cons flag rest induction =>
      change Ensures (validateFlag flag.toName >>= fun _ =>
        validateFlagSet rest) store _ _
      rw [ensures_bind, ensures_validateFlag]
      by_cases allowed : isAllowedFlag flag.toName
      · rw [if_pos allowed]
        refine induction.mono ?_ (fun _ _ stopped => stopped)
        intro _ final ended
        refine ⟨ended.1, ?_⟩
        simpa [isAllowedFlagSet, allowed] using ended.2
      · rw [if_neg allowed]

theorem FlagEdit.validate_ensures (edit : FlagEdit)
    (store : Store Problem Tree) :
    Ensures edit.validate store
      (fun _ final => final = store ∧ edit.Valid)
      (fun _ final => final = store) := by
  cases edit with
  | setFlag flag =>
      simp only [FlagEdit.validate, FlagEdit.Valid, ensures_bind,
        ensures_validateFlag]
      by_cases allowed : isAllowedFlag flag
      · rw [if_pos allowed]
        by_cases pending : flag = pendingImportFlag
        · simp [pending]
        · simp [allowed, pending]
      · simp [allowed]
  | setFlags flags => exact validateFlagSet_ensures flags store
  | unsetFlag flag =>
      simp only [FlagEdit.validate, FlagEdit.Valid, ensures_validateFlag]
      by_cases allowed : isAllowedFlag flag <;> simp [allowed]
  | unsetFlags flags => exact validateFlagSet_ensures flags store
  | clearFlags => exact ⟨rfl, trivial⟩

/-- Nothing is at the path of a flag named `.` or `..` that could be opened
for writing. -/
theorem setFlag_improper {id : ProblemId} {flag : FlagName}
    (improper : isDirectoryName flag) (store : Store Problem Tree) :
    Ensures (setFlag_ faults id flag) store
      (fun _ _ => False) (fun _ final => final = store) := by
  rw [setFlag_, ensures_fallible]
  cases faults (.touchFlag flag) with
  | some residue => simp [improper]
  | none =>
      rw [ensures_bind, ensures_openDir]
      cases store.dir id with
      | none => rfl
      | some dir => simp [improper]

theorem setFlags_keeps {id : ProblemId} {flags : FlagSet}
    (added : ∀ flag ∈ (flags.map Flag.toName).takeWhile (!isDirectoryName ·),
      ∀ store, holds store → holds (store.update id (·.addFlag flag))) :
    Keeps holds (flags.forM fun flag => setFlag_ faults id flag.toName :
      RepositoryM Problem Tree Unit) := by
  induction flags with
  | nil => exact Keeps.pure _
  | cons flag rest induction =>
      change Keeps holds (setFlag_ faults id flag.toName >>= fun _ =>
        rest.forM fun flag => setFlag_ faults id flag.toName)
      by_cases improper : isDirectoryName flag.toName
      · intro store held
        rw [ensures_bind]
        apply (setFlag_improper improper store).mono
        · exact fun _ _ impossible => impossible.elim
        · intro _ _ given
          subst given
          exact held
      · rw [Bool.not_eq_true] at improper
        rw [List.map_cons, List.takeWhile_cons_of_pos (by simp [improper])]
          at added
        have first := added flag.toName List.mem_cons_self
        refine (setFlag_keeps fun _ => first).bind fun _ => ?_
        exact induction fun other member =>
          added other (List.mem_cons_of_mem _ member)

theorem unsetFlag_improper {id : ProblemId} {flag : FlagName}
    {store : Store Problem Tree} {dir : ProblemDir Problem}
    {names : List FlagName} (improper : isDirectoryName flag)
    (found : store.dir id = some dir) (directory : dir.flags = some names) :
    Ensures (unsetFlag_ faults id flag) store
      (fun _ _ => False) (fun _ final => final = store) := by
  rw [unsetFlag_, ensures_fallible]
  cases faults (.removeFlag flag) with
  | some residue => rfl
  | none =>
      rw [ensures_bind, ensures_get]
      simp [found, directory, improper]

/-- The flags that `unset_flags` gets to. -/
def removals (flags : FlagSet) : List FlagName :=
  ((flags.map Flag.toName).filter fun flag =>
    flag ≠ ignoreFlag ∧ flag ≠ pendingImportFlag).takeWhile
      (!isDirectoryName ·)

/-- On a problem with a flags directory, `unset_flags` stops at the first
flag that can not be removed. -/
theorem unsetFlags_keeps {id : ProblemId} {flags : FlagSet}
    (directory : ∀ store, holds store → ∃ dir names,
      store.dir id = some dir ∧ dir.flags = some names)
    (removed : ∀ flag ∈ removals flags, ∀ store, holds store →
      holds (store.update id (·.removeFlag flag))) :
    Keeps holds (FlagEdit.perform faults id (.unsetFlags flags) :
      RepositoryM Problem Tree Unit) := by
  induction flags with
  | nil => exact Keeps.pure _
  | cons flag rest induction =>
      change Keeps holds
        ((if flag.toName ≠ ignoreFlag ∧ flag.toName ≠ pendingImportFlag
          then unsetFlag_ faults id flag.toName else pure ()) >>= fun _ =>
            FlagEdit.perform faults id (.unsetFlags rest))
      by_cases removable :
          flag.toName ≠ ignoreFlag ∧ flag.toName ≠ pendingImportFlag
      · rw [if_pos removable]
        rw [removals, List.map_cons, List.filter_cons_of_pos
          (by simpa using removable)] at removed
        by_cases improper : isDirectoryName flag.toName
        · intro store held
          obtain ⟨dir, names, found, names'⟩ := directory store held
          rw [ensures_bind]
          apply (unsetFlag_improper improper found names').mono
          · exact fun _ _ impossible => impossible.elim
          · intro _ _ given
            subst given
            exact held
        · rw [Bool.not_eq_true] at improper
          rw [List.takeWhile_cons_of_pos (by simp [improper])] at removed
          have first := removed flag.toName List.mem_cons_self
          refine (unsetFlag_keeps fun _ => first).bind fun _ => ?_
          exact induction fun other member =>
            removed other (List.mem_cons_of_mem _ member)
      · rw [if_neg removable]
        rw [removals, List.map_cons, List.filter_cons_of_neg
          (by simpa using removable)] at removed
        exact (Keeps.pure _).bind fun _ => induction removed

theorem FlagEdit.perform_keeps {id : ProblemId} {edit : FlagEdit}
    (valid : edit.Valid)
    (added : ∀ flag store, edit.Adds flag → holds store →
      holds (store.update id (·.addFlag flag)))
    (removed : ∀ flag store, edit.Removes flag → holds store →
      holds (store.update id (·.removeFlag flag))) :
    Keeps holds (edit.perform faults id :
      RepositoryM Problem Tree Unit) := by
  cases edit with
  | setFlag flag =>
      exact setFlag_keeps fun proper store =>
        added flag store ⟨valid, rfl, proper⟩
  | setFlags flags =>
      exact setFlags_keeps fun flag member store =>
        added flag store ⟨valid, member⟩
  | unsetFlag flag =>
      refine Keeps.ite' ?_ (fun _ => Keeps.pure _)
      intro ignored
      exact unsetFlag_keeps fun proper store =>
        removed flag store ⟨proper, valid, rfl, ignored⟩
  | unsetFlags flags =>
      refine Keeps.forM fun flag member => Keeps.ite' ?_ fun _ => Keeps.pure _
      intro removable
      exact unsetFlag_keeps fun proper store => removed _ store
        ⟨proper, valid, List.mem_map_of_mem member, removable⟩
  | clearFlags =>
      refine harmless_keeps ((openDir_keeps _ _).bind fun dir => ?_)
      cases dir.flags with
      | none => exact Keeps.throw _
      | some names =>
          refine Keeps.forM fun flag _ => Keeps.ite' ?_ fun _ => Keeps.pure _
          intro removable
          exact unsetFlag_keeps fun proper store =>
            removed _ store ⟨proper, valid, removable⟩

theorem editFlagsCheck_ensures (id : ProblemId) (edit : FlagEdit)
    (store : Store Problem Tree) :
    Ensures (editFlagsCheck faults id edit) store
      (fun _ final => final = store ∧ isAllowedId id ∧ edit.Valid)
      (fun _ final => final = store) := by
  rw [editFlagsCheck, ensures_bind, ensures_validateId]
  by_cases allowed : isAllowedId id
  · rw [if_pos allowed, ensures_bind]
    refine (edit.validate_ensures store).mono ?_ (fun _ _ stopped => stopped)
    intro _ _ given
    obtain ⟨rfl, valid⟩ := given
    rw [ensures_existsProblem allowed]
    cases faults .checkExists with
    | none => exact ⟨rfl, allowed, valid⟩
    | some residue => rfl
  · rw [if_neg allowed]

theorem editFlags_keeps_of_perform {id : ProblemId} {edit : FlagEdit}
    (performed : edit.Valid → Keeps holds (edit.perform faults id :
      RepositoryM Problem Tree Unit)) :
    Keeps holds (editFlags faults id edit :
      RepositoryM Problem Tree StatusResult) := by
  intro start held
  rw [editFlags, ensures_bind]
  apply (editFlagsCheck_ensures id edit start).mono
  · intro go _ given
    obtain ⟨rfl, allowed, valid⟩ := given
    have locked : Keeps holds (editFlagsLocked faults id edit :
        RepositoryM Problem Tree StatusResult) := by
      refine (existsProblem_pristine id _).bind fun _ =>
        Keeps.ite ?_ (Keeps.pure _)
      refine (hasFlag_pristine id _ _).bind fun _ =>
        Keeps.ite (Keeps.pure _) ?_
      refine (performed valid).bind fun _ => ?_
      exact (status_pristine id _).bind fun _ => Keeps.pure _
    cases go with
    | false => exact held
    | true => exact locked _ held
  · intro _ _ given
    subst given
    exact held

theorem editFlags_keeps {id : ProblemId} {edit : FlagEdit}
    (added : ∀ flag store, edit.Adds flag → holds store →
      holds (store.update id (·.addFlag flag)))
    (removed : ∀ flag store, edit.Removes flag → holds store →
      holds (store.update id (·.removeFlag flag))) :
    Keeps holds (editFlags faults id edit :
      RepositoryM Problem Tree StatusResult) :=
  editFlags_keeps_of_perform fun valid =>
    FlagEdit.perform_keeps valid added removed

/-- A problem that is read-only rejects every edit of its flags. -/
theorem editFlags_readOnly {store : Store Problem Tree} {id : ProblemId}
    {dir : ProblemDir Problem} {edit : FlagEdit}
    (found : store.dir id = some dir) (readOnly : dir.Flagged readOnlyFlag) :
    Ensures (editFlags faults id edit) store
      (fun _ final => final = store) (fun _ final => final = store) := by
  rw [editFlags, ensures_bind]
  refine (editFlagsCheck_ensures id edit store).mono ?_
    (fun _ _ stopped => stopped)
  intro go _ given
  obtain ⟨rfl, allowed, valid⟩ := given
  cases go with
  | false => rfl
  | true =>
      change Ensures (editFlagsLocked faults id edit) _ _ _
      have present : dir.hasFlag readOnlyFlag = true :=
        (ProblemDir.hasFlag_iff rfl).mpr readOnly
      rw [editFlagsLocked, ensures_bind, ensures_existsProblem allowed]
      cases faults .checkExists with
      | some residue => rfl
      | none =>
          simp only [found, Option.isSome_some, if_true, isReadOnly]
          rw [ensures_bind, ensures_hasFlag allowed (by decide)]
          cases faults (.checkFlag readOnlyFlag) with
          | some residue => rfl
          | none => simp [found, present]

/-! ## Scheduling and upload -/

theorem prepareImport_keeps {id : ProblemId}
    (added : ∀ store, holds store →
      holds (store.update id (·.addFlag pendingImportFlag))) :
    Keeps holds (prepareImport faults id :
      RepositoryM Problem Tree Bool) := by
  refine (validateId_pristine id _).bind fun _ => ?_
  refine (existsProblem_pristine id _).bind fun _ => ?_
  refine Keeps.ite ?_ (Keeps.pure _)
  exact (setFlag_keeps fun _ => added).bind fun _ => Keeps.pure _

/-- The answer `false` means that nothing was done. -/
theorem prepareImport_refused {store final : Store Problem Tree}
    {id : ProblemId} (run : prepareImport faults id store = .ok false final) :
    final = store := by
  have contract : Ensures (prepareImport faults id) store
      (fun existing final => existing = false → final = store)
      (fun _ _ => True) := by
    rw [prepareImport, ensures_bind, ensures_validateId]
    by_cases allowed : isAllowedId id
    · rw [if_pos allowed, ensures_bind, ensures_existsProblem allowed]
      cases faults .checkExists with
      | some residue => trivial
      | none =>
          cases (store.dir id).isSome with
          | false => exact fun _ => rfl
          | true =>
              simp only [if_true, ensures_bind, ensures_pure]
              unfold Ensures
              split <;> simp
    · rw [if_neg allowed]
      trivial
  exact contract.of_ok run rfl

theorem ensures_isLocked {store : Store Problem Tree} {id : ProblemId}
    {normal : Bool → Store Problem Tree → Prop}
    {thrown : Exception → Store Problem Tree → Prop}
    (allowed : isAllowedId id) :
    Ensures (isLocked faults id) store normal thrown ↔
      match faults (.checkFlag lockedFlag) with
      | none =>
          if (store.dir id).any (·.hasFlag lockedFlag) then normal true store
          else match faults (.checkFlag readOnlyFlag) with
            | none =>
                normal ((store.dir id).any (·.hasFlag readOnlyFlag)) store
            | some _ => thrown (.fileSystem (.checkFlag readOnlyFlag)) store
      | some _ => thrown (.fileSystem (.checkFlag lockedFlag)) store := by
  rw [isLocked, ensures_bind, ensures_hasFlag allowed (by decide)]
  cases faults (.checkFlag lockedFlag) with
  | some residue => rfl
  | none =>
      simp only
      split
      · simp
      · rw [ensures_hasFlag allowed (by decide)]

theorem uploadLocked_keeps {id : ProblemId} {location : Directory}
    (changed : ∀ change store, holds store → holds (store.update id change))
    (created : ∀ store, holds store → holds (store.create id))
    (posted : ∀ store, holds store → holds (store.post id)) :
    Keeps holds (uploadLocked externals faults id location) := by
  have removed : ∀ operation change, Keeps holds
      (removeFile faults operation id change :
        RepositoryM Problem Tree Unit) := fun operation change =>
    harmless_keeps (Keeps.modify (changed change))
  have reset : Keeps holds (resetProblem faults id :
      RepositoryM Problem Tree Unit) := by
    refine (existsProblem_pristine id _).bind fun _ => Keeps.ite ?_ ?_
    · exact (removed _ _).bind fun _ => (removed _ _).bind fun _ => removed _ _
    · refine (harmless_keeps (Keeps.modify created)).bind fun _ => ?_
      exact harmless_keeps (Keeps.modify (changed _))
  have stored : Keeps holds (storeProblem externals faults id location) := by
    refine (fallible_keeps (fun _ _ _ => changed _ _)
      (Keeps.modify (changed _))).bind fun _ => ?_
    refine (computeHashRevision_pristine id _).bind fun _ => ?_
    refine (fallible_keeps (fun _ _ _ => changed _ _)
      ((openDir_keeps _ _).bind fun _ => Keeps.modify (changed _))).bind
        fun _ => ?_
    refine (setFlag_keeps fun _ => changed _).bind fun _ => ?_
    exact Keeps.modify posted
  refine (isLocked_pristine id _).bind fun _ => Keeps.ite (Keeps.pure _) ?_
  refine reset.bind fun _ => stored.bind fun _ => ?_
  exact (status_pristine id _).bind fun _ => Keeps.pure _

/-- Upload refuses a problem that has one of the protecting flags. -/
theorem uploadLocked_protected {store : Store Problem Tree} {id : ProblemId}
    {dir : ProblemDir Problem} {location : Directory}
    (found : store.dir id = some dir)
    (locked : dir.Flagged lockedFlag ∨ dir.Flagged readOnlyFlag) :
    Ensures (uploadLocked externals faults id location) store
      (fun _ final => final = store) (fun _ final => final = store) := by
  by_cases allowed : isAllowedId id
  · rw [uploadLocked, ensures_bind, ensures_isLocked allowed]
    cases faults (.checkFlag lockedFlag) with
    | some residue => rfl
    | none =>
        simp only [found, Option.any_some]
        by_cases lockedSet : dir.hasFlag lockedFlag
        · simp [lockedSet]
        · have readOnly : dir.hasFlag readOnlyFlag = true := by
            rw [ProblemDir.hasFlag_iff (by simp)] at lockedSet ⊢
            exact locked.resolve_left lockedSet
          simp only [lockedSet, Bool.false_eq_true, if_false]
          cases faults (.checkFlag readOnlyFlag) with
          | some residue => trivial
          | none => simp [readOnly]
  · simp [uploadLocked, isLocked, hasFlag, ensures_validateId, allowed]

def ProblemDir.Listable (dir : ProblemDir Problem) : Prop :=
  ∃ names, dir.flags = some names ∧ ∀ flag ∈ names, isAllowedFlag flag

theorem ProblemDir.Listable.addFlag {dir : ProblemDir Problem}
    {flag : FlagName} (listable : dir.Listable)
    (allowed : isAllowedFlag flag) : (dir.addFlag flag).Listable := by
  obtain ⟨names, directory, valid⟩ := listable
  refine ⟨names.insert flag, by simp [ProblemDir.addFlag, directory], ?_⟩
  intro other member
  rw [List.mem_insert_iff] at member
  rcases member with rfl | member
  · exact allowed
  · exact valid other member

theorem ProblemDir.Listable.removeFlag {dir : ProblemDir Problem}
    {flag : FlagName} (listable : dir.Listable) :
    (dir.removeFlag flag).Listable := by
  obtain ⟨names, directory, valid⟩ := listable
  refine ⟨_, by rw [ProblemDir.removeFlag, directory]; rfl, ?_⟩
  intro other member
  exact valid other (List.mem_of_mem_filter member)

theorem status_ensures {store : Store Problem Tree} {id : ProblemId}
    {dir : ProblemDir Problem} {revision : Revision} {names : List FlagName}
    {thrown : Exception → Store Problem Tree → Prop}
    (found : store.dir id = some dir)
    (stored : dir.revision.read = some revision)
    (directory : dir.flags = some names)
    (allowed : ∀ flag ∈ names, isAllowedFlag flag)
    (readable : faults .readRevision = none)
    (listed : faults .listFlags = none) :
    Ensures (status_ faults id) store
      (fun status final =>
        status = ⟨names.map flagCast, revision⟩ ∧ final = store) thrown := by
  simp only [status_, ensures_bind, ensures_readRevision found, readable,
    stored]
  refine (flags_ensures found directory allowed listed).mono ?_
    (fun _ _ stopped => stopped)
  intro flags _ given
  obtain ⟨rfl, rfl⟩ := given
  simp

def ProblemDir.reset (before : Option (ProblemDir Problem)) :
    ProblemDir Problem :=
  { data := none, revision := .absent, importResult := .absent
    flags := match before with
      | none => some []
      | some dir => dir.flags }

theorem resetProblem_ensures {store : Store Problem Tree} {id : ProblemId}
    (allowed : isAllowedId id)
    {thrown : Exception → Store Problem Tree → Prop} :
    Ensures (resetProblem noFaults id) store
      (fun _ final => final = store.put id (.reset (store.dir id)))
      thrown := by
  rw [resetProblem, ensures_bind, ensures_existsProblem allowed]
  simp only [noFaults_apply]
  cases found : store.dir id with
  | none =>
      simp [ensures_createDirectory, ensures_createFlags, Store.create,
        ProblemDir.reset, ProblemDir.created]
  | some dir =>
      simp [ensures_removeFile, Store.update_of_dir _ found,
        ProblemDir.reset]

theorem storeProblem_ensures {store : Store Problem Tree} {id : ProblemId}
    {dir : ProblemDir Problem} {location : Directory}
    {names : List FlagName}
    (found : store.dir id = some dir) (directory : dir.flags = some names)
    {thrown : Exception → Store Problem Tree → Prop} :
    Ensures (storeProblem externals noFaults id location) store
      (fun _ final => final = (store.put id
        { dir with
          data := some (externals.pack location)
          revision :=
            .value (hashRevision externals (externals.pack location))
          flags := some (names.insert pendingImportFlag) }).post id)
      thrown := by
  simp only [storeProblem, ensures_bind, ensures_packContents,
    noFaults_apply, Store.update_of_dir _ found]
  rw [ensures_computeHashRevision (Store.dir_put_self ..)]
  simp only [noFaults_apply]
  rw [ensures_writeRevision (Store.dir_put_self ..)]
  simp only [noFaults_apply, prepareImport_]
  rw [ensures_setFlag (Store.dir_put_self ..) (by exact directory) (by simp)]
  simp [postImport_, ProblemDir.addFlag, directory]

/-- The directory of a problem after a successful upload. -/
def ProblemDir.uploaded (externals : Externals Directory Problem Tree)
    (location : Directory) (before : Option (ProblemDir Problem)) :
    ProblemDir Problem :=
  { data := some (externals.pack location)
    revision := .value (hashRevision externals (externals.pack location))
    importResult := .absent
    flags := (ProblemDir.reset before).flags.map
      (List.insert pendingImportFlag) }

def Store.Unlocked (store : Store Problem Tree) (id : ProblemId) : Prop :=
  ∀ dir, store.dir id = some dir →
    ¬ dir.Flagged lockedFlag ∧ ¬ dir.Flagged readOnlyFlag

theorem Store.Unlocked.hasFlag_eq_false {store : Store Problem Tree}
    {id : ProblemId} (unlocked : store.Unlocked id) {flag : Flag.Reserved}
    (protecting : flag = .locked ∨ flag = .readOnly) :
    (store.dir id).any (·.hasFlag flag.name) = false := by
  cases found : store.dir id with
  | none => rfl
  | some dir =>
      rw [Option.any_some, ← Bool.not_eq_true,
        ProblemDir.hasFlag_iff (isDirectoryName_reserved flag)]
      rcases protecting with rfl | rfl
      · exact (unlocked dir found).1
      · exact (unlocked dir found).2

theorem Store.Unlocked.unprotected {store : Store Problem Tree}
    {id : ProblemId} (unlocked : store.Unlocked id) :
    (store.dir id).any (·.hasFlag Flag.Reserved.locked.name) = false ∧
      (store.dir id).any (·.hasFlag Flag.Reserved.readOnly.name) = false :=
  ⟨unlocked.hasFlag_eq_false (.inl rfl), unlocked.hasFlag_eq_false (.inr rfl)⟩

theorem Store.Unlocked.isLocked_ensures {store : Store Problem Tree}
    {id : ProblemId} (allowed : isAllowedId id)
    (unlocked : store.Unlocked id)
    {thrown : Exception → Store Problem Tree → Prop} :
    Ensures (isLocked noFaults id) store
      (fun locked final => locked = false ∧ final = store) thrown := by
  rw [ensures_isLocked allowed]
  obtain ⟨locked, readOnly⟩ := unlocked.unprotected
  simp [locked, readOnly]

theorem uploadLocked_ensures {store : Store Problem Tree} {id : ProblemId}
    {location : Directory} (allowed : isAllowedId id)
    (unlocked : store.Unlocked id)
    (listable : ∀ dir, store.dir id = some dir → dir.Listable)
    {thrown : Exception → Store Problem Tree → Prop} :
    Ensures (uploadLocked externals noFaults id location) store
      (fun result final => (∃ status, result = .status status) ∧
        final = (store.put id
          (.uploaded externals location (store.dir id))).post id)
      thrown := by
  have listableReset : (ProblemDir.reset (store.dir id)).Listable := by
    cases found : store.dir id with
    | none => exact ⟨[], rfl, by simp⟩
    | some dir => exact listable dir found
  obtain ⟨names, directory, valid⟩ := listableReset
  rw [uploadLocked, ensures_bind]
  refine (unlocked.isLocked_ensures allowed).mono ?_
    (fun _ _ stopped => stopped)
  intro _ final given
  obtain ⟨rfl, same⟩ := given
  rw [same]
  simp only [Bool.false_eq_true, if_false, ensures_bind]
  refine (resetProblem_ensures allowed).mono ?_ (fun _ _ stopped => stopped)
  intro _ _ given
  subst given
  refine (storeProblem_ensures (Store.dir_put_self ..) directory).mono ?_
    (fun _ _ stopped => stopped)
  intro _ _ given
  subst given
  have uploaded : ProblemDir.uploaded externals location (store.dir id) =
      { ProblemDir.reset (store.dir id) with
        data := some (externals.pack location)
        revision := .value (hashRevision externals (externals.pack location))
        flags := some (names.insert pendingImportFlag) } := by
    rw [ProblemDir.uploaded, directory]
    rfl
  rw [Store.put_put, ← uploaded]
  have allowedNames : ∀ flag ∈ names.insert pendingImportFlag,
      isAllowedFlag flag := by
    intro flag member
    rw [List.mem_insert_iff] at member
    rcases member with rfl | member
    · decide
    · exact valid flag member
  have found : ((store.put id (.uploaded externals location
      (store.dir id))).post id).dir id =
        some (.uploaded externals location (store.dir id)) := by simp
  refine (status_ensures found rfl (by rw [uploaded]) allowedNames
    (noFaults_apply _) (noFaults_apply _)).mono ?_
      (fun _ _ stopped => stopped)
  intro status _ given
  obtain ⟨rfl, same⟩ := given
  exact ⟨⟨_, rfl⟩, same⟩

theorem ProblemDir.uploaded_pending
    (externals : Externals Directory Problem Tree) (location : Directory)
    {before : Option (ProblemDir Problem)}
    (listable : ∀ dir, before = some dir → dir.Listable) :
    (ProblemDir.uploaded externals location before).Flagged
      pendingImportFlag := by
  cases before with
  | none => exact ⟨_, rfl, List.mem_insert_self⟩
  | some dir =>
      obtain ⟨names, directory, _⟩ := listable dir rfl
      refine ⟨names.insert pendingImportFlag, ?_, List.mem_insert_self⟩
      simp [ProblemDir.uploaded, ProblemDir.reset, directory]

theorem ProblemDir.uploaded_listable {location : Directory}
    {before : Option (ProblemDir Problem)}
    (listable : ∀ dir, before = some dir → dir.Listable) :
    (ProblemDir.uploaded externals location before).Listable := by
  have reset : (ProblemDir.reset before).Listable := by
    cases before with
    | none => exact ⟨[], rfl, by simp⟩
    | some dir => exact listable dir rfl
  obtain ⟨names, directory, valid⟩ :=
    reset.addFlag (show isAllowedFlag pendingImportFlag by decide)
  exact ⟨names, directory, valid⟩

/-! ## The locked sections of import -/

theorem download_ensures {store : Store Problem Tree} {id : ProblemId}
    {dir : ProblemDir Problem} (found : store.dir id = some dir) :
    Ensures (download_ externals faults id) store
      (fun contents final => final = store ∧
        ∃ archive, dir.data = some archive ∧
          externals.unpack archive = some contents)
      (fun _ final => final = store) := by
  simp only [download_, ensures_fallible, ensures_bind, ensures_openDir, found,
    harmless]
  cases faults .unpack with
  | some residue => trivial
  | none =>
      cases unpacked : dir.data.bind externals.unpack with
      | none => rfl
      | some contents =>
          exact ⟨rfl, Option.bind_eq_some_iff.mp unpacked⟩

theorem importReadLocked_missing {store : Store Problem Tree}
    {id : ProblemId} (missing : store.dir id = none) :
    Ensures (importReadLocked externals faults id) store
      (fun result final => result = none ∧ final = store)
      (fun _ final => final = store) := by
  by_cases allowed : isAllowedId id
  · rw [importReadLocked, ensures_bind, ensures_existsProblem allowed]
    cases faults .checkExists <;> simp [missing]
  · simp [importReadLocked, existsProblem, ensures_validateId, allowed]

/-- Import knows the revision it works on: it has read the stored one, or it
has stored the one of the archive. -/
def RevisionKnown (externals : Externals Directory Problem Tree)
    (store : Store Problem Tree) (id : ProblemId) (dir : ProblemDir Problem)
    (revision : Revision) (final : Store Problem Tree) : Prop :=
  (dir.revision.read = some revision ∧ final = store) ∨
    ∃ archive, dir.data = some archive ∧
      revision = hashRevision externals archive ∧
      final = store.put id { dir with revision := .value revision }

def RevisionDamaged (faults : Faults Problem) (store : Store Problem Tree)
    (id : ProblemId) (dir : ProblemDir Problem)
    (final : Store Problem Tree) : Prop :=
  ∃ residue, faults .writeRevision = some residue ∧
    final = store.put id { dir with revision := residue.revision }

theorem importRevision_ensures {store : Store Problem Tree}
    {id : ProblemId} {dir : ProblemDir Problem}
    (found : store.dir id = some dir) :
    Ensures (importRevision_ externals faults id) store
      (RevisionKnown externals store id dir)
      (fun _ final =>
        final = store ∨ RevisionDamaged faults store id dir final) := by
  have regenerated : Ensures (computeHashRevision externals faults id >>=
        fun revision => writeRevision_ faults id revision >>= fun _ =>
          pure revision) store
      (RevisionKnown externals store id dir)
      (fun _ final =>
        final = store ∨ RevisionDamaged faults store id dir final) := by
    rw [ensures_bind, ensures_computeHashRevision found]
    cases faults .readData with
    | some residue => exact .inl rfl
    | none =>
        cases data : dir.data with
        | none => exact .inl rfl
        | some archive =>
            simp only
            rw [ensures_bind, ensures_writeRevision found]
            cases fault : faults .writeRevision with
            | some residue => exact .inr ⟨residue, fault, by rw [data]⟩
            | none => exact .inr ⟨archive, data, rfl, by rw [data]⟩
  rw [importRevision_, ensures_tryCatch, ensures_readRevision found]
  cases faults .readRevision with
  | some residue => exact regenerated
  | none =>
      cases stored : dir.revision.read with
      | none => exact regenerated
      | some revision => exact .inl ⟨stored, rfl⟩

theorem RevisionKnown.dir {store final : Store Problem Tree}
    {id : ProblemId} {dir : ProblemDir Problem} {revision : Revision}
    (known : RevisionKnown externals store id dir revision final)
    (found : store.dir id = some dir) :
    ∃ slot, slot.read = some revision ∧
      final.dir id = some { dir with revision := slot } := by
  rcases known with ⟨stored, rfl⟩ | ⟨archive, data, hashed, rfl⟩
  · exact ⟨dir.revision, stored, found⟩
  · exact ⟨.value revision, rfl, Store.dir_put_self ..⟩

/-- The first section of import takes the revision and a copy of the stored
archive. -/
theorem importReadLocked_ensures {store : Store Problem Tree}
    {id : ProblemId} {dir : ProblemDir Problem}
    (found : store.dir id = some dir) :
    Ensures (importReadLocked externals faults id) store
      (fun result final => ∃ revision archive contents,
        result = some (revision, contents) ∧
          RevisionKnown externals store id dir revision final ∧
          dir.data = some archive ∧ externals.unpack archive = some contents)
      (fun _ final => final = store ∨
        RevisionDamaged faults store id dir final ∨
        ∃ revision, RevisionKnown externals store id dir revision final) := by
  by_cases allowed : isAllowedId id
  swap
  · simp [importReadLocked, existsProblem, ensures_validateId, allowed]
  rw [importReadLocked, ensures_bind, ensures_existsProblem allowed]
  cases faults .checkExists with
  | some residue => exact .inl rfl
  | none =>
      simp only [found, Option.isSome_some, if_true, ensures_bind]
      apply (importRevision_ensures found).mono
      · intro revision middle known
        obtain ⟨slot, stored, middleDir⟩ := known.dir found
        apply (download_ensures middleDir).mono
        · intro contents final given
          obtain ⟨rfl, archive, data, unpacked⟩ := given
          exact ⟨revision, archive, contents, rfl, known, data, unpacked⟩
        · intro _ final given
          subst given
          exact .inr (.inr ⟨revision, known⟩)
      · intro _ final given
        obtain same | damaged := given
        · exact .inl same
        · exact .inr (.inl damaged)

/-- The directory after the commit of an import, apart from what the flags
`IGNORE` and `PENDING_IMPORT` have become. -/
structure ProblemDir.Committed (outcome : Except String Problem)
    (before after : ProblemDir Problem) : Prop where
  data : after.data = before.data
  revision : after.revision = before.revision
  importResult : after.importResult = .value (importResultOf outcome)
  otherFlags : ∀ flag, flag ≠ ignoreFlag → flag ≠ pendingImportFlag →
    (after.Flagged flag ↔ before.Flagged flag)
  pending : after.Flagged pendingImportFlag →
    before.Flagged pendingImportFlag
  listable : before.Listable → after.Listable

theorem ProblemDir.Committed.start {outcome : Except String Problem}
    (dir : ProblemDir Problem) :
    dir.Committed outcome
      { dir with importResult := .value (importResultOf outcome) } :=
  ⟨rfl, rfl, rfl, fun _ _ _ => Iff.rfl, id, id⟩

theorem ProblemDir.Committed.addIgnore {outcome : Except String Problem}
    {before after : ProblemDir Problem}
    (committed : before.Committed outcome after) :
    before.Committed outcome (after.addFlag ignoreFlag) where
  data := committed.data
  revision := committed.revision
  importResult := committed.importResult
  otherFlags := by
    intro flag notIgnore notPending
    rw [ProblemDir.flagged_addFlag,
      committed.otherFlags flag notIgnore notPending]
    simp [notIgnore]
  pending := by
    rw [ProblemDir.flagged_addFlag]
    intro given
    obtain flagged | ⟨impossible, _⟩ := given
    · exact committed.pending flagged
    · exact absurd impossible (by decide)
  listable := fun listable =>
    (committed.listable listable).addFlag (by decide)

theorem ProblemDir.Committed.remove {outcome : Except String Problem}
    {before after : ProblemDir Problem} {flag : FlagName}
    (committed : before.Committed outcome after)
    (own : flag = ignoreFlag ∨ flag = pendingImportFlag) :
    before.Committed outcome (after.removeFlag flag) where
  data := committed.data
  revision := committed.revision
  importResult := committed.importResult
  otherFlags := by
    intro other notIgnore notPending
    rw [ProblemDir.flagged_removeFlag,
      committed.otherFlags other notIgnore notPending]
    have different : other ≠ flag := by
      intro given
      subst given
      exact own.elim notIgnore notPending
    simp [different]
  pending := by
    rw [ProblemDir.flagged_removeFlag]
    exact fun flagged => committed.pending flagged.1
  listable := fun listable => (committed.listable listable).removeFlag

/-- The result is stored and the archive has a new revision. -/
def CommitDone (store : Store Problem Tree) (id : ProblemId)
    (dir : ProblemDir Problem) (outcome : Except String Problem)
    (final : Store Problem Tree) : Prop :=
  ∃ after, dir.Committed outcome after ∧ final = (store.put id after).renew

def ResultDamaged (faults : Faults Problem) (store : Store Problem Tree)
    (id : ProblemId) (dir : ProblemDir Problem)
    (final : Store Problem Tree) : Prop :=
  ∃ residue, faults .writeImportResult = some residue ∧
    final = store.put id { dir with importResult := residue.importResult }

theorem CommitDone.addIgnore {store final : Store Problem Tree}
    {id : ProblemId} {dir : ProblemDir Problem}
    {outcome : Except String Problem}
    (done : CommitDone store id dir outcome final) :
    CommitDone store id dir outcome
      (final.update id (·.addFlag ignoreFlag)) := by
  obtain ⟨after, committed, rfl⟩ := done
  refine ⟨_, committed.addIgnore, ?_⟩
  simp

theorem CommitDone.remove {store final : Store Problem Tree}
    {id : ProblemId} {dir : ProblemDir Problem}
    {outcome : Except String Problem} {flag : FlagName}
    (done : CommitDone store id dir outcome final)
    (own : flag = ignoreFlag ∨ flag = pendingImportFlag) :
    CommitDone store id dir outcome
      (final.update id (·.removeFlag flag)) := by
  obtain ⟨after, committed, rfl⟩ := done
  refine ⟨_, committed.remove own, ?_⟩
  simp

theorem unsetFlag_ensures {store : Store Problem Tree} {id : ProblemId}
    {flag : FlagName} (proper : isDirectoryName flag = false) :
    Ensures (unsetFlag_ faults id flag) store
      (fun _ final => ∀ dir, final.dir id = some dir → ¬ dir.Flagged flag)
      (fun _ _ => True) := by
  simp only [unsetFlag_, ensures_fallible, ensures_bind, ensures_get]
  cases faults (.removeFlag flag) with
  | some residue => trivial
  | none =>
      cases found : (store.dir id).bind (·.flags) with
      | none =>
          intro dir present given
          obtain ⟨names, directory, _⟩ := given
          simp [present, directory] at found
      | some names =>
          simp only [proper, Bool.false_eq_true, if_false, ensures_modify]
          intro dir present
          rw [Store.dir_update_self, Option.map_eq_some_iff] at present
          obtain ⟨before, _, rfl⟩ := present
          rw [ProblemDir.flagged_removeFlag]
          exact fun flagged => flagged.2 rfl

theorem markIgnored_keeps {store : Store Problem Tree} {id : ProblemId}
    {dir : ProblemDir Problem} {outcome outcome' : Except String Problem} :
    Keeps (CommitDone store id dir outcome)
      (markIgnored_ faults id outcome' :
        RepositoryM Problem Tree Unit) := by
  cases outcome' with
  | ok problem =>
      exact unsetFlag_keeps fun _ _ done => done.remove (.inl rfl)
  | error reason => exact setFlag_keeps fun _ _ done => done.addIgnore

theorem commitImport_ensures {store : Store Problem Tree}
    {id : ProblemId} {dir : ProblemDir Problem}
    {outcome : Except String Problem} (found : store.dir id = some dir) :
    Ensures (commitImport_ faults id outcome) store
      (fun _ final => CommitDone store id dir outcome final ∧
        ∀ after, final.dir id = some after →
          ¬ after.Flagged pendingImportFlag)
      (fun _ final => ResultDamaged faults store id dir final ∨
        CommitDone store id dir outcome final) := by
  rw [commitImport_, ensures_bind, ensures_writeImportResult found]
  cases fault : faults .writeImportResult with
  | some residue => exact .inl ⟨residue, fault, rfl⟩
  | none =>
      simp only [ensures_bind, updateArchiveRevision_, ensures_modify]
      have written : CommitDone store id dir outcome
          (store.put id { dir with
            importResult := .value (importResultOf outcome) }).renew :=
        ⟨_, .start dir, rfl⟩
      refine (markIgnored_keeps _ written).mono ?_ (fun _ _ => .inr)
      intro _ marked done
      have unset : Keeps (CommitDone store id dir outcome)
          (unsetFlag_ faults id pendingImportFlag :
            RepositoryM Problem Tree Unit) :=
        unsetFlag_keeps fun _ _ done => done.remove (.inr rfl)
      apply ((unset marked done).and
        (unsetFlag_ensures (isDirectoryName_reserved _))).mono
      · intro _ final cleared
        exact cleared
      · intro _ final stopped
        exact .inr stopped.1

theorem importAnswer_pristine (id : ProblemId) (revision : Revision)
    (outcome : Except String Problem) :
    Pristine (importAnswer_ faults id revision outcome :
      RepositoryM Problem Tree StatusResult) := by
  intro holds
  cases outcome with
  | error reason => exact Keeps.pure _
  | ok problem => exact (flags_pristine id _).bind fun _ => Keeps.pure _

theorem commitAnswer_ensures {store : Store Problem Tree}
    {id : ProblemId} {dir : ProblemDir Problem} (revision : Revision)
    {outcome : Except String Problem} (found : store.dir id = some dir) :
    Ensures (do
        commitImport_ faults id outcome
        importAnswer_ faults id revision outcome) store
      (fun _ final => CommitDone store id dir outcome final ∧
        ∀ after, final.dir id = some after →
          ¬ after.Flagged pendingImportFlag)
      (fun _ final => ResultDamaged faults store id dir final ∨
        CommitDone store id dir outcome final) := by
  rw [ensures_bind]
  apply (commitImport_ensures found).mono
  · intro _ middle done
    apply ((importAnswer_pristine id revision
      outcome).ensures middle).mono
    · intro _ _ given
      subst given
      exact done
    · intro _ _ given
      subst given
      exact .inr done.1
  · exact fun _ _ stopped => stopped

theorem importCommitLocked_missing {store : Store Problem Tree}
    {id : ProblemId} {revision : Revision} {outcome : Except String Problem}
    (missing : store.dir id = none) :
    Ensures (importCommitLocked faults id revision outcome) store
      (fun _ final => final = store) (fun _ final => final = store) := by
  by_cases allowed : isAllowedId id
  · rw [importCommitLocked, ensures_bind, ensures_existsProblem allowed]
    cases faults .checkExists <;> simp [missing]
  · simp [importCommitLocked, existsProblem, ensures_validateId, allowed]

/-- The commit changes nothing if the archive has another revision than the
one that was imported. -/
theorem importCommitLocked_ensures {store : Store Problem Tree}
    {id : ProblemId} {dir : ProblemDir Problem} {revision : Revision}
    {outcome : Except String Problem} (found : store.dir id = some dir) :
    Ensures (importCommitLocked faults id revision outcome) store
      (fun _ final =>
        (dir.revision.read ≠ some revision ∧ final = store) ∨
        (dir.revision.read = some revision ∧
          CommitDone store id dir outcome final ∧
          ∀ after, final.dir id = some after →
            ¬ after.Flagged pendingImportFlag))
      (fun _ final => final = store ∨
        (dir.revision.read = some revision ∧
          (ResultDamaged faults store id dir final ∨
            CommitDone store id dir outcome final))) := by
  by_cases allowed : isAllowedId id
  swap
  · simp [importCommitLocked, existsProblem, ensures_validateId, allowed]
  rw [importCommitLocked, ensures_bind, ensures_existsProblem allowed]
  cases faults .checkExists with
  | some residue => exact .inl rfl
  | none =>
      simp only [found, Option.isSome_some, if_true]
      rw [ensures_bind, ensures_readRevision found]
      cases faults .readRevision with
      | some residue => exact .inl rfl
      | none =>
          cases stored : dir.revision.read with
          | none => exact .inl rfl
          | some current =>
              by_cases changed : current ≠ revision
              · simp only [if_pos changed]
                exact .inl ⟨by simpa using changed, rfl⟩
              · simp only [if_neg changed]
                have same : some current = some revision := by
                  simpa using changed
                apply (commitAnswer_ensures revision found).mono
                · exact fun _ _ done => .inr ⟨same, done⟩
                · exact fun _ _ stopped => .inr ⟨same, stopped⟩

theorem importReadLocked_keeps {id : ProblemId}
    (rewritten : ∀ store dir slot, store.dir id = some dir → holds store →
      holds (store.put id { dir with revision := slot })) :
    Keeps holds (importReadLocked externals faults id) := by
  intro store held
  cases found : store.dir id with
  | none =>
      apply (importReadLocked_missing found).mono
      · intro _ _ given
        obtain ⟨_, rfl⟩ := given
        exact held
      · intro _ _ given
        subst given
        exact held
  | some dir =>
      have known : ∀ revision final,
          RevisionKnown externals store id dir revision final →
            holds final := by
        intro revision _ given
        obtain ⟨_, rfl⟩ | ⟨_, _, _, rfl⟩ := given
        · exact held
        · exact rewritten store dir _ found held
      apply (importReadLocked_ensures found).mono
      · intro _ final given
        obtain ⟨revision, _, _, _, same, _⟩ := given
        exact known revision final same
      · intro _ final given
        obtain rfl | ⟨_, _, rfl⟩ | ⟨revision, same⟩ := given
        · exact held
        · exact rewritten store dir _ found held
        · exact known revision final same

theorem importCommitLocked_keeps {id : ProblemId} {revision : Revision}
    {outcome : Except String Problem}
    (damaged : ∀ store dir slot, store.dir id = some dir → holds store →
      holds (store.put id { dir with importResult := slot }))
    (committed : ∀ store dir after, store.dir id = some dir →
      dir.Committed outcome after → holds store →
        holds (store.put id after).renew) :
    Keeps holds (importCommitLocked faults id revision outcome :
      RepositoryM Problem Tree StatusResult) := by
  intro store held
  cases found : store.dir id with
  | none =>
      apply (importCommitLocked_missing found).mono
      · intro _ _ given
        subst given
        exact held
      · intro _ _ given
        subst given
        exact held
  | some dir =>
      have done : ∀ final, CommitDone store id dir outcome final →
          holds final := by
        intro _ given
        obtain ⟨after, same, rfl⟩ := given
        exact committed store dir after found same held
      apply (importCommitLocked_ensures found).mono
      · intro _ final given
        obtain ⟨_, rfl⟩ | ⟨_, same, _⟩ := given
        · exact held
        · exact done final same
      · intro _ final given
        obtain rfl | ⟨_, ⟨_, _, rfl⟩ | same⟩ := given
        · exact held
        · exact damaged store dir _ found held
        · exact done final same

/-- The commit succeeds if the revision is current and the files can be read
and written. -/
theorem importCommitLocked_commits {store : Store Problem Tree}
    {id : ProblemId} {dir : ProblemDir Problem} {revision : Revision}
    {outcome : Except String Problem} (allowed : isAllowedId id)
    (found : store.dir id = some dir)
    (current : dir.revision.read = some revision)
    (checked : faults .checkExists = none)
    (readable : faults .readRevision = none)
    (written : faults .writeImportResult = none) :
    Ensures (importCommitLocked faults id revision outcome) store
      (fun _ final => CommitDone store id dir outcome final)
      (fun _ final => CommitDone store id dir outcome final) := by
  rw [importCommitLocked, ensures_bind, ensures_existsProblem allowed]
  simp only [checked, found, Option.isSome_some, if_true]
  rw [ensures_bind, ensures_readRevision found]
  simp only [readable, current, ne_eq, not_true_eq_false, if_false]
  apply (commitAnswer_ensures revision found).mono
  · exact fun _ _ done => done.1
  · intro _ final given
    obtain ⟨residue, failed, _⟩ | done := given
    · rw [written] at failed
      cases failed
    · exact done

end Bacs.Archive
