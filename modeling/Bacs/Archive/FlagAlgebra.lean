import Bacs.Archive.Protection

/-!
# The algebra of the flag operations

The operations on one flag restate the rules of the operations on sets of
flags.  They differ from them where a reserved flag is asked for:
`set_flag` refuses `PENDING_IMPORT`, which `set_flags` sets, and `unset_flag`
removes `IGNORE` and nothing else, where `unset_flags` removes everything but
`IGNORE` and `PENDING_IMPORT`.
-/

namespace Bacs.Archive

open Foundation

variable {Problem Tree : Type}

/-- The operation answers with a status and not with an error. -/
def Answers (program : RepositoryM Problem Tree StatusResult)
    (store : Store Problem Tree) : Prop :=
  ∃ status final, program store = .ok (.status status) final

/-- Two operations both succeed or both fail, and leave the problem with the
same flags. -/
def SameOutcome (id : ProblemId)
    (first second : RepositoryM Problem Tree StatusResult)
    (store : Store Problem Tree) : Prop :=
  (Answers first store ↔ Answers second store) ∧
    ∀ flag, (after first store).HasFlag id flag ↔
      (after second store).HasFlag id flag

/-- The flag operations get to the flags of the problem. -/
def Editable (store : Store Problem Tree) (id : ProblemId)
    (dir : ProblemDir Problem) : Prop :=
  isAllowedId id ∧ store.dir id = some dir ∧
    dir.hasFlag readOnlyFlag = false

/-- The status of the problem can be read. -/
def ProblemDir.Readable (dir : ProblemDir Problem) : Prop :=
  dir.revision.read.isSome ∧ dir.Listable

/-- Where `set_flag` and `set_flags` differ. -/
def SetDiffers (store : Store Problem Tree) (id : ProblemId)
    (flag : FlagName) : Prop :=
  flag = pendingImportFlag ∧ ∃ dir, Editable store id dir ∧
    dir.flags.isSome ∧ (dir.Flagged flag → dir.Readable)

/-- Where `unset_flag` and `unset_flags` differ. -/
def UnsetDiffers (store : Store Problem Tree) (id : ProblemId)
    (flag : FlagName) : Prop :=
  isAllowedFlag flag ∧ flag ≠ pendingImportFlag ∧
    ∃ dir, Editable store id dir ∧
      if isDirectoryName flag then dir.Readable else dir.Flagged flag

/-! ## Single edits -/

section Edits

variable {store final : Store Problem Tree} {id : ProblemId}
  {dir : ProblemDir Problem} {edit : FlagEdit} {flag : FlagName}

theorem existsProblem_ok (allowed : isAllowedId id) :
    existsProblem noFaults id store =
      .ok (store.dir id).isSome store := by
  simp [existsProblem, validateId, allowed, fallible, bind, EStateM.bind,
    pure, EStateM.pure, get_run]

theorem isReadOnly_ok (allowed : isAllowedId id)
    (found : store.dir id = some dir) :
    isReadOnly noFaults id store = .ok (dir.hasFlag readOnlyFlag) store := by
  have isFlag : isAllowedFlag readOnlyFlag := by decide
  simp [isReadOnly, hasFlag, validateId, validateFlag, allowed, isFlag,
    found, fallible, bind, EStateM.bind, pure, EStateM.pure, get_run]

/-- An edit that has passed its checks changes the flags and answers with the
status. -/
theorem editFlags_editable (editable : Editable store id dir)
    (checked : edit.validate store = .ok () store) :
    editFlags noFaults id edit store =
      (do
        edit.perform noFaults id
        return StatusResult.status (← status_ noFaults id)) store := by
  obtain ⟨allowed, found, writable⟩ := editable
  simp only [editFlags, editFlagsCheck, editFlagsLocked, validateId, allowed,
    if_true, bind, EStateM.bind, pure, EStateM.pure, checked,
    existsProblem_ok allowed, found, Option.isSome_some,
    isReadOnly_ok allowed found, writable]
  rfl

theorem editFlags_unchecked {exception : Exception}
    (failed : edit.validate store = .error exception store) :
    ¬ Answers (editFlags noFaults id edit) store ∧
      after (editFlags noFaults id edit) store = store := by
  by_cases allowed : isAllowedId id <;>
    simp [Answers, after, editFlags, editFlagsCheck, validateId, allowed,
      bind, EStateM.bind, pure, EStateM.pure, failed, throw_run]

/-- An edit that does not get to the flags fails and changes nothing. -/
theorem editFlags_refused (refused : ∀ dir, ¬ Editable store id dir) :
    ¬ Answers (editFlags noFaults id edit) store ∧
      after (editFlags noFaults id edit) store = store := by
  have valid := edit.validate_ensures store
  cases checked : edit.validate store with
  | error exception final =>
      rw [valid.of_error checked] at checked
      exact editFlags_unchecked checked
  | ok value final =>
      rw [(valid.of_ok checked).1] at checked
      by_cases allowed : isAllowedId id
      · cases found : store.dir id with
        | none =>
            simp [Answers, after, editFlags, editFlagsCheck, validateId,
              allowed, bind, EStateM.bind, pure, EStateM.pure, checked,
              existsProblem_ok allowed, found, statusNotFound, statusError]
        | some dir =>
            have readOnly : dir.hasFlag readOnlyFlag = true := by
              by_contra writable
              exact refused dir ⟨allowed, found, by simpa using writable⟩
            simp [Answers, after, editFlags, editFlagsCheck, editFlagsLocked,
              validateId, allowed, bind, EStateM.bind, pure, EStateM.pure,
              checked, existsProblem_ok allowed, found,
              isReadOnly_ok allowed found, readOnly, statusError]
      · simp [Answers, after, editFlags, editFlagsCheck, validateId, allowed,
          bind, EStateM.bind, throw_run]

theorem flagCasts_allowed (names : List FlagName) :
    Ensures (names.mapM fun flag => do
        validateFlag flag
        return flagCast flag) store
      (fun _ _ => ∀ flag ∈ names, isAllowedFlag flag)
      (fun _ _ => ¬ ∀ flag ∈ names, isAllowedFlag flag) := by
  induction names with
  | nil => exact nofun
  | cons name rest induction =>
      simp only [List.mapM_cons, ensures_bind, ensures_validateFlag,
        ensures_pure, List.forall_mem_cons]
      by_cases allowed : isAllowedFlag name
      · simp only [allowed, if_true, true_and]
        exact induction
      · simp [allowed]

theorem status_answers (found : store.dir id = some dir) :
    (∃ status final, status_ noFaults id store = .ok status final) ↔
      dir.Readable := by
  have contract : Ensures (status_ noFaults id) store
      (fun _ _ => dir.Readable) (fun _ _ => ¬ dir.Readable) := by
    simp only [status_, ensures_bind, ensures_readRevision found,
      noFaults_apply]
    cases stored : dir.revision.read with
    | none => simp [ProblemDir.Readable, stored]
    | some revision =>
        simp only [flags_, ensures_fallible, noFaults_apply, ensures_bind,
          ensures_openDir, found]
        cases directory : dir.flags with
        | none =>
            simp [ProblemDir.Readable, ProblemDir.Listable, directory]
        | some names =>
            have readable : dir.Readable ↔
                ∀ flag ∈ names, isAllowedFlag flag := by
              simp [ProblemDir.Readable, ProblemDir.Listable, stored,
                directory]
            simp only [readable, ensures_pure]
            exact flagCasts_allowed names
  constructor
  · intro answered
    obtain ⟨status, final, ended⟩ := answered
    exact contract.of_ok ended
  · intro readable
    cases ended : status_ noFaults id store with
    | ok status final => exact ⟨status, final, rfl⟩
    | error exception final =>
        exact absurd readable (contract.of_error ended)

theorem status_after :
    Ensures (status_ noFaults id) store (fun _ last => last = store)
      (fun _ last => last = store) :=
  (status_pristine id).ensures store

theorem editFlags_performed {changed : ProblemDir Problem}
    (editable : Editable store id dir)
    (checked : edit.validate store = .ok () store)
    (performed : edit.perform noFaults id store = .ok () final)
    (found : final.dir id = some changed) :
    (Answers (editFlags noFaults id edit) store ↔ changed.Readable) ∧
      after (editFlags noFaults id edit) store = final := by
  rw [← status_answers found]
  unfold Answers after
  rw [editFlags_editable editable checked]
  have same : Ensures (status_ noFaults id) final
      (fun _ last => last = final) (fun _ last => last = final) :=
    status_after
  cases ended : status_ noFaults id final with
  | ok status last =>
      rw [same.of_ok ended] at ended
      simp [bind, EStateM.bind, performed, ended, pure, EStateM.pure]
  | error exception last =>
      rw [same.of_error ended] at ended
      simp [bind, EStateM.bind, performed, ended]

theorem editFlags_failed {exception : Exception}
    (editable : Editable store id dir)
    (checked : edit.validate store = .ok () store)
    (failed : edit.perform noFaults id store = .error exception final) :
    ¬ Answers (editFlags noFaults id edit) store ∧
      after (editFlags noFaults id edit) store = final := by
  unfold Answers after
  rw [editFlags_editable editable checked]
  simp [bind, EStateM.bind, failed]

/-! ## One flag and a set of one flag -/

variable {asked : Flag}

theorem SameOutcome.of_eq
    {first second : RepositoryM Problem Tree StatusResult}
    (same : first store = second store) : SameOutcome id first second store := by
  unfold SameOutcome Answers after
  rw [same]
  exact ⟨Iff.rfl, fun _ => Iff.rfl⟩

theorem editFlags_congr {faults : Faults Problem} {other : FlagEdit}
    (check : (edit.validate : RepositoryM Problem Tree Unit) = other.validate)
    (change : (edit.perform faults id : RepositoryM Problem Tree Unit) =
      other.perform faults id) :
    (editFlags faults id edit : RepositoryM Problem Tree StatusResult) =
      editFlags faults id other := by
  unfold editFlags editFlagsCheck editFlagsLocked
  rw [check, change]

theorem perform_setFlags {faults : Faults Problem} :
    (FlagEdit.perform faults id (.setFlags [asked]) :
      RepositoryM Problem Tree Unit) = setFlag_ faults id asked.toName := by
  simp [FlagEdit.perform]

/-- For every other flag the two operations are the same program. -/
theorem setFlag_eq {faults : Faults Problem}
    (other : asked.toName ≠ pendingImportFlag) :
    (setFlag faults id asked.toName : RepositoryM Problem Tree StatusResult) =
      setFlags faults id [asked] := by
  apply editFlags_congr
  · simp [FlagEdit.validate, validateFlagSet, other]
  · exact perform_setFlags.symm

theorem validate_setFlags (allowed : isAllowedFlag asked.toName) :
    (FlagEdit.validate (.setFlags [asked]) : RepositoryM Problem Tree Unit)
      store = .ok () store := by
  simp [FlagEdit.validate, validateFlagSet, validateFlag, allowed]
  rfl

theorem validate_unsetFlag (allowed : isAllowedFlag flag) :
    (FlagEdit.validate (.unsetFlag flag) : RepositoryM Problem Tree Unit)
      store = .ok () store := by
  simp [FlagEdit.validate, validateFlag, allowed, pure, EStateM.pure]

theorem validate_unsetFlags (allowed : isAllowedFlag asked.toName) :
    (FlagEdit.validate (.unsetFlags [asked]) : RepositoryM Problem Tree Unit)
      store = .ok () store := by
  simp [FlagEdit.validate, validateFlagSet, validateFlag, allowed]
  rfl

theorem Store.hasFlag_iff (found : store.dir id = some dir) :
    store.HasFlag id flag ↔ dir.Flagged flag := by
  constructor
  · exact fun set => set.flagged found
  · exact fun flagged => ⟨dir, found, flagged⟩

theorem readable_addFlag (allowed : isAllowedFlag flag) :
    (dir.addFlag flag).Readable ↔ dir.Readable := by
  apply and_congr_right
  intro _
  constructor
  · intro listable
    obtain ⟨names, directory, valid⟩ := listable
    rw [ProblemDir.addFlag, Option.map_eq_some_iff] at directory
    obtain ⟨before, directory, rfl⟩ := directory
    exact ⟨before, directory,
      fun other member => valid other (List.mem_insert_of_mem member)⟩
  · exact fun listable => listable.addFlag allowed

theorem readable_removeFlag (allowed : isAllowedFlag flag) :
    (dir.removeFlag flag).Readable ↔ dir.Readable := by
  apply and_congr_right
  intro _
  constructor
  · intro listable
    obtain ⟨names, directory, valid⟩ := listable
    rw [ProblemDir.removeFlag, Option.map_eq_some_iff] at directory
    obtain ⟨before, directory, rfl⟩ := directory
    refine ⟨before, directory, fun other member => ?_⟩
    by_cases same : other = flag
    · rw [same]
      exact allowed
    · exact valid other (List.mem_filter.mpr ⟨member, by simpa using same⟩)
  · exact fun listable => listable.removeFlag

theorem ok_of_ensures {program : RepositoryM Problem Tree Unit}
    (contract : Ensures program store (fun _ last => last = final)
      (fun _ _ => False)) : program store = .ok () final := by
  cases ended : program store with
  | ok value last => rw [contract.of_ok ended]
  | error exception last => exact (contract.of_error ended).elim

theorem error_of_ensures {program : RepositoryM Problem Tree Unit}
    (contract : Ensures program store (fun _ _ => False)
      (fun _ last => last = final)) :
    ∃ exception, program store = .error exception final := by
  cases ended : program store with
  | ok value last => exact (contract.of_ok ended).elim
  | error exception last => exact ⟨exception, by rw [contract.of_error ended]⟩

/-- `set_flags` on `PENDING_IMPORT`, where it gets to the flags. -/
theorem setFlags_pending (editable : Editable store id dir)
    (pending : asked.toName = pendingImportFlag) :
    (Answers (setFlags noFaults id [asked]) store ↔
        dir.flags.isSome ∧ dir.Readable) ∧
      ∀ flag, (after (setFlags noFaults id [asked]) store).HasFlag id flag ↔
        dir.Flagged flag ∨ flag = pendingImportFlag ∧ dir.flags.isSome := by
  have found := editable.2.1
  have allowed : isAllowedFlag asked.toName := by
    rw [pending]
    decide
  have checked : FlagEdit.validate (.setFlags [asked]) store = .ok () store :=
    validate_setFlags allowed
  cases directory : dir.flags with
  | none =>
      have failed : FlagEdit.perform noFaults id (.setFlags [asked]) store =
          .error (.fileSystem (.touchFlag asked.toName)) store := by
        rw [perform_setFlags]
        simp [setFlag_, fallible, openDir, bind,
          EStateM.bind, get_run, found, directory, pure, EStateM.pure,
          throw_run]
      obtain ⟨unanswered, same⟩ := editFlags_failed editable checked failed
      constructor
      · simpa [setFlags] using unanswered
      · intro flag
        simp [setFlags, same, Store.hasFlag_iff found]
  | some names =>
      have performed : FlagEdit.perform noFaults id (.setFlags [asked])
          store = .ok () (store.put id (dir.addFlag pendingImportFlag)) := by
        rw [perform_setFlags, pending]
        apply ok_of_ensures
        rw [ensures_setFlag found directory (by decide)]
        rfl
      obtain ⟨answered, same⟩ := editFlags_performed editable checked
        performed (Store.dir_put_self ..)
      constructor
      · rw [setFlags, answered, readable_addFlag (by decide)]
        simp
      · intro flag
        rw [setFlags, same, Store.hasFlag_iff (Store.dir_put_self ..),
          ProblemDir.flagged_addFlag, directory]

theorem sameOutcome_set (store : Store Problem Tree) (id : ProblemId)
    (asked : Flag) :
    SameOutcome id (setFlag noFaults id asked.toName)
        (setFlags noFaults id [asked]) store ↔
      ¬ SetDiffers store id asked.toName := by
  by_cases pending : asked.toName = pendingImportFlag
  · have refused : (FlagEdit.validate (.setFlag asked.toName) :
        RepositoryM Problem Tree Unit) store =
          .error (.flagCantBeSet asked.toName) store := by
      have allowed : isAllowedFlag pendingImportFlag := by decide
      simp [FlagEdit.validate, validateFlag, pending, allowed, throw_run]
    obtain ⟨unanswered, unchanged⟩ :
        ¬ Answers (setFlag noFaults id asked.toName) store ∧
          after (setFlag noFaults id asked.toName) store = store :=
      editFlags_unchecked refused
    unfold SameOutcome
    rw [unchanged, iff_false_left unanswered]
    by_cases reached : ∃ dir, Editable store id dir
    · obtain ⟨dir, editable⟩ := reached
      obtain ⟨answers, flags⟩ := setFlags_pending editable pending
      have differs : SetDiffers store id asked.toName ↔
          dir.flags.isSome ∧ (dir.Flagged asked.toName → dir.Readable) := by
        constructor
        · intro differs
          obtain ⟨_, other, editable', differs⟩ := differs
          cases editable.2.1.symm.trans editable'.2.1
          exact differs
        · exact fun differs => ⟨pending, dir, editable, differs⟩
      rw [answers, differs, pending]
      simp only [flags, Store.hasFlag_iff editable.2.1]
      constructor
      · intro outcome differs
        have flagged : dir.Flagged pendingImportFlag :=
          (outcome.2 pendingImportFlag).mpr (.inr ⟨rfl, differs.1⟩)
        exact outcome.1 ⟨differs.1, differs.2 flagged⟩
      · intro agrees
        constructor
        · exact fun answered => agrees ⟨answered.1, fun _ => answered.2⟩
        · intro flag
          constructor
          · exact .inl
          · intro set
            rcases set with flagged | added
            · exact flagged
            · by_contra absent
              rw [added.1] at absent
              exact agrees ⟨added.2, fun flagged => absurd flagged absent⟩
    · rw [not_exists] at reached
      obtain ⟨failed, same⟩ :
          ¬ Answers (setFlags noFaults id [asked]) store ∧
            after (setFlags noFaults id [asked]) store = store :=
        editFlags_refused reached
      rw [same]
      apply iff_of_true
      · exact ⟨failed, fun _ => Iff.rfl⟩
      · intro differs
        obtain ⟨_, dir, editable, _⟩ := differs
        exact reached dir editable
  · have same : setFlag noFaults id asked.toName store =
        setFlags noFaults id [asked] store := by
      rw [setFlag_eq pending]
    exact iff_of_true (.of_eq same) fun differs => pending differs.1

/-! ## Removing one flag -/

/-- An edit that removes one flag against one that removes none. -/
theorem removal_outcome {other : FlagEdit} (editable : Editable store id dir)
    (allowed : isAllowedFlag flag)
    (checked : edit.validate store = .ok () store)
    (checkedOther : other.validate store = .ok () store)
    (removes : (edit.perform noFaults id : RepositoryM Problem Tree Unit) =
      unsetFlag_ noFaults id flag)
    (idle : (other.perform noFaults id : RepositoryM Problem Tree Unit) =
      pure ()) :
    SameOutcome id (editFlags noFaults id edit) (editFlags noFaults id other)
        store ↔
      ¬ if isDirectoryName flag then dir.Readable else dir.Flagged flag := by
  have found := editable.2.1
  have performed : other.perform noFaults id store = .ok () store := by
    rw [idle]
    rfl
  obtain ⟨answersIdle, sameIdle⟩ :=
    editFlags_performed editable checkedOther performed found
  unfold SameOutcome
  rw [answersIdle, sameIdle]
  cases directory : dir.flags with
  | none =>
      have removed : edit.perform noFaults id store = .ok () store := by
        rw [removes]
        simp [unsetFlag_, fallible, bind, EStateM.bind, get_run, found,
          directory, pure, EStateM.pure]
      obtain ⟨answers, same⟩ :=
        editFlags_performed editable checked removed found
      rw [answers, same]
      apply iff_of_true ⟨Iff.rfl, fun _ => Iff.rfl⟩
      split <;> simp [ProblemDir.Readable, ProblemDir.Listable,
        ProblemDir.Flagged, directory]
  | some names =>
      by_cases improper : isDirectoryName flag = true
      · obtain ⟨exception, failed⟩ : ∃ exception,
            edit.perform noFaults id store = .error exception store := by
          rw [removes]
          exact error_of_ensures (unsetFlag_improper improper found directory)
        obtain ⟨unanswered, same⟩ := editFlags_failed editable checked failed
        rw [same, if_pos improper]
        constructor
        · intro outcome readable
          exact unanswered (outcome.1.mpr readable)
        · exact fun unreadable =>
            ⟨iff_of_false unanswered unreadable, fun _ => Iff.rfl⟩
      · rw [if_neg improper]
        rw [Bool.not_eq_true] at improper
        have removed : edit.perform noFaults id store =
            .ok () (store.put id (dir.removeFlag flag)) := by
          rw [removes]
          apply ok_of_ensures
          rw [ensures_unsetFlag found directory improper]
          rfl
        obtain ⟨answers, same⟩ := editFlags_performed editable checked
          removed (Store.dir_put_self ..)
        rw [answers, same, readable_removeFlag allowed]
        simp only [Store.hasFlag_iff (Store.dir_put_self ..),
          Store.hasFlag_iff found, ProblemDir.flagged_removeFlag]
        constructor
        · exact fun outcome flagged =>
            ((outcome.2 flag).mpr flagged).2 rfl
        · intro absent
          refine ⟨trivial, fun name => ⟨And.left, fun flagged => ?_⟩⟩
          refine ⟨flagged, fun same => ?_⟩
          rw [same] at flagged
          exact absent flagged

theorem SameOutcome.comm
    {first second : RepositoryM Problem Tree StatusResult} :
    SameOutcome id first second store ↔ SameOutcome id second first store := by
  constructor <;>
    exact fun same => ⟨same.1.symm, fun flag => (same.2 flag).symm⟩

theorem SameOutcome.of_failed {other : FlagEdit}
    (one : ¬ Answers (editFlags noFaults id edit) store ∧
      after (editFlags noFaults id edit) store = store)
    (two : ¬ Answers (editFlags noFaults id other) store ∧
      after (editFlags noFaults id other) store = store) :
    SameOutcome id (editFlags noFaults id edit) (editFlags noFaults id other)
      store := by
  unfold SameOutcome
  rw [one.2, two.2]
  exact ⟨iff_of_false one.1 two.1, fun _ => Iff.rfl⟩

theorem perform_unsetFlags {faults : Faults Problem} :
    (FlagEdit.perform faults id (.unsetFlags [asked]) :
      RepositoryM Problem Tree Unit) =
      if asked.toName ≠ ignoreFlag ∧ asked.toName ≠ pendingImportFlag
      then unsetFlag_ faults id asked.toName else pure () := by
  simp [FlagEdit.perform]

theorem sameOutcome_unset (store : Store Problem Tree) (id : ProblemId)
    (asked : Flag) :
    SameOutcome id (unsetFlag noFaults id asked.toName)
        (unsetFlags noFaults id [asked]) store ↔
      ¬ UnsetDiffers store id asked.toName := by
  by_cases allowed : isAllowedFlag asked.toName
  · have checked : FlagEdit.validate (.unsetFlag asked.toName) store =
        .ok () store := validate_unsetFlag allowed
    have checkedSet : FlagEdit.validate (.unsetFlags [asked]) store =
        .ok () store := validate_unsetFlags allowed
    by_cases pending : asked.toName = pendingImportFlag
    · have same : unsetFlag noFaults id asked.toName store =
          unsetFlags noFaults id [asked] store := by
        apply congrFun
        apply editFlags_congr
        · simp [FlagEdit.validate, validateFlagSet]
        · rw [perform_unsetFlags, if_neg (by simp [pending]),
            FlagEdit.perform, if_neg (by rw [pending]; decide)]
      exact iff_of_true (.of_eq same) fun differs => differs.2.1 pending
    · by_cases reached : ∃ dir, Editable store id dir
      · obtain ⟨dir, editable⟩ := reached
        have differs : UnsetDiffers store id asked.toName ↔
            if isDirectoryName asked.toName then dir.Readable
            else dir.Flagged asked.toName := by
          constructor
          · intro differs
            obtain ⟨_, _, other, editable', differs⟩ := differs
            cases editable.2.1.symm.trans editable'.2.1
            exact differs
          · exact fun differs => ⟨allowed, pending, dir, editable, differs⟩
        rw [differs]
        by_cases ignored : asked.toName = ignoreFlag
        · apply removal_outcome editable allowed checked checkedSet
          · rw [FlagEdit.perform, if_pos ignored]
          · rw [perform_unsetFlags, if_neg (by simp [ignored])]
        · rw [SameOutcome.comm]
          apply removal_outcome editable allowed checkedSet checked
          · rw [perform_unsetFlags, if_pos ⟨ignored, pending⟩]
          · rw [FlagEdit.perform, if_neg ignored]
      · rw [not_exists] at reached
        apply iff_of_true
        · exact .of_failed (editFlags_refused reached)
            (editFlags_refused reached)
        · intro differs
          obtain ⟨_, _, dir, editable, _⟩ := differs
          exact reached dir editable
  · apply iff_of_true
    · apply SameOutcome.of_failed
      · apply editFlags_unchecked
        simp only [FlagEdit.validate, validateFlag, allowed]
        rfl
      · apply editFlags_unchecked
        simp [FlagEdit.validate, validateFlagSet, validateFlag, allowed]
        rfl
    · exact fun differs => allowed differs.1

end Edits

/-! ## Sequences of edits -/

structure EditCall (Problem : Type) where
  id : ProblemId
  edit : FlagEdit
  faults : Faults Problem

def editStep (store : Store Problem Tree) (call : EditCall Problem) :
    Option (Store Problem Tree) :=
  some (after (editFlags call.faults call.id call.edit) store)

/-- The call does not get to set `PENDING_IMPORT` where it is not set, and not
to remove `IGNORE` where it is set. -/
def EditCall.Mild (store : Store Problem Tree) (call : EditCall Problem) :
    Prop :=
  ∀ dir, Editable store call.id dir →
    (call.edit.Adds pendingImportFlag → dir.flags.isSome →
      dir.Flagged pendingImportFlag) ∧
    (call.edit.Removes ignoreFlag → ¬ dir.Flagged ignoreFlag)

/-- `PENDING_IMPORT` is set on the same problems, and `IGNORE` still on all
where it was. -/
def KeepsReserved (before final : Store Problem Tree) : Prop :=
  ∀ id, (final.HasFlag id pendingImportFlag ↔
      before.HasFlag id pendingImportFlag) ∧
    (before.HasFlag id ignoreFlag → final.HasFlag id ignoreFlag)

section Sequences

variable {store final : Store Problem Tree} {id other : ProblemId}
  {flag name : FlagName} {call : EditCall Problem}

theorem KeepsReserved.refl (store : Store Problem Tree) :
    KeepsReserved store store :=
  fun _ => ⟨Iff.rfl, fun set => set⟩

theorem KeepsReserved.trans {last : Store Problem Tree}
    (one : KeepsReserved store final) (two : KeepsReserved final last) :
    KeepsReserved store last :=
  fun id => ⟨(two id).1.trans (one id).1, fun set => (two id).2 ((one id).2 set)⟩

theorem Store.hasFlag_addFlag :
    (store.update id (·.addFlag flag)).HasFlag other name ↔
      store.HasFlag other name ∨
        other = id ∧ name = flag ∧ ∃ dir, store.dir id = some dir ∧
          dir.flags.isSome := by
  by_cases same : other = id
  · subst same
    cases found : store.dir other with
    | none =>
        simp [Store.HasFlag, Store.dir_update_self, found]
    | some dir =>
        simp [Store.HasFlag, Store.dir_update_self, found,
          ProblemDir.flagged_addFlag]
  · simp [Store.HasFlag, Store.dir_update_of_ne, same]

theorem Store.hasFlag_removeFlag :
    (store.update id (·.removeFlag flag)).HasFlag other name ↔
      store.HasFlag other name ∧ ¬ (other = id ∧ name = flag) := by
  by_cases same : other = id
  · subst same
    cases found : store.dir other with
    | none =>
        simp [Store.HasFlag, Store.dir_update_self, found]
    | some dir =>
        simp [Store.HasFlag, Store.dir_update_self, found,
          ProblemDir.flagged_removeFlag]
  · simp [Store.HasFlag, Store.dir_update_of_ne, same]

theorem editFlags_unstored {faults : Faults Problem} {edit : FlagEdit}
    (missing : store.dir id = none) :
    Ensures (editFlags faults id edit) store
      (fun _ last => last = store) (fun _ last => last = store) := by
  rw [editFlags, ensures_bind]
  apply (editFlagsCheck_ensures id edit store).mono
  · intro go last checked
    obtain ⟨rfl, allowed, _⟩ := checked
    cases go with
    | false => rfl
    | true =>
        simp only [if_true, editFlagsLocked, ensures_bind,
          ensures_existsProblem allowed, missing]
        cases faults .checkExists with
        | none => rfl
        | some residue => trivial
  · exact fun _ _ stopped => stopped

/-- An edit that does not get to the flags changes nothing. -/
theorem editFlags_unreached {faults : Faults Problem} {edit : FlagEdit}
    (refused : ∀ dir, ¬ Editable store id dir) :
    after (editFlags faults id edit) store = store := by
  by_cases allowed : isAllowedId id
  · cases found : store.dir id with
    | none =>
        exact after_of_ensures (fun last => last = store)
          (editFlags_unstored found)
    | some dir =>
        have readOnly : dir.hasFlag readOnlyFlag = true := by
          by_contra writable
          exact refused dir ⟨allowed, found, by simpa using writable⟩
        exact after_of_ensures (fun last => last = store)
          (editFlags_readOnly found
            ((ProblemDir.hasFlag_iff (by decide)).mp readOnly))
  · apply after_of_ensures (fun last => last = store)
    simp [editFlags, editFlagsCheck, ensures_validateId, allowed]

theorem editStep_keeps (mild : call.Mild store)
    (taken : editStep store call = some final) :
    KeepsReserved store final := by
  cases taken
  by_cases reached : ∃ dir, Editable store call.id dir
  · obtain ⟨dir, editable⟩ := reached
    have found := editable.2.1
    obtain ⟨adds, removes⟩ := mild dir editable
    apply (after_keeps (fun last => KeepsReserved store last ∧
      (dir.flags = none → ∀ now, last.dir call.id = some now →
        now.flags = none)) (editFlags_keeps ?_ ?_) ?_).1
    · intro flag last added held
      constructor
      · intro id
        rw [Store.hasFlag_addFlag, Store.hasFlag_addFlag]
        constructor
        · rw [← (held.1 id).1, or_iff_left_iff_imp]
          intro new
          obtain ⟨rfl, rfl, now, isNow, some⟩ := new
          cases directory : dir.flags with
          | none =>
              rw [held.2 directory now isNow] at some
              cases some
          | some names =>
              rw [(held.1 _).1, Store.hasFlag_iff found]
              exact adds added (by rw [directory]; rfl)
        · exact fun set => .inl ((held.1 id).2 set)
      · intro absent now isNow
        rw [Store.dir_update_self, Option.map_eq_some_iff] at isNow
        obtain ⟨before, isBefore, rfl⟩ := isNow
        rw [ProblemDir.addFlag, held.2 absent before isBefore]
        rfl
    · intro flag last removed held
      constructor
      · intro id
        rw [Store.hasFlag_removeFlag, Store.hasFlag_removeFlag]
        constructor
        · rw [← (held.1 id).1, and_iff_left_iff_imp]
          intro _ same
          exact removed.ne_pending same.2.symm
        · intro set
          refine ⟨(held.1 id).2 set, fun same => ?_⟩
          obtain ⟨rfl, rfl⟩ := same
          exact removes removed ((Store.hasFlag_iff found).mp set)
      · intro absent now isNow
        rw [Store.dir_update_self, Option.map_eq_some_iff] at isNow
        obtain ⟨before, isBefore, rfl⟩ := isNow
        rw [ProblemDir.removeFlag, held.2 absent before isBefore]
        rfl
    · refine ⟨.refl store, fun absent now isNow => ?_⟩
      cases found.symm.trans isNow
      exact absent
  · rw [not_exists] at reached
    rw [editFlags_unreached reached]
    exact .refl store

end Sequences

/-- The operations on one flag agree with those on sets of flags exactly
where no reserved flag is treated differently, and mild calls keep
`PENDING_IMPORT` and `IGNORE`. -/
theorem flag_algebra (store : Store Problem Tree) :
    (∀ id asked, SameOutcome id (setFlag noFaults id asked.toName)
        (setFlags noFaults id [asked]) store ↔
      ¬ SetDiffers store id asked.toName) ∧
    (∀ id asked, SameOutcome id (unsetFlag noFaults id asked.toName)
        (unsetFlags noFaults id [asked]) store ↔
      ¬ UnsetDiffers store id asked.toName) ∧
    ∀ final, Runs editStep (fun state call => call.Mild state) store final →
      KeepsReserved store final := by
  refine ⟨sameOutcome_set store, sameOutcome_unset store, ?_⟩
  intro final run
  apply run.invariant (KeepsReserved.refl store)
  intro before call last kept mild taken
  exact kept.trans (editStep_keeps mild taken)

theorem flag_algebra_sample :
    ∃ final, editStep (Sample.system [ignoreFlag]).store
        ⟨"p", .setFlag "hard", noFaults⟩ = some final ∧
      KeepsReserved (Sample.system [ignoreFlag]).store final := by
  refine ⟨_, rfl, (flag_algebra (Sample.system [ignoreFlag]).store).2.2 _
    (.single ?_ rfl)⟩
  intro dir _
  constructor
  · intro adds _
    exact absurd adds.2.1 (by decide)
  · exact fun removes => removes.2.2.elim

/-- `set_flag` refuses `PENDING_IMPORT` and `set_flags` sets it; `unset_flag`
removes `IGNORE` and `unset_flags` does not. -/
theorem flag_algebra_fails :
    ¬ SameOutcome "p" (setFlag noFaults "p" pendingImportFlag)
        (setFlags noFaults "p" [.reserved .pendingImport])
        (Sample.system []).store ∧
      ¬ SameOutcome "p" (unsetFlag noFaults "p" ignoreFlag)
        (unsetFlags noFaults "p" [.reserved .ignore])
        (Sample.system [ignoreFlag]).store ∧
      ∃ final, editStep (Sample.system []).store
          ⟨"p", .setFlags [.reserved .pendingImport], noFaults⟩ =
            some final ∧
        ¬ (Sample.system []).store.HasFlag "p" pendingImportFlag ∧
        final.HasFlag "p" pendingImportFlag := by
  have readable : isAllowedId "p" := by decide
  refine ⟨fun same => ?_, fun same => ?_, _, rfl, ?_, ?_⟩
  · refine (sameOutcome_set (Sample.system []).store "p"
      (.reserved .pendingImport)).mp same ⟨rfl, _, ⟨readable, rfl, rfl⟩, rfl, ?_⟩
    intro set
    exact absurd set (by decide)
  · refine (sameOutcome_unset (Sample.system [ignoreFlag]).store "p"
      (.reserved .ignore)).mp same
        ⟨by decide, by decide, _, ⟨readable, rfl, by decide⟩, ?_⟩
    rw [if_neg (by decide)]
    exact ⟨[ignoreFlag], rfl, List.mem_cons_self⟩
  · intro set
    exact absurd ((Store.hasFlag_iff rfl).mp set) (by decide)
  · exact ⟨_, rfl, by decide⟩

end Bacs.Archive
