import Bacs.Archive.Transitions

/-!
# What `LOCKED` and `READ_ONLY` protect

No step of any thread removes `READ_ONLY`, a read-only problem keeps all its
flags when clients edit them, and an upload leaves a problem with one of the
two flags alone, even if it was started before the flag was set.
-/

namespace Bacs.Archive

open Foundation

variable {Directory Problem Tree : Type}
variable {externals : Externals Directory Problem Tree}
variable {system next : System Directory Problem Tree}

namespace Store

/-- The problem exists and has the flag. -/
def HasFlag (store : Store Problem Tree) (id : ProblemId)
    (flag : FlagName) : Prop :=
  ∃ dir, store.dir id = some dir ∧ dir.Flagged flag

variable {store : Store Problem Tree} {id other : ProblemId}
  {flag : FlagName}

theorem HasFlag.flagged {dir : ProblemDir Problem}
    (set : store.HasFlag id flag) (found : store.dir id = some dir) :
    dir.Flagged flag := by
  obtain ⟨dir', found', flagged⟩ := set
  rw [found, Option.some.injEq] at found'
  subst found'
  exact flagged

theorem HasFlag.put {dir : ProblemDir Problem}
    (set : store.HasFlag id flag)
    (same : other = id → dir.Flagged flag) :
    (store.put other dir).HasFlag id flag := by
  by_cases own : other = id
  · subst other
    exact ⟨dir, Store.dir_put_self .., same rfl⟩
  · obtain ⟨dir', found, flagged⟩ := set
    refine ⟨dir', ?_, flagged⟩
    rw [Store.dir_put_of_ne _ _ _ _ (Ne.symm own)]
    exact found

theorem HasFlag.update {change : ProblemDir Problem → ProblemDir Problem}
    (set : store.HasFlag id flag)
    (kept : other = id → ∀ dir : ProblemDir Problem,
      dir.Flagged flag → (change dir).Flagged flag) :
    (store.update other change).HasFlag id flag := by
  cases found : store.dir other with
  | none => simpa [Store.update, found] using set
  | some dir =>
      rw [Store.update_of_dir _ found]
      refine set.put fun own => ?_
      subst other
      exact kept rfl dir (set.flagged found)

end Store

/-! ## `READ_ONLY` stays set -/

section ReadOnly

variable {store : Store Problem Tree} {id : ProblemId}

theorem editFlags_keepsReadOnly {other : ProblemId} {edit : FlagEdit}
    {faults : Faults Problem}
    (set : store.HasFlag id readOnlyFlag) :
    (after (editFlags faults other edit) store).HasFlag id readOnlyFlag := by
  by_cases own : other = id
  · subst other
    obtain ⟨dir, found, readOnly⟩ := set
    have unchanged : after (editFlags faults id edit) store = store :=
      after_of_ensures (· = _) (editFlags_readOnly found readOnly)
    rw [unchanged]
    exact ⟨dir, found, readOnly⟩
  · refine after_keeps (·.HasFlag id readOnlyFlag) (editFlags_keeps ?_ ?_) set
    · exact fun _ _ _ held => held.update fun same => absurd same own
    · exact fun _ _ _ held => held.update fun same => absurd same own

theorem uploadLocked_keepsReadOnly {other : ProblemId} {location : Directory}
    {faults : Faults Problem}
    (set : store.HasFlag id readOnlyFlag) :
    (after (uploadLocked externals faults other location) store).HasFlag id
      readOnlyFlag := by
  by_cases own : other = id
  · subst other
    obtain ⟨dir, found, readOnly⟩ := set
    have unchanged :
        after (uploadLocked externals faults id location) store = store :=
      after_of_ensures (· = _) (uploadLocked_protected found (.inr readOnly))
    rw [unchanged]
    exact ⟨dir, found, readOnly⟩
  · refine after_keeps (·.HasFlag id readOnlyFlag)
      (uploadLocked_keeps ?_ ?_ ?_) set
    · exact fun _ _ held => held.update fun same => absurd same own
    · exact fun _ held => held.put fun same => absurd same own
    · exact fun _ held => held

theorem step_keepsReadOnly {action : Action Directory Problem}
    (taken : step externals system action = some next)
    (set : system.store.HasFlag id readOnlyFlag) :
    next.store.HasFlag id readOnlyFlag := by
  have effect := step_effect taken
  generalize next.store = final at effect ⊢
  cases effect with
  | quiet problems _ => simpa [Store.HasFlag, Store.dir, problems] using set
  | upload _ => exact uploadLocked_keepsReadOnly set
  | edit => exact editFlags_keepsReadOnly set
  | prepare _ =>
      refine after_keeps (·.HasFlag id readOnlyFlag)
        (prepareImport_keeps fun _ held => ?_) set
      refine held.update fun _ dir flagged => ?_
      exact ProblemDir.flagged_addFlag.mpr (.inl flagged)
  | read _ =>
      refine after_keeps (·.HasFlag id readOnlyFlag)
        (importReadLocked_keeps ?_) set
      intro store dir slot found held
      refine held.put fun own => ?_
      subst own
      have before := held.flagged found
      exact before
  | commit _ =>
      refine after_keeps (·.HasFlag id readOnlyFlag)
        (importCommitLocked_keeps ?_ ?_) set
      · intro store dir slot found held
        refine held.put fun own => ?_
        subst own
        have before := held.flagged found
        exact before
      · intro store dir after found committed held
        refine held.put fun own => ?_
        subst own
        have before := held.flagged found
        exact (committed.otherFlags _ (by decide) (by decide)).mpr before

end ReadOnly

/-! ## Protection along every run -/

/-- The step runs a part of an upload. -/
def Action.Uploads : Action Directory Problem → Prop
  | .upload .. => True
  | .uploadLocked .. => True
  | _ => False

theorem edit_keepsReadOnlyDir {id other : ProblemId} {edit : FlagEdit}
    {faults : Faults Problem}
    (set : system.store.HasFlag id readOnlyFlag)
    (taken : step externals system (.editFlags other edit faults) =
      some next) :
    next.store.dir id = system.store.dir id := by
  cases step_transition taken
  by_cases own : other = id
  · subst other
    obtain ⟨dir, found, readOnly⟩ := set
    have unchanged :
        after (editFlags faults id edit) system.store = system.store :=
      after_of_ensures (· = _) (editFlags_readOnly found readOnly)
    exact congrArg (Store.dir · id) unchanged
  · exact editFlags_frame (Ne.symm own)

theorem upload_keepsProtected {id : ProblemId}
    {action : Action Directory Problem} (uploads : action.Uploads)
    (set : system.store.HasFlag id lockedFlag ∨
      system.store.HasFlag id readOnlyFlag)
    (taken : step externals system action = some next) :
    next.store.dir id = system.store.dir id := by
  cases step_transition taken with
  | uploadPassed _ => rfl
  | uploadRefused => rfl
  | @uploadLocked thread faults other location task =>
      by_cases own : other = id
      · subst other
        have unchanged :
            after (uploadLocked externals faults id location) system.store =
              system.store := by
          rcases set with ⟨dir, found, locked⟩ | ⟨dir, found, readOnly⟩
          · exact after_of_ensures (· = _)
              (uploadLocked_protected found (.inl locked))
          · exact after_of_ensures (· = _)
              (uploadLocked_protected found (.inr readOnly))
        exact congrArg (Store.dir · id) unchanged
      · exact uploadLocked_frame (Ne.symm own)
  | _ => exact uploads.elim

/-- From any state in which a problem has `READ_ONLY`, the flag stays set, and
no request to edit flags changes the problem in any later state; and a step of
an upload does not change a problem that has `LOCKED` or `READ_ONLY`. -/
theorem flags_protect (externals : Externals Directory Problem Tree)
    (system : System Directory Problem Tree) (id : ProblemId) :
    (system.store.HasFlag id readOnlyFlag →
      ∀ final, Runs (step externals) (fun _ _ => True) system final →
        final.store.HasFlag id readOnlyFlag ∧
        ∀ other edit faults next,
          step externals final (.editFlags other edit faults) = some next →
            next.store.dir id = final.store.dir id) ∧
    (system.store.HasFlag id lockedFlag ∨
        system.store.HasFlag id readOnlyFlag →
      ∀ action next, action.Uploads →
        step externals system action = some next →
          next.store.dir id = system.store.dir id) := by
  constructor
  · intro set final run
    have kept : final.store.HasFlag id readOnlyFlag :=
      run.invariant set fun _ _ _ held _ taken =>
        step_keepsReadOnly taken held
    exact ⟨kept, fun other edit faults next taken =>
      edit_keepsReadOnlyDir kept taken⟩
  · intro set action next uploads taken
    exact upload_keepsProtected uploads set taken

theorem flags_protect_sample :
    (after (editFlags noFaults "p" .clearFlags)
        (Sample.system [readOnlyFlag]).store).dir "p" =
      (Sample.system [readOnlyFlag]).store.dir "p" ∧
    (after (uploadLocked Sample.configuration noFaults "p" true)
        (Sample.system [lockedFlag]).store).dir "p" =
      (Sample.system [lockedFlag]).store.dir "p" := by
  have readOnly : (Sample.system [readOnlyFlag]).store.HasFlag "p"
      readOnlyFlag := ⟨_, rfl, by decide⟩
  have locked : (Sample.system [lockedFlag]).store.HasFlag "p"
      lockedFlag := ⟨_, rfl, by decide⟩
  constructor
  · exact ((flags_protect Sample.configuration _ "p").1 readOnly _
      (Runs.refl _)).2 "p" .clearFlags noFaults _ rfl
  · have taken : step Sample.configuration (Sample.system [lockedFlag])
        (.uploadLocked 0 noFaults) =
        some { (Sample.system [lockedFlag]).goOn 0 .idle with
          store := after (uploadLocked Sample.configuration noFaults "p" true)
            (Sample.system [lockedFlag]).store } := rfl
    have same := (flags_protect Sample.configuration _ "p").2 (.inl locked)
      (.uploadLocked 0 noFaults) _ trivial taken
    exact same

end Bacs.Archive
