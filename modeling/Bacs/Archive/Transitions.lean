import Bacs.Archive.Sections
import Bacs.Archive.System

/-!
# The steps of the system, case by case

`Transition` lists what a step can do, with the outcome of the section it
runs.  Invariants are proved by cases on it; the step function itself is
taken apart only here.
-/

namespace Bacs.Archive

open Foundation

variable {Directory Problem Tree : Type}

theorem after_of_ensures {α : Type} {program : RepositoryM Problem Tree α}
    {store : Store Problem Tree} (holds : Store Problem Tree → Prop)
    (contract : Ensures program store (fun _ final => holds final)
      (fun _ final => holds final)) :
    holds (after program store) := by
  unfold after
  unfold Ensures at contract
  cases outcome : program store with
  | ok value final => simpa [outcome] using contract
  | error exception final => simpa [outcome] using contract

theorem after_keeps {α : Type} {program : RepositoryM Problem Tree α}
    {store : Store Problem Tree} (holds : Store Problem Tree → Prop)
    (kept : Keeps holds program) (held : holds store) :
    holds (after program store) :=
  after_of_ensures holds (kept store held)

/-- The step of `importConvert`. -/
def System.converted (externals : Externals Directory Problem Tree)
    (system : System Directory Problem Tree) (thread seed : Nat)
    (id : ProblemId) (revision : Revision) (contents : Directory) :
    System Directory Problem Tree :=
  let converted := importConvert externals seed id revision contents
    (system.store.published id)
  { system.goOn thread (.importCommitting id revision converted.1) with
    store := { system.store with
      published := Function.update system.store.published id converted.2 } }

inductive Transition (externals : Externals Directory Problem Tree)
    (system : System Directory Problem Tree) :
    Action Directory Problem → System Directory Problem Tree → Prop
  | uploadPassed {thread id location faults}
      (idle : system.tasks thread = .idle) :
      Transition externals system (.upload thread id location faults)
        (system.goOn thread (.uploading id location))
  | uploadRefused {thread id location faults} :
      Transition externals system (.upload thread id location faults) system
  | uploadLocked {thread faults id location}
      (task : system.tasks thread = .uploading id location) :
      Transition externals system (.uploadLocked thread faults)
        { system.goOn thread .idle with
          store := after (uploadLocked externals faults id location)
            system.store }
  | editFlags {id edit faults} :
      Transition externals system (.editFlags id edit faults)
        { system with store := after (editFlags faults id edit) system.store }
  | schedule {thread ids} (task : system.tasks thread = .idle) :
      Transition externals system (.schedule thread ids)
        (system.goOn thread (.scheduling ids []))
  | preparedAll {thread faults scheduled}
      (task : system.tasks thread = .scheduling [] scheduled) :
      Transition externals system (.prepare thread faults)
        (system.goOn thread (.posting scheduled))
  | prepared {thread faults id rest scheduled store}
      (task : system.tasks thread = .scheduling (id :: rest) scheduled)
      (run : prepareImport faults id system.store = .ok true store) :
      Transition externals system (.prepare thread faults)
        { system.goOn thread (.scheduling rest (scheduled.insert id)) with
          store }
  | prepareMissing {thread faults id rest scheduled}
      (task : system.tasks thread = .scheduling (id :: rest) scheduled) :
      Transition externals system (.prepare thread faults)
        (system.goOn thread (.scheduling rest scheduled))
  | prepareFailed {thread faults id rest scheduled exception store}
      (task : system.tasks thread = .scheduling (id :: rest) scheduled)
      (run : prepareImport faults id system.store = .error exception store) :
      Transition externals system (.prepare thread faults)
        { system.goOn thread (.posting scheduled) with store }
  | postedAll {thread} (task : system.tasks thread = .posting []) :
      Transition externals system (.post thread) (system.goOn thread .idle)
  | posted {thread id rest}
      (task : system.tasks thread = .posting (id :: rest)) :
      Transition externals system (.post thread)
        { system.goOn thread (.posting rest) with
          store := system.store.post id }
  | callImport {thread id} (task : system.tasks thread = .idle)
      (allowed : isAllowedId id) :
      Transition externals system (.callImport thread id)
        (system.goOn thread (.importWaiting id))
  | callImportRefused {thread id} :
      Transition externals system (.callImport thread id) system
  | runPosted {thread index id} (task : system.tasks thread = .idle)
      (posted : system.store.posted[index]? = some id) :
      Transition externals system (.runPosted thread index)
        { system.goOn thread (.importWaiting id) with
          store := { system.store with
            posted := system.store.posted.eraseIdx index } }
  | lockImports {thread id} (task : system.tasks thread = .importWaiting id)
      (free : system.importing = none) :
      Transition externals system (.lockImports thread)
        { system.goOn thread (.importReading id) with
          importing := some thread }
  | importRead {thread faults id revision contents store}
      (task : system.tasks thread = .importReading id)
      (run : importReadLocked externals faults id system.store =
        .ok (some (revision, contents)) store) :
      Transition externals system (.importRead thread faults)
        { system.goOn thread (.importConverting id revision contents) with
          store }
  | importMissing {thread faults id}
      (task : system.tasks thread = .importReading id)
      (missing : system.store.dir id = none) :
      Transition externals system (.importRead thread faults)
        (system.endImport thread)
  | importReadFailed {thread faults id exception store}
      (task : system.tasks thread = .importReading id)
      (run : importReadLocked externals faults id system.store =
        .error exception store) :
      Transition externals system (.importRead thread faults)
        { system.endImport thread with store }
  | importConvert {thread seed id revision contents}
      (task : system.tasks thread =
        .importConverting id revision contents) :
      Transition externals system (.importConvert thread seed)
        (system.converted externals thread seed id revision contents)
  | importCommit {thread faults id revision outcome}
      (task : system.tasks thread = .importCommitting id revision outcome) :
      Transition externals system (.importCommit thread faults)
        { system.endImport thread with
          store := after (importCommitLocked faults id revision outcome)
            system.store }

variable {externals : Externals Directory Problem Tree}
  {system next : System Directory Problem Tree}

theorem transition_upload {thread : Nat} {id : ProblemId}
    {location : Directory} {faults : Faults Problem}
    (taken : step externals system (.upload thread id location faults) =
      some next) :
    Transition externals system (.upload thread id location faults) next := by
  have pristine : Pristine (uploadCheck externals faults id location) :=
    uploadCheck_pristine id location
  have unchanged := pristine.ensures system.store
  cases task : system.tasks thread with
  | idle =>
      simp only [step, task] at taken
      cases run : uploadCheck externals faults id location system.store with
      | ok refusal store =>
          obtain rfl := unchanged.of_ok run
          cases refusal with
          | none =>
              simp only [run, Option.some.injEq] at taken
              subst taken
              exact .uploadPassed task
          | some refusal =>
              simp only [run, Option.some.injEq] at taken
              subst taken
              exact .uploadRefused
      | error exception store =>
          obtain rfl := unchanged.of_error run
          simp only [run, Option.some.injEq] at taken
          subst taken
          exact .uploadRefused
  | _ => simp [step, task] at taken

theorem transition_prepare {thread : Nat} {faults : Faults Problem}
    (taken : step externals system (.prepare thread faults) = some next) :
    Transition externals system (.prepare thread faults) next := by
  cases task : system.tasks thread with
  | scheduling rest scheduled =>
      cases rest with
      | nil =>
          simp only [step, task, Option.some.injEq] at taken
          subst taken
          exact .preparedAll task
      | cons id rest =>
          simp only [step, task] at taken
          cases run : prepareImport faults id system.store with
          | ok existing store =>
              cases existing with
              | true =>
                  simp only [run, Option.some.injEq] at taken
                  subst taken
                  exact .prepared task run
              | false =>
                  obtain rfl := prepareImport_refused run
                  simp only [run, Option.some.injEq] at taken
                  subst taken
                  exact .prepareMissing task
          | error exception store =>
              simp only [run, Option.some.injEq] at taken
              subst taken
              exact .prepareFailed task run
  | _ => simp [step, task] at taken

theorem transition_importRead {thread : Nat} {faults : Faults Problem}
    (taken : step externals system (.importRead thread faults) =
      some next) :
    Transition externals system (.importRead thread faults) next := by
  cases task : system.tasks thread with
  | importReading id =>
      simp only [step, task] at taken
      cases run : importReadLocked externals faults id system.store with
      | error exception store =>
          simp only [run, Option.some.injEq] at taken
          subst taken
          exact .importReadFailed task run
      | ok result store =>
          cases result with
          | some result =>
              simp only [run, Option.some.injEq] at taken
              subst taken
              exact .importRead task run
          | none =>
              simp only [run, Option.some.injEq] at taken
              subst taken
              cases found : system.store.dir id with
              | none =>
                  obtain ⟨_, rfl⟩ :=
                    (importReadLocked_missing found).of_ok run
                  exact .importMissing task found
              | some dir =>
                  obtain ⟨_, _, _, impossible, _⟩ :=
                    (importReadLocked_ensures found).of_ok run
                  cases impossible
  | _ => simp [step, task] at taken

theorem transition_runPosted {thread index : Nat}
    (taken : step externals system (.runPosted thread index) = some next) :
    Transition externals system (.runPosted thread index) next := by
  cases task : system.tasks thread with
  | idle =>
      cases posted : system.store.posted[index]? with
      | none => simp [step, task, posted] at taken
      | some id =>
          simp only [step, task, posted, Option.some.injEq] at taken
          subst taken
          exact .runPosted task posted
  | _ => simp [step, task] at taken

theorem transition_lockImports {thread : Nat}
    (taken : step externals system (.lockImports thread) = some next) :
    Transition externals system (.lockImports thread) next := by
  cases task : system.tasks thread with
  | importWaiting id =>
      cases free : system.importing with
      | some holder => simp [step, task, free] at taken
      | none =>
          simp only [step, task, free, Option.some.injEq] at taken
          subst taken
          exact .lockImports task free
  | _ => simp [step, task] at taken

theorem step_transition {action : Action Directory Problem}
    (taken : step externals system action = some next) :
    Transition externals system action next := by
  cases action with
  | upload thread id location faults => exact transition_upload taken
  | prepare thread faults => exact transition_prepare taken
  | importRead thread faults => exact transition_importRead taken
  | runPosted thread index => exact transition_runPosted taken
  | lockImports thread => exact transition_lockImports taken
  | editFlags id edit faults =>
      simp only [step, Option.some.injEq] at taken
      subst taken
      exact .editFlags
  | uploadLocked thread faults =>
      cases task : system.tasks thread with
      | uploading id location =>
          simp only [step, task, Option.some.injEq] at taken
          subst taken
          exact .uploadLocked task
      | _ => simp [step, task] at taken
  | schedule thread ids =>
      cases task : system.tasks thread with
      | idle =>
          simp only [step, task, Option.some.injEq] at taken
          subst taken
          exact .schedule task
      | _ => simp [step, task] at taken
  | post thread =>
      cases task : system.tasks thread with
      | posting scheduled =>
          cases scheduled with
          | nil =>
              simp only [step, task, Option.some.injEq] at taken
              subst taken
              exact .postedAll task
          | cons id rest =>
              simp only [step, task, Option.some.injEq] at taken
              subst taken
              exact .posted task
      | _ => simp [step, task] at taken
  | callImport thread id =>
      cases task : system.tasks thread with
      | idle =>
          by_cases allowed : isAllowedId id
          · simp only [step, task, allowed, if_true, Option.some.injEq]
              at taken
            subst taken
            exact .callImport task allowed
          · simp only [step, task, allowed, Bool.false_eq_true, if_false,
              Option.some.injEq] at taken
            subst taken
            exact .callImportRefused
      | _ => simp [step, task] at taken
  | importConvert thread seed =>
      cases task : system.tasks thread with
      | importConverting id revision contents =>
          simp only [step, task, Option.some.injEq] at taken
          subst taken
          exact .importConvert task
      | _ => simp [step, task] at taken
  | importCommit thread faults =>
      cases task : system.tasks thread with
      | importCommitting id revision outcome =>
          simp only [step, task, Option.some.injEq] at taken
          subst taken
          exact .importCommit task
      | _ => simp [step, task] at taken

/-- What a step does to the problem directories and the archive revision. -/
inductive Effect (externals : Externals Directory Problem Tree)
    (system : System Directory Problem Tree) :
    Action Directory Problem → Store Problem Tree → Prop
  | quiet {action store} (problems : store.problems = system.store.problems)
      (revision : store.archiveRevision = system.store.archiveRevision) :
      Effect externals system action store
  | upload {thread faults id location}
      (task : system.tasks thread = .uploading id location) :
      Effect externals system (.uploadLocked thread faults)
        (after (uploadLocked externals faults id location) system.store)
  | edit {id edit faults} :
      Effect externals system (.editFlags id edit faults)
        (after (editFlags faults id edit) system.store)
  | prepare {thread faults id rest scheduled}
      (task : system.tasks thread = .scheduling (id :: rest) scheduled) :
      Effect externals system (.prepare thread faults)
        (after (prepareImport faults id) system.store)
  | read {thread faults id} (task : system.tasks thread = .importReading id) :
      Effect externals system (.importRead thread faults)
        (after (importReadLocked externals faults id) system.store)
  | commit {thread faults id revision outcome}
      (task : system.tasks thread = .importCommitting id revision outcome) :
      Effect externals system (.importCommit thread faults)
        (after (importCommitLocked faults id revision outcome) system.store)

theorem after_ok {α : Type} {program : RepositoryM Problem Tree α}
    {store final : Store Problem Tree} {value : α}
    (run : program store = .ok value final) : after program store = final := by
  rw [after, run]

theorem after_error {α : Type} {program : RepositoryM Problem Tree α}
    {store final : Store Problem Tree} {exception : Exception}
    (run : program store = .error exception final) :
    after program store = final := by
  rw [after, run]

theorem step_effect {action : Action Directory Problem}
    (taken : step externals system action = some next) :
    Effect externals system action next.store := by
  cases step_transition taken with
  | uploadLocked task => exact .upload task
  | editFlags => exact .edit
  | prepared task run =>
      rw [← after_ok run]
      exact .prepare task
  | prepareFailed task run =>
      rw [← after_error run]
      exact .prepare task
  | importRead task run =>
      rw [← after_ok run]
      exact .read task
  | importReadFailed task run =>
      rw [← after_error run]
      exact .read task
  | importCommit task => exact .commit task
  | _ => exact .quiet rfl rfl

/-! ## What the sections leave alone -/

section Frame

variable {store : Store Problem Tree} {id other : ProblemId}
  {faults : Faults Problem}

theorem update_frame {dir : Option (ProblemDir Problem)}
    (different : other ≠ id)
    (change : ProblemDir Problem → ProblemDir Problem)
    (store : Store Problem Tree) (same : store.dir other = dir) :
    (store.update id change).dir other = dir :=
  (Store.dir_update_of_ne _ _ _ _ different).trans same

theorem put_frame {before : Option (ProblemDir Problem)}
    (different : other ≠ id) (dir : ProblemDir Problem)
    (store : Store Problem Tree) (same : store.dir other = before) :
    (store.put id dir).dir other = before :=
  (Store.dir_put_of_ne _ _ _ _ different).trans same

theorem uploadLocked_frame {location : Directory}
    (different : other ≠ id) :
    (after (uploadLocked externals faults id location) store).dir other =
      store.dir other :=
  after_keeps (·.dir other = store.dir other)
    (uploadLocked_keeps (update_frame different)
      (put_frame different _) (fun _ same => same)) rfl

theorem editFlags_frame {edit : FlagEdit} (different : other ≠ id) :
    (after (editFlags faults id edit) store).dir other = store.dir other :=
  after_keeps (·.dir other = store.dir other)
    (editFlags_keeps (fun _ store _ => update_frame different _ store)
      (fun _ store _ => update_frame different _ store)) rfl

end Frame

theorem step_published {action : Action Directory Problem}
    (taken : step externals system action = some next)
    (noConvert : ∀ thread seed, action ≠ .importConvert thread seed) :
    next.store.published = system.store.published := by
  let same (store : Store Problem Tree) : Prop :=
    store.published = system.store.published
  have updated : ∀ id change store, same store →
      same (store.update id change) := fun id change store held =>
    (Store.published_update store id change).trans held
  have prepared : ∀ faults id,
      same (after (prepareImport faults id) system.store) :=
    fun _ _ => after_keeps same (prepareImport_keeps (updated _ _)) rfl
  have read : ∀ faults id,
      same (after (importReadLocked externals faults id) system.store) :=
    fun _ _ => after_keeps same
      (importReadLocked_keeps fun _ _ _ _ held => held) rfl
  cases step_transition taken with
  | uploadLocked _ =>
      exact after_keeps same
        (uploadLocked_keeps (updated _) (fun _ held => held)
          fun _ held => held) rfl
  | editFlags =>
      exact after_keeps same
        (editFlags_keeps (fun _ store _ => updated _ _ store)
          fun _ store _ => updated _ _ store) rfl
  | prepared _ run =>
      rw [← after_ok run]
      exact prepared _ _
  | prepareFailed _ run =>
      rw [← after_error run]
      exact prepared _ _
  | importRead _ run =>
      rw [← after_ok run]
      exact read _ _
  | importReadFailed _ run =>
      rw [← after_error run]
      exact read _ _
  | importCommit _ =>
      exact after_keeps same
        (importCommitLocked_keeps (fun _ _ _ _ held => held)
          fun _ _ _ _ _ held => held) rfl
  | importConvert _ => exact absurd rfl (noConvert _ _)
  | _ => rfl

end Bacs.Archive
