import Bacs.Process.Building
import Bacs.Process.Lending

/-!
# Nothing is left of an execution

However an execution ends, the caller has the descriptors, the directory and
the signal mask that it had, and the temporary files are gone.
-/

namespace Bacs.Process

open Foundation

variable {File : Type} {τ α β : Type}

theorem restores_systemCall {view : Kernel File → τ}
    {serve : Kernel File → Except Errno (α × Kernel File)}
    (called : ∀ kernel : Kernel File, view kernel.called = view kernel)
    (served : ∀ kernel value next, serve kernel = .ok (value, next) →
      view next = view kernel) : Restores view (systemCall serve) := by
  apply Restores.of_ensures
  intro kernel
  apply ensures_systemCall
  · intro fault
    exact called kernel
  · intro errno _
    exact called kernel
  · intro value next answer
    exact (served _ value next answer).trans (called kernel)

theorem restores_expect {view : Kernel File → τ} {call : String}
    {answered : Posix File (Except Errno α)}
    (restores : Restores view answered) :
    Restores view (expect call answered) := by
  apply Restores.bind restores
  intro answer
  cases answer with
  | ok value => exact Restores.pure value
  | error errno => exact Restores.throw _

/-! ## The child -/

theorem setInheritable_drawn (handle : Handle) (inheritable : Bool) :
    Restores (·.drawn)
      (handle.setInheritable inheritable : Posix File Unit) := by
  unfold Handle.setInheritable
  cases handle.fd with
  | none => exact Restores.throw _
  | some number =>
      refine Restores.bind ?_ fun flags => restores_expect ?_
      · refine Restores.bind (restores_systemCall (fun _ => rfl) ?_) ?_
        · intro kernel value next answer
          cases found : kernel.process.table.entry number with
          | none => simp [found] at answer
          | some descriptor =>
              simp only [found, Except.ok.injEq, Prod.mk.injEq] at answer
              rw [← answer.2]
        · intro answer
          cases answer with
          | ok flags => exact Restores.pure flags
          | error errno => exact Restores.pure (-1)
      · apply restores_systemCall (fun _ => rfl)
        intro kernel value next answer
        cases found : kernel.process.table.entry number with
        | none => simp [found] at answer
        | some descriptor =>
            simp only [found, Except.ok.injEq, Prod.mk.injEq] at answer
            rw [← answer.2]
            rfl

theorem install_drawn (handle : Handle) (number : Nat) :
    Restores (·.drawn) (handle.install number : Posix File Handle) := by
  have kept (handle : Handle) : Restores (·.drawn) (do
      handle.setInheritable true
      pure handle : Posix File Handle) :=
    Restores.bind (setInheritable_drawn handle true)
      fun _ => Restores.pure handle
  unfold Handle.install
  by_cases same : handle.fd = some number
  · rw [if_pos same]
    exact Restores.bind (Restores.pure handle) kept
  · rw [if_neg same]
    refine Restores.bind ?_ fun copy => Restores.bind ?_ kept
    · unfold Handle.dup2
      cases handle.fd with
      | none => exact Restores.throw _
      | some source =>
          refine Restores.bind (restores_expect ?_)
            fun copy => Restores.pure _
          apply restores_systemCall (fun _ => rfl)
          intro kernel value next answer
          cases found : kernel.process.table.entry source with
          | none => simp [found] at answer
          | some descriptor =>
              by_cases equal : source = number
              · simp only [found] at answer
                rw [if_pos equal] at answer
                cases answer
              · simp only [found, equal, if_false, Except.ok.injEq,
                  Prod.mk.injEq] at answer
                rw [← answer.2]
                rfl
    · exact Restores.bind
        (Restores.modify fun kernel => (destroy_turns handle kernel).drawn)
        fun _ => Restores.pure copy

theorem child_drawn (context : Detail) :
    Restores (·.drawn) (context.child : Posix File (Image File)) := by
  unfold Detail.child
  refine Restores.bind (Restores.modify fun _ => rfl) fun _ => ?_
  refine Restores.bind (restores_expect ?_) fun _ => ?_
  · apply restores_systemCall (fun _ => rfl)
    intro kernel value next answer
    rw [← (Prod.mk.inj (Except.ok.inj answer)).2]
  · refine Restores.bind (install_drawn _ 0) fun _ => ?_
    refine Restores.bind (install_drawn _ 1) fun _ => ?_
    refine Restores.bind (install_drawn _ 2) fun _ => restores_expect ?_
    apply restores_systemCall (fun _ => rfl)
    intro kernel value next answer
    rw [← (Prod.mk.inj (Except.ok.inj answer)).2]

/-! ## The parent -/

/-- What the caller has of its own, and the names of temporary files. -/
def Kernel.own (kernel : Kernel File) : ProcessState × Nat :=
  (kernel.process, kernel.drawn)

theorem forked_restores [DecidableEq File] (world : World File)
    (context : Detail) : Restores Kernel.own (context.forked world) := by
  apply Restores.of_ensures
  intro kernel
  have kept := (child_drawn context).ensures kernel
  unfold Ensures at kept ⊢
  unfold Detail.forked
  cases run : context.child kernel with
  | ok image started =>
      rw [run] at kept
      exact Prod.ext rfl kept
  | error exception failed =>
      rw [run] at kept
      exact Prod.ext rfl kept

theorem waitFor_restores (status : WaitStatus) :
    Restores Kernel.own (waitFor status : Posix File Int) := by
  apply Restores.of_ensures
  intro kernel
  unfold Ensures waitFor
  rcases waitpid status kernel.faults with ⟨answer, rest⟩
  cases answer <;> rfl

theorem detail_restores [DecidableEq File] (world : World File)
    (context : Detail) : Restores Kernel.own (context.syncExecute world) := by
  unfold Detail.syncExecute
  refine Restores.bind (restores_expect ?_) fun _ => ?_
  · apply restores_systemCall (fun _ => rfl)
    intro kernel value next answer
    rw [← (Prod.mk.inj (Except.ok.inj answer)).2]
  · exact Restores.bind (forked_restores world context) waitFor_restores

/-! ## Executions -/

section Executions

variable [DecidableEq File] (world : World File)

omit [DecidableEq File] in
theorem provided_restores {acquire : Posix File Handle} {meaning : Meaning}
    {also : Kernel File → Kernel File → Prop} {body : Handle → Posix File β}
    (provides : ∀ kernel, Ensures acquire kernel
      (fun handle next => kernel.Provides meaning handle next ∧
        also kernel next) (fun _ next => kernel.Leaves next))
    (inside : ∀ handle, Restores Kernel.own (body handle)) :
    Restores Kernel.own (withOwned acquire Handle.destroy body) := by
  refine Restores.withOwned ?_ inside
  intro kernel
  apply (provides kernel).mono
  · rintro handle next ⟨provided, -⟩ final same
    obtain ⟨process, drawn⟩ := Prod.mk.inj same
    apply Prod.ext
    · exact provided.restored process
    · exact (destroy_turns handle final).drawn.trans
        (drawn.trans provided.drawn)
  · intro failed next leaves
    exact Prod.ext leaves.process leaves.drawn

theorem lendAndExecute_restores {context : Context} {tmp : Option Path}
    (kept : context.stdinData.Kept tmp) (executable currentPath : Path) :
    Restores Kernel.own
      (world.lendAndExecute context executable currentPath tmp) := by
  unfold World.lendAndExecute
  refine provided_restores
    (fun kernel => stdin_provides world context.stdinData kept) fun _ => ?_
  refine provided_restores
    (fun kernel => stdout_provides world context.stdoutData) fun _ => ?_
  refine provided_restores
    (fun kernel => stderr_provides world context.stderrData) fun _ => ?_
  exact detail_restores world _

/-- The caller has what it had, and of the temporary files that could be
removed none is left. -/
structure Kernel.Tidy (kernel next : Kernel File) : Prop where
  process : next.process = kernel.process
  gone : ∀ index, kernel.drawn ≤ index → index < next.drawn →
    world.removable (world.locate (world.names index)) = true →
    kernel.files (world.locate (world.names index)) = none →
    next.files (world.locate (world.names index)) = none

variable {kernel next final : Kernel File}

omit [DecidableEq File] in
theorem Kernel.Quiet.tidy (quiet : kernel.Quiet next) :
    kernel.Tidy world next := by
  refine ⟨quiet.process, ?_⟩
  intro index least below
  rw [quiet.drawn] at below
  omega

omit [DecidableEq File] in
theorem Kernel.Tidy.after (quiet : kernel.Quiet next)
    (tidy : next.Tidy world final) : kernel.Tidy world final := by
  refine ⟨tidy.process.trans quiet.process, ?_⟩
  intro index least below removable absent
  apply tidy.gone index (quiet.drawn ▸ least) below removable
  rw [quiet.files]
  exact absent

omit [DecidableEq File] in
theorem Kernel.Tidy.of_own (same : next.own = kernel.own) :
    kernel.Tidy world next := by
  obtain ⟨process, drawn⟩ := Prod.mk.inj same
  refine ⟨process, ?_⟩
  intro index least below
  rw [drawn] at below
  omega

theorem Kernel.Draws.tidy {path : Path} (draws : kernel.Draws world path next)
    (same : final.own = next.own) :
    kernel.Tidy world (world.removeTemp path final) := by
  obtain ⟨process, drawn⟩ := Prod.mk.inj same
  refine ⟨process.trans draws.creates.process, ?_⟩
  intro index least below removable absent
  change index < final.drawn at below
  rw [drawn] at below
  by_cases isName : world.names index = path
  · rw [isName] at removable ⊢
    exact removeTemp_removed world path final removable
  · exact absurd absent (draws.other index least below isName)

omit [DecidableEq File] in
theorem Kernel.Fails.tidy (fails : kernel.Fails next) :
    kernel.Tidy world next :=
  ⟨fails.process, fun _ _ _ _ absent => fails.absent _ absent⟩

theorem tmp_tidy {context : Context} (executable currentPath : Path) :
    Ensures (withOwned (context.stdinData.action.tmp world) (removeTmp world)
        (world.lendAndExecute context executable currentPath)) kernel
      (fun _ next => kernel.Tidy world next)
      (fun _ next => kernel.Tidy world next) := by
  rw [ensures_withOwned]
  have without (none' : context.stdinData.Kept none) :
      Ensures (world.lendAndExecute context executable currentPath none)
        kernel (fun _ next => kernel.Tidy world next)
        (fun _ next => kernel.Tidy world next) :=
    ((lendAndExecute_restores world none' _ _).ensures kernel).mono
      (fun _ _ same => .of_own world same) (fun _ _ same => .of_own world same)
  cases data : context.stdinData with
  | doDefault => exact without (by simp [data, StdinData.Kept])
  | inherit => exact without (by simp [data, StdinData.Kept])
  | suppress => exact without (by simp [data, StdinData.Kept])
  | path name => exact without (by simp [data, StdinData.Kept])
  | data text =>
      rw [StdinData.action, FileAction.tmp, ensures_map]
      apply (regularFileInTempdir_ensures world).mono
      · intro path next draws
        have kept : context.stdinData.Kept (some path) := by
          simp [data, StdinData.Kept]
        apply ((lendAndExecute_restores world kept _ _).ensures next).mono
        · intro _ final same
          exact draws.tidy world same
        · intro _ final same
          exact draws.tidy world same
      · intro failed next fails
        exact fails.tidy world

theorem nativeSyncExecute_tidy (context : Context) :
    Ensures (world.nativeSyncExecute context) kernel
      (fun _ next => kernel.Tidy world next)
      (fun _ next => kernel.Tidy world next) := by
  apply nativeSyncExecute_ensures
  · intro failed next quiet
    exact quiet.tidy world
  · intro built asked next quiet isBuilt
    rw [← isBuilt.stdinData]
    apply (tmp_tidy world _ _).mono
    · intro _ final tidy
      exact tidy.after world quiet
    · intro _ final tidy
      exact tidy.after world quiet

/-- Whatever an execution comes to, with the faults of any system calls: the
caller has the descriptors, the directory and the signal mask that it had, and
no temporary file that can be removed is left. -/
theorem syncExecute_tidy (context : Context) (kernel : Kernel File) :
    Ensures (world.syncExecute context) kernel
      (fun _ next => kernel.Tidy world next)
      (fun failed next => kernel.Tidy world next ∧
        ∃ cause, failed = .syncExecute cause) := by
  rw [World.syncExecute, ensures_tryCatch]
  apply (nativeSyncExecute_tidy world context).mono
  · intro _ next tidy
    exact tidy
  · intro cause next tidy
    exact ⟨tidy, cause, rfl⟩

end Executions

end Bacs.Process
