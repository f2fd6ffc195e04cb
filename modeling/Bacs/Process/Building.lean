import Bacs.Process.Calls

/-!
# Building a context

Building asks only for the current directory.  It gives a context with nothing
left open, or throws and leaves everything as it was.
-/

namespace Bacs.Process

open Foundation PathGrammar

variable {File : Type} {world : World File} {context : Context}
  {kernel : Kernel File}

theorem posixGetcwd_ensures (kernel : Kernel File) :
    Ensures (expect "getcwd" posixGetcwd) kernel
      (fun path next =>
        kernel.Quiet next ∧ path = kernel.process.directory)
      (fun _ next => kernel.Quiet next) := by
  apply ensures_call
  · intro errno
    exact kernel.quiet_called
  · intro path next served
    obtain ⟨rfl, rfl⟩ := Prod.mk.inj (Except.ok.inj served)
    exact ⟨kernel.quiet_called, rfl⟩

theorem buildCommand_ensures :
    Ensures context.buildCommand kernel
      (fun command next =>
        next = kernel ∧ context.Commands command.1 command.2)
      (fun _ next => next = kernel) := by
  unfold Context.buildCommand
  split
  next => exact rfl
  next executable noArguments given =>
    exact ⟨rfl, by simp [noArguments, given], by simp [given]⟩
  next first rest arguments notGiven =>
    exact ⟨rfl, by simp [arguments], by simp [notGiven, arguments]⟩
  next first rest executable arguments given =>
    exact ⟨rfl, by simp [arguments], by simp [given]⟩

theorem buildCurrentPath_ensures :
    Ensures context.buildCurrentPath kernel
      (fun path next => kernel.Quiet next ∧
        path = context.currentPath.getD kernel.process.directory)
      (fun _ next => kernel.Quiet next) := by
  unfold Context.buildCurrentPath
  cases context.currentPath with
  | some path => exact ⟨.refl kernel, rfl⟩
  | none => exact posixGetcwd_ensures kernel

theorem buildExecutable_ensures (asked : Path) :
    Ensures (Context.buildExecutable world context.usePath asked) kernel
      (fun answer next => kernel.Quiet next ∧
        answer.1 = (if context.looksUp asked then asked
          else world.absolute asked kernel.process.directory) ∧
        answer.2 = context.looksUp asked)
      (fun _ next => kernel.Quiet next) := by
  have decided : (if context.usePath.getD (isFilename asked) &&
      hasRootDirectory asked then false
        else context.usePath.getD (isFilename asked)) =
      context.looksUp asked := by
    unfold Context.looksUp
    cases context.usePath.getD (isFilename asked) with
    | false => rfl
    | true => cases hasRootDirectory asked <;> rfl
  unfold Context.buildExecutable
  dsimp only
  rw [decided]
  cases context.looksUp asked with
  | false =>
      rw [if_neg Bool.false_ne_true, ensures_bind, World.absolutePath,
        ensures_bind]
      apply (posixGetcwd_ensures kernel).mono
      · rintro _ next ⟨quiet, rfl⟩
        exact ⟨quiet, rfl, rfl⟩
      · intro failed next quiet
        exact quiet
  | true =>
      rw [if_pos rfl]
      by_cases empty : asked.isEmpty = true
      · rw [if_pos empty]
        exact .refl kernel
      · rw [if_neg empty]
        by_cases unnamed : (! isFilename asked) = true
        · rw [if_pos unnamed]
          exact .refl kernel
        · rw [if_neg unnamed]
          exact ⟨.refl kernel, rfl, rfl⟩

/-- What `build` gives is as was asked. -/
theorem build_ensures :
    Ensures (context.build_ world) kernel
      (fun built next => kernel.Quiet next ∧
        ∃ asked, context.Built world built kernel.process.directory asked)
      (fun _ next => kernel.Quiet next) := by
  rw [Context.build_, ensures_tryCatch, ensures_bind]
  apply buildCommand_ensures.mono
  · rintro ⟨arguments, asked⟩ _ ⟨rfl, command⟩
    rw [ensures_bind]
    apply buildCurrentPath_ensures.mono
    · rintro _ next ⟨quiet, rfl⟩
      rw [ensures_bind]
      apply (buildExecutable_ensures asked).mono
      · rintro ⟨executable, usePath⟩ final ⟨quiet', found, lookedUp⟩
        refine ⟨quiet.trans quiet', asked, command, ?_,
          congrArg some lookedUp, rfl, lookup_buildEnvironment, rfl, rfl,
          rfl⟩
        rw [← quiet.process, ← found]
      · intro failed final quiet'
        exact quiet.trans quiet'
    · intro failed next quiet
      exact quiet
  · rintro failed _ rfl
    exact .refl _

theorem findExecutable_ensures (executable : Path) :
    Ensures (world.findExecutableInPath executable) kernel
      (fun path next => next = kernel ∧ path = world.searchPath executable)
      (fun _ next => next = kernel) := by
  rw [World.findExecutableInPath, ensures_tryCatch]
  have handled (failed : Error) :
      Ensures (if failed.isFindExecutableInPath then throw failed
          else throw (Error.findExecutableInPath executable failed) :
            Posix File Path) kernel
        (fun path next =>
          next = kernel ∧ path = world.searchPath executable)
        (fun _ next => next = kernel) := by
    split_ifs
    · exact rfl
    · exact rfl
  dsimp only
  by_cases unnamed : (! isFilename executable) = true
  · rw [if_pos unnamed]
    exact handled (.nonBasenameExecutable executable)
  · rw [if_neg unnamed]
    by_cases nowhere : (world.searchPath executable).isEmpty = true
    · rw [if_pos nowhere]
      exact handled (.noExecutableInPath executable)
    · rw [if_neg nowhere]
      exact ⟨rfl, rfl⟩

/-- The file that is started: what was asked for, looked up if that is
needed. -/
def World.started (world : World File) (context : Context)
    (directory asked : Path) : Path :=
  if context.looksUp asked then world.searchPath asked
  else world.absolute asked directory

/-- Up to the files that are lent, an execution only builds the context. -/
theorem nativeSyncExecute_ensures [DecidableEq File]
    {normal : Int → Kernel File → Prop} {thrown : Error → Kernel File → Prop}
    (failed : ∀ error next, kernel.Quiet next → thrown error next)
    (ready : ∀ built asked next, kernel.Quiet next →
      context.Built world built kernel.process.directory asked →
      Ensures (withOwned (context.stdinData.action.tmp world)
          (removeTmp world)
          (world.lendAndExecute built
            (world.started context kernel.process.directory asked)
            (context.currentPath.getD kernel.process.directory)))
        next normal thrown) :
    Ensures (world.nativeSyncExecute context) kernel normal thrown := by
  rw [World.nativeSyncExecute, ensures_bind]
  apply build_ensures.mono
  · rintro built prepared ⟨quiet, asked, isBuilt⟩
    have lent := ready built asked prepared quiet isBuilt
    rw [World.syncExecuteImpl, isBuilt.executable, isBuilt.currentPath,
      isBuilt.usePath, isBuilt.stdinData]
    unfold World.started at lent
    cases lookedUp : context.looksUp asked with
    | false =>
        rw [lookedUp] at lent
        exact lent
    | true =>
        rw [lookedUp] at lent
        change Ensures (world.findExecutableInPath asked >>= _) prepared _ _
        rw [ensures_bind]
        apply (findExecutable_ensures asked).mono
        · rintro _ _ ⟨rfl, rfl⟩
          exact lent
        · rintro error _ rfl
          exact failed error _ quiet
  · intro error next quiet
    exact failed error next quiet

end Bacs.Process
