import Bacs.Process.Calls

/-!
# Temporary files

A name for a temporary file is made up until a file of that name does not
exist.  The file is removed where the one who made it ends, so that of the
names that were made up none stands for a file that was not there before.
-/

namespace Bacs.Process

open Foundation

variable {File : Type} [DecidableEq File] {world : World File}
  {kernel next : Kernel File} {path : Path}

structure Kernel.Creates (world : World File) (kernel : Kernel File)
    (path : Path) (next : Kernel File) : Prop where
  process : next.process = kernel.process
  images : next.images = kernel.images
  opens : kernel.opens ≤ next.opens
  fresh : kernel.files (world.locate path) = none
  files : next.files =
    Function.update kernel.files (world.locate path) (some [])

theorem createRegularFile_ensures (world : World File) (path : Path) :
    Ensures (world.createRegularFile path) kernel
      (fun created next => next.drawn = kernel.drawn ∧
        if created then kernel.Creates world path next
        else kernel.Quiet next ∧ kernel.files (world.locate path) ≠ none)
      (fun _ next => kernel.Quiet next) := by
  rw [World.createRegularFile, ensures_bind]
  apply (posixOpen_ensures world path _).mono
  · intro answer next opened
    cases answer with
    | error errno =>
        cases errno with
        | eexist => exact ⟨opened.1.drawn, opened.1, opened.2 rfl⟩
        | enoent => exact opened.1
        | ebadf => exact opened.1
        | einval => exact opened.1
        | eintr => exact opened.1
        | other code => exact opened.1
    | ok number =>
        obtain ⟨opens, absent⟩ := opened
        have fresh : kernel.files (world.locate path) = none :=
          absent (by decide)
        refine ⟨opens.drawn, opens.closed world rfl, opens.images, ?_,
          fresh, ?_⟩
        · exact opens.opens ▸ Nat.le_succ kernel.opens
        · funext file
          by_cases same : file = world.locate path
          · subst same
            have content : next.files (world.locate path) = some [] :=
              opens.content
            simp [Kernel.closed, Kernel.called, Kernel.withTable, content]
          · rw [Function.update_of_ne same]
            exact opens.other file same
  · intro exception next impossible
    cases impossible

theorem removeTemp_absent (world : World File) (path : Path) {file : File}
    (absent : kernel.files file = none) :
    (world.removeTemp path kernel).files file = none := by
  rw [World.removeTemp]
  by_cases removed : world.removable (world.locate path)
  · by_cases same : file = world.locate path
    · simp [removed, same]
    · simp [removed, same, absent]
  · simp [removed, absent]

theorem removeTemp_removed (world : World File) (path : Path)
    (kernel : Kernel File)
    (removable : world.removable (world.locate path) = true) :
    (world.removeTemp path kernel).files (world.locate path) = none := by
  simp [World.removeTemp, removable]

theorem removeTemp_files (world : World File) (path : Path)
    (kernel : Kernel File) {file : File} (other : file ≠ world.locate path) :
    (world.removeTemp path kernel).files file = kernel.files file := by
  cases removable : world.removable (world.locate path) with
  | false => simp [World.removeTemp, removable]
  | true => simp [World.removeTemp, removable, other]

/-- One name was made up that is new; a file of any other existed. -/
structure Kernel.Draws (world : World File) (kernel : Kernel File)
    (path : Path) (next : Kernel File) : Prop where
  creates : kernel.Creates world path next
  name : ∃ index, kernel.drawn ≤ index ∧ index < next.drawn ∧
    path = world.names index
  other : ∀ index, kernel.drawn ≤ index → index < next.drawn →
    world.names index ≠ path →
    kernel.files (world.locate (world.names index)) ≠ none

structure Kernel.Fails (kernel next : Kernel File) : Prop where
  process : next.process = kernel.process
  images : next.images = kernel.images
  absent : ∀ file, kernel.files file = none → next.files file = none

omit [DecidableEq File] in
theorem Kernel.Quiet.fails (quiet : kernel.Quiet next) :
    kernel.Fails next :=
  ⟨quiet.process, quiet.images, fun _ absent => quiet.files ▸ absent⟩

/-- A name was made up and nothing else has happened. -/
structure Kernel.Skips (kernel next : Kernel File) : Prop where
  quiet : kernel.Quiet { next with drawn := kernel.drawn }
  drawn : next.drawn = kernel.drawn + 1

section Skipping

variable {final : Kernel File} (skips : kernel.Skips next)

include skips

omit [DecidableEq File] in
theorem Kernel.Skips.fails (fails : next.Fails final) :
    kernel.Fails final := by
  refine ⟨fails.process.trans skips.quiet.process,
    fails.images.trans skips.quiet.images, ?_⟩
  intro file absent
  apply fails.absent
  exact (congrFun skips.quiet.files file).trans absent

theorem Kernel.Skips.draws (draws : next.Draws world path final)
    (existed : kernel.files (world.locate (world.names kernel.drawn)) ≠
      none) : kernel.Draws world path final := by
  obtain ⟨creates, ⟨index, least, below, rfl⟩, other⟩ := draws
  have files : next.files = kernel.files := skips.quiet.files
  rw [skips.drawn] at least other
  refine ⟨⟨creates.process.trans skips.quiet.process,
    creates.images.trans skips.quiet.images, ?_, ?_, ?_⟩,
    ⟨index, by omega, below, rfl⟩, ?_⟩
  · have same : next.opens = kernel.opens := skips.quiet.opens
    exact same ▸ creates.opens
  · exact files ▸ creates.fresh
  · exact files ▸ creates.files
  · intro earlier atLeast before different
    by_cases first : earlier = kernel.drawn
    · subst first
      exact existed
    · rw [← files]
      exact other earlier (by omega) before different

end Skipping

theorem regularFileFromModel_ensures (world : World File) (tries : Nat) :
    Ensures (world.regularFileFromModel tries) kernel
      (fun path next => kernel.Draws world path next)
      (fun _ next => kernel.Fails next) := by
  induction tries generalizing kernel with
  | zero => exact (Kernel.Quiet.refl kernel).fails
  | succ tries ih =>
      rw [World.regularFileFromModel, ensures_bind]
      apply ensures_call
      · intro errno
        exact kernel.quiet_called.fails
      · intro path drawn served
        obtain ⟨rfl, rfl⟩ : world.names kernel.drawn = path ∧
            { kernel.called with drawn := kernel.drawn + 1 } = drawn := by
          simpa [Kernel.called] using served
        rw [ensures_bind, ensures_tryCatch]
        apply (createRegularFile_ensures world _).mono
        · rintro created next ⟨drawn, made⟩
          cases created with
          | true =>
              refine ⟨⟨made.process, made.images, made.opens, made.fresh,
                made.files⟩, ⟨kernel.drawn, ?_, ?_, rfl⟩, ?_⟩
              · exact Nat.le_refl _
              · rw [drawn]
                exact Nat.lt_succ_self _
              · intro index least below different
                rw [drawn] at below
                have same : index = kernel.drawn :=
                  Nat.le_antisymm (Nat.lt_succ_iff.mp below) least
                exact absurd (congrArg world.names same) different
          | false =>
              obtain ⟨quiet, existed⟩ := made
              have skips : kernel.Skips next :=
                ⟨⟨quiet.process, quiet.files, quiet.opens, rfl,
                  quiet.images⟩, drawn⟩
              apply ih.mono
              · intro path final draws
                exact skips.draws draws existed
              · intro failed final fails
                exact skips.fails fails
        · intro failed next quiet
          refine ⟨quiet.process, quiet.images, ?_⟩
          intro file absent
          apply removeTemp_absent
          exact (congrFun quiet.files file).trans absent

theorem regularFileInTempdir_ensures (world : World File) :
    Ensures world.regularFileInTempdir kernel
      (fun path next => kernel.Draws world path next)
      (fun _ next => kernel.Fails next) := by
  rw [World.regularFileInTempdir, ensures_bind]
  apply ensures_call
  · intro errno
    exact kernel.quiet_called.fails
  · intro answer called served
    obtain rfl : kernel.called = called := by simpa using served
    apply (regularFileFromModel_ensures world 32).mono
    · intro path next draws
      exact ⟨⟨draws.creates.process, draws.creates.images,
        draws.creates.opens, draws.creates.fresh, draws.creates.files⟩,
        draws.name, draws.other⟩
    · intro failed next fails
      exact ⟨fails.process, fails.images, fails.absent⟩

end Bacs.Process
