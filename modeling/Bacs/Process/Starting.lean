import Bacs.Process.Building
import Bacs.Process.Wiring

/-!
# The program that is started

An execution starts at most one program.  It finds under its standard
descriptors what the context says, and otherwise the descriptors that the
caller would give to any program.
-/

namespace Bacs.Process

open Foundation

variable {File : Type}

/-- What is found under a standard descriptor, by its meaning for a parent
with the table `base` that has opened `opens` files. -/
def Meaning.Holds (base : DescriptorTable Opened) (opens : Nat)
    (found : Option (Descriptor Opened)) : Meaning → Prop
  | .inherited number => ∃ descriptor, base.entry number = some descriptor ∧
      found = some ⟨descriptor.opened, false⟩
  | .opened path flags => ∃ serial, opens ≤ serial ∧
      found = some ⟨⟨serial, path, flags⟩, false⟩

theorem Meaning.Denotes.holds {base : DescriptorTable Opened}
    {opens source : Nat} {descriptor : Descriptor Opened} {meaning : Meaning}
    (denotes : meaning.Denotes base opens source descriptor) :
    meaning.Holds base opens (some ⟨descriptor.opened, false⟩) := by
  cases meaning with
  | inherited number => exact ⟨descriptor, denotes.2, rfl⟩
  | opened path flags =>
      obtain ⟨serial, later, opened⟩ := denotes
      exact ⟨serial, later, by rw [opened]⟩

structure Wired (base : DescriptorTable Opened) (opens : Nat)
    (stdin stdout : Meaning) (stderr : StderrData)
    (table : DescriptorTable Opened) : Prop where
  input : stdin.Holds base opens (table.entry 0)
  output : stdout.Holds base opens (table.entry 1)
  error : stderr ≠ .redirectToStdout →
    stderr.meaning.Holds base opens (table.entry 2)
  redirected : stderr = .redirectToStdout → table.entry 2 = table.entry 1
  other : ∀ number, 3 ≤ number →
    table.entry number = base.executed.entry number

theorem Meaning.Holds.mono {base : DescriptorTable Opened}
    {opens later : Nat} {found : Option (Descriptor Opened)}
    {meaning : Meaning} (holds : meaning.Holds base later found)
    (least : opens ≤ later) : meaning.Holds base opens found := by
  cases meaning with
  | inherited number => exact holds
  | opened path flags =>
      obtain ⟨serial, above, is⟩ := holds
      exact ⟨serial, least.trans above, is⟩

theorem Wired.mono {base table : DescriptorTable Opened} {opens later : Nat}
    {stdin stdout : Meaning} {stderr : StderrData}
    (wired : Wired base later stdin stdout stderr table)
    (least : opens ≤ later) : Wired base opens stdin stdout stderr table :=
  ⟨wired.input.mono least, wired.output.mono least,
    fun notRedirected => (wired.error notRedirected).mono least,
    wired.redirected, wired.other⟩

/-! ## Wiring -/

section Moved

variable {base table : DescriptorTable Opened} {opens : Nat}
  {stdin stdout : Meaning} {data : StderrData} {input output error : Nat}
  {closeInput closeOutput closeError : Bool}
  {first second third : Descriptor Opened}
  (lent : Lent base table opens stdin stdout data.meaning input output error
    closeInput closeOutput closeError first second third)

include lent

/-- The standard error is the standard output exactly if it is redirected. -/
theorem Lent.error_eq_one_iff : error = 1 ↔ data = .redirectToStdout := by
  constructor
  · intro isOutput
    cases owned : closeError with
    | true =>
        have := lent.errorBacked.above lent.standard owned
        omega
    | false =>
        have means := lent.errorBacked.borrowed owned
        cases data <;> simp_all [StderrData.meaning, Meaning.null,
          Meaning.write]
  · rintro rfl
    have denotes := lent.errorBacked.denotes
    exact denotes.1

/-- Under the number that is moved last there is something. -/
theorem Lent.lastEntry : ∃ descriptor,
    (afterOutput table input output closeInput closeOutput).entry error =
      some descriptor := by
  by_cases isOutput : error = 1
  · exact ⟨_, isOutput ▸ lent.outputEntry⟩
  · exact ⟨third, lent.errorEntry isOutput⟩

theorem Lent.closeError_of_eq_one (isOutput : error = 1) :
    closeError = false := by
  cases owned : closeError with
  | false => rfl
  | true =>
      have := lent.errorBacked.above lent.standard owned
      omega

/-- The three moves give a program the descriptors that it is to have. -/
theorem Lent.wired :
    Wired base opens stdin stdout data
      ((afterOutput table input output closeInput closeOutput).install error
        2 closeError).executed := by
  have one : ((afterOutput table input output closeInput
      closeOutput).install error 2 closeError).entry 1 =
        some ⟨second.opened, false⟩ := by
    rw [DescriptorTable.entry_install_of_ne (by decide)
      fun isOutput => lent.closeError_of_eq_one isOutput.symm]
    exact lent.outputEntry
  constructor
  · have zero : ((afterOutput table input output closeInput
        closeOutput).install error 2 closeError).entry 0 =
          some ⟨first.opened, false⟩ := by
      rw [DescriptorTable.entry_install_of_ne (by decide)
          fun isZero => absurd isZero.symm (Nat.ne_of_gt lent.error_pos),
        afterOutput, DescriptorTable.entry_install_of_ne (by decide)
          fun isZero => absurd isZero.symm (Nat.ne_of_gt lent.output_pos)]
      exact DescriptorTable.entry_install_target lent.inputBacked.entry
    rw [DescriptorTable.entry_executed_of_kept zero]
    exact lent.inputBacked.denotes.holds
  · rw [DescriptorTable.entry_executed_of_kept one]
    exact lent.outputBacked.denotes.holds
  · intro notRedirected
    have notOutput : error ≠ 1 := fun isOutput =>
      notRedirected (lent.error_eq_one_iff.mp isOutput)
    rw [DescriptorTable.entry_executed_of_kept
      (DescriptorTable.entry_install_target (lent.errorEntry notOutput))]
    exact lent.errorBacked.denotes.holds
  · intro redirected
    have isOutput := lent.error_eq_one_iff.mpr redirected
    subst isOutput
    rw [DescriptorTable.entry_executed_of_kept one,
      DescriptorTable.entry_executed_of_kept
        (DescriptorTable.entry_install_target lent.outputEntry)]
  · exact lent.other

end Moved

/-- What was made later has another number than what was made before. -/
theorem apart_of_above {table : DescriptorTable Opened} {source other : Nat}
    {close : Bool} {descriptor : Descriptor Opened} (above : 3 ≤ source)
    (taken : table.entry source = some descriptor)
    (low : close = false → other < 3)
    (free : close = true → table.entry other = none) : other ≠ source := by
  cases owned : close with
  | false =>
      have := low owned
      omega
  | true =>
      rintro rfl
      rw [free owned] at taken
      cases taken

/-- Three handles that were made one after the other are lent. -/
theorem provides_lent {kernel one two three : Kernel File}
    {stdinFile stdoutFile stderrFile : Handle} {data : StdinData}
    {tmp : Path} {output : StdoutData} {error : StderrData}
    (standard : Standard kernel.process.table)
    (first : kernel.Provides (data.meaning tmp) stdinFile one)
    (second : one.Provides output.meaning stdoutFile two)
    (third : two.Provides error.meaning stderrFile three) :
    ∃ sourceIn sourceOut sourceErr closeIn closeOut closeErr
      input out err,
      stdinFile = ⟨some sourceIn, closeIn⟩ ∧
      stdoutFile = ⟨some sourceOut, closeOut⟩ ∧
      stderrFile = ⟨some sourceErr, closeErr⟩ ∧
      Lent kernel.process.table three.process.table kernel.opens
        (data.meaning tmp) output.meaning error.meaning sourceIn sourceOut
        sourceErr closeIn closeOut closeErr input out err := by
  have boundedIn : ∀ number, data.meaning tmp = .inherited number →
      number = 0 := by
    intro number is
    cases data <;> simp_all [StdinData.meaning, Meaning.null, Meaning.read]
  have boundedOut : ∀ number, output.meaning = .inherited number →
      number = 1 := by
    intro number is
    cases output <;> simp_all [StdoutData.meaning, Meaning.null,
      Meaning.write]
  have boundedErr : ∀ number, error.meaning = .inherited number →
      number = 2 ∨ number = 1 := by
    intro number is
    cases error <;> simp_all [StderrData.meaning, Meaning.null,
      Meaning.write]
  have growsOne := first.lends.grows
  have growsTwo := second.lends.grows
  have growsThree := third.lends.grows
  obtain ⟨sourceIn, closeIn, input, rfl, backedIn, -⟩ :=
    first.lends.backed (.refl _) standard (Nat.le_refl _)
      fun number is => by have := boundedIn number is; omega
  obtain ⟨sourceOut, closeOut, out, rfl, backedOut, freeOut⟩ :=
    second.lends.backed growsOne standard first.opens
      fun number is => by have := boundedOut number is; omega
  obtain ⟨sourceErr, closeErr, err, rfl, backedErr, freeErr⟩ :=
    third.lends.backed (growsOne.trans growsTwo) standard
      (first.opens.trans second.opens)
      fun number is => by have := boundedErr number is; omega
  have inTwo := backedIn.grow growsTwo
  have lowOut (borrowed : closeOut = false) : sourceOut < 3 := by
    have := boundedOut _ (backedOut.borrowed borrowed)
    omega
  have lowErr (borrowed : closeErr = false) : sourceErr < 3 := by
    have := boundedErr _ (backedErr.borrowed borrowed)
    omega
  refine ⟨sourceIn, sourceOut, sourceErr, closeIn, closeOut, closeErr, input,
    out, err, rfl, rfl, rfl, standard,
    (growsOne.trans growsTwo).trans growsThree, inTwo.grow growsThree,
    backedOut.grow growsThree, backedErr, ?_, ?_, ?_, ?_, ?_⟩
  · exact fun borrowed => boundedOut _ (backedOut.borrowed borrowed)
  · exact fun borrowed => boundedErr _ (backedErr.borrowed borrowed)
  · intro owned
    exact apart_of_above (backedIn.above standard owned) backedIn.entry
      lowOut freeOut
  · intro owned
    exact apart_of_above (backedIn.above standard owned) inTwo.entry lowErr
      freeErr
  · intro owned
    exact apart_of_above (backedOut.above standard owned) backedOut.entry
      lowErr freeErr

/-! ## Parent and child -/

/-- At most one program has been started, and it is as is said. -/
def Kernel.Starts (kernel : Kernel File) (said : Image File → Prop)
    (next : Kernel File) : Prop :=
  next.images = kernel.images ∨
    ∃ image, next.images = image :: kernel.images ∧ said image

/-- The code is that of the program that has been started, or that of a child
that could not start it.  The files that were to be kept are as the program has
left them. -/
def Kernel.Waits (world : World File) (kernel : Kernel File)
    (said : Image File → Prop) (keeps : File → Prop) (code : Int)
    (next : Kernel File) : Prop :=
  next.images = kernel.images ∧ code = -6 ∨
    ∃ image, next.images = image :: kernel.images ∧ said image ∧
      code = (world.program (kernel.images.length + 1) image).1.code ∧
      ∀ file, keeps file →
        next.files file =
          (world.program (kernel.images.length + 1) image).2 file

section Starting

variable {world : World File} {kernel next final : Kernel File}
  {said said' : Image File → Prop} {keeps : File → Prop} {code : Int}

theorem Kernel.Waits.starts
    (waits : kernel.Waits world said keeps code next) :
    kernel.Starts said next := by
  obtain ⟨none', -⟩ | ⟨image, one, is, -⟩ := waits
  · exact .inl none'
  · exact .inr ⟨image, one, is⟩

theorem Kernel.Starts.mono (starts : kernel.Starts said next)
    (implies : ∀ image, said image → said' image) :
    kernel.Starts said' next := by
  obtain none' | ⟨image, one, is⟩ := starts
  · exact .inl none'
  · exact .inr ⟨image, one, implies image is⟩

theorem Kernel.Waits.mono (waits : kernel.Waits world said keeps code next)
    (implies : ∀ image, said image → said' image) :
    kernel.Waits world said' keeps code next := by
  obtain none' | ⟨image, one, is, answer⟩ := waits
  · exact .inl none'
  · exact .inr ⟨image, one, implies image is, answer⟩

theorem Kernel.Starts.of_images {other last : Kernel File}
    (starts : kernel.Starts said next) (before : kernel.images = other.images)
    (after : last.images = next.images) : other.Starts said last := by
  unfold Kernel.Starts at starts ⊢
  rw [after, ← before]
  exact starts

/-- Only the programs and the files that are to be kept count. -/
theorem Kernel.Waits.of_images {other last : Kernel File}
    {keeps' : File → Prop} (waits : kernel.Waits world said keeps code next)
    (before : kernel.images = other.images)
    (after : last.images = next.images)
    (files : ∀ file, keeps' file →
      keeps file ∧ last.files file = next.files file) :
    other.Waits world said keeps' code last := by
  unfold Kernel.Waits at waits ⊢
  rw [after, ← before]
  obtain none' | ⟨image, one, is, answer, content⟩ := waits
  · exact .inl none'
  · refine .inr ⟨image, one, is, answer, ?_⟩
    intro file kept
    obtain ⟨kept', same⟩ := files file kept
    exact same.trans (content file kept')

/-- However often waiting is interrupted, it gives how the child ended. -/
theorem waitpid_answer {status answer : WaitStatus}
    {faults : List (Option Fault)}
    (answered : (waitpid status faults).1 = .ok answer) : answer = status := by
  induction faults with
  | nil => exact (Except.ok.inj answered).symm
  | cons fault rest ih =>
      cases fault with
      | none => exact (Except.ok.inj answered).symm
      | some fault =>
          cases fault with
          | interrupted => exact ih answered
          | failed code => cases answered

theorem waitFor_ensures {status : WaitStatus}
    (waits : kernel.Waits world said keeps status.code next) :
    Ensures (waitFor status) next
      (fun code final => kernel.Waits world said keeps code final)
      (fun _ final => kernel.Starts said final) := by
  unfold Ensures waitFor
  cases waited : waitpid status next.faults with
  | mk answer rest =>
      cases answer with
      | ok answer =>
          obtain rfl := waitpid_answer (congrArg Prod.fst waited)
          exact waits
      | error refused => exact waits.starts

/-- The parent waits for the program that its child becomes. -/
theorem detail_starts [DecidableEq File] {context : Detail}
    {input output error : Nat} {closeInput closeOutput closeError : Bool}
    {base : DescriptorTable Opened} {opens : Nat} {stdin stdout : Meaning}
    {data : StderrData} {first second third : Descriptor Opened}
    (stdinIs : context.stdinFile = ⟨some input, closeInput⟩)
    (stdoutIs : context.stdoutFile = ⟨some output, closeOutput⟩)
    (stderrIs : context.stderrFile = ⟨some error, closeError⟩)
    (lent : Lent base kernel.process.table opens stdin stdout data.meaning
      input output error closeInput closeOutput closeError first second
      third) :
    let said := fun image : Image File =>
      image = context.image kernel.files
        ((afterOutput kernel.process.table input output closeInput
          closeOutput).install error 2 closeError)
    Ensures (context.syncExecute world) kernel
      (fun code next => kernel.Waits world said (fun _ => True) code next)
      (fun _ next => kernel.Starts said next) := by
  intro said
  obtain ⟨last, lastEntry⟩ := lent.lastEntry
  rw [Detail.syncExecute, ensures_bind]
  apply ensures_call
  · intro errno
    exact .inl rfl
  · intro _ forked served
    obtain rfl : kernel.called = forked :=
      congrArg Prod.snd (Except.ok.inj served)
    have child : Ensures context.child kernel.called _ _ :=
      child_ensures stdinIs stdoutIs stderrIs rfl rfl lent.inputBacked.entry
        lent.secondEntry lastEntry
    have waited : Ensures (context.forked world) kernel.called
        (fun status next => kernel.Waits world said (fun _ => True)
          status.code next)
        (fun _ _ => False) := by
      unfold Ensures at child ⊢
      unfold Detail.forked
      cases run : context.child kernel.called with
      | ok image started =>
          rw [run] at child
          obtain ⟨is, one, -⟩ := child
          have count : started.images.length = kernel.images.length + 1 :=
            congrArg List.length one
          refine .inr ⟨image, one, is, ?_, ?_⟩
          · rw [count]
          · intro file _
            rw [count]
      | error exception failed =>
          rw [run] at child
          exact .inl ⟨child.images, rfl⟩
    rw [ensures_bind]
    apply waited.mono
    · intro status next waits
      exact waitFor_ensures waits
    · intro failed next impossible
      exact impossible.elim

end Starting

/-! ## Executions -/

/-- What a program finds that is started by a built context, from a process as
it is in `kernel`. -/
structure Context.Runs (world : World File) (context : Context)
    (kernel : Kernel File) (executable currentPath tmp : Path)
    (image : Image File) : Prop where
  executable : image.executable = executable
  arguments : image.arguments = context.arguments
  environment : image.environment = Environment.strings context.environment
  directory : image.process.directory = currentPath
  blocked : image.process.blocked = []
  wired : Wired kernel.process.table kernel.opens
    (context.stdinData.meaning tmp) context.stdoutData.meaning
    context.stderrData image.process.table
  written : ¬ context.stdoutData.meaning.Truncates world (world.locate tmp) →
    ¬ context.stderrData.meaning.Truncates world (world.locate tmp) →
    context.stdinData.Written world tmp image.files

section Executions

variable [DecidableEq File] {world : World File} {kernel : Kernel File}
  {context : Context} {tmp : Option Path}

omit [DecidableEq File] in
theorem StdinData.Written.preserved {data : StdinData} {path : Path}
    {meaning : Meaning} {before after : Kernel File}
    (written : data.Written world path before.files)
    (preserves : before.Preserves world meaning after)
    (apart : ¬ meaning.Truncates world (world.locate path)) :
    data.Written world path after.files := by
  cases data with
  | data text => exact preserves _ _ apart written
  | doDefault => exact trivial
  | inherit => exact trivial
  | suppress => exact trivial
  | path name => exact trivial

theorem lendAndExecute_starts (standard : Standard kernel.process.table)
    (kept : context.stdinData.Kept tmp) (executable currentPath : Path) :
    Ensures (world.lendAndExecute context executable currentPath tmp) kernel
      (fun code next => kernel.Waits world
        (context.Runs world kernel executable currentPath (tmp.getD []))
        (fun _ => True) code next)
      (fun _ next => kernel.Starts
        (context.Runs world kernel executable currentPath (tmp.getD []))
        next) := by
  rw [World.lendAndExecute, ensures_withOwned]
  apply (stdin_provides world context.stdinData kept).mono
  · rintro stdinFile one ⟨first, written⟩
    rw [ensures_withOwned]
    apply (stdout_provides world context.stdoutData).mono
    · rintro stdoutFile two ⟨second, preserves⟩
      rw [ensures_withOwned]
      apply (stderr_provides world context.stderrData).mono
      · rintro stderrFile three ⟨third, preserves'⟩
        obtain ⟨sourceIn, sourceOut, sourceErr, closeIn, closeOut, closeErr,
          input, out, err, rfl, rfl, rfl, lent⟩ :=
          provides_lent standard first second third
        have before : three.images = kernel.images :=
          third.images.trans (second.images.trans first.images)
        have runs (image : Image File)
            (is : image = Detail.image
              { executable := executable
                currentPath := currentPath
                arguments := context.arguments
                environment := context.environment
                stdinFile := ⟨some sourceIn, closeIn⟩
                stdoutFile := ⟨some sourceOut, closeOut⟩
                stderrFile := ⟨some sourceErr, closeErr⟩ } three.files
              ((afterOutput three.process.table sourceIn sourceOut closeIn
                closeOut).install sourceErr 2 closeErr)) :
            context.Runs world kernel executable currentPath (tmp.getD [])
              image := by
          subst is
          refine ⟨rfl, rfl, rfl, rfl, rfl, lent.wired, ?_⟩
          intro apart apart'
          exact (written.preserved preserves apart).preserved preserves'
            apart'
        apply (detail_starts rfl rfl rfl lent).mono
        · intro code next waits
          apply (waits.mono runs).of_images before
          · rw [(destroy_turns _ _).images, (destroy_turns _ _).images,
              (destroy_turns _ _).images]
          · intro file _
            rw [(destroy_turns _ _).files, (destroy_turns _ _).files,
              (destroy_turns _ _).files]
            exact ⟨trivial, rfl⟩
        · intro failed next starts
          apply (starts.mono runs).of_images before
          rw [(destroy_turns _ _).images, (destroy_turns _ _).images,
            (destroy_turns _ _).images]
      · intro failed next leaves
        left
        rw [(destroy_turns _ _).images, (destroy_turns _ _).images,
          leaves.images, second.images, first.images]
    · intro failed next leaves
      left
      rw [(destroy_turns _ _).images, leaves.images, first.images]
  · intro failed next leaves
    exact .inl leaves.images

/-- What a program finds that is started as a context asks, by a process as it
is in `kernel`.  A text that it is to read is in a file of its own, unless the
file is written to by the program. -/
structure Context.Asks (world : World File) (context : Context)
    (kernel : Kernel File) (image : Image File) : Prop where
  command : ∃ asked, context.Commands image.arguments asked ∧
    image.executable = world.started context kernel.process.directory asked
  environment : ∃ environment : Environment,
    image.environment = Environment.strings environment ∧
      ∀ name, environment.lookup name = context.variable? world name
  directory : image.process.directory =
    context.currentPath.getD kernel.process.directory
  blocked : image.process.blocked = []
  files : ∃ tmp,
    Wired kernel.process.table kernel.opens (context.stdinData.meaning tmp)
      context.stdoutData.meaning context.stderrData image.process.table ∧
    ∀ text, context.stdinData = .data text →
      kernel.files (world.locate tmp) = none ∧
      (¬ context.stdoutData.meaning.Truncates world (world.locate tmp) →
        ¬ context.stderrData.meaning.Truncates world (world.locate tmp) →
        image.files (world.locate tmp) = some text)

omit [DecidableEq File] in
/-- A program that is started by what was built is started as was asked. -/
theorem Context.Runs.asks {built : Context} {ready : Kernel File}
    {asked path : Path} {image : Image File}
    (runs : built.Runs world ready
      (world.started context kernel.process.directory asked)
      (context.currentPath.getD kernel.process.directory) path image)
    (isBuilt : context.Built world built kernel.process.directory asked)
    (process : ready.process = kernel.process)
    (opens : kernel.opens ≤ ready.opens)
    (fresh : ∀ text, context.stdinData = .data text →
      kernel.files (world.locate path) = none) :
    context.Asks world kernel image := by
  have wired := runs.wired
  have written := runs.written
  rw [isBuilt.stdinData, isBuilt.stdoutData, isBuilt.stderrData] at written
  rw [isBuilt.stdinData, isBuilt.stdoutData, isBuilt.stderrData,
    process] at wired
  refine ⟨⟨asked, ?_, runs.executable⟩,
    ⟨built.environment, runs.environment, isBuilt.environment⟩,
    runs.directory, runs.blocked, path, wired.mono opens, ?_⟩
  · rw [runs.arguments]
    exact isBuilt.command
  · intro text isText
    refine ⟨fresh text isText, ?_⟩
    intro apart apart'
    have found := written apart apart'
    rw [isText] at found
    exact found

theorem tmp_starts {built : Context} {ready : Kernel File} {asked : Path}
    (standard : Standard kernel.process.table) (quiet : kernel.Quiet ready)
    (isBuilt : context.Built world built kernel.process.directory asked) :
    Ensures (withOwned (context.stdinData.action.tmp world) (removeTmp world)
        (world.lendAndExecute built
          (world.started context kernel.process.directory asked)
          (context.currentPath.getD kernel.process.directory))) ready
      (fun code next => kernel.Waits world (context.Asks world kernel)
        (fun file => kernel.files file ≠ none) code next)
      (fun _ next => kernel.Starts (context.Asks world kernel) next) := by
  rw [ensures_withOwned]
  have without (none' : context.stdinData.Kept none)
      (given : ∀ text, context.stdinData ≠ .data text) :
      Ensures (world.lendAndExecute built
          (world.started context kernel.process.directory asked)
          (context.currentPath.getD kernel.process.directory) none) ready
        (fun code next => kernel.Waits world (context.Asks world kernel)
          (fun file => kernel.files file ≠ none) code next)
        (fun _ next => kernel.Starts (context.Asks world kernel) next) := by
    rw [← isBuilt.stdinData] at none'
    have asks (image : Image File) (runs : built.Runs world ready _ _ []
        image) : context.Asks world kernel image :=
      runs.asks isBuilt quiet.process (Nat.le_of_eq quiet.opens.symm)
        fun text isText => absurd isText (given text)
    apply (lendAndExecute_starts (quiet.process ▸ standard) none' _ _).mono
    · intro code next waits
      exact (waits.mono asks).of_images quiet.images rfl
        fun _ _ => ⟨trivial, rfl⟩
    · intro failed next starts
      exact (starts.mono asks).of_images quiet.images rfl
  cases data : context.stdinData with
  | doDefault => exact without (by simp [data, StdinData.Kept]) (by simp [data])
  | inherit => exact without (by simp [data, StdinData.Kept]) (by simp [data])
  | suppress => exact without (by simp [data, StdinData.Kept]) (by simp [data])
  | path name => exact without (by simp [data, StdinData.Kept]) (by simp [data])
  | data text =>
      rw [StdinData.action, FileAction.tmp, ensures_map]
      apply (regularFileInTempdir_ensures world).mono
      · intro path next draws
        have kept : built.stdinData.Kept (some path) := by
          simp [isBuilt.stdinData, data, StdinData.Kept]
        have process := draws.creates.process.trans quiet.process
        have images := draws.creates.images.trans quiet.images
        have asks (image : Image File) (runs : built.Runs world next _ _ path
            image) : context.Asks world kernel image :=
          runs.asks isBuilt process
            ((Nat.le_of_eq quiet.opens.symm).trans draws.creates.opens)
            fun _ _ => quiet.files ▸ draws.creates.fresh
        apply (lendAndExecute_starts (process ▸ standard) kept _ _).mono
        · intro code final waits
          have started : (removeTmp world (some path) final).images =
              final.images := rfl
          apply (waits.mono asks).of_images images started
          intro file existed
          have other : file ≠ world.locate path := by
            rintro rfl
            exact existed (quiet.files ▸ draws.creates.fresh)
          exact ⟨trivial, removeTemp_files world path final other⟩
        · intro failed final starts
          exact (starts.mono asks).of_images images rfl
      · intro failed next fails
        exact .inl (fails.images.trans quiet.images)

theorem nativeSyncExecute_starts (context : Context) (kernel : Kernel File)
    (standard : Standard kernel.process.table) :
    Ensures (world.nativeSyncExecute context) kernel
      (fun code next => kernel.Waits world (context.Asks world kernel)
        (fun file => kernel.files file ≠ none) code next)
      (fun _ next => kernel.Starts (context.Asks world kernel) next) := by
  apply nativeSyncExecute_ensures
  · intro error next quiet
    exact .inl quiet.images
  · intro built asked next quiet isBuilt
    exact tmp_starts standard quiet isBuilt

/-- Whatever an execution comes to, with the faults of any system calls, it
starts at most one program, and that as was asked.  The code that it returns
is the program's, or tells of a child that was aborted; the files that there
were are as the program has left them. -/
theorem syncExecute_starts (context : Context) (kernel : Kernel File)
    (standard : Standard kernel.process.table) :
    Ensures (world.syncExecute context) kernel
      (fun code next => kernel.Waits world (context.Asks world kernel)
        (fun file => kernel.files file ≠ none) code next)
      (fun _ next => kernel.Starts (context.Asks world kernel) next) := by
  rw [World.syncExecute, ensures_tryCatch]
  apply (nativeSyncExecute_starts context kernel standard).mono
  · intro code next waits
    exact waits
  · intro cause next starts
    exact starts

end Executions

/-! A program that is started with the descriptors of the caller. -/

def sampleTable : DescriptorTable Opened where
  entry number :=
    if number < 3 then
      some ⟨⟨number, ['/', 'd', 'e', 'v', '/', 't', 't', 'y'], .rdwr⟩, false⟩
    else none
  bounded := ⟨3, fun _ beyond => if_neg (Nat.not_lt.mpr beyond)⟩

def sampleKernel : Kernel Path where
  process := ⟨sampleTable, ['/', 'h', 'o', 'm', 'e'], []⟩
  files _ := none
  opens := 3
  drawn := 0
  faults := []
  images := []

def sampleWorld : World Path where
  locate path := path
  names index := ['/', 't', 'm', 'p', '/'] ++ List.replicate index 'a'
  removable _ := true
  environment := [(['H', 'O', 'M', 'E'], ['/', 'h', 'o', 'm', 'e'])]
  absolute path base := base ++ '/' :: path
  searchPath path := ['/', 'b', 'i', 'n', '/'] ++ path
  program _ image := (.exited 3, image.files)

def sampleContext : Context where
  arguments := [['e', 'c', 'h', 'o'], ['a']]
  stdinData := .inherit
  stderrData := .redirectToStdout

theorem sample_standard : Standard sampleKernel.process.table := by
  intro number below
  simp [sampleKernel, sampleTable, below]

theorem syncExecute_starts_sample : ∃ next image,
    sampleWorld.syncExecute sampleContext sampleKernel = .ok 3 next ∧
      next.images = [image] ∧
      sampleContext.Asks sampleWorld sampleKernel image := by
  have starts : Ensures (sampleWorld.syncExecute sampleContext)
      sampleKernel _ _ :=
    syncExecute_starts sampleContext sampleKernel sample_standard
  have run : ∃ next,
      sampleWorld.syncExecute sampleContext sampleKernel = .ok 3 next :=
    ⟨_, rfl⟩
  obtain ⟨next, run⟩ := run
  obtain ⟨-, aborted⟩ | ⟨image, one, asks, -⟩ := starts.of_ok run
  · cases aborted
  · exact ⟨next, image, run, one, asks⟩

end Bacs.Process
