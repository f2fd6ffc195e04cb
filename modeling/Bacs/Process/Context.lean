import Bacs.Process.Kernel

/-!
# Contexts

`build` sets what was left open in a context: the command line and the
executable give each other, the environment of the process is merged under
what was set, and the executable becomes a name to look up or an absolute
path.
-/

namespace Bacs.Process

open Foundation PathGrammar

variable {File : Type}

/-- `path::filename` -/
def filename (path : Path) : Path :=
  (elements path).getLast?.getD []

def isFilename (path : Path) : Bool :=
  elements (filename path) = elements path

/-- `current_path()` -/
def posixGetcwd : Posix File (Except Errno Path) :=
  systemCall fun kernel => .ok (kernel.process.directory, kernel)

def World.absolutePath (world : World File) (path : Path) :
    Posix File Path := do
  let base ← expect "getcwd" posixGetcwd
  pure (world.absolute path base)

/-- `environment[name] = value` for one entry after another. -/
def Environment.assign (environment : Environment)
    (settings : List (Text × Text)) : Environment :=
  settings.foldl
    (fun environment entry => environment.insert entry.1 entry.2) environment

def Environment.settings (environment : Environment) : List (Text × Text) :=
  environment.entries.map fun entry => (entry.1, entry.2)

namespace Context

variable (world : World File) (context : Context)

def buildCommand : Posix File (List Text × Path) :=
  match context.arguments, context.executable with
  | [], none => throw .nothingToExecute
  | [], some executable => pure ([executable], executable)
  | first :: rest, none => pure (first :: rest, first)
  | first :: rest, some executable => pure (first :: rest, executable)

def buildCurrentPath : Posix File Path :=
  match context.currentPath with
  | some path => pure path
  | none => expect "getcwd" posixGetcwd

def buildEnvironment : Environment :=
  Environment.assign
    (if context.environmentInherit then
      Environment.assign ∅ world.environment
    else ∅)
    (Environment.settings context.environment)

/-- The executable to start, and whether it is looked up. -/
def buildExecutable (usePath : Option Bool) (executable : Path) :
    Posix File (Path × Bool) := do
  let usePath := usePath.getD (isFilename executable)
  let usePath := if usePath && hasRootDirectory executable then false
    else usePath
  if usePath then
    if executable.isEmpty then throw .emptyExecutable
    if ! isFilename executable then
      throw (.nonBasenameExecutable executable)
    pure (executable, true)
  else do
    let executable ← world.absolutePath executable
    pure (executable, false)

/-- `context::build_` -/
def build_ : Posix File Context :=
  tryCatch
    (do
      let (arguments, executable) ← context.buildCommand
      let currentPath ← context.buildCurrentPath
      let (executable, usePath) ←
        buildExecutable world context.usePath executable
      pure { context with
        arguments := arguments
        executable := some executable
        environmentInherit := false
        environment := context.buildEnvironment world
        currentPath := some currentPath
        usePath := some usePath })
    fun failed => throw (.contextBuild failed)

end Context

/-! ## What a built context says -/

/-- The last value that a list of settings gives to a name. -/
def lastValue (settings : List (Text × Text)) (name : Text) : Option Text :=
  (settings.reverse.find? (·.1 = name)).map (·.2)

def Context.variable? (world : World File) (context : Context)
    (name : Text) : Option Text :=
  (context.environment.lookup name).or
    (if context.environmentInherit then lastValue world.environment name
      else none)

/-- The command of a context: what is to be started, and how it is called. -/
structure Context.Commands (context : Context) (arguments : List Text)
    (executable : Path) : Prop where
  arguments : arguments =
    if context.arguments = [] then context.executable.toList
    else context.arguments
  executable : context.executable.or context.arguments.head? =
    some executable

/-- A name without a root is looked up, unless this was set. -/
def Context.looksUp (context : Context) (asked : Path) : Bool :=
  context.usePath.getD (isFilename asked) && ! hasRootDirectory asked

/-- What `build` makes of a context in a directory, where `asked` is the
executable that the context gives. -/
structure Context.Built (world : World File) (context built : Context)
    (directory asked : Path) : Prop where
  command : context.Commands built.arguments asked
  executable : built.executable =
    some (if context.looksUp asked then asked
      else world.absolute asked directory)
  usePath : built.usePath = some (context.looksUp asked)
  currentPath : built.currentPath =
    some (context.currentPath.getD directory)
  environment : ∀ name,
    built.environment.lookup name = context.variable? world name
  stdinData : built.stdinData = context.stdinData
  stdoutData : built.stdoutData = context.stdoutData
  stderrData : built.stderrData = context.stderrData

section Building

variable {world : World File} {context : Context}

theorem lastValue_append (settings : List (Text × Text)) (name value : Text)
    (other : Text) :
    lastValue (settings ++ [(name, value)]) other =
      if name = other then some value else lastValue settings other := by
  by_cases same : name = other <;> simp [lastValue, same]

/-- Of settings that are made one after another, the last one counts. -/
theorem lookup_assign (settings : List (Text × Text)) (start : Environment)
    (name : Text) :
    (Environment.assign start settings).lookup name =
      (lastValue settings name).or (start.lookup name) := by
  induction settings using List.reverseRecOn with
  | nil => rfl
  | append_singleton settings setting ih =>
      obtain ⟨key, value⟩ := setting
      rw [Environment.assign, List.foldl_append, lastValue_append]
      by_cases same : key = name
      · subst same
        simp
      · have different : name ≠ key := fun equal => same equal.symm
        rw [if_neg same, ← ih]
        simp [AList.lookup_insert_ne different, Environment.assign]

theorem find?_eq_dlookup (entries : List (Sigma fun _ : Text => Text))
    (name : Text) :
    ((entries.map fun entry => (entry.1, entry.2)).find?
      (·.1 = name)).map (·.2) = entries.dlookup name := by
  induction entries with
  | nil => rfl
  | cons entry entries ih =>
      obtain ⟨key, value⟩ := entry
      by_cases same : key = name
      · subst same
        simp
      · have different : name ≠ key := fun equal => same equal.symm
        have skipped : List.dlookup name
            ((⟨key, value⟩ : Sigma fun _ : Text => Text) :: entries) =
              entries.dlookup name :=
          List.dlookup_cons_ne entries _ different
        rw [skipped, ← ih]
        simp [same]

/-- A name has one value in an environment, so its order does not matter. -/
theorem lastValue_settings (environment : Environment) (name : Text) :
    lastValue (Environment.settings environment) name =
      environment.lookup name := by
  have same : environment.entries.reverse.dlookup name =
      environment.entries.dlookup name :=
    List.perm_dlookup name
      ((List.perm_nodupKeys environment.entries.reverse_perm).mpr
        environment.nodupKeys)
      environment.entries.reverse_perm
  rw [AList.lookup, ← same, ← find?_eq_dlookup, List.map_reverse]
  rfl

theorem lookup_buildEnvironment (name : Text) :
    (context.buildEnvironment world).lookup name =
      context.variable? world name := by
  rw [Context.buildEnvironment, lookup_assign, lastValue_settings,
    Context.variable?]
  cases context.environmentInherit with
  | false => rfl
  | true =>
      rw [if_pos rfl, if_pos rfl, lookup_assign]
      simp

end Building

end Bacs.Process
