import Bacs.Foundation.Subtrees
import Bacs.Pm.EntryNames
import Bacs.Pm.Publishing

/-!
# Packages of a problem

A problem becomes a directory of source packages: the root package, and below
it those of the verifier, the tests, the checker, the interactor and the
statement.  `none` stands for an exception.
-/

namespace Bacs.Problem

open Pm Pm.Publishing LexicalPath

/-! ## What is written -/

abbrev Section := List (String × String)

abbrev Config := List (String × Section)

/-- `config.get_child(name, ptree())` -/
def Config.child (config : Config) (name : String) : Section :=
  (config.lookup name).getD []

/-- `problem::System` -/
structure System where
  problemType : String
  package : Entry
  revision : String
  deriving DecidableEq, Repr

/-- `Statement::Version` -/
structure VersionInfo where
  language : String
  format : String
  package : Entry
  deriving DecidableEq, Repr

/-- `Statement::Version::Manifest` -/
structure Manifest where
  version : VersionInfo
  revision : String
  index : String
  deriving DecidableEq, Repr

/-- How files are written, and what the programs make that are run. -/
structure Writers (File : Type) where
  saveIndex : Index → File
  writeIni : Section → File
  writeText : String → File
  serialize : Manifest → File
  /-- The text archive of the test set, the data set and the text data set. -/
  archiveTests : List String → List String → List String → File
  systemVerifier : System → File
  /-- Two runs of `pdflatex` on a source in a copy of the directory. -/
  pdflatex : (List String → Option (Node File)) → String → String →
    Option File

variable {File : Type} (writers : Writers File)

def noStage : PackageStage := ⟨[], [], []⟩

/-- `index.save(destination / "index")` -/
def saveIndex (destination : List String) (index : Index)
    (disk : Disk String File) : Option (Disk String File) :=
  disk.write (destination ++ ["index"]) (writers.saveIndex index)

def resetDir (place : List String) (disk : Disk String File) :
    Option (Disk String File) :=
  (disk.removeAll place).makeDirectory place

/-- The conversion of a name to an entry. -/
def entry (name : String) : Option Entry :=
  (Entry.build name '/').toOption

def treeImport (path name : String) : Option TreeImport :=
  (entry name).map fun package => ⟨path, package⟩

/-! ## Utilities -/

structure TestFile where
  testId : String
  dataId : String
  path : String
  deriving DecidableEq, Repr

/-- `list_storage`, as its maps are iterated. -/
structure TestFiles where
  files : List TestFile
  testSet : List String
  dataSet : List String
  textDataSet : List String
  deriving Repr

inductive Builder where
  | none
  /-- The builder `alias`. -/
  | aliasOf (std : String)
  | single (source : String) (std : Option String) (libs : List String)
  | dotNetSolution (solution : String) (configuration : Option String)
      (libs : List String)
  | listStorage (tests : TestFiles)
  deriving Repr

structure Utility where
  location : List String
  target : String
  config : Config
  builder : Builder
  deriving Repr

namespace Utility

variable (utility : Utility)

/-- `section` -/
def child (name : String) : Section :=
  match utility.builder with
  | .aliasOf _ =>
      if name = "utility" then [("call", "reserved"), ("return", "reserved")]
      else utility.config.child name
  | _ => utility.config.child name

def targetName : Option String :=
  if '/' ∉ utility.target.toList ∨
      ∀ character ∈ utility.target.toList, character = '/' then
    some utility.target
  else none

/-- The configuration of the utility, which goes into `etc`. -/
def writeConfig (destination : List String) (disk : Disk String File) :
    Option (Disk String File) := do
  let disk ← disk.makeDirectory (destination ++ ["etc"])
  let target ← utility.targetName
  disk.write (locate (destination ++ ["etc"]) target)
    (writers.writeIni (utility.child "call"))

end Utility

/-- The file for the build system, which goes into `modules`. -/
def writeModule (destination : List String) (text : String)
    (disk : Disk String File) : Option (Disk String File) := do
  let disk ← disk.makeDirectory (destination ++ ["modules"])
  disk.write (destination ++ ["modules", "utility.cmake"])
    (writers.writeText text)

def fileName (path : String) : String :=
  String.ofList ((path.toList.splitOn '/').getLast?.getD [])

def suffix (name : String) : Option String :=
  match (name.toList.splitOn '.').reverse with
  | last :: _ :: _ => some (String.ofList last)
  | _ => none

def getLang (source : String) : String :=
  match suffix source with
  | none => "unknown"
  | some suff =>
      if suff = "c" then "c"
      else if suff = "cpp" ∨ suff = "cc" then "cpp"
      else if suff = "pas" ∨ suff = "dpr" then "pas"
      else if suff = "java" then "java"
      else if suff = "py" then "py"
      else "unknown"

def libraries (libs : List String) : String :=
  "set(libraries" ++ String.join (libs.map (" " ++ ·)) ++ ")\n"

/-- A `boost::optional` is written with a space before its value. -/
def optionalLine (name : String) (value : Option String) : String :=
  match value with
  | none => ""
  | some value => "set(" ++ name ++ " " ++ " " ++ value ++ ")\n"

def singleModule (target source : String) (std : Option String)
    (libs : List String) : String :=
  "set(target " ++ target ++ ")\n" ++ "set(source " ++ source ++ ")\n" ++
    libraries libs ++ optionalLine "std" std

def dotNetModule (target solution : String) (configuration : Option String)
    (libs : List String) : String :=
  "set(target " ++ target ++ ")\n" ++ "set(solution " ++ solution ++ ")\n" ++
    optionalLine "configuration" configuration ++ libraries libs

/-- One `copy_file` of the tests, which fails if the file exists. -/
def copyTest (location destination : List String) (disk : Disk String File)
    (test : TestFile) : Option (Disk String File) := do
  let contents ← disk.file? (locate location test.path)
  disk.create
    (locate (destination ++ ["tests"]) (test.testId ++ "." ++ test.dataId))
    (.file contents)

namespace Utility

variable (utility : Utility) (destination : List String)
  (disk : Disk String File)

def makeNone : Option (Disk String File) := do
  let disk ← disk.makeDirectories destination.inits
  let disk ← utility.writeConfig writers destination disk
  saveIndex writers destination
    { source := noStage
      package := { noStage with self := [⟨"etc", "etc"⟩] } } disk

def makeAlias (std : String) : Option (Disk String File) := do
  let disk ← disk.makeDirectories destination.inits
  let target ← utility.targetName
  let package :=
    ⟨["bacs", "system", "single"]⟩ / (← entry target) / ⟨["std"]⟩ /
      (← entry std)
  let disk ← utility.writeConfig writers destination disk
  saveIndex writers destination
    { source := noStage
      package :=
        { noStage with
          importPackage := [⟨".", package⟩], self := [⟨"etc", "etc"⟩] } }
    disk

def makeSingle (source : String) (std : Option String) (libs : List String) :
    Option (Disk String File) := do
  let disk ← disk.makeDirectories destination.inits
  let lang := getLang (fileName source)
  let disk ← disk.copyTree utility.location (destination ++ ["src"])
  let disk ← utility.writeConfig writers destination disk
  let target ← utility.targetName
  let disk ← writeModule writers destination
    (singleModule target source std libs) disk
  let dependencies ← libs.mapM fun lib =>
    treeImport "." ("bacs/lib/" ++ lang ++ "/" ++ lib)
  saveIndex writers destination
    { source :=
        { importSource :=
            [⟨".", ⟨["bacs", "system", "utility", "single", lang]⟩⟩]
          importPackage := dependencies
          self := [⟨"src", "src"⟩, ⟨"modules", "modules"⟩] }
      package := { noStage with self := [⟨"etc", "etc"⟩] } } disk

def makeDotNet (solution : String) (configuration : Option String)
    (libs : List String) : Option (Disk String File) := do
  let disk ← disk.makeDirectories destination.inits
  let disk ← disk.copyTree utility.location (destination ++ ["src"])
  let disk ← utility.writeConfig writers destination disk
  let target ← utility.targetName
  let disk ← writeModule writers destination
    (dotNetModule target solution configuration libs) disk
  let dependencies ← libs.mapM fun lib =>
    treeImport "." ("bacs/lib/dot_net_solution/" ++ lib)
  saveIndex writers destination
    { source :=
        { importSource :=
            [⟨".", ⟨["bacs", "system", "utility", "dot_net_solution"]⟩⟩]
          importPackage := dependencies
          self := [⟨"src", "src"⟩, ⟨"modules", "modules"⟩] }
      package := { noStage with self := [⟨"etc", "etc"⟩] } } disk

def makeTests (tests : TestFiles) : Option (Disk String File) := do
  let disk ← disk.makeDirectories destination.inits
  let disk ← disk.makeDirectory (destination ++ ["tests"])
  let disk ← tests.files.foldlM (copyTest utility.location destination) disk
  let disk ← disk.makeDirectory (destination ++ ["etc"])
  if tests.testSet = [] then none
  let disk ← disk.write (destination ++ ["etc", "tests"])
    (writers.archiveTests tests.testSet tests.dataSet tests.textDataSet)
  saveIndex writers destination
    { source :=
        { importSource := []
          importPackage :=
            [⟨".", ⟨["bacs", "system", "single", "list_tests"]⟩⟩]
          self := [⟨"share/tests", "tests"⟩, ⟨"etc", "etc"⟩] }
      package := noStage } disk

def makePackage : Option (Disk String File) :=
  match utility.builder with
  | .none => utility.makeNone writers destination disk
  | .aliasOf std => utility.makeAlias writers destination disk std
  | .single source std libs =>
      utility.makeSingle writers destination disk source std libs
  | .dotNetSolution solution configuration libs =>
      utility.makeDotNet writers destination disk solution configuration libs
  | .listStorage tests => utility.makeTests writers destination disk tests

end Utility

/-! ## Statements -/

inductive VersionBuilder where
  | copy (source : String)
  | pdflatex (location : List String) (source : String)
  /-- The version of a `polygon_codeforces_com` statement. -/
  | polygon (source : String)
  deriving Repr

/-- `statement::version` -/
structure Version where
  language : String
  format : String
  builder : VersionBuilder
  languageAllowed : Entry.isAllowedSubpath language = true
  formatAllowed : Entry.isAllowedSubpath format = true

def stem (name : String) : String :=
  if name = "." ∨ name = ".." then name
  else
    match suffix name with
    | none => name
    | some last =>
        String.ofList (name.toList.take
          (name.toList.length - (last.toList.length + 1)))

def getTarget (source : String) : String :=
  stem (fileName source) ++ ".pdf"

namespace Version

variable (version : Version)

def subpackage : Entry := ⟨[version.language]⟩ / ⟨[version.format]⟩

def info : VersionInfo :=
  { language := version.language
    format := version.format
    package := version.subpackage }

/-- The index of the data in the manifest. -/
def source : String :=
  match version.builder with
  | .copy source => source
  | .pdflatex _ source => getTarget source
  | .polygon source => source

def index (resourcesPackage : Entry) : Index :=
  { source := noStage
    package :=
      match version.builder with
      | .pdflatex _ _ => { noStage with self := [⟨".", "pkg"⟩] }
      | _ =>
          { noStage with
            importSource := [⟨"data", resourcesPackage⟩]
            self := [⟨".", "pkg"⟩] } }

def manifest (package : Entry) (revision : String) : Manifest :=
  { version :=
      { language := version.language, format := version.format, package }
    revision
    index := version.source }

/-- `build` of `pdflatex`; the others have nothing to build. -/
def build (destination : List String) (disk : Disk String File) :
    Option (Disk String File) :=
  match version.builder with
  | .pdflatex location source => do
      let file ← writers.pdflatex (disk.below location) (fileName source)
        (getTarget source)
      disk.create (locate (destination ++ ["pkg"]) (getTarget source))
        (.file file)
  | _ => some disk

def makePackage (destination : List String)
    (package resourcesPackage : Entry) (revision : String)
    (disk : Disk String File) : Option (Disk String File) := do
  let disk ← resetDir destination disk
  let disk ← disk.makeDirectory (destination ++ ["pkg"])
  let disk ← disk.write (destination ++ ["pkg", "manifest"])
    (writers.serialize (version.manifest package revision))
  let disk ← saveIndex writers destination (version.index resourcesPackage)
    disk
  version.build writers destination disk

end Version

structure Statement where
  location : List String
  versions : List Version

namespace Statement

variable (statement : Statement)

def info : List VersionInfo :=
  statement.versions.map fun version =>
    { version.info with package := ⟨["versions"]⟩ / version.info.package }

def resourcesIndex : Index :=
  { source := { noStage with self := [⟨".", "src"⟩] }, package := noStage }

def makeResources (destination : List String) (disk : Disk String File) :
    Option (Disk String File) := do
  let disk ← disk.makeDirectory destination
  let disk ← disk.copyTree statement.location (destination ++ ["src"])
  saveIndex writers destination resourcesIndex disk

def placeOf (place : List String) (package : Entry) : List String :=
  walk place (package.location.map Step.ofComponent)

def makeVersion (versionsPath : List String)
    (versionsPackage resourcesPackage : Entry) (revision : String)
    (disk : Disk String File) (version : Version) :
    Option (Disk String File) := do
  let packagePath := placeOf versionsPath version.subpackage
  let disk ← disk.makeDirectories packagePath.inits
  version.makePackage writers packagePath
    (versionsPackage / version.subpackage) resourcesPackage revision disk

def makePackage (destination : List String) (package : Entry)
    (revision : String) (disk : Disk String File) :
    Option (Disk String File) := do
  let disk ← resetDir destination disk
  let disk ← statement.makeResources writers (destination ++ ["resources"])
    disk
  let disk ← disk.makeDirectory (destination ++ ["versions"])
  statement.versions.foldlM
    (makeVersion writers (destination ++ ["versions"])
      (package / ⟨["versions"]⟩) (package / ⟨["resources"]⟩) revision) disk

end Statement

/-! ## The generator -/

/-- `single::driver`.  The rest of the overview is passed on as it is. -/
structure Driver (Rest : Type) where
  rest : Rest
  tests : Utility
  checker : Option Utility
  interactor : Option Utility
  statement : Statement

/-- The versions in the overview of the driver. -/
def Driver.versions {Rest : Type} (driver : Driver Rest) :
    List VersionInfo :=
  driver.statement.info.map fun info =>
    { info with package := ⟨["statement"]⟩ / info.package }

/-- `generator::options`, without the driver. -/
structure GeneratorOptions where
  destination : List String
  rootPackage : Entry
  system : System

structure ProblemInfo (Rest : Type) where
  system : System
  versions : List VersionInfo
  rest : Rest

namespace Internal0

variable (options : GeneratorOptions)

def verifierIndex : Index :=
  { source :=
      { importSource := [⟨".", ⟨["bacs", "system", "system_verifier"]⟩⟩]
        importPackage := []
        self := [⟨".", "src"⟩] }
    package := noStage }

/-- `system_verifier::make_package` -/
def makeVerifier (destination : List String) (disk : Disk String File) :
    Option (Disk String File) := do
  let disk ← resetDir destination disk
  let disk ← disk.makeDirectories (destination ++ ["src", "src"]).inits
  let disk ← disk.write
    (destination ++ ["src", "src", "system_verifier.cpp"])
    (writers.systemVerifier options.system)
  saveIndex writers destination verifierIndex disk

/-- The imports of the root package, with the disk. -/
abbrev Root (File : Type) := List TreeImport × Disk String File

def generateVerifier (root : Root File) : Option (Root File) := do
  let disk ← makeVerifier writers options
    (options.destination ++ ["system_verifier"]) root.2
  return (root.1 ++ [⟨".", options.rootPackage / ⟨["system_verifier"]⟩⟩],
    disk)

def callPackage (internalName kind : String) : Entry :=
  ⟨["bacs", "system", "single", internalName, kind]⟩

/-- `generate_utility` -/
def generateUtility (name internalName : String) (utility : Option Utility)
    (fallback : Option Entry) (root : Root File) : Option (Root File) :=
  match utility with
  | some utility => do
      let disk ← utility.makePackage writers (options.destination ++ [name])
        root.2
      let call ← (utility.child "utility").lookup "call"
      let call ← entry call
      let return_ := ((utility.child "utility").lookup "return").getD "none"
      let return_ ← entry return_
      return (root.1 ++
        [⟨".", options.rootPackage / ⟨[name]⟩⟩,
          ⟨".", callPackage internalName "call" / call⟩,
          ⟨".", callPackage internalName "return" / return_⟩], disk)
  | none => do
      let fallback ← fallback
      return (root.1 ++
        [⟨".", fallback⟩,
          ⟨".", callPackage internalName "return" / ⟨["none"]⟩⟩], root.2)

def okChecker : Entry :=
  ⟨["bacs", "system", "single", "checker", "call", "std", "ok"]⟩

def standalone : Entry :=
  ⟨["bacs", "system", "single", "tester", "call", "std", "standalone"]⟩

/-- `generate` -/
def generate {Rest : Type} (driver : Driver Rest) (disk : Disk String File) :
    Option (ProblemInfo Rest × Disk String File) := do
  let problem : ProblemInfo Rest :=
    { system := options.system
      versions := driver.versions.map fun info =>
        { info with package := options.rootPackage / info.package }
      rest := driver.rest }
  let disk ← resetDir options.destination disk
  if driver.checker.isNone ∧ driver.interactor.isNone then none
  let root := ([⟨".", ⟨["bacs", "system", "single"]⟩⟩], disk)
  let root ← generateVerifier writers options root
  let root ← generateUtility writers options "tests" "tests"
    (some driver.tests) none root
  let root ← generateUtility writers options "checker" "checker"
    driver.checker (some okChecker) root
  let root ← generateUtility writers options "interactor" "tester"
    driver.interactor (some standalone) root
  let disk ← driver.statement.makePackage writers
    (options.destination ++ ["statement"])
    (options.rootPackage / ⟨["statement"]⟩) options.system.revision root.2
  let disk ← saveIndex writers options.destination
    { source := noStage
      package := { noStage with importPackage := root.1 } } disk
  return (problem, disk)

end Internal0

end Bacs.Problem
