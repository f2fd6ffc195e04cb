import Bacs.Foundation.Exploration
import Bacs.Pm.Builder

/-!
# Updating a package

`update_meta_tree` fetches the indexes of a package and of everything
it imports.  `update_package_depends` is a depth-first search over the stages of
packages: it brings every stage that the installation of the package depends
on up to date, and finds the snapshot of each.
-/

namespace Bacs.Pm

variable {File Archive Tree : Type} (setting : Setting File Archive Tree)

inductive StageType where
  | installation
  | build
  | buildEmpty
  | source
  deriving DecidableEq, Repr

abbrev Stage := Entry × StageType

/-- The stages that the code for a stage looks at, in its order. -/
def dependencies (deps : Index) : Stage → List Stage
  | (package, .installation) =>
      deps.package.importPackage.map
          (fun i => (i.package, StageType.installation)) ++
        deps.package.importSource.map (fun i => (i.package, .source)) ++
        [(package, if deps.source.empty then .buildEmpty else .build)]
  | (package, .build) => [(package, .source)]
  | (package, .buildEmpty) => [(package, .source)]
  | (_, .source) =>
      deps.source.importPackage.map
          (fun i => (i.package, StageType.installation)) ++
        deps.source.importSource.map (fun i => (i.package, .source))

/-- Whether something was built for a stage, and its snapshot: what
`updated` and `snapshot_cache` have for it. -/
abbrev StageResult := Bool × Snapshot

/-- After the stages it depends on, a stage that has an archive is built
again if one of them was or if its archive is outdated. -/
def rebuild (kind : Kind) (package : Entry) (builder : PmM File Archive Unit)
    (total : StageResult) : PmM File Archive StageResult := do
  let upd ←
    if total.1 then pure true
    else outdated setting.faults kind package total.2
  if upd then do
    builder
    let still ← outdated setting.faults kind package total.2
    assert (!still)
  else pure ()
  return (upd, total.2)

/-- What is done for a stage after the stages it depends on. -/
def finishStage (fuel : Nat) :
    Stage → StageResult → PmM File Archive StageResult
  | (package, .installation), total =>
      rebuild setting .installation package
        (buildInstallation setting fuel package) total
  | (package, .build), total =>
      rebuild setting .build package (build setting fuel package) total
  | (package, .buildEmpty), total =>
      rebuild setting .build package (buildEmpty setting package) total
  | (package, .source), total => do
      updateSources setting package
      let checksum ← readChecksum setting.faults setting.externals package
      let snapshot ← addEntry total.2 package checksum
      return (total.1, snapshot)

/-- The search for the stages of packages: `in` are its active nodes, and
`updated` and `snapshot_cache` its results. -/
def stageSearch (fuel : Nat) :
    DepthFirst.Search Stage StageResult StageResult
      (Machine File Archive) (Failure File Archive) where
  successors := fun stage => do
    let deps ← readIndex setting.faults setting.externals stage.1
    return dependencies deps stage
  start := (false, ∅)
  collect := fun total result =>
    match mergeMaps total.2 result.2 with
    | some merged => .ok (total.1 || result.1, merged)
    | none => .error .assertion
  finish := finishStage setting fuel
  circular := fun stage => .circular stage.1
  outOfFuel := .outOfFuel

abbrev StageProgress (File Archive : Type) :=
  DepthFirst.Progress Stage StageResult (Machine File Archive)

def updatePackageDepends (fuel : Nat) (stage : Stage) :
    EStateM (Failure File Archive) (StageProgress File Archive) StageResult :=
  DepthFirst.visit (stageSearch setting fuel) fuel stage

def metaSurvey :
    Exploration.Survey Entry (Machine File Archive)
      (Failure File Archive) where
  enter := updateMeta setting
  successors := fun package => do
    let deps ← readIndex setting.faults setting.externals package
    return deps.all
  outOfFuel := .outOfFuel

/-- Run a program with local data beside the state of the machine. -/
def withLocal {Local Value Result : Type}
    (start : Machine File Archive → Local)
    (machine : Local → Machine File Archive)
    (program : EStateM (Failure File Archive) Local Value)
    (result : Value → Local → Result) : PmM File Archive Result :=
  fun state =>
    match program (start state) with
    | .ok value final => .ok (result value final) (machine final)
    | .error failure final => .error failure (machine final)

/-- The packages visited are returned as well. -/
def updateMetaTree (fuel : Nat) (package : Entry) :
    PmM File Archive (List Entry) :=
  withLocal (fun machine => ⟨[], machine⟩) (·.state)
    (Exploration.explore (metaSurvey setting) fuel package)
    fun _ journey => journey.visited

/-- The results for all stages at the end of the search for the installation
of a package. -/
def updateStages (fuel : Nat) (package : Entry) :
    PmM File Archive (List (Stage × StageResult)) :=
  withLocal (fun machine => ⟨[], [], machine⟩) (·.state)
    (updatePackageDepends setting fuel (package, .installation))
    fun _ progress => progress.done

/-- `repository::update`; the results that are returned here are local
variables of the source. -/
def update (fuel : Nat) (package : Entry) :
    PmM File Archive (List (Stage × StageResult)) := do
  verifyAndRepair setting.faults setting.externals
  let _ ← updateMetaTree setting fuel package
  updateStages setting fuel package

end Bacs.Pm
