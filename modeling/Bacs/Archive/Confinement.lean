import Bacs.Archive.Repository
import Bacs.Foundation.LexicalPath

/-!
# Which paths the operations on a problem touch

The operations of the archive seen as what they ask the file system to
change.  An id or a flag reaches the paths as it stands, after validation
against the grammar of package entry components; that grammar excludes the
separator, but not the names `.` and `..`.

An operation that fails has made some of its changes, so only the set of all
the changes it may ask for matters here.
-/

namespace Bacs.Archive

open LexicalPath

namespace Confinement

/-! ## Paths -/

def component (name : String) : Step String :=
  if name = "" ∨ name = "." then .stay
  else if name = ".." then .up
  else .down name

/-- The steps of a string that is appended to a path. -/
def components (appended : String) : List (Step String) :=
  (appended.toList.splitOn '/').map fun name => component (String.ofList name)

structure EntryName where
  name : String
  plain : components name = [.down name]

inductive Area where
  | repository
  | packages
  | destination
  deriving DecidableEq, Repr

/-- `repository_root`, the directory of `root_package` in
`pm_repository_root`, the destination of a download, and the file name of
the problem archive. -/
structure Layout where
  repositoryRoot : List String
  packageRoot : List String
  destination : List String
  data : EntryName

def Layout.root (layout : Layout) : Area → List String
  | .repository => layout.repositoryRoot
  | .packages => layout.packageRoot
  | .destination => layout.destination

structure Path where
  area : Area
  appended : List String
  deriving DecidableEq, Repr

def Path.steps (path : Path) : List (Step String) :=
  path.appended.flatMap components

def Layout.place (layout : Layout) (path : Path) : List String :=
  walk (layout.root path.area) path.steps

/-- Whether the last step of a path names an entry of a directory. -/
def Path.namesEntry (path : Path) : Bool :=
  match path.steps.getLast? with
  | some (.down _) => true
  | _ => false

/-! ## Changes -/

inductive FileAction where
  | createDirectory (path : Path)
  | write (path : Path)
  | remove (path : Path)
  /-- Everything at and below the path is removed or written. -/
  | replaceTree (path : Path)
  deriving DecidableEq, Repr

def FileAction.path : FileAction → Path
  | .createDirectory path => path
  | .write path => path
  | .remove path => path
  | .replaceTree path => path

/-- The places that an action creates, overwrites or removes.  Opening a path
that ends in `.` or `..` for writing and removing such a path always fail. -/
def FileAction.touches (layout : Layout) : FileAction → Set (List String)
  | .createDirectory path => {layout.place path}
  | .write path => {place | path.namesEntry ∧ place = layout.place path}
  | .remove path => {place | path.namesEntry ∧ place = layout.place path}
  | .replaceTree path => Within (layout.place path)

/-! ## Operations -/

inductive Operation where
  | upload
  | downloadAll
  | status
  | hasFlag (flag : FlagName)
  | edit (edit : FlagEdit)
  | import
  deriving Repr

/-- What the operations learn while they run. -/
structure Observed where
  hasFormat : Bool
  lockedBefore : Bool
  locked : Bool
  existsBefore : Bool
  existsProblem : Bool
  readOnly : Bool
  listed : List EntryName
  existsDestination : Bool
  revisionReadable : Bool
  converted : Bool
  unchanged : Bool

namespace Path

def problem (id : ProblemId) : Path :=
  ⟨.repository, [id]⟩

def data (layout : Layout) (id : ProblemId) : Path :=
  ⟨.repository, [id, layout.data.name]⟩

def revision (id : ProblemId) : Path :=
  ⟨.repository, [id, "revision"]⟩

def importResult (id : ProblemId) : Path :=
  ⟨.repository, [id, "import_result"]⟩

def flags (id : ProblemId) : Path :=
  ⟨.repository, [id, "flags"]⟩

def flag (id : ProblemId) (flag : FlagName) : Path :=
  ⟨.repository, [id, "flags", flag]⟩

def package (id : ProblemId) : Path :=
  ⟨.packages, [id]⟩

def downloaded (id : ProblemId) : Path :=
  ⟨.destination, [id]⟩

end Path

def uploadActions (layout : Layout) (observed : Observed)
    (id : ProblemId) : List FileAction :=
  if observed.hasFormat && !observed.lockedBefore && !observed.locked then
    (if observed.existsProblem then
      [.remove (.data layout id), .remove (.revision id),
        .remove (.importResult id)]
    else [.createDirectory (.problem id), .createDirectory (.flags id)]) ++
    [.write (.data layout id), .write (.revision id),
      .write (.flag id pendingImportFlag)]
  else []

/-- The body of the loop of `download_all`, which resets the destination
before it. -/
def downloadAllActions (observed : Observed) (id : ProblemId) :
    List FileAction :=
  if observed.existsBefore && observed.existsProblem then
    [.replaceTree (.downloaded id)]
  else if observed.existsDestination then [.replaceTree (.downloaded id)]
  else []

def setFlagAction (id : ProblemId) (flag : FlagName) : FileAction :=
  .write (.flag id flag)

def unsetFlagAction (id : ProblemId) (flag : FlagName) : FileAction :=
  .remove (.flag id flag)

def editValid : FlagEdit → Bool
  | .setFlag flag => isAllowedFlag flag && flag != pendingImportFlag
  | .setFlags flags => isAllowedFlagSet flags
  | .unsetFlag flag => isAllowedFlag flag
  | .unsetFlags flags => isAllowedFlagSet flags
  | .clearFlags => true

def editActions (observed : Observed) (id : ProblemId) :
    FlagEdit → List FileAction
  | .setFlag flag => [setFlagAction id flag]
  | .setFlags flags => flags.map fun flag => setFlagAction id flag.toName
  | .unsetFlag flag =>
      if flag = ignoreFlag then [unsetFlagAction id flag] else []
  | .unsetFlags flags =>
      (flags.filter fun flag =>
        flag.toName != ignoreFlag && flag.toName != pendingImportFlag).map
          fun flag => unsetFlagAction id flag.toName
  | .clearFlags =>
      (observed.listed.filter fun flag =>
        flag.name != ignoreFlag && flag.name != pendingImportFlag).map
          fun flag => unsetFlagAction id flag.name

/-- The temporary directory of an import has a fresh name of its own and is
left out. -/
def importActions (observed : Observed) (id : ProblemId) : List FileAction :=
  if observed.existsBefore && observed.existsProblem then
    (if observed.revisionReadable then [] else [.write (.revision id)]) ++
    [.replaceTree (.package id)] ++
    (if observed.unchanged then
      [.write (.importResult id),
        if observed.converted then unsetFlagAction id ignoreFlag
        else setFlagAction id ignoreFlag,
        unsetFlagAction id pendingImportFlag]
    else [])
  else []

def actions (layout : Layout) (observed : Observed) (id : ProblemId)
    (operation : Operation) : List FileAction :=
  if isAllowedId id then
    match operation with
    | .upload => uploadActions layout observed id
    | .downloadAll => downloadAllActions observed id
    | .status => []
    | .hasFlag _ => []
    | .edit edit =>
        if editValid edit && observed.existsBefore &&
          observed.existsProblem && !observed.readOnly
        then editActions observed id edit else []
    | .import => importActions observed id
  else []

/-- The places in `area` that `operation` on `id` may change. -/
def touched (layout : Layout) (operation : Operation) (area : Area)
    (id : ProblemId) : Set (List String) :=
  {place | ∃ observed action,
    action ∈ actions layout observed id operation ∧
      action.path.area = area ∧ place ∈ action.touches layout}

/-! ## Accepted names -/

theorem components_accepted {name : String}
    (accepted : Pm.Entry.isAllowedSubpath name = true) :
    components name = [component name] := by
  have absent : '/' ∉ name.toList := by
    intro member
    rw [Pm.Entry.isAllowedSubpath, Bool.and_eq_true, List.all_eq_true] at accepted
    have allowed := accepted.2 '/' member
    exact absurd allowed (by decide)
  simp [components, List.splitOn_eq_singleton absent]

theorem component_plain {name : String} (nonempty : name ≠ "")
    (notDot : name ≠ ".") (notDots : name ≠ "..") :
    component name = .down name := by
  simp [component, nonempty, notDot, notDots]

/-- An accepted name other than `.` and `..` is a name of an entry. -/
theorem components_plain {name : String}
    (accepted : Pm.Entry.isAllowedSubpath name = true)
    (notDot : name ≠ ".") (notDots : name ≠ "..") :
    components name = [.down name] := by
  have nonempty : name ≠ "" := by
    intro found
    subst found
    exact absurd accepted (by decide)
  rw [components_accepted accepted, component_plain nonempty notDot notDots]

/-! ## Paths of one problem -/

section Own

variable {layout : Layout} {id : ProblemId}

theorem place_own (plain : components id = [.down id]) (area : Area) :
    layout.place ⟨area, [id]⟩ = layout.root area ++ [id] := by
  simp [Layout.place, Path.steps, plain, Step.run]

theorem place_extend (area : Area) (id : ProblemId) (appended : List String) :
    layout.place ⟨area, id :: appended⟩ =
      walk (layout.place ⟨area, [id]⟩) (appended.flatMap components) := by
  simp [Layout.place, Path.steps, walk_append]

/-- Entries of entries of a problem directory are below it. -/
theorem place_below (area : Area) (id : ProblemId) {appended : List String}
    (names : List String) (plain : appended.flatMap components = names.map .down)
    (proper : names ≠ []) :
    layout.place ⟨area, id :: appended⟩ ∈ Below (layout.place ⟨area, [id]⟩) := by
  rw [place_extend area id appended, plain, walk_down]
  exact append_mem_below _ proper

theorem place_entry_below (id : ProblemId) {name : String}
    (plain : components name = [.down name]) :
    layout.place ⟨.repository, [id, name]⟩ ∈
      Below (layout.place (.problem id)) :=
  place_below .repository id [name] (by simp [plain])
    (List.cons_ne_nil _ _)

/-- Writing or removing a flag changes nothing but a file below the problem
directory, also for the flags `.` and `..`. -/
theorem place_flag_below (id : ProblemId) {flag : FlagName} {step : Step String}
    (single : components flag = [step])
    (entry : (Path.flag id flag).namesEntry = true) :
    layout.place (.flag id flag) ∈ Below (layout.place (.problem id)) := by
  have directory : components "flags" = [.down "flags"] := by decide
  cases step with
  | stay => simp [Path.namesEntry, Path.steps, Path.flag, single] at entry
  | up => simp [Path.namesEntry, Path.steps, Path.flag, single] at entry
  | down name =>
      exact place_below .repository id ["flags", name]
        (by simp [directory, single]) (List.cons_ne_nil _ _)

end Own

/-! ## What an operation can ask for -/

/-- The changes that an operation on `id` can ask for. -/
inductive Asks (layout : Layout) (id : ProblemId) :
    Operation → FileAction → Prop where
  | createProblem :
      Asks layout id .upload (.createDirectory (.problem id))
  | createFlags :
      Asks layout id .upload (.createDirectory (.flags id))
  | write {operation : Operation} {name : String}
      (plain : components name = [.down name]) :
      Asks layout id operation (.write ⟨.repository, [id, name]⟩)
  | remove {operation : Operation} {name : String}
      (plain : components name = [.down name]) :
      Asks layout id operation (.remove ⟨.repository, [id, name]⟩)
  | writeFlag {operation : Operation} {flag : FlagName} {step : Step String}
      (single : components flag = [step]) :
      Asks layout id operation (setFlagAction id flag)
  | removeFlag {operation : Operation} {flag : FlagName} {step : Step String}
      (single : components flag = [step]) :
      Asks layout id operation (unsetFlagAction id flag)
  | package :
      Asks layout id .import (.replaceTree (.package id))
  | download :
      Asks layout id .downloadAll (.replaceTree (.downloaded id))

section Asked

variable {layout : Layout} {observed : Observed} {id : ProblemId}
  {action : FileAction}

theorem components_revision : components "revision" = [.down "revision"] := by
  decide

theorem components_importResult :
    components "import_result" = [.down "import_result"] := by
  decide

theorem components_pendingImport :
    components pendingImportFlag = [.down pendingImportFlag] := by
  decide

theorem components_ignore : components ignoreFlag = [.down ignoreFlag] := by
  decide

theorem upload_asks (member : action ∈ uploadActions layout observed id) :
    Asks layout id .upload action := by
  unfold uploadActions at member
  split at member
  · rcases List.mem_append.mp member with prepared | stored
    · split at prepared
      · simp only [List.mem_cons, List.not_mem_nil, or_false] at prepared
        rcases prepared with rfl | rfl | rfl
        · exact .remove layout.data.plain
        · exact .remove components_revision
        · exact .remove components_importResult
      · simp only [List.mem_cons, List.not_mem_nil, or_false] at prepared
        rcases prepared with rfl | rfl
        · exact .createProblem
        · exact .createFlags
    · simp only [List.mem_cons, List.not_mem_nil, or_false] at stored
      rcases stored with rfl | rfl | rfl
      · exact .write layout.data.plain
      · exact .write components_revision
      · exact .writeFlag components_pendingImport
  · cases member

theorem downloadAll_asks (member : action ∈ downloadAllActions observed id) :
    Asks layout id .downloadAll action := by
  unfold downloadAllActions at member
  split at member
  · cases List.mem_singleton.mp member
    exact .download
  · split at member
    · cases List.mem_singleton.mp member
      exact .download
    · cases member

theorem import_asks (member : action ∈ importActions observed id) :
    Asks layout id .import action := by
  unfold importActions at member
  split at member
  · rcases List.mem_append.mp member with read | committed
    · rcases List.mem_append.mp read with regenerated | converted
      · split at regenerated
        · cases regenerated
        · cases List.mem_singleton.mp regenerated
          exact .write components_revision
      · cases List.mem_singleton.mp converted
        exact .package
    · split at committed
      · simp only [List.mem_cons, List.not_mem_nil, or_false] at committed
        rcases committed with rfl | rfl | rfl
        · exact .write components_importResult
        · split
          · exact .removeFlag components_ignore
          · exact .writeFlag components_ignore
        · exact .removeFlag components_pendingImport
      · cases committed
  · cases member

theorem components_flagSet {flags : FlagSet}
    (valid : isAllowedFlagSet flags = true) {flag : Flag}
    (member : flag ∈ flags) :
    components flag.toName = [component flag.toName] :=
  components_accepted (List.all_eq_true.mp valid flag member)

theorem edit_asks {edit : FlagEdit} (valid : editValid edit = true)
    (member : action ∈ editActions observed id edit) :
    Asks layout id (.edit edit) action := by
  cases edit with
  | setFlag flag =>
      cases List.mem_singleton.mp member
      rw [editValid, Bool.and_eq_true] at valid
      exact .writeFlag (components_accepted valid.1)
  | setFlags flags =>
      obtain ⟨flag, inFlags, rfl⟩ := List.mem_map.mp member
      exact .writeFlag (components_flagSet valid inFlags)
  | unsetFlag flag =>
      simp only [editActions] at member
      split at member
      · cases List.mem_singleton.mp member
        exact .removeFlag (components_accepted valid)
      · cases member
  | unsetFlags flags =>
      obtain ⟨flag, kept, rfl⟩ := List.mem_map.mp member
      exact .removeFlag
        (components_flagSet valid (List.mem_filter.mp kept).1)
  | clearFlags =>
      obtain ⟨flag, _, rfl⟩ := List.mem_map.mp member
      exact .removeFlag flag.plain

theorem actions_asks {operation : Operation}
    (member : action ∈ actions layout observed id operation) :
    Asks layout id operation action := by
  unfold actions at member
  split at member
  · cases operation with
    | upload => exact upload_asks member
    | downloadAll => exact downloadAll_asks member
    | status => cases member
    | hasFlag flag => cases member
    | edit edit =>
        simp only at member
        split at member
        · rename_i passed
          simp only [Bool.and_eq_true] at passed
          exact edit_asks passed.1.1.1 member
        · cases member
    | «import» => exact import_asks member
  · cases member

end Asked

/-! ## Confinement -/

/-- Every place that an operation on `id` may change lies below the
directory of `id`, which `upload` creates, or at or below the directories of
the same name for packages and downloads; and none of these directories is
the one they are made in. -/
structure Confined (layout : Layout) (id : ProblemId) : Prop where
  own : ∀ area, layout.place ⟨area, [id]⟩ ∈ Below (layout.root area)
  repository : ∀ operation place,
    place ∈ touched layout operation .repository id →
      place ∈ Below (layout.place (.problem id)) ∨
        operation = .upload ∧ place = layout.place (.problem id)
  packages : ∀ operation place,
    place ∈ touched layout operation .packages id →
      operation = .import ∧ place ∈ Within (layout.place (.package id))
  destination : ∀ operation place,
    place ∈ touched layout operation .destination id →
      operation = .downloadAll ∧ place ∈ Within (layout.place (.downloaded id))

section Confined

variable {layout : Layout} {id : ProblemId} {operation : Operation}
  {place : List String}

theorem touched_repository
    (changed : place ∈ touched layout operation .repository id) :
    place ∈ Below (layout.place (.problem id)) ∨
      operation = .upload ∧ place = layout.place (.problem id) := by
  obtain ⟨observed, action, member, inArea, touches⟩ := changed
  cases actions_asks member with
  | createProblem => exact .inr ⟨rfl, touches⟩
  | createFlags =>
      left
      rw [touches]
      exact place_entry_below id (by decide)
  | write plain =>
      left
      rw [touches.2]
      exact place_entry_below id plain
  | remove plain =>
      left
      rw [touches.2]
      exact place_entry_below id plain
  | writeFlag single =>
      left
      rw [touches.2]
      exact place_flag_below id single touches.1
  | removeFlag single =>
      left
      rw [touches.2]
      exact place_flag_below id single touches.1
  | package => cases inArea
  | download => cases inArea

theorem touched_packages
    (changed : place ∈ touched layout operation .packages id) :
    operation = .import ∧ place ∈ Within (layout.place (.package id)) := by
  obtain ⟨observed, action, member, inArea, touches⟩ := changed
  cases actions_asks member with
  | package => exact ⟨rfl, touches⟩
  | createProblem => cases inArea
  | createFlags => cases inArea
  | write plain => cases inArea
  | remove plain => cases inArea
  | writeFlag single => cases inArea
  | removeFlag single => cases inArea
  | download => cases inArea

theorem touched_destination
    (changed : place ∈ touched layout operation .destination id) :
    operation = .downloadAll ∧
      place ∈ Within (layout.place (.downloaded id)) := by
  obtain ⟨observed, action, member, inArea, touches⟩ := changed
  cases actions_asks member with
  | download => exact ⟨rfl, touches⟩
  | createProblem => cases inArea
  | createFlags => cases inArea
  | write plain => cases inArea
  | remove plain => cases inArea
  | writeFlag single => cases inArea
  | removeFlag single => cases inArea
  | package => cases inArea

/-- Whatever is touched for an id is at or below a directory of that name. -/
theorem touched_within {area : Area}
    (changed : place ∈ touched layout operation area id) :
    place ∈ Within (layout.place ⟨area, [id]⟩) := by
  cases area with
  | repository =>
      rcases touched_repository changed with below | ⟨_, rfl⟩
      · exact below_subset_within _ below
      · exact within_self _
  | packages => exact (touched_packages changed).2
  | destination => exact (touched_destination changed).2

end Confined

/-- The ids `.` and `..` name the directory that a download goes to, or the
one that contains it. -/
theorem dots_escape (layout : Layout) {id : ProblemId}
    (dots : id = "." ∨ id = "..") :
    layout.place (.downloaded id) ∉ Below layout.destination := by
  have dot : components "." = [.stay] := by decide
  have dotDot : components ".." = [.up] := by decide
  rcases dots with rfl | rfl
  · simp [Layout.place, Path.downloaded, Path.steps, dot, Step.run,
      Layout.root, mem_below]
  · simpa [Layout.place, Path.downloaded, Path.steps, dotDot, Step.run,
      Layout.root] using dropLast_not_mem_below layout.destination

/-- Operations on a problem stay within the directories named by its id, and
those of different problems never meet unless one of the configured
directories is inside another. -/
theorem operations_confined (layout : Layout) (id : ProblemId)
    (accepted : isAllowedId id = true)
    (notDot : id ≠ ".") (notDots : id ≠ "..") :
    Confined layout id ∧
      ∀ other, isAllowedId other = true → other ≠ "." → other ≠ ".." →
        other ≠ id →
        ∀ area otherArea,
          area = otherArea ∨ Apart (layout.root area) (layout.root otherArea) →
          ∀ operation otherOperation,
            Disjoint (touched layout operation area id)
              (touched layout otherOperation otherArea other) := by
  have plain := components_plain accepted notDot notDots
  have inRoot (area : Area) :
      layout.place ⟨area, [id]⟩ ∈ Below (layout.root area) := by
    rw [place_own plain area]
    exact append_mem_below _ (List.cons_ne_nil _ _)
  refine ⟨⟨inRoot, fun _ _ => touched_repository,
    fun _ _ => touched_packages, fun _ _ => touched_destination⟩, ?_⟩
  intro other otherAccepted otherNotDot otherNotDots different area otherArea
    separate operation otherOperation
  have otherPlain := components_plain otherAccepted otherNotDot otherNotDots
  have apart : Apart (layout.place ⟨area, [id]⟩)
      (layout.place ⟨otherArea, [other]⟩) := by
    rw [place_own plain area, place_own otherPlain otherArea]
    rcases separate with rfl | apart
    · exact apart_of_ne _ (Ne.symm different)
    · exact apart.mono (List.prefix_append _ _) (List.prefix_append _ _)
  exact (within_disjoint apart).mono
    (fun _ changed => touched_within changed)
    (fun _ changed => touched_within changed)

/-! ## A server -/

namespace Sample

def layout : Layout where
  repositoryRoot := ["srv", "repository"]
  packageRoot := ["srv", "pm", "bacs", "problem"]
  destination := ["tmp", "unpacked"]
  data := ⟨"archive", by decide⟩

/-- A problem with the format file, not known yet. -/
def fresh : Observed where
  hasFormat := true
  lockedBefore := false
  locked := false
  existsBefore := false
  existsProblem := false
  readOnly := false
  listed := []
  existsDestination := false
  revisionReadable := true
  converted := true
  unchanged := true

end Sample

theorem operations_confined_sample :
    Confined Sample.layout "p" ∧
      ∀ other, isAllowedId other = true → other ≠ "." → other ≠ ".." →
        other ≠ "p" →
        ∀ area otherArea,
          area = otherArea ∨
            Apart (Sample.layout.root area) (Sample.layout.root otherArea) →
          ∀ operation otherOperation,
            Disjoint (touched Sample.layout operation area "p")
              (touched Sample.layout otherOperation otherArea other) :=
  operations_confined Sample.layout "p" (by decide) (by decide) (by decide)

/-- Not everything lies strictly below the directory of the problem: `upload`
creates that directory, and `import` writes the package.  And what is
downloaded for `..` is not below the destination. -/
theorem operations_not_below :
    isAllowedId "p" = true ∧
      (∃ place ∈ touched Sample.layout .upload .repository "p",
        place ∉ Below (Sample.layout.place (.problem "p"))) ∧
      (∃ place ∈ touched Sample.layout .import .packages "p",
        place ∉ Below (Sample.layout.place (.problem "p"))) ∧
      isAllowedId ".." = true ∧
      Sample.layout.place (.downloaded "..") ∉
        Below Sample.layout.destination := by
  refine ⟨by decide, ⟨["srv", "repository", "p"], ?_, ?_⟩,
    ⟨["srv", "pm", "bacs", "problem", "p"], ?_, ?_⟩, by decide,
    dots_escape Sample.layout (.inr rfl)⟩
  · exact ⟨Sample.fresh, .createDirectory (.problem "p"), by decide, rfl,
      by rfl⟩
  · intro found
    obtain ⟨_, different⟩ := found
    exact different (by decide)
  · exact ⟨{ Sample.fresh with existsBefore := true, existsProblem := true },
      .replaceTree (.package "p"), by decide, rfl, within_self _⟩
  · intro found
    obtain ⟨inside, _⟩ := found
    exact absurd inside (by decide)

end Confinement

end Bacs.Archive
