import Bacs.Pm.Planner

/-!
# Which stages are built again

The log of an update lists what was done for the finished stages, in their
order.  An archive is built again if it was stale when the update began or if
something was built for a stage that it depends on; the results of stages
carry this information upwards, also through stages that build nothing.
-/

namespace Bacs.Pm

open Foundation DepthFirst Relation

variable {File Archive Tree : Type} {setting : Setting File Archive Tree}
  {base : Cache File Archive} {area : Entry → Prop} {fuel : Nat}
  {done : List (Stage × StageResult)} {stage other : Stage}
  {total result : StageResult}

/-- The archive or its snapshot is missing, or the snapshot differs. -/
def Product.Stale (product : Product Archive) (snapshot : Snapshot) : Prop :=
  product.archive = none ∨ product.snapshot = .absent ∨
    ∃ written, product.snapshot = .value written ∧ written ≠ snapshot

theorem Product.outdated_eq_true {product : Product Archive}
    {snapshot : Snapshot} :
    product.outdated snapshot = some true ↔ product.Stale snapshot := by
  obtain ⟨archive, written⟩ := product
  cases archive with
  | none => simp [Product.outdated, Product.Stale]
  | some archive =>
      cases written with
      | absent => simp [Product.outdated, Product.Stale]
      | garbled => simp [Product.outdated, Product.Stale]
      | value written =>
          have turned : written = snapshot ↔ snapshot = written := eq_comm
          simp [Product.outdated, Product.Stale, turned]

/-- The lines logged for a finished stage. -/
def lines (entry : Stage × StageResult) : List Event :=
  match buildEvent entry.1 with
  | some event => if entry.2.1 then [event] else []
  | none => [.updateSources entry.1.1]

def Rebuilt (done : List (Stage × StageResult)) (stage : Stage) : Prop :=
  stage.2 ≠ .source ∧ ∃ result, (stage, result) ∈ done ∧ result.1 = true

/-- An archive that the stage depends on was built. -/
def RebuiltBelow (setting : Setting File Archive Tree)
    (base : Cache File Archive) (done : List (Stage × StageResult))
    (stage : Stage) : Prop :=
  ∃ other, DependsOn setting base stage other ∧ Rebuilt done other

theorem notSource_of_kind {kind : Kind} (isKind : stage.2.kind = some kind) :
    stage.2 ≠ .source := by
  intro isSource
  rw [isSource] at isKind
  cases isKind

theorem rebuilt_cons_of_ne (different : other ≠ stage) :
    Rebuilt ((stage, result) :: done) other ↔ Rebuilt done other := by
  have last (found : StageResult) : (other, found) ≠ (stage, result) :=
    fun same => different (Prod.mk.inj same).1
  simp only [Rebuilt, List.mem_cons, last, false_or]

theorem rebuilt_cons_self (fresh : stage ∉ done.map Prod.fst) :
    Rebuilt ((stage, result) :: done) stage ↔
      stage.2 ≠ .source ∧ result.1 = true := by
  have absent (found : StageResult) : (stage, found) ∉ done :=
    fun member => fresh (List.mem_map_of_mem member)
  simp [Rebuilt, absent]

/-- Finishing a stage builds nothing that a finished one depends on. -/
theorem rebuiltBelow_cons
    (ordered : Ordered (edges (setting.index base)) done)
    (fresh : stage ∉ done.map Prod.fst)
    (children : ∀ child ∈ edges (setting.index base) other,
      child ∈ done.map Prod.fst) :
    RebuiltBelow setting base ((stage, result) :: done) other ↔
      RebuiltBelow setting base done other := by
  refine exists_congr fun below => and_congr_right fun depends => ?_
  obtain ⟨child, edge, path⟩ := TransGen.head'_iff.mp depends
  have finished := ordered.closed (children child edge) path
  apply rebuilt_cons_of_ne
  intro given
  subst given
  exact fresh finished

namespace Finished

variable {before final : Machine File Archive} {ready : Stage → Prop}
  {kind : Kind}

theorem log (finished : Finished setting base ready stage total before result
      final) :
    final.log = lines (stage, result) ++ before.log := by
  cases finished with
  | kept isKind _ _ _ same =>
      have noLine : lines (stage, (false, total.2)) = [] := by
        obtain ⟨package, type⟩ := stage
        cases type with
        | source => cases isKind
        | installation | build | buildEmpty => simp [lines, buildEvent]
      rw [noLine, List.nil_append, same.2]
  | @rebuilt kind event tree _ _ isEvent _ _ _ log =>
      have oneLine : lines (stage, (true, total.2)) = [event] := by
        simp [lines, isEvent]
      rw [oneLine, log]
      rfl
  | source isSource _ log _ _ =>
      obtain ⟨package, type⟩ := stage
      cases isSource
      rw [log]
      rfl

theorem productOf_of_ne
    (finished : Finished setting base ready stage total before result final)
    (allowed : Allowed (setting.index base) area stage)
    (known : ∃ deps, setting.index base stage.1 = some deps)
    (allowedOther : Allowed (setting.index base) area other)
    (isKind : other.2.kind = some kind) (different : other ≠ stage) :
    final.cache.productOf other kind = before.cache.productOf other kind := by
  cases finished with
  | kept _ _ _ _ same => rw [same.1]
  | rebuilt isKindStage _ _ _ cache _ =>
      obtain ⟨deps, isIndex⟩ := known
      rw [cache]
      exact Cache.productOf_with_of_ne allowed.1 allowedOther.1 isIndex
        isKindStage isKind different
  | source _ resourced _ _ _ => exact resourced.product other.1 kind

/-- What was done for a stage with an archive is told by its result. -/
theorem built_iff
    (finished : Finished setting base ready stage total before result final)
    (isKind : stage.2.kind = some kind) :
    result.1 = true ↔ (before.cache.productOf stage kind).Stale result.2 ∨
      total.1 = true := by
  cases finished with
  | kept isKindStage none _ current _ =>
      cases isKindStage.symm.trans isKind
      rw [← Product.outdated_eq_true, current, none]
      simp
  | rebuilt isKindStage _ reason _ _ _ =>
      cases isKindStage.symm.trans isKind
      rw [Product.outdated_eq_true] at reason
      exact iff_of_true rfl reason.symm
  | source isSource _ _ _ _ =>
      exact absurd isSource (notSource_of_kind isKind)

theorem passed_iff
    (finished : Finished setting base ready stage total before result final) :
    result.1 = true ↔
      stage.2 ≠ .source ∧ result.1 = true ∨ total.1 = true := by
  cases finished with
  | kept isKind none _ _ _ => simp [none]
  | rebuilt isKind _ _ _ _ _ => simp [notSource_of_kind isKind]
  | source isSource _ _ _ _ => simp [isSource]

theorem version
    (finished : Finished setting base ready stage total before result final) :
    final.cache.version = before.cache.version := by
  cases finished with
  | kept _ _ _ _ same => rw [same.1]
  | rebuilt _ _ _ _ cache _ =>
      rw [cache]
      rfl
  | source _ resourced _ _ _ => exact resourced.version

end Finished

/-- What is known of the work done for the finished stages. -/
structure Accounted (setting : Setting File Archive Tree)
    (start : Machine File Archive) (area : Entry → Prop)
    (done : List (Stage × StageResult)) (machine : Machine File Archive) :
    Prop where
  log : machine.log = done.flatMap lines ++ start.log
  untouched : ∀ stage kind, Allowed (setting.index start.cache) area stage →
    stage.2.kind = some kind → stage ∉ done.map Prod.fst →
      machine.cache.productOf stage kind = start.cache.productOf stage kind
  built : ∀ stage result kind, (stage, result) ∈ done →
    stage.2.kind = some kind →
      (result.1 = true ↔
        (start.cache.productOf stage kind).Stale result.2 ∨
          RebuiltBelow setting start.cache done stage)
  passed : ∀ stage result, (stage, result) ∈ done →
    (result.1 = true ↔ Rebuilt done stage ∨
      RebuiltBelow setting start.cache done stage)
  version : machine.cache.version = start.cache.version

namespace Accounted

variable {start before final : Machine File Archive} {ready : Stage → Prop}

/-- The collected flag tells whether something below was built. -/
theorem collected (accounted : Accounted setting start area done before)
    (ordered : Ordered (edges (setting.index start.cache)) done)
    (collected : Collected (stageSearch setting fuel) done
      (edges (setting.index start.cache) stage) total) :
    total.1 = true ↔ RebuiltBelow setting start.cache done stage := by
  rw [collected_built ordered collected]
  constructor
  · intro given
    obtain ⟨child, edge, result, inDone, was⟩ := given
    rcases (accounted.passed child result inDone).mp was with
      here | ⟨below, depends, rebuilt⟩
    · exact ⟨child, .single edge, here⟩
    · exact ⟨below, .head edge depends, rebuilt⟩
  · intro given
    obtain ⟨below, depends, rebuilt⟩ := given
    obtain ⟨child, edge, path⟩ := TransGen.head'_iff.mp depends
    obtain ⟨⟨name, result⟩, inDone, isChild⟩ :=
      List.mem_map.mp (collected.mem child edge)
    subst isChild
    refine ⟨name, edge, result, inDone,
      (accounted.passed name result inDone).mpr ?_⟩
    rcases reflTransGen_iff_eq_or_transGen.mp path with rfl | further
    · exact .inl rebuilt
    · exact .inr ⟨below, further, rebuilt⟩

theorem step (accounted : Accounted setting start area done before)
    (searching : Searching setting start.cache area done before)
    (allowed : Allowed (setting.index start.cache) area stage)
    (known : ∃ deps, setting.index start.cache stage.1 = some deps)
    (fresh : stage ∉ done.map Prod.fst)
    (collected : Collected (stageSearch setting fuel) done
      (edges (setting.index start.cache) stage) total)
    (finished : Finished setting start.cache ready stage total before result
      final) :
    Accounted setting start area ((stage, result) :: done) final := by
  have ordered := searching.ordered
  have flag := accounted.collected ordered collected
  have sameBelow (child : Stage)
      (children : ∀ next ∈ edges (setting.index start.cache) child,
        next ∈ done.map Prod.fst) :
      RebuiltBelow setting start.cache ((stage, result) :: done) child ↔
        RebuiltBelow setting start.cache done child :=
    rebuiltBelow_cons ordered fresh children
  have oldBelow (child : Stage) (found : StageResult)
      (inDone : (child, found) ∈ done) :=
    sameBelow child fun next edge =>
      ordered.closed (List.mem_map_of_mem inDone) (.single edge)
  have differs (child : Stage) (found : StageResult)
      (inDone : (child, found) ∈ done) : child ≠ stage := by
    intro given
    subst given
    exact fresh (List.mem_map_of_mem inDone)
  refine ⟨?_, ?_, ?_, ?_, finished.version.trans accounted.version⟩
  · rw [finished.log, accounted.log, List.flatMap_cons, List.append_assoc]
  · intro child kind allowedChild isKind unfinished
    rw [List.map_cons, List.mem_cons, not_or] at unfinished
    rw [← accounted.untouched child kind allowedChild isKind unfinished.2]
    exact finished.productOf_of_ne allowed known allowedChild isKind
      unfinished.1
  · intro child found kind member isKind
    rcases List.mem_cons.mp member with last | inDone
    · cases last
      rw [sameBelow stage collected.mem, ← flag, finished.built_iff isKind,
        accounted.untouched stage kind allowed isKind fresh]
    · rw [oldBelow child found inDone]
      exact accounted.built child found kind inDone isKind
  · intro child found member
    rcases List.mem_cons.mp member with last | inDone
    · cases last
      rw [sameBelow stage collected.mem, ← flag, rebuilt_cons_self fresh]
      exact finished.passed_iff
    · rw [oldBelow child found inDone,
        rebuilt_cons_of_ne (differs child found inDone)]
      exact accounted.passed child found inDone

theorem initial (machine : Machine File Archive) :
    Accounted setting machine area [] machine where
  log := rfl
  untouched := fun _ _ _ _ _ => rfl
  built := nofun
  passed := nofun
  version := rfl

theorem observed (setting : Setting File Archive Tree) (fuel : Nat)
    (start : Machine File Archive) (area : Entry → Prop) :
    Observed setting fuel start.cache area
      (Accounted setting start area) where
  same := fun done before final accounted same =>
    { log := same.2.trans accounted.log
      untouched := fun stage kind allowed isKind fresh => by
        rw [same.1]
        exact accounted.untouched stage kind allowed isKind fresh
      built := accounted.built
      passed := accounted.passed
      version := by rw [same.1, accounted.version] }
  step := fun _ _ _ _ _ _ searching accounted allowed known fresh collected
      finished =>
    accounted.step searching allowed known fresh collected finished

theorem none_rebuilt (accounted : Accounted setting start area done final)
    (searching : Searching setting start.cache area done final)
    (current : ∀ stage result kind, (stage, result) ∈ done →
      stage.2.kind = some kind →
        ¬ (start.cache.productOf stage kind).Stale result.2)
    {result : StageResult} (inDone : (stage, result) ∈ done) :
    result.1 = false := by
  have nothing := searching.ordered.recursion
    (fun _ node => ¬ Rebuilt done node ∧
      ¬ RebuiltBelow setting start.cache done node)
    ?_ done.length le_rfl stage (List.mem_map_of_mem inDone)
  · by_contra was
    rw [Bool.not_eq_false] at was
    rcases (accounted.passed stage result inDone).mp was with here | below
    · exact nothing.1 here
    · exact nothing.2 below
  · intro _ node member children
    have noneBelow : ¬ RebuiltBelow setting start.cache done node := by
      intro given
      obtain ⟨below, depends, rebuilt⟩ := given
      obtain ⟨child, edge, path⟩ := TransGen.head'_iff.mp depends
      rcases reflTransGen_iff_eq_or_transGen.mp path with rfl | further
      · exact (children below edge).1 rebuilt
      · exact (children child edge).2 ⟨below, further, rebuilt⟩
    refine ⟨?_, noneBelow⟩
    intro given
    obtain ⟨notSource, found, isFound, was⟩ := given
    obtain ⟨kind, isKind⟩ : ∃ kind, node.2.kind = some kind := by
      obtain ⟨package, type⟩ := node
      cases type with
      | source => exact absurd rfl notSource
      | installation | build | buildEmpty => exact ⟨_, rfl⟩
    rcases (accounted.built node found kind isFound isKind).mp was with
      stale | below
    · exact current node found kind isFound isKind stale
    · exact noneBelow below

end Accounted

end Bacs.Pm
