import Bacs.Pm.Building
import Bacs.Pm.Fetching

/-!
# Finishing a stage

When the dependencies of a stage are finished, one of three things is done
for it: its archive is kept, or built again, or its sources are updated.
`Finished` lists them, and `Damaged` lists what a failure may leave; all that
is said of whole runs is derived from these two.
-/

namespace Bacs.Pm

open Foundation DepthFirst Relation

variable {File Archive Tree : Type} (setting : Setting File Archive Tree)

/-- The line that is logged when the archive of a stage is built. -/
def buildEvent : Stage → Option Event
  | (package, .installation) => some (.buildInstallation package)
  | (package, .build) => some (.build package)
  | (package, .buildEmpty) => some (.buildEmpty package)
  | (_, .source) => none

def Cache.productOf (cache : Cache File Archive) (stage : Stage)
    (kind : Kind) : Product Archive :=
  (cache.files stage.1).product kind

inductive Finished (base : Cache File Archive) (ready : Stage → Prop)
    (stage : Stage) (total : StageResult) (before : Machine File Archive) :
    StageResult → Machine File Archive → Prop where
  | kept {kind : Kind} {final : Machine File Archive} :
      stage.2.kind = some kind → total.1 = false →
      Lists (setting.sum base) total.2
        (reached (setting.index base) stage) →
      (before.cache.productOf stage kind).outdated total.2 = some false →
      before.Same final →
      Finished base ready stage total before (false, total.2) final
  | rebuilt {kind : Kind} {event : Event} {tree : Tree}
      {final : Machine File Archive} :
      stage.2.kind = some kind → buildEvent stage = some event →
      (total.1 = true ∨
        (before.cache.productOf stage kind).outdated total.2 = some true) →
      Fits setting base before.cache ready stage kind tree total.2 →
      final.cache = before.cache.with kind stage.1
        (setting.externals.pack tree) total.2 →
      final.log = event :: before.log →
      Finished base ready stage total before (true, total.2) final
  | source {snapshot : Snapshot} {final : Machine File Archive} :
      stage.2 = .source →
      Cache.Resourced stage.1 before.cache final.cache →
      final.log = .updateSources stage.1 :: before.log →
      Verified setting base final.cache stage.1 →
      Lists (setting.sum base) snapshot
        (reached (setting.index base) stage) →
      Finished base ready stage total before (total.1, snapshot) final

inductive Damaged (base : Cache File Archive) (ready : Stage → Prop)
    (stage : Stage) (before : Cache File Archive) :
    Abort File Archive → Cache File Archive → Prop where
  | resourced {abort : Abort File Archive} {cache : Cache File Archive} :
      Cache.Resourced stage.1 before cache →
      Damaged base ready stage before abort cache
  | broken {abort : Abort File Archive} {cache : Cache File Archive}
      {kind : Kind} : stage.2.kind = some kind →
      Broken setting (Fits setting base before ready stage kind) kind
        stage.1 before abort cache →
      Damaged base ready stage before abort cache
  | made {abort : Abort File Archive} {kind : Kind} {tree : Tree}
      {snapshot : Snapshot} : stage.2.kind = some kind →
      Fits setting base before ready stage kind tree snapshot →
      Damaged base ready stage before abort
        (before.with kind stage.1 (setting.externals.pack tree) snapshot)

variable {setting} {base : Cache File Archive} {ready : Stage → Prop}
  {stage : Stage} {total : StageResult} {exhausted : Prop}

theorem Cache.productOf_with {cache : Cache File Archive} {kind : Kind}
    {archive : Archive} {snapshot : Snapshot} :
    (cache.with kind stage.1 archive snapshot).productOf stage kind =
      ⟨some archive, .value snapshot⟩ := by
  simp [Cache.productOf, Cache.with]

theorem Product.outdated_self {archive : Archive} {snapshot : Snapshot} :
    Product.outdated ⟨some archive, .value snapshot⟩ snapshot =
      some false := by
  simp [Product.outdated]

theorem rebuild_ensures {kind : Kind} {event : Event}
    {builder : PmM File Archive Unit} {machine : Machine File Archive}
    (isKind : stage.2.kind = some kind)
    (isEvent : buildEvent stage = some event)
    (lists : Lists (setting.sum base) total.2
      (reached (setting.index base) stage))
    (builds : ∀ middle : Machine File Archive,
      middle.cache = machine.cache →
      Ensures builder middle
        (fun _ final => Made setting
          (Fits setting base machine.cache ready stage kind) kind stage.1
          event middle final)
        (Halted exhausted machine.cache (Broken setting
          (Fits setting base machine.cache ready stage kind) kind stage.1
          machine.cache))) :
    Ensures (rebuild setting kind stage.1 builder total) machine
      (Finished setting base ready stage total machine)
      (Halted exhausted machine.cache
        (Damaged setting base ready stage machine.cache)) := by
  have built (middle : Machine File Archive) (same : machine.Same middle)
      (reason : total.1 = true ∨
        (machine.cache.productOf stage kind).outdated total.2 = some true) :
      Ensures
        (do
          builder
          let still ← outdated setting.faults kind stage.1 total.2
          assert (!still)
          return (true, total.2)) middle
        (Finished setting base ready stage total machine)
        (Halted exhausted machine.cache
          (Damaged setting base ready stage machine.cache)) := by
    simp only [ensures_bind, ensures_pure]
    refine (builds middle same.1).mono ?_
      (fun _ _ halted => halted.mono id fun _ _ broken =>
        .broken isKind broken)
    intro _ made given
    obtain ⟨tree, snapshot, fits, cache, log⟩ := given
    have sameSnapshot : snapshot = total.2 := fits.1.unique lists
    subst sameSnapshot
    rw [same.1] at cache
    apply (outdated_ensures setting.faults stage.1 kind total.2).mono
    · intro still final given
      obtain ⟨answer, sameFinal⟩ := given
      have current : (made.cache.productOf stage kind).outdated total.2 =
          some false := by
        rw [cache, Cache.productOf_with, Product.outdated_self]
      cases current.symm.trans answer
      exact .rebuilt isKind isEvent reason fits (sameFinal.1.trans cache)
        (by rw [sameFinal.2, log, same.2])
    · intro failure final failed
      refine (failed.mono fun abort left kept => ?_).halted
      rw [kept, cache]
      exact .made isKind fits
  by_cases required : total.1 = true
  · have reason := built machine (Machine.Same.refl _) (.inl required)
    simpa [rebuild, required] using reason
  · simp only [rebuild, required, Bool.false_eq_true, if_false, ensures_bind]
    refine (outdated_ensures setting.faults stage.1 kind total.2).mono ?_
      (fun _ _ failed => (failed.mono fun _ _ kept =>
        Damaged.resourced (kept ▸ .refl _)).halted)
    intro answer middle given
    obtain ⟨compared, same⟩ := given
    cases answer with
    | false =>
        simp only [Bool.false_eq_true, if_false, ensures_pure]
        exact .kept isKind (by simpa using required) lists compared same
    | true =>
        simpa using built middle same (.inr compared)

/-! ## The snapshots collected -/

section Collected

variable {done : List (Stage × StageResult)} {fuel : Nat}
  {cache : Cache File Archive} {nodes : List Stage}

/-- Collecting the snapshots of finished stages never fails. -/
theorem collect_lists (fuel : Nat)
    (planned : Planned setting base done cache) {packages : Set Entry}
    {child : Stage} {result : StageResult}
    (lists : Lists (setting.sum base) total.2 packages)
    (found : (child, result) ∈ done) :
    ∃ next, (stageSearch setting fuel).collect total result = .ok next ∧
      next.1 = (total.1 || result.1) ∧
      Lists (setting.sum base) next.2
        (packages ∪ reached (setting.index base) child) := by
  obtain ⟨merged, success, listsMerged⟩ :=
    lists.merge (planned.snapshots child result found)
  exact ⟨(total.1 || result.1, merged), by simp [stageSearch, success], rfl,
    listsMerged⟩

theorem collected_lists (planned : Planned setting base done cache)
    (collected : Collected (stageSearch setting fuel) done nodes total) :
    Lists (setting.sum base) total.2
      (reachedAll (setting.index base) nodes) := by
  induction collected with
  | nil =>
      rw [reachedAll_nil]
      exact Lists.empty
  | snoc _ found combined induction =>
      obtain ⟨next, success, _, lists⟩ :=
        collect_lists fuel planned induction found
      cases success.symm.trans combined
      rw [reachedAll_append, reachedAll_singleton]
      exact lists

theorem collected_built (ordered : Ordered (edges (setting.index base)) done)
    (collected : Collected (stageSearch setting fuel) done nodes total) :
    total.1 = true ↔
      ∃ node ∈ nodes, ∃ result, (node, result) ∈ done ∧ result.1 = true := by
  induction collected with
  | nil => simp [stageSearch]
  | @snoc nodes total next child result _ found combined induction =>
      have built : next.1 = (total.1 || result.1) := by
        simp only [stageSearch] at combined
        split at combined
        · cases combined
          rfl
        · cases combined
      rw [built, Bool.or_eq_true, induction]
      constructor
      · intro given
        obtain ⟨node, member, earlier⟩ | last := given
        · exact ⟨node, List.mem_append_left _ member, earlier⟩
        · exact ⟨child, by simp, result, found, last⟩
      · intro given
        obtain ⟨node, member, other, inDone, was⟩ := given
        rcases List.mem_append.mp member with before | last
        · exact .inl ⟨node, before, other, inDone, was⟩
        · rw [List.mem_singleton.mp last] at inDone
          rw [ordered.unique found inDone]
          exact .inr was

end Collected

/-! ## The contract -/

/-- What a stage may use: the finished stages that it depends on. -/
def Below (setting : Setting File Archive Tree) (base : Cache File Archive)
    (done : List (Stage × StageResult)) (stage other : Stage) : Prop :=
  other ∈ done.map Prod.fst ∧
    ReflTransGen (Edge (edges (setting.index base))) stage other

section Finish

variable {done : List (Stage × StageResult)} {area : Entry → Prop}
  {machine : Machine File Archive} {deps : Index} {fuel : Nat}

theorem prepared (planned : Planned setting base done machine.cache)
    (ordered : Ordered (edges (setting.index base)) done)
    (allowed : Allowed (setting.index base) area stage)
    (known : setting.index base stage.1 = some deps)
    (collected : Collected (stageSearch setting fuel) done
      (edges (setting.index base) stage) total) :
    Prepared setting base done (Below setting base done stage) machine.cache
      stage deps where
  planned := planned
  ordered := ordered
  proper := allowed.1
  known := known
  finished := fun child edge =>
    collected.mem child (by rwa [edges_eq known])
  closed := fun _ _ below edge =>
    ⟨ordered.closed below.1 (.single edge), below.2.tail edge⟩
  atHand := fun child edge =>
    have isEdge : child ∈ edges (setting.index base) stage := by
      rwa [edges_eq known]
    ⟨collected.mem child isEdge, .single isEdge⟩

/-- What is done for a stage whose dependencies are finished. -/
theorem finishStage_ensures
    (planned : Planned setting base done machine.cache)
    (ordered : Ordered (edges (setting.index base)) done)
    (allowed : Allowed (setting.index base) area stage)
    (known : setting.index base stage.1 = some deps)
    (collected : Collected (stageSearch setting fuel) done
      (edges (setting.index base) stage) total) :
    Ensures (finishStage setting fuel stage total) machine
      (Finished setting base (Below setting base done stage) stage total
        machine)
      (Halted (fuel < done.length) machine.cache
        (Damaged setting base (Below setting base done stage) stage
          machine.cache)) := by
  have ready := prepared planned ordered allowed known collected
  have lists := collected_lists planned collected
  obtain ⟨package, type⟩ := stage
  cases type with
  | installation =>
      rw [← reached_eq (by simp)] at lists
      change Ensures (rebuild setting .installation
        (package, StageType.installation).1
        (buildInstallation setting fuel package) total) machine _ _
      refine rebuild_ensures rfl rfl lists fun middle same => ?_
      rw [← same]
      exact buildInstallation_ensures rfl (same.symm ▸ ready)
  | build =>
      rw [← reached_eq (by simp)] at lists
      change Ensures (rebuild setting .build (package, StageType.build).1
        (build setting fuel package) total) machine _ _
      refine rebuild_ensures rfl rfl lists fun middle same => ?_
      rw [← same]
      exact build_ensures rfl (same.symm ▸ ready)
  | buildEmpty =>
      rw [← reached_eq (by simp)] at lists
      change Ensures (rebuild setting .build (package, StageType.buildEmpty).1
        (buildEmpty setting package) total) machine _ _
      refine rebuild_ensures rfl rfl lists fun middle same => ?_
      rw [← same]
      exact (buildEmpty_ensures rfl (same.symm ▸ ready)).mono
        (fun _ _ made => made) (fun _ _ failed => failed.halted)
  | source =>
      simp only [finishStage, ensures_bind, ensures_pure]
      refine (updateSources_ensures package).mono ?_
        (fun _ _ failed => (failed.mono fun _ _ resourced =>
          Damaged.resourced resourced).halted)
      intro _ middle given
      obtain ⟨resourced, log, verified⟩ := given
      refine (readChecksum_ensures setting.faults setting.externals
        package).mono ?_ (fun _ _ failed => (failed.mono fun _ _ same =>
          Damaged.resourced (same ▸ resourced)).halted)
      intro checksum final given
      obtain ⟨sum, same⟩ := given
      rw [resourced.settled.checksumOf setting.externals package] at sum
      obtain ⟨deps', entry, isIndex, isSum, files⟩ := verified checksum sum
      rw [Setting.sum, planned.settled.checksumOf setting.externals package]
        at isSum
      rw [Setting.index, planned.settled.indexOf setting.externals package]
        at isIndex
      rw [planned.settled.checksumOf setting.externals package] at sum
      obtain ⟨merged, success, listsMerged⟩ :=
        lists.merge (Lists.singleton sum)
      simp only [addEntry, merge, success, ensures_pure]
      refine .source rfl (same.1 ▸ resourced) (same.2.trans log)
        ⟨deps', entry, isIndex, isSum, ?_⟩ ?_
      · rw [same.1]
        exact files
      · rw [reached_source]
        exact listsMerged

end Finish

end Bacs.Pm
