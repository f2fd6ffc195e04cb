import Bacs.Pm.Planning

/-!
# Contracts of the builder

When the stages that a stage depends on are finished, the builder puts an
archive and a snapshot that belong together into the cache.  `Broken` lists
what it may leave when a file operation fails: between packing the archive
and the end of writing the snapshot the two need not belong together.
-/

namespace Bacs.Pm

open Foundation DepthFirst Relation

variable {File Archive Tree : Type} (setting : Setting File Archive Tree)

/-- An archive with the contents `tree` and this snapshot may be made for the
stage. -/
def Fits (base cache : Cache File Archive) (ready : Stage → Prop)
    (stage : Stage) (kind : Kind) (tree : Tree) (snapshot : Snapshot) : Prop :=
  Lists (setting.sum base) snapshot (reached (setting.index base) stage) ∧
    ∀ world, Supplies setting cache ready world →
      Yields setting.externals world (kind.task stage.1) tree

inductive Broken (fits : Tree → Snapshot → Prop) (kind : Kind)
    (package : Entry) (before : Cache File Archive) :
    Abort File Archive → Cache File Archive → Prop where
  | harmless {abort : Abort File Archive} :
      Broken fits kind package before abort before
  | packing {abort : Abort File Archive} :
      abort.operation = .pack kind package → abort.before = before →
      Broken fits kind package before abort
        (before.update package fun files => files.setProduct
          { files.product kind with
            archive := abort.residue.archive.getD
              (files.product kind).archive } kind)
  | listing {abort : Abort File Archive} :
      kind = .build → abort.operation = .readEmptyChecksum package →
      (∀ checksum, setting.sum before package = some checksum →
        fits setting.externals.empty (Finmap.singleton package checksum)) →
      abort.before = before.update package (fun files => files.setProduct
        { files.product kind with
          archive := some (setting.externals.pack setting.externals.empty) }
          kind) →
      Broken fits kind package before abort abort.before
  | writing {abort : Abort File Archive} {tree : Tree}
      {snapshot : Snapshot} :
      fits tree snapshot →
      abort.operation = .writeSnapshot kind package snapshot →
      Broken fits kind package before abort
        (before.update package fun files => files.setProduct
          ⟨some (setting.externals.pack tree), abort.residue.snapshot⟩ kind)

/-- The cache after an archive and its snapshot have been stored. -/
def Cache.with (cache : Cache File Archive) (kind : Kind) (package : Entry)
    (archive : Archive) (snapshot : Snapshot) : Cache File Archive :=
  cache.update package fun files =>
    files.setProduct ⟨some archive, .value snapshot⟩ kind

/-- What the builder has done for a stage when it ends. -/
def Made (fits : Tree → Snapshot → Prop) (kind : Kind) (package : Entry)
    (event : Event) (before final : Machine File Archive) : Prop :=
  ∃ tree snapshot, fits tree snapshot ∧
    final.cache = before.cache.with kind package
      (setting.externals.pack tree) snapshot ∧
    final.log = event :: before.log

variable {setting}

theorem pack_ensures (kind : Kind) (package : Entry) (tree : Tree)
    (fits : Tree → Snapshot → Prop) {machine : Machine File Archive} :
    Ensures (pack setting.faults setting.externals kind package tree) machine
      (fun _ final =>
        final.cache = machine.cache.update package (fun files =>
            files.setProduct
              { files.product kind with
                archive := some (setting.externals.pack tree) } kind) ∧
          final.log = machine.log)
      (Failed (Broken setting fits kind package machine.cache)) := by
  apply (ensures_store setting.faults).mono (fun _ _ stored => stored)
  intro failure final given
  obtain ⟨abort, rfl, operation, before, left⟩ := given
  refine ⟨abort, rfl, ?_⟩
  rw [left]
  exact .packing operation before

/-- The snapshot is written beside an archive of `tree`. -/
theorem writeSnapshot_ensures {kind : Kind} {package : Entry} {tree : Tree}
    {snapshot : Snapshot} {fits : Tree → Snapshot → Prop}
    {before : Cache File Archive} {machine : Machine File Archive}
    (good : fits tree snapshot)
    (packed : machine.cache = before.update package fun files =>
      files.setProduct
        { files.product kind with
          archive := some (setting.externals.pack tree) } kind) :
    Ensures (writeSnapshot setting.faults kind package snapshot) machine
      (fun _ final =>
        final.cache = before.with kind package
          (setting.externals.pack tree) snapshot ∧
          final.log = machine.log)
      (Failed (Broken setting fits kind package before)) := by
  apply (ensures_store setting.faults).mono
  · intro _ final given
    obtain ⟨stored, log⟩ := given
    refine ⟨?_, log⟩
    simp [stored, packed, Cache.with]
  · intro failure final given
    obtain ⟨abort, rfl, operation, _, left⟩ := given
    refine ⟨abort, rfl, ?_⟩
    rw [left, packed]
    simpa using Broken.writing good operation

theorem store_ensures {kind : Kind} {package : Entry} {tree : Tree}
    {snapshot : Snapshot} {fits : Tree → Snapshot → Prop}
    {machine : Machine File Archive} (good : fits tree snapshot) :
    Ensures
      (do
        pack setting.faults setting.externals kind package tree
        writeSnapshot setting.faults kind package snapshot) machine
      (fun _ final =>
        final.cache = machine.cache.with kind package
          (setting.externals.pack tree) snapshot ∧
          final.log = machine.log)
      (Failed (Broken setting fits kind package machine.cache)) := by
  rw [ensures_bind]
  refine (pack_ensures kind package tree fits).mono ?_
    (fun _ _ failed => failed)
  intro _ middle given
  obtain ⟨packed, log⟩ := given
  refine (writeSnapshot_ensures good packed).mono ?_
    (fun _ _ failed => failed)
  intro _ final given
  obtain ⟨stored, sameLog⟩ := given
  exact ⟨stored, sameLog.trans log⟩

/-- A failed read leaves what was there when the builder began. -/
theorem Failed.harmless {fits : Tree → Snapshot → Prop} {kind : Kind}
    {package : Entry} {before : Cache File Archive}
    {final : Machine File Archive} {failure : Failure File Archive}
    (failed : Failed (Harmless before) failure final) :
    Failed (Broken setting fits kind package before) failure final := by
  refine failed.mono fun abort cache same => ?_
  rw [same]
  exact .harmless

theorem Halted.harmless {exhausted : Prop} {fits : Tree → Snapshot → Prop}
    {kind : Kind} {package : Entry} {before : Cache File Archive}
    {final : Machine File Archive} {failure : Failure File Archive}
    (halted : Halted exhausted before (Harmless before) failure final) :
    Halted exhausted before (Broken setting fits kind package before) failure
      final :=
  halted.imp Failed.harmless id

section Building

variable {base cache : Cache File Archive}
  {done : List (Stage × StageResult)} {ready : Stage → Prop}

/-- The dependencies of a stage are finished, and it may use them. -/
structure Prepared (setting : Setting File Archive Tree)
    (base : Cache File Archive) (done : List (Stage × StageResult))
    (ready : Stage → Prop) (cache : Cache File Archive) (stage : Stage)
    (deps : Index) : Prop where
  planned : Planned setting base done cache
  ordered : Ordered (edges (setting.index base)) done
  proper : Proper (setting.index base) stage
  known : setting.index base stage.1 = some deps
  finished : ∀ child ∈ dependencies deps stage, child ∈ done.map Prod.fst
  closed : ∀ stage child, ready stage →
    child ∈ edges (setting.index base) stage → ready child
  atHand : ∀ child ∈ dependencies deps stage, ready child

namespace Prepared

variable {stage : Stage} {deps : Index}

theorem here (prepared : Prepared setting base done ready cache stage deps) :
    setting.index cache stage.1 = some deps :=
  (prepared.planned.settled.indexOf setting.externals stage.1).trans
    prepared.known

theorem edges_eq
    (prepared : Prepared setting base done ready cache stage deps) :
    edges (setting.index base) stage = dependencies deps stage :=
  Pm.edges_eq prepared.known

end Prepared

theorem buildEmpty_ensures {package : Entry} {deps : Index}
    {machine : Machine File Archive} (here : machine.cache = cache)
    (prepared : Prepared setting base done ready cache
      (package, .buildEmpty) deps) :
    Ensures (buildEmpty setting package) machine
      (fun _ final => Made setting
        (Fits setting base cache ready (package, .buildEmpty) .build) .build
        package (.buildEmpty package) machine final)
      (Failed (Broken setting
        (Fits setting base cache ready (package, .buildEmpty) .build) .build
        package cache)) := by
  have isEmpty : deps.source.empty = true :=
    (prepared.proper deps prepared.known).2 rfl
  have inStage : (package, StageType.source) ∈
      dependencies deps (package, .buildEmpty) := List.mem_singleton_self _
  have good (checksum : SnapshotEntry)
      (sum : setting.sum cache package = some checksum) :
      Fits setting base cache ready (package, .buildEmpty) .build
        setting.externals.empty (Finmap.singleton package checksum) := by
    rw [Setting.sum,
      prepared.planned.settled.checksumOf setting.externals package] at sum
    refine ⟨(Lists.singleton sum).congr ?_, fun world supplies => ?_⟩
    · have noImports : edges (setting.index base) (package, .source) = [] := by
        simp only [PackageStage.empty, Bool.and_eq_true,
          List.isEmpty_iff] at isEmpty
        have expanded : edges (setting.index base) (package, .source) =
            dependencies deps (package, .source) :=
          Pm.edges_eq prepared.known
        simp [expanded, dependencies, isEmpty.1.2, isEmpty.2]
      rw [reached_eq (by simp), prepared.edges_eq, dependencies,
        reachedAll_singleton, reached_source, noImports, reachedAll_nil,
        Set.empty_union]
    · obtain ⟨source, inWorld, isIndex, _⟩ := supplies.source package deps
        (prepared.atHand _ inStage) prepared.here
      exact .buildEmpty inWorld (isIndex ▸ isEmpty)
  simp only [buildEmpty, packBuild, ensures_bind, ensures_logLine]
  refine (pack_ensures .build package setting.externals.empty
    (Fits setting base cache ready (package, .buildEmpty) .build)).mono ?_
    (fun _ _ failed => by rwa [here] at failed)
  intro _ middle given
  obtain ⟨packed, log⟩ := given
  simp only [here] at packed
  have sameSum : setting.sum middle.cache package =
      setting.sum cache package := by
    rw [packed]
    exact ((Cache.Settled.refl cache).update (by simp) (by simp)).checksumOf
      setting.externals package
  rw [readChecksumAt]
  apply (ensures_query_abort setting.faults).mono
  · intro checksum later given
    obtain ⟨sum, same⟩ := given
    have fits := good checksum (sameSum.symm.trans sum)
    refine (writeSnapshot_ensures fits (same.1.trans packed)).mono ?_
      (fun _ _ failed => failed)
    intro _ final given
    obtain ⟨stored, sameLog⟩ := given
    exact ⟨_, _, fits, by rw [stored, here], by rw [sameLog, same.2, log]⟩
  · intro failure final given
    obtain ⟨abort, rfl, operation, before, left⟩ := given
    refine ⟨abort, rfl, ?_⟩
    rw [left, ← before]
    exact .listing rfl operation good (before.trans packed)

theorem build_ensures {package : Entry} {deps : Index} {fuel : Nat}
    {machine : Machine File Archive} (here : machine.cache = cache)
    (prepared : Prepared setting base done ready cache (package, .build)
      deps) :
    Ensures (build setting fuel package) machine
      (fun _ final => Made setting
        (Fits setting base cache ready (package, .build) .build) .build
        package (.build package) machine final)
      (Halted (fuel < done.length) cache (Broken setting
        (Fits setting base cache ready (package, .build) .build) .build
        package cache)) := by
  have notEmpty : deps.source.empty = false :=
    (prepared.proper deps prepared.known).1 rfl
  have inStage : (package, StageType.source) ∈
      dependencies deps (package, .build) := List.mem_singleton_self _
  have unpacks := unpackSource_unpacks prepared.planned prepared.ordered
    prepared.closed fuel (prepared.finished _ inStage)
    (prepared.atHand _ inStage) []
  simp only [build, ensures_bind, ensures_logLine]
  refine (unpacks (setting.externals.empty, ∅)
    { machine with log := .build package :: machine.log } ∅ here
    Lists.empty).mono ?_ (fun _ _ halted => halted.harmless)
  intro given middle given'
  obtain ⟨source, snapshot⟩ := given
  obtain ⟨same, lists, yields⟩ := given'
  have start : middle.cache = cache := same.1.trans here
  refine (ensures_query setting.faults).mono ?_
    (fun _ _ failed => (Failed.harmless (start ▸ failed)).halted)
  intro installation later given
  obtain ⟨installed, sameLater⟩ := given
  have fits : Fits setting base cache ready (package, .build) .build
      installation snapshot := by
    refine ⟨lists.congr ?_, fun world supplies => ?_⟩
    · rw [Set.empty_union, reached_eq (by simp), prepared.edges_eq,
        dependencies]
    · obtain ⟨known, inWorld, isIndex, _⟩ := supplies.source package deps
        (prepared.atHand _ inStage) prepared.here
      exact .build inWorld (isIndex ▸ notEmpty) (yields world supplies)
        installed
  have startLater : later.cache = cache := sameLater.1.trans start
  rw [← ensures_bind]
  refine (store_ensures fits).mono ?_
    (fun _ _ failed => Failed.halted (startLater ▸ failed))
  intro _ final given
  obtain ⟨stored, log⟩ := given
  refine ⟨installation, snapshot, fits, ?_, ?_⟩
  · rw [stored, startLater, here]
  · rw [log, sameLater.2, same.2]

/-- The stage that makes the build of a package with these dependencies. -/
def buildOf (deps : Index) (package : Entry) : Stage :=
  (package, if deps.source.empty then .buildEmpty else .build)

theorem buildOf_kind (deps : Index) (package : Entry) :
    (buildOf deps package).2.kind = some .build := by
  rw [buildOf]
  split <;> rfl

theorem dependencies_installation (deps : Index) (package : Entry) :
    dependencies deps (package, .installation) =
      deps.package.importPackage.map
          (fun i => (i.package, StageType.installation)) ++
        deps.package.importSource.map (fun i => (i.package, .source)) ++
        [buildOf deps package] := rfl

theorem dependencies_buildOf (deps : Index) (package : Entry) :
    dependencies deps (buildOf deps package) = [(package, .source)] := by
  rw [buildOf]
  split <;> rfl

namespace Prepared

variable {package : Entry} {deps : Index}

theorem build_mem : buildOf deps package ∈
    dependencies deps (package, .installation) := by
  rw [dependencies_installation]
  exact List.mem_append_right _ (List.mem_singleton_self _)

theorem importSource_mem {i : TreeImport}
    (among : i ∈ deps.package.importSource) :
    (i.package, StageType.source) ∈
      dependencies deps (package, .installation) := by
  rw [dependencies_installation, List.append_assoc]
  exact List.mem_append_right _
    (List.mem_append_left _ (List.mem_map_of_mem among))

theorem importPackage_mem {i : TreeImport}
    (among : i ∈ deps.package.importPackage) :
    (i.package, StageType.installation) ∈
      dependencies deps (package, .installation) := by
  rw [dependencies_installation, List.append_assoc]
  exact List.mem_append_left _ (List.mem_map_of_mem among)

theorem source_atHand (prepared : Prepared setting base done ready cache
    (package, .installation) deps) : ready (package, .source) := by
  apply prepared.closed _ _ (prepared.atHand _ build_mem)
  have expanded : edges (setting.index base) (buildOf deps package) =
      dependencies deps (buildOf deps package) := Pm.edges_eq prepared.known
  rw [expanded, dependencies_buildOf]
  exact List.mem_singleton_self _

/-- The build is in the cache, with the snapshot it was made with. -/
theorem built (prepared : Prepared setting base done ready cache
    (package, .installation) deps) :
    ∃ archive snapshot,
      (cache.files package).product .build = ⟨some archive, .value snapshot⟩ ∧
        Lists (setting.sum base) snapshot
          (reached (setting.index base) (buildOf deps package)) := by
  obtain ⟨entry, inDone, keyIs⟩ :=
    List.mem_map.mp (prepared.finished _ build_mem)
  obtain ⟨stage, stageResult⟩ := entry
  cases keyIs
  obtain ⟨archive, product⟩ := prepared.planned.current _ _ .build inDone
    (buildOf_kind deps package)
  exact ⟨archive, stageResult.2, product,
    prepared.planned.snapshots _ _ inDone⟩

theorem imports_unpacks (fuel : Nat)
    (prepared : Prepared setting base done ready cache
      (package, .installation) deps) :
    Unpacks setting base cache ready (fuel < done.length)
      (deps.package.importSource.map (fun i => (i.package, .source)) ++
        deps.package.importPackage.map fun i => (i.package, .installation))
      (deps.package.importSource.map (fun i => .source i.package [i.path]) ++
        deps.package.importPackage.map
          fun i => .install i.package ([] ++ [i.path]))
      (fun unpacked => do
        let sources ← deps.package.importSource.foldlM (fun unpacked i =>
          unpackSource setting fuel i.package [i.path] unpacked) unpacked
        deps.package.importPackage.foldlM (importInstallation setting [])
          sources) := by
  apply Unpacks.bind
  · exact Unpacks.foldlM (fun i => (i.package, .source))
      (fun i => .source i.package [i.path])
      (fun unpacked i => unpackSource setting fuel i.package [i.path] unpacked)
      deps.package.importSource fun i among =>
        unpackSource_unpacks prepared.planned prepared.ordered prepared.closed
          fuel (prepared.finished _ (importSource_mem among))
          (prepared.atHand _ (importSource_mem among)) _
  · exact Unpacks.foldlM (fun i => (i.package, .installation))
      (fun i => .install i.package ([] ++ [i.path]))
      (importInstallation setting []) deps.package.importPackage
      fun i among => importInstallation_unpacks prepared.planned
        (prepared.finished _ (importPackage_mem among))
        (prepared.atHand _ (importPackage_mem among)) []

/-- A snapshot of the build to which the imports were added lists what the
installation depends on. -/
theorem lists_installation {snapshot : Snapshot}
    (prepared : Prepared setting base done ready cache
      (package, .installation) deps)
    (lists : Lists (setting.sum base) snapshot
      (reached (setting.index base) (buildOf deps package) ∪
        reachedAll (setting.index base)
          (deps.package.importSource.map (fun i => (i.package, .source)) ++
            deps.package.importPackage.map
              fun i => (i.package, .installation)))) :
    Lists (setting.sum base) snapshot
      (reached (setting.index base) (package, .installation)) := by
  refine lists.congr ?_
  have target : reached (setting.index base) (package, .installation) =
      reachedAll (setting.index base)
        (edges (setting.index base) (package, .installation)) :=
    reached_eq (by simp)
  rw [target, prepared.edges_eq, dependencies_installation,
    reachedAll_append, reachedAll_append, reachedAll_append,
    reachedAll_singleton]
  ac_rfl

end Prepared

theorem buildInstallation_ensures {package : Entry} {deps : Index}
    {fuel : Nat} {machine : Machine File Archive}
    (here : machine.cache = cache)
    (prepared : Prepared setting base done ready cache
      (package, .installation) deps) :
    Ensures (buildInstallation setting fuel package) machine
      (fun _ final => Made setting
        (Fits setting base cache ready (package, .installation)
          .installation) .installation
        package (.buildInstallation package) machine final)
      (Halted (fuel < done.length) cache (Broken setting
        (Fits setting base cache ready (package, .installation)
          .installation) .installation package cache)) := by
  obtain ⟨archive, listed, product, snapshots⟩ := prepared.built
  simp only [buildInstallation, extractBuild, readBuildSnapshot,
    ensures_bind, ensures_logLine]
  refine (extract_ensures setting .build package [] _).mono ?_
    (fun _ _ failed => (Failed.harmless (here ▸ failed)).halted)
  intro built first given
  obtain ⟨same, stored, contents, inCache, opened, merged⟩ := given
  have startFirst : first.cache = cache := same.1.trans here
  refine (readSnapshot_ensures setting.faults package .build).mono ?_
    (fun _ _ failed => (Failed.harmless (startFirst ▸ failed)).halted)
  intro snapshot second given
  obtain ⟨found, sameSecond⟩ := given
  rw [startFirst, product] at found
  cases found
  have startSecond : second.cache = cache := sameSecond.1.trans startFirst
  refine (readIndex_ensures setting.faults setting.externals package).mono ?_
    (fun _ _ failed => (Failed.harmless (startSecond ▸ failed)).halted)
  intro read third given
  obtain ⟨isIndex, sameThird⟩ := given
  rw [startSecond] at isIndex
  cases prepared.here.symm.trans isIndex
  have startThird : third.cache = cache := sameThird.1.trans startSecond
  refine (extractSelf_ensures ready prepared.here [] deps.package.self
    (fun i member => Index.mem_sources.mpr
      (.inr (List.mem_map_of_mem member)))
    built third startThird).mono ?_
    (fun _ _ failed => failed.harmless.halted)
  intro tree fourth given
  obtain ⟨sameFourth, yieldsSelf⟩ := given
  rw [← ensures_bind]
  refine (prepared.imports_unpacks fuel (tree, listed) fourth _
    (sameFourth.1.trans startThird) snapshots).mono ?_
    (fun _ _ halted => halted.harmless)
  intro given fifth given'
  obtain ⟨installation, snapshot⟩ := given
  obtain ⟨sameFifth, lists, yields⟩ := given'
  have fits : Fits setting base cache ready (package, .installation)
      .installation installation snapshot := by
    refine ⟨prepared.lists_installation lists, fun world supplies => ?_⟩
    obtain ⟨source, inWorld, sameIndex, _⟩ :=
      supplies.source package deps prepared.source_atHand prepared.here
    have builds := supplies.product package .build _ stored contents
      (prepared.atHand _ Prepared.build_mem) (buildOf_kind deps package)
      (here ▸ inCache) opened
    refine .installation inWorld builds merged ?_
    rw [sameIndex]
    exact (yieldsSelf world supplies prepared.source_atHand).append
      (yields world supplies)
  have startFifth : fifth.cache = cache :=
    sameFifth.1.trans (sameFourth.1.trans startThird)
  rw [packInstallation, ← ensures_bind]
  refine (store_ensures fits).mono ?_
    (fun _ _ failed => Failed.halted (startFifth ▸ failed))
  intro _ final given
  obtain ⟨kept, log⟩ := given
  refine ⟨installation, snapshot, fits, ?_, ?_⟩
  · rw [kept, startFifth, here]
  · rw [log, sameFifth.2, sameFourth.2, sameThird.2, sameSecond.2, same.2]

end Building

end Bacs.Pm
