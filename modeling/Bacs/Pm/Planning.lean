import Bacs.Pm.Contents
import Bacs.Pm.Contracts
import Bacs.Pm.Stages

/-!
# What holds while stages are brought up to date

During the search for stages the indexes and the checksum files stay as they
were when it began, in the cache `base`.  For every finished stage the
snapshot found lists what the stage depends on, and the archive of the stage
is there together with this snapshot.

Under these facts the builder collects the same snapshot: `Unpacks` is the
contract of the programs that fill a directory.
-/

namespace Bacs.Pm

open Foundation DepthFirst Relation

variable {File Archive Tree : Type}

def StageType.kind : StageType → Option Kind
  | .installation => some .installation
  | .build => some .build
  | .buildEmpty => some .build
  | .source => none

/-- The indexes and the checksum files are those of `base`. -/
def Cache.Settled (base cache : Cache File Archive) : Prop :=
  ∀ package,
    (cache.files package).index = (base.files package).index ∧
      (cache.files package).checksum = (base.files package).checksum

namespace Cache.Settled

variable {base cache : Cache File Archive}

theorem refl (cache : Cache File Archive) : cache.Settled cache :=
  fun _ => ⟨rfl, rfl⟩

theorem update (settled : base.Settled cache) {package : Entry}
    {change : PackageFiles File Archive → PackageFiles File Archive}
    (index : (change (cache.files package)).index =
      (cache.files package).index)
    (checksum : (change (cache.files package)).checksum =
      (cache.files package).checksum) :
    base.Settled (cache.update package change) := by
  intro other
  rw [files_update_frame PackageFiles.index index,
    files_update_frame PackageFiles.checksum checksum]
  exact settled other

theorem indexOf (settled : base.Settled cache)
    (externals : Externals File Archive Tree) (package : Entry) :
    cache.indexOf externals package = base.indexOf externals package := by
  simp only [Cache.indexOf, (settled package).1]

theorem checksumOf (settled : base.Settled cache)
    (externals : Externals File Archive Tree) (package : Entry) :
    cache.checksumOf externals package =
      base.checksumOf externals package := by
  simp only [Cache.checksumOf, (settled package).2]

end Cache.Settled

variable (setting : Setting File Archive Tree)

abbrev Setting.index (cache : Cache File Archive) (package : Entry) :
    Option Index :=
  cache.indexOf setting.externals package

abbrev Setting.sum (cache : Cache File Archive) (package : Entry) :
    Option SnapshotEntry :=
  cache.checksumOf setting.externals package

/-- The archives of the package in the cache have their checksums. -/
def Verified (base cache : Cache File Archive) (package : Entry) : Prop :=
  ∃ deps entry, setting.index base package = some deps ∧
    setting.sum base package = some entry ∧
    ∀ source ∈ deps.sources, ∃ file,
      (cache.files package).source source = some file ∧
        entry.lookup (setting.format.checksumName (.source source)) =
          some (setting.externals.checksum file)

structure Planned (base : Cache File Archive)
    (done : List (Stage × StageResult)) (cache : Cache File Archive) :
    Prop where
  settled : base.Settled cache
  snapshots : ∀ stage result, (stage, result) ∈ done →
    Lists (setting.sum base) result.2 (reached (setting.index base) stage)
  current : ∀ stage result kind, (stage, result) ∈ done →
    stage.2.kind = some kind → ∃ archive,
      (cache.files stage.1).product kind =
        ⟨some archive, .value result.2⟩
  verified : ∀ package result, ((package, .source), result) ∈ done →
    Verified setting base cache package

/-! ## Filling a directory -/

/-- The world has the sources of the stages that are `ready`, and what their
archives contain is what it yields. -/
structure Supplies (cache : Cache File Archive) (ready : Stage → Prop)
    (world : World File) : Prop where
  source : ∀ package deps, ready (package, .source) →
    setting.index cache package = some deps →
      ∃ known, world package = some known ∧ known.index = deps ∧
        ∀ source ∈ deps.sources,
          known.files source = (cache.files package).source source
  product : ∀ package kind type archive contents, ready (package, type) →
    type.kind = some kind →
    ((cache.files package).product kind).archive = some archive →
    setting.externals.unpack archive = some contents →
    Yields setting.externals world (kind.task package) contents

/-- `program` adds to the directory what `instructions` say, and to the
snapshot the packages that `stages` depend on. -/
def Unpacks (base cache : Cache File Archive) (ready : Stage → Prop)
    (exhausted : Prop) (stages : List Stage) (instructions : List Instruction)
    (program : Unpacked Tree → PmM File Archive (Unpacked Tree)) : Prop :=
  ∀ unpacked machine packages, machine.cache = cache →
    Lists (setting.sum base) unpacked.2 packages →
    Ensures (program unpacked) machine
      (fun result final => machine.Same final ∧
        Lists (setting.sum base) result.2
          (packages ∪ reachedAll (setting.index base) stages) ∧
        ∀ world, Supplies setting cache ready world →
          Yields setting.externals world (.run instructions unpacked.1)
            result.1)
      (Halted exhausted cache (Harmless cache))

section Unpacks

variable {setting} {base cache : Cache File Archive} {ready : Stage → Prop}
  {exhausted : Prop}

theorem Unpacks.pure :
    Unpacks setting base cache ready exhausted [] [] Pure.pure := by
  intro unpacked machine packages _ lists
  refine ⟨Machine.Same.refl _, ?_, fun _ _ => .done⟩
  rw [reachedAll_nil, Set.union_empty]
  exact lists

theorem Unpacks.bind {first second : List Stage}
    {firstTodo secondTodo : List Instruction}
    {head tail : Unpacked Tree → PmM File Archive (Unpacked Tree)}
    (one : Unpacks setting base cache ready exhausted first firstTodo head)
    (two : Unpacks setting base cache ready exhausted second secondTodo tail) :
    Unpacks setting base cache ready exhausted (first ++ second)
      (firstTodo ++ secondTodo) (fun unpacked => head unpacked >>= tail) := by
  intro unpacked machine packages here lists
  rw [ensures_bind]
  refine (one unpacked machine packages here lists).mono ?_
    (fun _ _ failed => failed)
  intro middle state given
  obtain ⟨same, listsMiddle, yields⟩ := given
  refine (two middle state _ (same.1.trans here) listsMiddle).mono ?_
    (fun _ _ failed => failed)
  intro result final given
  obtain ⟨sameFinal, listsFinal, yieldsFinal⟩ := given
  refine ⟨same.trans sameFinal, ?_, fun world supplies =>
    (yields world supplies).append (yieldsFinal world supplies)⟩
  rw [reachedAll_append, ← Set.union_assoc]
  exact listsFinal

theorem Unpacks.foldlM (stage : TreeImport → Stage)
    (todo : TreeImport → Instruction)
    (body : Unpacked Tree → TreeImport → PmM File Archive (Unpacked Tree))
    (imports : List TreeImport)
    (each : ∀ i ∈ imports,
      Unpacks setting base cache ready exhausted [stage i] [todo i]
        (body · i)) :
    Unpacks setting base cache ready exhausted (imports.map stage)
      (imports.map todo) (fun unpacked => imports.foldlM body unpacked) := by
  induction imports with
  | nil => exact Unpacks.pure
  | cons i rest induction =>
      have later := induction fun other member =>
        each other (List.mem_cons_of_mem _ member)
      exact (each i List.mem_cons_self).bind later

theorem extractSelf_ensures (ready : Stage → Prop) {package : Entry}
    {deps : Index} (known : setting.index cache package = some deps)
    (destination : List PathName) (self : List LocalImport)
    (listed : ∀ i ∈ self, i.source ∈ deps.sources) (tree : Tree)
    (machine : Machine File Archive) (here : machine.cache = cache) :
    Ensures (extractSelf setting package destination self tree) machine
      (fun result final => machine.Same final ∧
        ∀ world, Supplies setting cache ready world →
          ready (package, .source) →
          Yields setting.externals world
            (.run (self.map fun i =>
              .extract package i.source (destination ++ [i.path])) tree)
            result)
      (Failed (Harmless cache)) := by
  induction self generalizing tree machine with
  | nil => exact ⟨Machine.Same.refl _, fun _ _ _ => .done⟩
  | cons i rest induction =>
      rw [extractSelf, List.foldlM_cons, ensures_bind]
      refine (extractSource_ensures setting package i.source _ tree).mono ?_
        (fun _ _ failed => here ▸ failed)
      intro next middle given
      obtain ⟨same, file, contents, inCache, unpacked, merged⟩ := given
      refine (induction (fun other member =>
        listed other (List.mem_cons_of_mem _ member)) next middle
        (same.1.trans here)).mono ?_ (fun _ _ failed => failed)
      intro result final given
      obtain ⟨sameFinal, yields⟩ := given
      refine ⟨same.trans sameFinal, fun world supplies atHand => ?_⟩
      rw [here] at inCache
      obtain ⟨source, inWorld, _, files⟩ :=
        supplies.source package deps atHand known
      exact .extract inWorld
        ((files i.source (listed i List.mem_cons_self)).trans inCache)
        unpacked merged (yields world supplies atHand)

variable {done : List (Stage × StageResult)}

theorem importInstallation_unpacks
    (planned : Planned setting base done cache) {i : TreeImport}
    (finished : (i.package, StageType.installation) ∈ done.map Prod.fst)
    (atHand : ready (i.package, .installation))
    (destination : List PathName) :
    Unpacks setting base cache ready exhausted [(i.package, .installation)]
      [.install i.package (destination ++ [i.path])]
      (importInstallation setting destination · i) := by
  intro unpacked machine packages here lists
  obtain ⟨entry, inDone, keyIs⟩ := List.mem_map.mp finished
  obtain ⟨stage, stageResult⟩ := entry
  cases keyIs
  obtain ⟨archive, product⟩ := planned.current _ _ .installation inDone rfl
  simp only [importInstallation, extractInstallation,
    readInstallationSnapshot, ensures_bind, ensures_pure]
  refine (extract_ensures setting .installation i.package _ _).mono ?_
    (fun _ _ failed => Failed.halted (here ▸ failed))
  intro tree middle given
  obtain ⟨same, stored, contents, inCache, opened, mergedTree⟩ := given
  have startMiddle : middle.cache = cache := same.1.trans here
  refine (readSnapshot_ensures setting.faults i.package _).mono ?_
    (fun _ _ failed => Failed.halted (startMiddle ▸ failed))
  intro imported final given
  obtain ⟨found, sameFinal⟩ := given
  rw [startMiddle, product] at found
  cases found
  obtain ⟨merged, success, listsMerged⟩ :=
    lists.merge (planned.snapshots _ _ inDone)
  simp only [merge, success, ensures_pure]
  refine ⟨same.trans sameFinal, ?_, fun world supplies => ?_⟩
  · rw [reachedAll_singleton]
    exact listsMerged
  · rw [here] at inCache
    have yields := supplies.product i.package .installation .installation
      stored contents atHand rfl inCache opened
    exact .install yields mergedTree .done

theorem unpackSource_step {package : Entry} {deps : Index}
    (planned : Planned setting base done cache)
    (known : setting.index base package = some deps)
    (atHand : ready (package, .source))
    {depth : Nat} (destination : List PathName)
    (sources : ∀ i ∈ deps.source.importSource,
      Unpacks setting base cache ready exhausted [(i.package, .source)]
        [.source i.package (destination ++ [i.path])]
        (unpackSource setting depth i.package (destination ++ [i.path])))
    (installations : ∀ i ∈ deps.source.importPackage,
      (i.package, StageType.installation) ∈ done.map Prod.fst ∧
        ready (i.package, .installation)) :
    Unpacks setting base cache ready exhausted [(package, .source)]
      [.source package destination]
      (unpackSource setting (depth + 1) package destination) := by
  have here : setting.index cache package = some deps :=
    (planned.settled.indexOf setting.externals package).trans known
  have imports := (Unpacks.foldlM (fun i => (i.package, .source))
    (fun i => .source i.package (destination ++ [i.path]))
    (fun unpacked i =>
      unpackSource setting depth i.package (destination ++ [i.path]) unpacked)
    deps.source.importSource sources).bind
      (Unpacks.foldlM (fun i => (i.package, .installation))
        (fun i => .install i.package (destination ++ [i.path]))
        (importInstallation setting destination) deps.source.importPackage
        fun i member => importInstallation_unpacks planned (installations i member).1
            (installations i member).2 destination)
  intro unpacked machine packages start lists
  simp only [unpackSource, ensures_bind]
  refine (readIndex_ensures setting.faults setting.externals package).mono ?_
    (fun _ _ failed => Failed.halted (start ▸ failed))
  intro read first given
  obtain ⟨found, same⟩ := given
  rw [start] at found
  cases here.symm.trans found
  have startFirst : first.cache = cache := same.1.trans start
  refine (extractSelf_ensures ready here destination deps.source.self
    (fun i member => Index.mem_sources.mpr
      (.inl (List.mem_map_of_mem member)))
    unpacked.1 first startFirst).mono ?_ (fun _ _ failed => failed.halted)
  intro tree second given
  obtain ⟨sameSecond, yieldsSelf⟩ := given
  have startSecond : second.cache = cache := sameSecond.1.trans startFirst
  refine (readChecksum_ensures setting.faults setting.externals
    package).mono ?_ (fun _ _ failed => Failed.halted (startSecond ▸ failed))
  intro checksum third given
  obtain ⟨sum, sameThird⟩ := given
  rw [startSecond,
    planned.settled.checksumOf setting.externals package] at sum
  obtain ⟨merged, success, listsMerged⟩ :=
    lists.merge (Lists.singleton sum)
  simp only [addEntry, merge, success, ensures_pure]
  rw [← ensures_bind]
  refine (imports (tree, merged) third _
    (sameThird.1.trans startSecond) listsMerged).mono ?_
    (fun _ _ failed => failed)
  intro result final given
  obtain ⟨sameFinal, listsFinal, yields⟩ := given
  refine ⟨same.trans (sameSecond.trans (sameThird.trans sameFinal)), ?_, ?_⟩
  · apply listsFinal.congr
    rw [reachedAll_singleton, reached_source, edges_eq known, dependencies,
      reachedAll_append, reachedAll_append]
    ac_rfl
  · intro world supplies
    obtain ⟨source, inWorld, isIndex, _⟩ :=
      supplies.source package deps atHand here
    refine .source inWorld ?_ .done
    rw [isIndex]
    exact (yieldsSelf world supplies atHand).append (yields world supplies)

/-- Unpacking the source of a finished stage reaches the bound only if there
are more finished stages than it allows. -/
theorem unpackSource_unpacks (planned : Planned setting base done cache)
    (ordered : Ordered (edges (setting.index base)) done)
    (closed : ∀ stage child, ready stage →
      child ∈ edges (setting.index base) stage → ready child)
    (depth : Nat) {package : Entry}
    (finished : (package, StageType.source) ∈ done.map Prod.fst)
    (atHand : ready (package, .source)) (destination : List PathName) :
    Unpacks setting base cache ready (depth < done.length)
      [(package, .source)] [.source package destination]
      (unpackSource setting depth package destination) := by
  have step (exhausted : Prop) (depth : Nat) (name : Entry)
      (member : (name, StageType.source) ∈ done.map Prod.fst)
      (children : ∀ child ∈ edges (setting.index base) (name, .source),
        child.2 = .source → ready child → ∀ destination,
          Unpacks setting base cache ready exhausted [(child.1, .source)]
            [.source child.1 destination]
            (unpackSource setting depth child.1 destination))
      (isReady : ready (name, .source)) (destination : List PathName) :
      Unpacks setting base cache ready exhausted [(name, .source)]
        [.source name destination]
        (unpackSource setting (depth + 1) name destination) := by
    obtain ⟨entry, inDone, keyIs⟩ := List.mem_map.mp member
    obtain ⟨key, result⟩ := entry
    cases keyIs
    obtain ⟨deps, _, known, _⟩ := planned.verified name result inDone
    have isEdge (child : Stage)
        (among : child ∈ dependencies deps (name, .source)) :
        child ∈ edges (setting.index base) (name, .source) := by
      rwa [edges_eq known]
    have toSource {i : TreeImport} (among : i ∈ deps.source.importSource) :=
      isEdge (i.package, .source)
        (List.mem_append_right _ (List.mem_map_of_mem among))
    have toInstallation {i : TreeImport}
        (among : i ∈ deps.source.importPackage) :=
      isEdge (i.package, .installation)
        (List.mem_append_left _ (List.mem_map_of_mem among))
    apply unpackSource_step planned known isReady destination
    · intro i among
      exact children _ (toSource among) rfl
        (closed _ _ isReady (toSource among)) _
    · intro i among
      exact ⟨ordered.closed member (.single (toInstallation among)),
        closed _ _ isReady (toInstallation among)⟩
  by_cases enough : done.length ≤ depth
  · refine ordered.recursion (fun depth stage =>
      stage.2 = .source → ready stage → ∀ destination,
        Unpacks setting base cache ready _ [(stage.1, .source)]
          [.source stage.1 destination]
          (unpackSource setting depth stage.1 destination))
      ?_ depth enough (package, .source) finished rfl atHand destination
    intro depth given member children given' isReady destination
    obtain ⟨name, type⟩ := given
    subst given'
    exact step _ depth name member children isReady destination
  · have short : depth < done.length := by omega
    have anyway : ∀ depth name,
        (name, StageType.source) ∈ done.map Prod.fst →
        ready (name, .source) → ∀ destination,
          Unpacks setting base cache ready True [(name, .source)]
            [.source name destination]
            (unpackSource setting depth name destination) := by
      intro depth
      induction depth with
      | zero =>
          intro name _ _ destination unpacked machine packages here _
          exact .inr ⟨trivial, rfl, here⟩
      | succ depth induction =>
          intro name member isReady destination
          refine step True depth name member ?_ isReady destination
          intro given edge given' childReady childDestination
          obtain ⟨child, type⟩ := given
          subst given'
          exact induction child (ordered.closed member (.single edge))
            childReady childDestination
    intro unpacked machine packages here lists
    exact (anyway depth package finished atHand destination unpacked machine
      packages here lists).mono (fun _ _ ended => ended)
      (fun _ _ halted => halted.mono (fun _ => short) fun _ _ same => same)

end Unpacks

end Bacs.Pm
