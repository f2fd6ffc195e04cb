import Bacs.Pm.Planner

/-!
# The contract of `update_meta_tree`

The meta data of a package is its checksum file and its index.  After
`update_meta` the checksum file is the one in the remote repository, and the
index has the checksum given there.  `update_meta_tree` does this for
the import closure of a package, as the indexes fetched on the way define it.
-/

namespace Bacs.Pm

open Foundation DepthFirst Exploration Relation

variable {File Archive Tree : Type} {setting : Setting File Archive Tree}

/-- Nothing but the meta data of the package changed. -/
def Cache.Refetched (package : Entry) (before after : Cache File Archive) :
    Prop :=
  ∃ checksum index, after =
    before.update package fun files => { files with checksum, index }

/-- The meta data of a package is what the remote repository promises. -/
def Fresh (setting : Setting File Archive Tree)
    (cache : Cache File Archive) (package : Entry) : Prop :=
  ∃ checksumFile entry file,
    setting.resource package setting.format.getChecksum =
      some checksumFile ∧
    (cache.files package).checksum = some checksumFile ∧
    setting.externals.parseChecksum checksumFile = some entry ∧
    (cache.files package).index = some file ∧
    entry.lookup (setting.format.checksumName .index) =
      some (setting.externals.checksum file)

/-- The index of the package in the second cache is the one in the first, or
the one in the remote repository if the first has no index with the same
checksum. -/
def IndexFrom (setting : Setting File Archive Tree)
    (before after : Cache File Archive) (package : Entry) : Prop :=
  ∃ file, (after.files package).index = some file ∧
    ((before.files package).index = some file ∨
      setting.resource package (setting.format.remoteName .index) =
          some file ∧
        ∀ old, (before.files package).index = some old →
          setting.externals.checksum old ≠ setting.externals.checksum file)

namespace Cache.Refetched

variable {package other : Entry} {before middle after : Cache File Archive}

theorem refl : Cache.Refetched package before before := by
  refine ⟨(before.files package).checksum, (before.files package).index, ?_⟩
  simp [Cache.update]

theorem files (refetched : Cache.Refetched package before after)
    (different : other ≠ package) : after.files other = before.files other := by
  obtain ⟨checksum, index, rfl⟩ := refetched
  exact Cache.files_update_of_ne different

theorem version (refetched : Cache.Refetched package before after) :
    after.version = before.version := by
  obtain ⟨checksum, index, rfl⟩ := refetched
  rfl

theorem product (refetched : Cache.Refetched package before after)
    (other : Entry) (kind : Kind) :
    (after.files other).product kind = (before.files other).product kind := by
  obtain ⟨checksum, index, rfl⟩ := refetched
  refine Cache.files_update_frame (PackageFiles.product · kind) ?_ other
  cases kind <;> rfl

theorem source (refetched : Cache.Refetched package before after)
    (other : Entry) :
    (after.files other).source = (before.files other).source := by
  obtain ⟨checksum, index, rfl⟩ := refetched
  exact Cache.files_update_frame PackageFiles.source rfl other

end Cache.Refetched

theorem updateMeta_ensures (package : Entry)
    {machine : Machine File Archive} :
    Ensures (updateMeta setting package) machine
      (fun _ final =>
        Cache.Refetched package machine.cache final.cache ∧
        Fresh setting final.cache package ∧
        IndexFrom setting machine.cache final.cache package ∧
        final.log = .updateMeta package :: machine.log)
      (Failed fun _ cache =>
        Cache.Refetched package machine.cache cache) := by
  simp only [updateMeta, ensures_bind, ensures_logLine]
  refine (ensures_query setting.faults).mono ?_
    (fun _ _ failed => failed.mono fun _ _ same => same ▸ .refl)
  intro checksumFile first reason
  obtain ⟨remote, same⟩ := reason
  apply (ensures_store setting.faults).mono
  · intro _ second reason
    obtain ⟨copied, log⟩ := reason
    rw [same.1] at copied
    apply (expectedChecksum_ensures package .index).mono
    · intro checksum third reason
      obtain ⟨sameThird, entry, isSum, listed⟩ := reason
      have parsed : setting.externals.parseChecksum checksumFile =
          some entry := by
        simpa [Setting.sum, Cache.checksumOf, copied] using isSum
      apply (updateFile_ensures package .index checksum).mono
      · intro _ final reason
        obtain ⟨file, agrees, origin, stored, logFinal⟩ := reason
        rw [sameThird.1, copied] at stored origin
        simp only [Cache.update_update, Cache.files_update_self] at stored origin
        refine ⟨⟨some checksumFile, some file, stored⟩,
          ⟨checksumFile, entry, file, remote, ?_, parsed, ?_, ?_⟩,
          ⟨file, ?_, ?_⟩, ?_⟩
        · simp [stored]
        · simp [stored, PackageFiles.setFile]
        · rw [listed, agrees]
        · simp [stored, PackageFiles.setFile]
        · rw [agrees]
          exact origin
        · rw [logFinal, sameThird.2, log, same.2]
      · intro failure final reason
        obtain ⟨abort, rfl, file, left⟩ := reason
        rw [sameThird.1, copied, Cache.update_update] at left
        exact ⟨abort, rfl, some checksumFile, file, left⟩
    · intro failure final reason
      obtain ⟨abort, rfl, kept⟩ := reason
      refine ⟨abort, rfl, some checksumFile,
        (machine.cache.files package).index, ?_⟩
      rw [kept, copied]
      simp [Cache.update]
  · intro failure final reason
    obtain ⟨abort, rfl, _, _, left⟩ := reason
    rw [same.1] at left
    exact ⟨abort, rfl, abort.residue.file,
      (machine.cache.files package).index, by rw [left]; simp [Cache.update]⟩

/-! ## The exploration -/

/-- `other` is imported by `package`, in one way or another. -/
def Imports (setting : Setting File Archive Tree)
    (cache : Cache File Archive) (package other : Entry) : Prop :=
  ∃ deps, setting.index cache package = some deps ∧ other ∈ deps.all

/-- Every index that an update may find for a package in `area` imports only
packages in it. -/
def Covers (setting : Setting File Archive Tree) (cache : Cache File Archive)
    (area : Entry → Prop) : Prop :=
  ∀ package, area package → ∀ file index,
    ((cache.files package).index = some file ∨
      setting.resource package (setting.format.remoteName .index) =
        some file) →
    setting.externals.parseIndex file = some index →
      ∀ other ∈ (index.absolute package).all, area other

/-- The cache after the meta data of some packages has been updated. -/
structure Toured (setting : Setting File Archive Tree)
    (start : Machine File Archive) (visited : List Entry)
    (machine : Machine File Archive) : Prop where
  log : machine.log = visited.map .updateMeta ++ start.log
  fresh : ∀ package ∈ visited, Fresh setting machine.cache package
  origin : ∀ package ∈ visited,
    IndexFrom setting start.cache machine.cache package
  untouched : ∀ package, package ∉ visited →
    machine.cache.files package = start.cache.files package
  source : ∀ package, (machine.cache.files package).source =
    (start.cache.files package).source
  product : ∀ package kind, (machine.cache.files package).product kind =
    (start.cache.files package).product kind
  version : machine.cache.version = start.cache.version

/-- No archive that was built and no snapshot changed. -/
def Cache.SameProducts (before after : Cache File Archive) : Prop :=
  ∀ package kind,
    (after.files package).product kind = (before.files package).product kind

variable {start before final : Machine File Archive} {visited : List Entry}
  {package : Entry} {area : Entry → Prop}

theorem Fresh.of_files {cache other : Cache File Archive}
    (fresh : Fresh setting cache package)
    (same : other.files package = cache.files package) :
    Fresh setting other package := by
  unfold Fresh
  rw [same]
  exact fresh

theorem IndexFrom.of_files {first cache other : Cache File Archive}
    (origin : IndexFrom setting first cache package)
    (same : other.files package = cache.files package) :
    IndexFrom setting first other package := by
  unfold IndexFrom
  rw [same]
  exact origin

namespace Toured

theorem initial (machine : Machine File Archive) :
    Toured setting machine [] machine where
  log := rfl
  fresh := nofun
  origin := nofun
  untouched := fun _ _ => rfl
  source := fun _ => rfl
  product := fun _ _ => rfl
  version := rfl

theorem same (toured : Toured setting start visited before)
    (unchanged : before.Same final) :
    Toured setting start visited final := by
  refine
    { log := unchanged.2.trans toured.log
      fresh := ?_
      origin := ?_
      untouched := ?_
      source := ?_
      product := ?_
      version := ?_ }
  all_goals rw [unchanged.1]
  · exact toured.fresh
  · exact toured.origin
  · exact toured.untouched
  · exact toured.source
  · exact toured.product
  · exact toured.version

theorem enter (toured : Toured setting start visited before)
    (new : package ∉ visited)
    (refetched : Cache.Refetched package before.cache final.cache)
    (fresh : Fresh setting final.cache package)
    (origin : IndexFrom setting before.cache final.cache package)
    (log : final.log = .updateMeta package :: before.log) :
    Toured setting start (package :: visited) final where
  log := by rw [log, toured.log]; rfl
  fresh := by
    intro other member
    rcases List.mem_cons.mp member with rfl | old
    · exact fresh
    · refine (toured.fresh other old).of_files (refetched.files ?_)
      intro reason
      subst reason
      exact new old
  origin := by
    intro other member
    rcases List.mem_cons.mp member with rfl | old
    · obtain ⟨file, isIndex, from'⟩ := origin
      rw [toured.untouched other new] at from'
      exact ⟨file, isIndex, from'⟩
    · refine (toured.origin other old).of_files (refetched.files ?_)
      intro reason
      subst reason
      exact new old
  untouched := by
    intro other outside
    rw [List.mem_cons, not_or] at outside
    rw [refetched.files outside.1, toured.untouched other outside.2]
  source := fun other => (refetched.source other).trans (toured.source other)
  product := fun other kind =>
    (refetched.product other kind).trans (toured.product other kind)
  version := refetched.version.trans toured.version

/-- The indexes in the cache still import only packages in `area`. -/
theorem closed (toured : Toured setting start visited final)
    (covers : Covers setting start.cache area) :
    Closed (setting.index final.cache) area := by
  intro package deps inArea known other imported
  simp only [Setting.index, Cache.indexOf, Option.bind_eq_bind,
    Option.bind_eq_some_iff, Option.pure_def, Option.some.injEq] at known
  obtain ⟨file, isFile, index, parsed, rfl⟩ := known
  refine covers package inArea file index ?_ parsed other imported
  by_cases member : package ∈ visited
  · obtain ⟨found, isIndex, origin⟩ := toured.origin package member
    cases isIndex.symm.trans isFile
    exact origin.imp id And.left
  · rw [toured.untouched package member] at isFile
    exact .inl isFile

end Toured

/-- What is read of a package after its meta data has been updated. -/
def readsIndex (setting : Setting File Archive Tree)
    (machine : Machine File Archive) (package : Entry) (next : List Entry) :
    Prop :=
  ∃ deps, setting.index machine.cache package = some deps ∧ next = deps.all

theorem metaRule (covers : Covers setting start.cache area) :
    Exploration.Rule (metaSurvey setting) (readsIndex setting) area
      (Toured setting start)
      (Failed fun _ cache => start.cache.SameProducts cache) where
  enter := by
    intro visited package machine toured inArea new
    apply (updateMeta_ensures package).mono
    · intro _ final reason
      obtain ⟨refetched, fresh, origin, log⟩ := reason
      refine ⟨toured.enter new refetched fresh origin log, ?_⟩
      intro other member next reason
      obtain ⟨deps, known, isNext⟩ := reason
      refine ⟨deps, ?_, isNext⟩
      have different : other ≠ package := by
        intro reason
        subst reason
        exact new member
      simp only [Setting.index, Cache.indexOf] at known ⊢
      rw [refetched.files different]
      exact known
    · intro failure final failed
      exact failed.mono fun _ _ refetched other kind =>
        (refetched.product other kind).trans (toured.product other kind)
  successors := by
    intro visited package machine toured _ inArea
    simp only [metaSurvey, ensures_bind, ensures_pure]
    apply (readIndex_ensures setting.faults setting.externals
      package).mono
    · intro deps final reason
      obtain ⟨known, same⟩ := reason
      have steady : ∀ other next, readsIndex setting machine other next →
          readsIndex setting final other next := by
        intro other next
        rw [readsIndex, readsIndex, same.1]
        exact id
      exact ⟨steady _ _ ⟨deps, known, rfl⟩, toured.same same,
        (toured.closed covers) package deps inArea known, steady⟩
    · exact fun _ _ failed => failed.mono fun _ _ kept => kept ▸ toured.product

/-- The meta data of the import closure of `package` was updated. -/
structure MetaUpdated (setting : Setting File Archive Tree)
    (start : Machine File Archive) (package : Entry) (visited : List Entry)
    (final : Machine File Archive) : Prop where
  toured : Toured setting start visited final
  nodup : visited.Nodup
  mem_iff : ∀ other, other ∈ visited ↔
    ReflTransGen (Imports setting final.cache) package other

/-- Why `update_meta_tree` stops. -/
inductive MetaStopped (fuel : Nat) (start : Machine File Archive)
    (area : Entry → Prop) :
    Failure File Archive → Machine File Archive → Prop where
  | outOfFuel {final : Machine File Archive} :
      start.cache.SameProducts final.cache →
      (∀ packages : Finset Entry, (∀ package, area package →
        package ∈ packages) → fuel ≤ packages.card) →
      MetaStopped fuel start area .outOfFuel final
  | failed {failure : Failure File Archive} {final : Machine File Archive} :
      Failed (fun _ cache => start.cache.SameProducts cache) failure final →
      MetaStopped fuel start area failure final

theorem updateMetaTree_ensures (fuel : Nat)
    (covers : Covers setting start.cache area) (inArea : area package) :
    Ensures (updateMetaTree setting fuel package) start
      (MetaUpdated setting start package)
      (MetaStopped fuel start area) := by
  rw [updateMetaTree, ensures_withLocal]
  refine (explore_ensures (metaRule covers) fuel package ⟨[], start⟩ inArea
    (.initial start)).mono ?_ ?_
  · intro _ final explored
    have completed (node : Entry) (entered : node ∈ final.visited) :
        ∃ next, readsIndex setting final.state node next ∧
          ∀ child ∈ next, child ∈ final.visited :=
      (explored.complete node entered).resolve_left (by simp)
    refine ⟨explored.holds, explored.distinct List.nodup_nil, fun other => ?_⟩
    constructor
    · intro member
      obtain ⟨first, isFirst, path⟩ :=
        (explored.reached other member).resolve_left (by simp)
      rw [List.mem_singleton.mp isFirst] at path
      refine ReflTransGen.mono ?_ _ _ path
      intro node child reason
      obtain ⟨_, next, ⟨deps, known, rfl⟩, inNext⟩ := reason
      exact ⟨deps, known, inNext⟩
    · intro path
      induction path with
      | refl => exact explored.found package (List.mem_singleton_self _)
      | tail _ link entered =>
          obtain ⟨deps, known, imported⟩ := link
          obtain ⟨next, ⟨found, knownToo, rfl⟩, inside⟩ :=
            completed _ entered
          cases known.symm.trans knownToo
          exact inside _ imported
  · intro failure final stopped
    cases stopped with
    | outOfFuel holds bound =>
        refine .outOfFuel holds.product fun packages inside => ?_
        simpa using bound packages inside
    | failed reason => exact .failed reason

end Bacs.Pm
