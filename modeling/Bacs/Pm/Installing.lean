import Bacs.Pm.Installation
import Bacs.Pm.Updating

/-!
# What an installation does to a directory

An installation empties the directory, unpacks the archive into it and copies
the snapshot last.  It may be cut off anywhere in between.
-/

namespace Bacs.Pm.Extractor

open Foundation

variable {File Archive Content Value : Type}
  {station : Station File Archive Content}
  {start : Site File Archive Content}

/-! ## File operations -/

def Broke (start : Site File Archive Content)
    (shape : Abort Content → Prop) (failure : Failure File Archive Content)
    (final : Site File Archive Content) : Prop :=
  ∃ abort, failure = .operation abort ∧ final.disk = abort.after ∧
    final.machine = start.machine ∧ shape abort

theorem Broke.mono {shape wider : Abort Content → Prop}
    {failure : Failure File Archive Content}
    {final : Site File Archive Content}
    (broke : Broke start shape failure final)
    (weaken : ∀ abort, shape abort → wider abort) :
    Broke start wider failure final := by
  obtain ⟨abort, same, disk, machine, holds⟩ := broke
  exact ⟨abort, same, disk, machine, weaken abort holds⟩

theorem Broke.later {shape wider : Abort Content → Prop}
    {failure : Failure File Archive Content}
    {middle final : Site File Archive Content}
    (broke : Broke middle shape failure final)
    (machine : middle.machine = start.machine)
    (weaken : ∀ abort, shape abort → wider abort) :
    Broke start wider failure final := by
  obtain ⟨abort, same, disk, machines, holds⟩ := broke
  exact ⟨abort, same, disk, machines.trans machine, weaken abort holds⟩

theorem Broke.machine {shape : Abort Content → Prop}
    {failure : Failure File Archive Content}
    {final : Site File Archive Content}
    (broke : Broke start shape failure final) :
    final.machine = start.machine := by
  obtain ⟨_, _, _, machine, _⟩ := broke
  exact machine

theorem ensures_operate {operation : Operation}
    {spoil : Response Content → Disk String Content → Disk String Content}
    {action : Site File Archive Content →
      Option (Value × Disk String Content)} :
    Ensures (operate station operation spoil action) start
      (fun value final => final.machine = start.machine ∧
        action start = some (value, final.disk))
      (Broke start fun abort =>
        abort.operation = operation ∧ abort.before = start.disk ∧
          ∃ response, abort.after = spoil response start.disk) := by
  unfold Ensures operate
  dsimp only
  cases (station.system start.clock).aborts with
  | true => exact ⟨_, rfl, rfl, rfl, rfl, rfl, _, rfl⟩
  | false =>
      rw [if_neg Bool.false_ne_true]
      cases action start with
      | none => exact ⟨_, rfl, rfl, rfl, rfl, rfl, _, rfl⟩
      | some ended => exact ⟨rfl, rfl⟩

theorem disk_of_bind {made : Option (Disk String Content)}
    {value given : Value} {disk : Disk String Content}
    (done : (made.bind fun disk => some (value, disk)) =
      some (given, disk)) :
    made = some disk := by
  obtain ⟨ended, isMade, pair⟩ := Option.bind_eq_some_iff.mp done
  obtain ⟨_, same⟩ := Prod.mk.inj (Option.some.inj pair)
  rw [isMade, same]

def Unchanged (start : Site File Archive Content) (operation : Operation)
    (abort : Abort Content) : Prop :=
  abort.operation = operation ∧ abort.before = start.disk ∧
    abort.after = start.disk

theorem ensures_inspect {operation : Operation}
    {read : Disk String Content → Option Value} :
    Ensures (inspect station operation read) start
      (fun value final => final.machine = start.machine ∧
        final.disk = start.disk ∧ read start.disk = some value)
      (Broke start (Unchanged start operation)) := by
  apply ensures_operate.mono
  · intro value final given
    obtain ⟨machine, found⟩ := given
    obtain ⟨result, isRead, pair⟩ := Option.map_eq_some_iff.mp found
    obtain ⟨same, disk⟩ := Prod.mk.inj pair
    rw [same] at isRead
    exact ⟨machine, disk.symm, isRead⟩
  · intro failure final broke
    apply broke.mono
    intro abort shape
    obtain ⟨operation, before, _, after⟩ := shape
    exact ⟨operation, before, after⟩

theorem ensures_onCache {program : PmM File Archive Value}
    {normal : Value → Machine File Archive → Prop}
    {thrown : Pm.Failure File Archive → Machine File Archive → Prop}
    (contract : Ensures program start.machine normal thrown) :
    Ensures (onCache program : SiteM File Archive Content Value) start
      (fun value final => final.disk = start.disk ∧
        normal value final.machine)
      (fun failure final => final.disk = start.disk ∧
        ∃ reason, failure = .cache reason ∧ thrown reason final.machine) := by
  unfold Ensures onCache
  unfold Ensures at contract
  split
  · rename_i ended
    split at ended
    · rename_i outcome
      cases ended
      rw [outcome] at contract
      exact ⟨rfl, contract⟩
    · cases ended
  · rename_i ended
    split at ended
    · cases ended
    · rename_i outcome
      cases ended
      rw [outcome] at contract
      exact ⟨rfl, _, rfl, contract⟩

/-! ## Emptying and filling -/

/-- There is an empty directory at a place, and nothing else has changed. -/
def Emptied (place : List String) (before after : Disk String Content) :
    Prop :=
  ∀ other, after.node other =
    if other = place then some .directory
    else if place <+: other then none
    else before.node other

theorem Emptied.outside {place : List String}
    {before after : Disk String Content} (emptied : Emptied place before after)
    (other : List String) (out : ¬ place <+: other) :
    after.node other = before.node other := by
  rw [emptied, if_neg, if_neg out]
  intro same
  exact out (same ▸ List.prefix_refl _)

/-- Some of what was at a place or below it is gone. -/
structure Thinned (place : List String)
    (before after : Disk String Content) : Prop where
  shrunk : Disk.Shrunk before after
  outside : ∀ other, ¬ place <+: other → after.node other = before.node other

theorem Thinned.refl (place : List String) (disk : Disk String Content) :
    Thinned place disk disk :=
  ⟨⟨fun _ => .inl rfl⟩, fun _ _ => rfl⟩

theorem thinned_foldl (place : List String) (removed : List (List String))
    (disk : Disk String Content) :
    Thinned place disk (removed.foldl
      (fun disk names => disk.removeAll (place ++ names)) disk) := by
  induction removed generalizing disk with
  | nil => exact .refl place disk
  | cons names removed induction =>
      rw [List.foldl_cons]
      obtain ⟨shrunk, outside⟩ := induction (disk.removeAll (place ++ names))
      constructor
      · exact (Disk.Shrunk.of_removeAll _).trans shrunk
      · intro other out
        rw [outside other out, Disk.node_removeAll, if_neg]
        intro above
        exact out ((List.prefix_append place names).trans above)

theorem resetDir_ensures (place : List String) :
    Ensures (resetDir station place) start
      (fun _ final => final.machine = start.machine ∧
        Emptied place start.disk final.disk)
      (Broke start fun abort => abort.operation = .resetDir ∧
        abort.before = start.disk ∧
          Thinned place start.disk abort.after) := by
  apply ensures_operate.mono
  · intro _ final given
    obtain ⟨machine, done⟩ := given
    have made := disk_of_bind done
    refine ⟨machine, ?_⟩
    intro other
    rw [(Disk.makeDirectory_spec made).2]
    by_cases same : other = place
    · rw [same, Function.update_self, if_pos rfl]
    · rw [Function.update_of_ne same, if_neg same, Disk.node_removeAll]
  · intro failure final broke
    apply broke.mono
    intro abort shape
    obtain ⟨operation, before, response, after⟩ := shape
    rw [after]
    exact ⟨operation, before, thinned_foldl place _ _⟩

/-- What the cache has for the installation of a package. -/
def cached (start : Site File Archive Content) (package : Entry) :
    Product Archive :=
  (start.machine.cache.files package).installation

theorem cached_congr {final : Site File Archive Content}
    (machine : final.machine = start.machine) (package : Entry) :
    cached final package = cached start package := by
  rw [cached, cached, machine]

def Filled (station : Station File Archive Content)
    (product : Product Archive) (place : List String)
    (before after : Disk String Content) : Prop :=
  ∃ archive tree, product.archive = some archive ∧
    station.externals.unpack archive = some tree ∧
      before.graft place tree = some after

theorem Filled.outside {product : Product Archive} {place : List String}
    {before after : Disk String Content}
    (filled : Filled station product place before after)
    (other : List String) (out : ¬ place <+: other) :
    after.node other = before.node other := by
  obtain ⟨_, _, _, _, grafted⟩ := filled
  rw [(Disk.graft_spec grafted).2.2, if_neg out]

theorem unpackInstallation_ensures (package : Entry) (place : List String) :
    Ensures (unpackInstallation station package place) start
      (fun _ final => final.machine = start.machine ∧
        Filled station (cached start package) place start.disk final.disk)
      (Broke start fun abort => abort.operation = .unpack ∧
        abort.before = start.disk ∧ ∀ other, ¬ place <+: other →
          abort.after.node other = start.disk.node other) := by
  apply ensures_operate.mono
  · intro _ final given
    obtain ⟨machine, done⟩ := given
    obtain ⟨archive, stored, done⟩ := Option.bind_eq_some_iff.mp done
    obtain ⟨tree, opened, done⟩ := Option.bind_eq_some_iff.mp done
    exact ⟨machine, archive, tree, stored, opened, disk_of_bind done⟩
  · intro failure final broke
    apply broke.mono
    intro abort shape
    obtain ⟨operation, before, response, after⟩ := shape
    refine ⟨operation, before, ?_⟩
    intro other outside
    rw [after]
    cases grafted : start.disk.graft place response.unpacked with
    | none => rfl
    | some disk =>
        rw [Option.getD_some, (Disk.graft_spec grafted).2.2, if_neg outside]

/-! ## Installing -/

section Stages

variable (station : Station File Archive Content)
  (product : Product Archive) (destination : List String)
  (before after : Disk String Content)

/-- The destination and the directory for the data are empty. -/
def Prepared : Prop :=
  ∃ emptied, Emptied destination before emptied ∧
    Emptied (station.config.dataPlace destination) emptied after

def Ready : Prop :=
  ∃ prepared, Prepared station destination before prepared ∧
    Filled station product (station.config.dataPlace destination) prepared after

def Complete : Prop :=
  ∃ ready content,
    Ready station product destination before ready ∧
      ready.node (station.config.metaPlace destination) = none ∧
        station.snapshots.file product.snapshot = some content ∧
          ready.write (station.config.metaPlace destination) content =
            some after

/-- Where an installation is cut off, and what that leaves. -/
inductive Cut (abort : Abort Content) : Prop where
  | reset (operation : abort.operation = .resetDir)
      (begun : abort.before = before)
      (thinned : Thinned destination abort.before abort.after)
  | resetData (operation : abort.operation = .resetDir)
      (emptied : Emptied destination before abort.before)
      (thinned : Thinned (station.config.dataPlace destination) abort.before
        abort.after)
  | unpack (operation : abort.operation = .unpack)
      (prepared : Prepared station destination before abort.before)
      (outside : ∀ other,
        ¬ station.config.dataPlace destination <+: other →
          abort.after.node other = abort.before.node other)
  | find (operation : abort.operation = .findMeta)
      (ready : Ready station product destination before abort.before)
      (same : abort.after = abort.before)
  | copy (operation : abort.operation = .copyMeta)
      (ready : Ready station product destination before abort.before)
      (absent : abort.before.node (station.config.metaPlace destination) = none)
      (outside : ∀ other, other ≠ station.config.metaPlace destination →
        abort.after.node other = abort.before.node other)
  | touch (operation : abort.operation = .touchMeta)
      (complete : Complete station product destination before abort.before)
      (same : abort.after = abort.before)

inductive InstallFailed (failure : Failure File Archive Content)
    (after : Disk String Content) : Prop where
  | cut (abort : Abort Content) (same : failure = .operation abort)
      (disk : after = abort.after)
      (cut : Cut station product destination before abort)
  | metaExists (same : failure = .metaExists)
      (ready : Ready station product destination before after)
      (exists_ : after.node (station.config.metaPlace destination) ≠ none)

end Stages

variable {destination : List String}

theorem InstallFailed.of_broke {product : Product Archive}
    {before : Disk String Content} {shape : Abort Content → Prop}
    {failure : Failure File Archive Content}
    {final : Site File Archive Content}
    (broke : Broke start shape failure final)
    (cut : ∀ abort, shape abort →
      Cut station product destination before abort) :
    InstallFailed station product destination before failure final.disk := by
  obtain ⟨abort, same, disk, _, holds⟩ := broke
  exact .cut abort same disk (cut abort holds)

variable {package : Entry}

theorem copyMeta_ensures :
    Ensures (copyMeta station package destination) start
      (fun _ final => final.machine = start.machine ∧ ∃ content,
        start.disk.node (station.config.metaPlace destination) = none ∧
          station.snapshots.file (cached start package).snapshot =
            some content ∧
          start.disk.write (station.config.metaPlace destination) content =
            some final.disk)
      (Broke start fun abort => abort.operation = .copyMeta ∧
        abort.before = start.disk ∧
          ∀ other, other ≠ station.config.metaPlace destination →
            abort.after.node other = start.disk.node other) := by
  apply ensures_operate.mono
  · intro _ final given
    obtain ⟨machine, done⟩ := given
    obtain ⟨content, stored, done⟩ := Option.bind_eq_some_iff.mp done
    dsimp only at done
    split at done
    · rename_i absent
      exact ⟨machine, content, absent, stored, disk_of_bind done⟩
    · cases done
  · intro failure final broke
    apply broke.mono
    intro abort shape
    obtain ⟨operation, before, response, after⟩ := shape
    refine ⟨operation, before, ?_⟩
    intro other different
    rw [after]
    split
    · cases written : response.copied.bind
          (start.disk.write (station.config.metaPlace destination)) with
      | none => rfl
      | some disk =>
          obtain ⟨content, _, wrote⟩ := Option.bind_eq_some_iff.mp written
          exact Disk.node_write_of_ne wrote different
    · rfl

theorem extract_ensures (place : List String) :
    Ensures (extract station package place) start
      (fun _ final => final.machine = start.machine ∧ ∃ prepared,
        Emptied place start.disk prepared ∧
          Filled station (cached start package) place prepared final.disk)
      (Broke start fun abort =>
        abort.operation = .resetDir ∧ abort.before = start.disk ∧
            Thinned place abort.before abort.after ∨
          abort.operation = .unpack ∧
            Emptied place start.disk abort.before ∧
              ∀ other, ¬ place <+: other →
                abort.after.node other = abort.before.node other) := by
  rw [extract, ensures_bind]
  apply (resetDir_ensures place).mono
  · intro _ prepared given
    obtain ⟨machine, emptied⟩ := given
    apply (unpackInstallation_ensures package place).mono
    · intro _ final given
      obtain ⟨machines, filled⟩ := given
      rw [machine] at machines
      rw [cached_congr machine] at filled
      exact ⟨machines, prepared.disk, emptied, filled⟩
    · intro failure final broke
      apply broke.later machine
      intro abort shape
      obtain ⟨operation, before, outside⟩ := shape
      rw [← before] at emptied outside
      exact .inr ⟨operation, emptied, outside⟩
  · intro failure final broke
    apply broke.mono
    intro abort shape
    obtain ⟨operation, before, thinned⟩ := shape
    exact .inl ⟨operation, before, before ▸ thinned⟩

theorem finish_ensures {before : Disk String Content}
    (ready : Ready station (cached start package) destination before
      start.disk)
    (absent : start.disk.node (station.config.metaPlace destination) = none) :
    Ensures
      (do
        copyMeta station package destination
        touchMeta station destination) start
      (fun _ final => final.machine = start.machine ∧
        Complete station (cached start package) destination before
          final.disk)
      (Broke start
        (Cut station (cached start package) destination before)) := by
  rw [ensures_bind]
  apply copyMeta_ensures.mono
  · intro _ copied given
    obtain ⟨machine, content, _, stored, written⟩ := given
    have complete : Complete station (cached start package) destination
        before copied.disk :=
      ⟨start.disk, content, ready, absent, stored, written⟩
    apply ensures_inspect.mono
    · intro _ final given
      obtain ⟨machines, disk, _⟩ := given
      rw [machines, disk]
      exact ⟨machine, complete⟩
    · intro failure final broke
      apply broke.later machine
      intro abort shape
      obtain ⟨operation, begun, after⟩ := shape
      rw [← begun] at complete after
      exact .touch operation complete after
  · intro failure final broke
    apply broke.mono
    intro abort shape
    obtain ⟨operation, begun, outside⟩ := shape
    rw [← begun] at ready absent outside
    exact .copy operation ready absent outside

/-- An installation that ends normally is complete, and one that fails is cut
off in one of its operations or finds something in the place of its meta
file. -/
theorem install_ensures :
    Ensures (install station package destination) start
      (fun _ final => final.machine = start.machine ∧
        Complete station (cached start package) destination start.disk
          final.disk)
      (fun failure final => final.machine = start.machine ∧
        InstallFailed station (cached start package) destination start.disk
          failure final.disk) := by
  simp only [install, ensures_bind (resetDir _ _),
    ensures_bind (extract _ _ _), ensures_bind (inspect _ _ _)]
  apply (resetDir_ensures destination).mono
  · intro _ emptied given
    obtain ⟨machine, isEmptied⟩ := given
    apply (extract_ensures (station.config.dataPlace destination)).mono
    · intro _ ready given
      obtain ⟨machines, prepared, isPrepared, filled⟩ := given
      rw [machine] at machines
      rw [cached_congr machine] at filled
      have isReady : Ready station (cached start package) destination
          start.disk ready.disk :=
        ⟨prepared, ⟨emptied.disk, isEmptied, isPrepared⟩, filled⟩
      apply ensures_inspect.mono
      · intro found looked given
        obtain ⟨machineLooked, diskLooked, isFound⟩ := given
        have same := machineLooked.trans machines
        have isFound := Option.some.inj isFound
        rw [← diskLooked] at isReady isFound
        split
        · rename_i present
          rw [present] at isFound
          refine ⟨same, .metaExists rfl isReady ?_⟩
          exact Option.isSome_iff_ne_none.mp isFound
        · rename_i missing
          have absent : looked.disk.node
              (station.config.metaPlace destination) = none := by
            rw [← Option.not_isSome_iff_eq_none, isFound]
            exact missing
          rw [← cached_congr same] at isReady ⊢
          rw [← same]
          apply (finish_ensures isReady absent).mono
          · exact fun _ final done => done
          · intro failure final broke
            exact ⟨broke.machine, .of_broke broke fun _ cut => cut⟩
      · intro failure final broke
        refine ⟨broke.machine.trans machines, .of_broke broke ?_⟩
        intro abort shape
        obtain ⟨operation, before, after⟩ := shape
        rw [← before] at isReady after
        exact .find operation isReady after
    · intro failure final broke
      refine ⟨broke.machine.trans machine, .of_broke broke ?_⟩
      intro abort shape
      obtain ⟨operation, before, thinned⟩ | ⟨operation, prepared, outside⟩ :=
        shape
      · rw [← before] at isEmptied
        exact .resetData operation isEmptied thinned
      · exact .unpack operation ⟨emptied.disk, isEmptied, prepared⟩ outside
  · intro failure final broke
    refine ⟨broke.machine, .of_broke broke ?_⟩
    intro abort shape
    obtain ⟨operation, before, thinned⟩ := shape
    exact .reset operation before (before ▸ thinned)

theorem createDirectories_ensures (place : List String) :
    Ensures (createDirectories station place) start
      (fun _ final => final.machine = start.machine ∧
        start.disk.makeDirectories place.inits = some final.disk)
      (Broke start fun abort => abort.operation = .createDirectories ∧
        abort.before = start.disk ∧ ∃ created, abort.after =
          (start.disk.makeDirectories (place.inits.take created)).getD
            start.disk) := by
  apply ensures_operate.mono
  · intro _ final given
    obtain ⟨machine, done⟩ := given
    exact ⟨machine, disk_of_bind done⟩
  · intro failure final broke
    apply broke.mono
    intro abort shape
    obtain ⟨operation, before, response, after⟩ := shape
    exact ⟨operation, before, response.created, after⟩

/-! ## Updating -/

/-- The snapshot that the meta file is read as. -/
def reads (snapshots : SnapshotFormat Content) (config : ExtractConfig)
    (destination : List String) (disk : Disk String Content) :
    Option Snapshot := do
  let content ← disk.file? (config.metaPlace destination)
  snapshots.read content

theorem readMeta_ensures :
    Ensures (readMeta station destination) start
      (fun snapshot final => final.machine = start.machine ∧
        final.disk = start.disk ∧ ∀ found, snapshot = some found →
          reads station.snapshots station.config destination start.disk =
            some found)
      (fun _ _ => False) := by
  simp only [readMeta, ensures_tryCatch]
  apply ensures_inspect.mono
  · intro snapshot final given
    obtain ⟨machine, disk, read⟩ := given
    refine ⟨machine, disk, ?_⟩
    intro found same
    simp only [Option.bind_eq_bind, Option.bind_eq_some_iff] at read
    obtain ⟨content, file, stored, isStored, pair⟩ := read
    cases pair
    cases same
    exact Option.bind_eq_some_iff.mpr ⟨content, file, isStored⟩
  · intro failure final broke
    obtain ⟨abort, _, disk, machine, _, before, after⟩ := broke
    refine ⟨machine, disk.trans after, ?_⟩
    intro found same
    cases same

theorem storedSnapshot_ensures :
    Ensures (storedSnapshot station destination) start
      (fun snapshot final => final.machine = start.machine ∧
        final.disk = start.disk ∧ ∀ found, snapshot = some found →
          reads station.snapshots station.config destination start.disk =
            some found)
      (fun _ final => final.machine = start.machine ∧
        final.disk = start.disk) := by
  rw [storedSnapshot, ensures_bind]
  apply ensures_inspect.mono
  · intro regular checked given
    obtain ⟨machine, disk, _⟩ := given
    split
    · apply readMeta_ensures.mono
      · intro snapshot final given
        rw [machine, disk] at given
        exact given
      · intro _ _ impossible
        exact impossible.elim
    · refine ⟨machine, disk, ?_⟩
      intro found same
      cases same
  · intro failure final broke
    obtain ⟨abort, _, disk, machine, _, before, after⟩ := broke
    exact ⟨machine, disk.trans after⟩

theorem outdated_ensures :
    Ensures (outdated station package destination) start
      (fun outdated final =>
        final.machine.cache = start.machine.cache ∧
          final.disk = start.disk ∧ (outdated = false → ∃ snapshot,
            reads station.snapshots station.config destination start.disk =
                some snapshot ∧
              (cached start package).snapshot = .value snapshot))
      (fun _ final => final.machine.cache = start.machine.cache ∧
        final.disk = start.disk) := by
  rw [outdated, ensures_bind]
  apply storedSnapshot_ensures.mono
  · intro stored read given
    obtain ⟨machine, disk, found⟩ := given
    cases stored with
    | none =>
        refine ⟨congrArg Machine.cache machine, disk, ?_⟩
        intro impossible
        cases impossible
    | some stored =>
        rw [ensures_bind]
        apply (ensures_onCache (readSnapshot_ensures station.faults package
          .installation)).mono
        · intro current final given
          obtain ⟨same, value, machines⟩ := given
          rw [ensures_pure]
          rw [machine] at value machines
          refine ⟨machines.1, same.trans disk, ?_⟩
          intro isCurrent
          have equal : stored = current := by
            simpa using isCurrent
          refine ⟨stored, found stored rfl, ?_⟩
          rw [equal]
          exact value
        · intro failure final given
          obtain ⟨same, reason, _, abort, _, harmless⟩ := given
          rw [machine] at harmless
          exact ⟨harmless, same.trans disk⟩
  · intro failure final given
    obtain ⟨machine, disk⟩ := given
    exact ⟨congrArg Machine.cache machine, disk⟩

theorem cached_of_cache {final : Site File Archive Content}
    (cache : final.machine.cache = start.machine.cache) (package : Entry) :
    cached final package = cached start package := by
  rw [cached, cached, cache]

/-- An update leaves an installation with the cached snapshot as it is;
otherwise it installs. -/
theorem update_ensures :
    Ensures (update station package destination) start
      (fun _ final => final.machine.cache = start.machine.cache ∧
        (final.disk = start.disk ∧
            (∃ snapshot,
              reads station.snapshots station.config destination start.disk =
                  some snapshot ∧
                (cached start package).snapshot = .value snapshot) ∨
          Complete station (cached start package) destination start.disk
            final.disk))
      (fun failure final => final.machine.cache = start.machine.cache ∧
        (final.disk = start.disk ∨
          InstallFailed station (cached start package) destination start.disk
            failure final.disk)) := by
  rw [update, ensures_bind]
  apply outdated_ensures.mono
  · intro outdated checked given
    obtain ⟨cache, disk, current⟩ := given
    cases outdated with
    | true =>
        rw [if_pos rfl]
        apply install_ensures.mono
        · intro _ final given
          rw [disk, cached_of_cache cache] at given
          exact ⟨(congrArg Machine.cache given.1).trans cache, .inr given.2⟩
        · intro failure final given
          rw [disk, cached_of_cache cache] at given
          exact ⟨(congrArg Machine.cache given.1).trans cache, .inr given.2⟩
    | false =>
        rw [if_neg Bool.false_ne_true]
        apply ensures_inspect.mono
        · intro _ final given
          obtain ⟨machine, same, _⟩ := given
          exact ⟨(congrArg Machine.cache machine).trans cache,
            .inl ⟨same.trans disk, current rfl⟩⟩
        · intro failure final broke
          obtain ⟨abort, _, same, machine, _, _, after⟩ := broke
          exact ⟨(congrArg Machine.cache machine).trans cache,
            .inl (same.trans (after.trans disk))⟩
  · intro failure final given
    exact ⟨given.1, .inl given.2⟩

/-- Whether an update is needed is found out without changing anything. -/
theorem needUpdate_ensures (lifetime : Int) :
    Ensures (needUpdate station destination lifetime) start
      (fun _ final => final.machine = start.machine ∧
        final.disk = start.disk)
      (fun _ final => final.machine = start.machine ∧
        final.disk = start.disk) := by
  have unchanged : ∀ {operation : Operation}
      {middle final : Site File Archive Content}
      {failure : Failure File Archive Content},
      middle.machine = start.machine → middle.disk = start.disk →
      Broke middle (Unchanged middle operation) failure final →
        final.machine = start.machine ∧ final.disk = start.disk := by
    intro operation middle final failure machine disk broke
    obtain ⟨abort, _, same, machines, _, _, after⟩ := broke
    exact ⟨machines.trans machine, same.trans (after.trans disk)⟩
  rw [needUpdate, ensures_bind]
  apply ensures_inspect.mono
  · intro regular checked given
    obtain ⟨machine, disk, _⟩ := given
    split
    · exact ⟨machine, disk⟩
    · simp only [ensures_bind, ensures_get]
      apply ensures_inspect.mono
      · intro written final given
        obtain ⟨machines, disks, _⟩ := given
        exact ⟨machines.trans machine, disks.trans disk⟩
      · intro failure final broke
        exact unchanged machine disk broke
  · intro failure final broke
    exact unchanged rfl rfl broke

end Bacs.Pm.Extractor
