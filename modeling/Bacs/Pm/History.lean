import Bacs.Foundation.Runs
import Bacs.Pm.Agreement

/-!
# Histories of updates

A cache goes through any number of updates of any packages, while the remote
repository changes in between.  As long as the cache stays sound, what an
update leaves installed is what an update of an empty cache would install.
-/

namespace Bacs.Pm

open Foundation DepthFirst Relation

section Histories

variable {File Archive Tree : Type}

/-- One call of `update`, with the remote repository at that time. -/
structure Run (File Archive : Type) where
  remote : Remote File
  faults : Faults File Archive
  fuel : Nat
  package : Entry

section Updates

variable (externals : Externals File Archive Tree) (format : Format)

def Run.setting (run : Run File Archive) : Setting File Archive Tree :=
  { externals, format, remote := run.remote, faults := run.faults }

def Run.update (run : Run File Archive) (cache : Cache File Archive) :
    EStateM.Result (Failure File Archive) (Machine File Archive)
      (List (Stage × StageResult)) :=
  Pm.update (run.setting externals format) run.fuel run.package ⟨cache, 0, []⟩

/-- The cache that a run leaves, whether it succeeds or not. -/
def afterUpdate (cache : Cache File Archive) (run : Run File Archive) :
    Option (Cache File Archive) :=
  match run.update externals format cache with
  | .ok _ final => some final.cache
  | .error _ final => some final.cache

def Succeeds (cache : Cache File Archive) (run : Run File Archive) : Prop :=
  Normal (run.update externals format cache)

/-- If a file operation of the run fails, it is not exposed. -/
def Guarded (cache : Cache File Archive) (run : Run File Archive) : Prop :=
  ∀ abort final,
    run.update externals format cache = .error (.operation abort) final →
      ¬ abort.Exposed externals

/-- The installation of the package has the contents that every update of it
in an empty cache gives. -/
def InstalledAsClean (run : Run File Archive) (cache : Cache File Archive)
    (package : Entry) : Prop :=
  ∃ archive tree,
    (cache.files package).installation.archive = some archive ∧
    externals.unpack archive = some tree ∧
    ∀ faults fuel done final,
      Pm.update { run.setting externals format with faults } fuel package
        ⟨.empty, 0, []⟩ = .ok done final →
      ∃ archive', (final.cache.files package).installation.archive =
          some archive' ∧ externals.unpack archive' = some tree

end Updates

variable {externals : Externals File Archive Tree} {format : Format}
  {cache : Cache File Archive} {run : Run File Archive}

theorem Sound.empty :
    Sound externals format (Cache.empty : Cache File Archive) := by
  intro package kind archive snapshot stored
  cases kind <;> cases stored

/-- In a sound cache, the archive of a finished stage has the contents that
the snapshot of the stage denotes. -/
theorem Searching.contents {setting : Setting File Archive Tree}
    {base : Cache File Archive} {area : Entry → Prop}
    {done : List (Stage × StageResult)} {final : Machine File Archive}
    {stage : Stage} {result : StageResult} {kind : Kind}
    (searching : Searching setting base area done final)
    (sound : Sound setting.externals setting.format final.cache)
    (inDone : (stage, result) ∈ done) (isKind : stage.2.kind = some kind) :
    ∃ archive tree,
      ((final.cache.files stage.1).product kind).archive = some archive ∧
        setting.externals.unpack archive = some tree ∧
        Denotes setting.externals setting.format result.2
          (kind.task stage.1) tree := by
  obtain ⟨archive, current⟩ :=
    searching.planned.current stage result kind inDone isKind
  obtain ⟨tree, opened, denotes⟩ := sound stage.1 kind archive result.2
    (by rw [current]) (by rw [current])
  exact ⟨archive, tree, by rw [current], opened, denotes⟩

theorem Updated.installedAsClean (faithful : Faithful externals)
    {start repaired fetched final : Machine File Archive}
    {visited : List Entry} {done : List (Stage × StageResult)}
    (updated : Updated (run.setting externals format) start run.package
      repaired fetched visited done final)
    (sound : Sound externals format final.cache) {package : Entry}
    (reached : Reaches (run.setting externals format) final.cache run.package
      (package, .installation)) :
    InstalledAsClean externals format run final.cache package := by
  have index : (run.setting externals format).index final.cache =
      (run.setting externals format).index fetched.cache :=
    funext (updated.searching.planned.settled.indexOf externals)
  rw [Reaches, index] at reached
  obtain ⟨⟨_, result⟩, inDone, rfl⟩ :=
    List.mem_map.mp ((updated.mem_iff _).mpr reached)
  obtain ⟨archive, tree, stored, opened, denotes⟩ :=
    updated.searching.contents sound inDone rfl
  refine ⟨archive, tree, stored, opened, ?_⟩
  intro faults fuel done' final' ended
  have clean : Ensures (Pm.update
      { run.setting externals format with faults } fuel package)
      ⟨.empty, 0, []⟩ _ _ := update_ensures fuel package
  obtain ⟨repaired', fetched', visited', updated'⟩ := clean.of_ok ended
  have aligned := updated.tree.aligned updated'.tree
    fun _ _ _ _ _ _ _ equal => faithful.checksum equal
  obtain ⟨⟨_, result'⟩, inDone', rfl⟩ :=
    List.mem_map.mp ((updated'.mem_iff (package, .installation)).mpr .refl)
  have both : package ∈ visited ∧ package ∈ visited' :=
    ⟨(updated.searching.allowed _ inDone).2,
      (updated'.searching.allowed _ inDone').2⟩
  have same := aligned.snapshot_eq both
    (updated.searching.planned.snapshots _ result inDone)
    (updated'.searching.planned.snapshots _ result' inDone')
  obtain ⟨archive', tree', stored', opened', denotes'⟩ :=
    updated'.searching.contents (updated'.sound faithful Sound.empty)
      inDone' rfl
  rw [← same] at denotes'
  have contents : tree' = tree :=
    Denotes.functional faithful.checksum denotes' denotes
  exact ⟨archive', stored', opened'.trans (congrArg some contents)⟩

theorem Guarded.sound (faithful : Faithful externals)
    (guarded : Guarded externals format cache run)
    (sound : Sound externals format cache) {after : Cache File Archive}
    (taken : afterUpdate externals format cache run = some after) :
    Sound externals format after := by
  have contract : Ensures
      (Pm.update (run.setting externals format) run.fuel run.package)
      ⟨cache, 0, []⟩ _ _ := update_ensures run.fuel run.package
  unfold afterUpdate at taken
  cases ended : run.update externals format cache with
  | ok done final =>
      rw [ended] at taken
      cases taken
      obtain ⟨_, _, _, updated⟩ := contract.of_ok ended
      exact updated.sound faithful sound
  | error failure final =>
      rw [ended] at taken
      cases taken
      refine (contract.of_error ended).sound ?_ faithful sound
      intro abort found
      subst found
      exact guarded abort final ended

theorem Succeeds.guarded (succeeds : Succeeds externals format cache run) :
    Guarded externals format cache run := by
  obtain ⟨done, final, ended⟩ := succeeds
  intro abort other failed
  rw [ended] at failed
  cases failed

theorem sound_of_runs (faithful : Faithful externals)
    (history : Runs (afterUpdate externals format)
      (Guarded externals format) .empty cache) :
    Sound externals format cache :=
  history.invariant Sound.empty fun _ _ _ sound guarded taken =>
    guarded.sound faithful sound taken

/-- After any history in a sound cache, a successful run leaves installed
what a clean one would. -/
theorem installedAsClean_of_sound (faithful : Faithful externals)
    (sound : Sound externals format cache)
    {done : List (Stage × StageResult)} {final : Machine File Archive}
    (ended : run.update externals format cache = .ok done final)
    {package : Entry}
    (reached : Reaches (run.setting externals format) final.cache run.package
      (package, .installation)) :
    InstalledAsClean externals format run final.cache package := by
  have contract : Ensures
      (Pm.update (run.setting externals format) run.fuel run.package)
      ⟨cache, 0, []⟩ _ _ := update_ensures run.fuel run.package
  obtain ⟨_, _, _, updated⟩ := contract.of_ok ended
  exact updated.installedAsClean faithful (updated.sound faithful sound)
    reached

end Histories

/-- Updating a cache step by step is as good as a clean build. -/
theorem updates_as_clean {File Archive Tree : Type}
    (externals : Externals File Archive Tree)
    (format : Format) (faithful : Faithful externals)
    (cache : Cache File Archive)
    (history : Runs (afterUpdate externals format)
      (Succeeds externals format) .empty cache)
    (run : Run File Archive) (done : List (Stage × StageResult))
    (final : Machine File Archive)
    (ended : run.update externals format cache = .ok done final)
    (package : Entry)
    (reached : Reaches (run.setting externals format) final.cache run.package
      (package, .installation)) :
    InstalledAsClean externals format run final.cache package :=
  installedAsClean_of_sound faithful
    (sound_of_runs faithful (history.mono fun _ _ => Succeeds.guarded))
    ended reached

namespace Sample

theorem faithful : Faithful externals where
  checksum := fun _ _ same => same
  unpack := fun _ => rfl

def run (remote : Remote String) (faults : Faults String Contents)
    (package : Entry) : Run String Contents :=
  { remote, faults, fuel := 9, package }

/-- An update of `b`. -/
def firstRun : Run String Contents :=
  run (remote "sums a" "main a") noFaults b

/-- Another one, after the source of `a` has changed. -/
def secondRun : Run String Contents :=
  run (remote "new sums a" "new main a") noFaults b

end Sample

theorem updates_as_clean_sample :
    ∃ cache done final,
      afterUpdate Sample.externals Sample.format .empty Sample.firstRun =
        some cache ∧
      Sample.secondRun.update Sample.externals Sample.format cache =
        .ok done final ∧
      InstalledAsClean Sample.externals Sample.format Sample.secondRun
        final.cache Sample.b := by
  have both : Normal (Sample.twice
      (Sample.firstRun.setting Sample.externals Sample.format)
      (Sample.secondRun.setting Sample.externals Sample.format) Sample.b
      Sample.start) := by
    decide +kernel
  have once : Succeeds Sample.externals Sample.format .empty
      Sample.firstRun := by
    unfold Succeeds
    decide +kernel
  obtain ⟨done, middle, ended⟩ := id once
  have taken : afterUpdate Sample.externals Sample.format .empty
      Sample.firstRun = some middle.cache := by
    rw [afterUpdate, ended]
  obtain ⟨done', final, endedAgain⟩ := (both.of_bind ended).of_bind rfl
  exact ⟨middle.cache, done', final, taken, endedAgain,
    updates_as_clean Sample.externals Sample.format Sample.faithful
      middle.cache (.single once taken) Sample.secondRun done' final
      endedAgain Sample.b .refl⟩

/-- Updates that fail leave no false snapshot if their failures are
guarded. -/
theorem aborted_updates_sound {File Archive Tree : Type}
    (externals : Externals File Archive Tree)
    (format : Format) (faithful : Faithful externals)
    (cache : Cache File Archive)
    (history : Runs (afterUpdate externals format)
      (Guarded externals format) .empty cache) :
    Sound externals format cache ∧
      ∀ run done final,
        run.update externals format cache = .ok done final →
        ∀ package, Reaches (run.setting externals format) final.cache
            run.package (package, .installation) →
          InstalledAsClean externals format run final.cache package := by
  have sound := sound_of_runs faithful history
  exact ⟨sound, fun _ _ _ ended _ reached =>
    installedAsClean_of_sound faithful sound ended reached⟩

namespace Sample

/-- The faults of a run in which one operation fails. -/
def oneFault (operation : Nat) (snapshot : Slot Snapshot) :
    Faults String Contents where
  aborts := fun number => number == operation
  residue := fun _ =>
    { file := none, archive := none, snapshot, version := .absent
      removed := fun _ _ => false }

/-- An update of `b` that fails when a snapshot is written. -/
def failedRun : Run String Contents :=
  run (remote "sums a" "main a") (oneFault 34 .garbled) b

/-- A snapshot was being written and cannot be read. -/
def leavesUnreadable {Value : Type} :
    EStateM.Result (Failure String Contents) (Machine String Contents)
      Value → Bool
  | .error (.operation ⟨.writeSnapshot _ _ _, _, residue⟩) _ =>
      residue.snapshot.read.isNone
  | _ => false

theorem not_exposed {Value : Type} {abort : Abort String Contents}
    {final : Machine String Contents}
    (failed : leavesUnreadable
      (.error (.operation abort) final : EStateM.Result _ _ Value) = true) :
    ¬ abort.Exposed externals := by
  obtain ⟨operation, before, residue⟩ := abort
  cases operation with
  | writeSnapshot kind package written =>
      intro found
      obtain ⟨snapshot, isSnapshot, _⟩ := found
      simp only [leavesUnreadable] at failed
      simp only at isSnapshot
      rw [isSnapshot] at failed
      cases failed
  | _ => cases failed

end Sample

theorem aborted_updates_sound_sample :
    ∃ cache, afterUpdate Sample.externals Sample.format .empty
        Sample.failedRun = some cache ∧
      Sound Sample.externals Sample.format cache := by
  have failed : Sample.leavesUnreadable
      (Sample.failedRun.update Sample.externals Sample.format .empty) =
        true := by
    decide +kernel
  cases ended : Sample.failedRun.update Sample.externals Sample.format .empty
    with
  | ok done final =>
      rw [ended] at failed
      cases failed
  | error failure final =>
      rw [ended] at failed
      have taken : afterUpdate Sample.externals Sample.format .empty
          Sample.failedRun = some final.cache := by
        rw [afterUpdate, ended]
      refine ⟨final.cache, taken, (aborted_updates_sound Sample.externals
        Sample.format Sample.faithful final.cache (.single ?_ taken)).1⟩
      intro abort other stopped
      cases ended.symm.trans stopped
      exact Sample.not_exposed failed

namespace Sample

def snapshotA : Snapshot := Finmap.singleton a (sums "index a" "main a")

/-- An update of `a`, and another one after its source has changed, in which
the snapshot of the build is not written: the old one stays. -/
def interrupted : List (Run String Contents) :=
  [run (remote "sums a" "main a") noFaults a,
    run (remote "new sums a" "new main a") (oneFault 21 (.value snapshotA)) a]

def buildOfA (cache : Cache String Contents) :
    Option Contents × Option Snapshot :=
  ((cache.files a).build.archive, (cache.files a).build.snapshot.read)

/-- In a sound cache the contents of an archive follow from the snapshot. -/
theorem contents_unique {first second : Cache String Contents}
    {archive archive' : Contents} {snapshot : Snapshot}
    (one : Sound externals format first)
    (two : Sound externals format second)
    (left : buildOfA first = (some archive, some snapshot))
    (right : buildOfA second = (some archive', some snapshot)) :
    archive = archive' := by
  obtain ⟨stored, written⟩ := Prod.mk.inj left
  obtain ⟨stored', written'⟩ := Prod.mk.inj right
  obtain ⟨tree, opened, denotes⟩ :=
    one a .build archive snapshot stored (Slot.read_eq_some.mp written)
  obtain ⟨tree', opened', denotes'⟩ :=
    two a .build archive' snapshot stored' (Slot.read_eq_some.mp written')
  cases opened
  cases opened'
  exact denotes.functional faithful.checksum denotes'

end Sample

/-- An update that fails between packing an archive and writing its snapshot
leaves a new archive beside an old snapshot. -/
theorem aborted_update_unsound :
    Faithful Sample.externals ∧
      ∃ cache, Runs (afterUpdate Sample.externals Sample.format)
          (fun _ _ => True) .empty cache ∧
        ¬ Sound Sample.externals Sample.format cache := by
  have first : (execute (afterUpdate Sample.externals Sample.format) .empty
      (Sample.interrupted.take 1)).map Sample.buildOfA =
        some (some [(["src"], "main a")], some Sample.snapshotA) := by
    decide +kernel
  have second : (execute (afterUpdate Sample.externals Sample.format) .empty
      Sample.interrupted).map Sample.buildOfA =
        some (some [(["src"], "new main a")], some Sample.snapshotA) := by
    decide +kernel
  obtain ⟨clean, executed, isFirst⟩ := Option.map_eq_some_iff.mp first
  obtain ⟨cache, executed', isSecond⟩ := Option.map_eq_some_iff.mp second
  have succeeds : Succeeds Sample.externals Sample.format .empty
      (Sample.run (Sample.remote "sums a" "main a") Sample.noFaults
        Sample.a) := by
    unfold Succeeds
    decide +kernel
  have taken : afterUpdate Sample.externals Sample.format .empty
      (Sample.run (Sample.remote "sums a" "main a") Sample.noFaults
        Sample.a) = some clean := by
    simpa [execute, Sample.interrupted] using executed
  have sound : Sound Sample.externals Sample.format clean :=
    sound_of_runs Sample.faithful (.single succeeds.guarded taken)
  refine ⟨Sample.faithful, cache,
    .of_execute (fun _ _ _ => trivial) executed', fun unsound => ?_⟩
  have same := Sample.contents_unique sound unsound isFirst isSecond
  exact absurd same (by decide)

end Bacs.Pm
