import Bacs.Pm.BuildOrder
import Bacs.Pm.Updating

/-!
# Snapshots of planner and builder

The snapshot found for a stage is determined by the indexes and checksum
files of the packages it reaches, so it is the one that the builder writes,
and two updates that see the same meta data find the same snapshots.  In
particular an update that follows another one builds nothing.
-/

namespace Bacs.Pm

open Foundation DepthFirst Relation

variable {File Archive Tree : Type} {setting : Setting File Archive Tree}
  {first second : Cache File Archive} {area : Entry → Prop}
  {stage other : Stage} {package : Entry} {snapshot : Snapshot}

/-- The two caches have the same meta data for the packages in `area`, which
has all their imports. -/
structure Aligned (setting : Setting File Archive Tree)
    (first second : Cache File Archive) (area : Entry → Prop) : Prop where
  closed : Closed (setting.index first) area
  index : ∀ package, area package →
    setting.index first package = setting.index second package
  sum : ∀ package, area package →
    setting.sum first package = setting.sum second package

namespace Aligned

theorem symm (aligned : Aligned setting first second area) :
    Aligned setting second first area where
  closed := fun package deps inArea known =>
    aligned.closed package deps inArea
      ((aligned.index package inArea).trans known)
  index := fun package inArea => (aligned.index package inArea).symm
  sum := fun package inArea => (aligned.sum package inArea).symm

theorem edges_eq (aligned : Aligned setting first second area)
    (inArea : area stage.1) :
    edges (setting.index first) stage = edges (setting.index second) stage := by
  unfold edges
  rw [aligned.index stage.1 inArea]

theorem path (aligned : Aligned setting first second area)
    (inArea : area stage.1)
    (reaches : ReflTransGen (Edge (edges (setting.index first))) stage
      other) :
    ReflTransGen (Edge (edges (setting.index second))) stage other ∧
      area other.1 := by
  induction reaches with
  | refl => exact ⟨.refl, inArea⟩
  | @tail middle next _ edge induction =>
      have isEdge : next ∈ edges (setting.index first) middle := edge
      have inside : area next.1 := by
        unfold edges at isEdge
        cases known : setting.index first middle.1 with
        | none =>
            rw [known] at isEdge
            cases isEdge
        | some deps =>
            rw [known] at isEdge
            rcases fst_of_mem_dependencies isEdge with same | imported
            · exact same ▸ induction.2
            · exact aligned.closed middle.1 deps induction.2 known next.1
                imported
      rw [aligned.edges_eq induction.2] at isEdge
      exact ⟨induction.1.tail isEdge, inside⟩

theorem reached_eq (aligned : Aligned setting first second area)
    (inArea : area stage.1) :
    reached (setting.index first) stage =
      reached (setting.index second) stage := by
  ext package
  exact ⟨fun path => (aligned.path inArea path).1,
    fun path => (aligned.symm.path inArea path).1⟩

theorem lists (aligned : Aligned setting first second area)
    (inArea : area stage.1)
    (listed : Lists (setting.sum first) snapshot
      (reached (setting.index first) stage)) :
    Lists (setting.sum second) snapshot
      (reached (setting.index second) stage) := by
  intro package
  rw [← aligned.reached_eq inArea]
  refine ⟨fun inside => ?_, (listed package).2⟩
  rw [← aligned.sum package (aligned.path inArea inside).2]
  exact (listed package).1 inside

end Aligned

/-! ## Fresh meta data -/

theorem Fresh.sum_eq (one : Fresh setting first package)
    (two : Fresh setting second package) :
    setting.sum first package = setting.sum second package := by
  obtain ⟨file, _, _, remote, stored, _⟩ := one
  obtain ⟨file', _, _, remote', stored', _⟩ := two
  cases remote.symm.trans remote'
  simp only [Setting.sum, Cache.checksumOf, stored, stored']

/-- Fresh indexes are the same if their checksums tell them apart. -/
theorem Fresh.index_eq (one : Fresh setting first package)
    (two : Fresh setting second package)
    (same : ∀ file file', (first.files package).index = some file →
      (second.files package).index = some file' →
      setting.externals.checksum file = setting.externals.checksum file' →
        file = file') :
    setting.index first package = setting.index second package := by
  obtain ⟨sums, entry, file, remote, _, parsed, stored, listed⟩ := one
  obtain ⟨sums', entry', file', remote', _, parsed', stored', listed'⟩ := two
  cases remote.symm.trans remote'
  cases parsed.symm.trans parsed'
  have equal : setting.externals.checksum file =
      setting.externals.checksum file' :=
    Option.some.inj (listed.symm.trans listed')
  rw [← same file file' stored stored' equal] at stored'
  simp only [Setting.index, Cache.indexOf, stored, stored']

variable {start start' repaired repaired' fetched fetched' final final' :
    Machine File Archive}
  {package' : Entry} {visited visited' : List Entry}
  {done done' : List (Stage × StageResult)} {faults : Faults File Archive}

/-- Two updates against the same remote repository are aligned on the
packages that both visit. -/
theorem MetaUpdated.aligned
    (one : MetaUpdated setting repaired package visited fetched)
    (two : MetaUpdated { setting with faults } repaired' package' visited'
      fetched')
    (same : ∀ name ∈ visited, name ∈ visited' → ∀ file file',
      (fetched.cache.files name).index = some file →
      (fetched'.cache.files name).index = some file' →
      setting.externals.checksum file = setting.externals.checksum file' →
        file = file') :
    Aligned setting fetched.cache fetched'.cache
      (fun name => name ∈ visited ∧ name ∈ visited') := by
  have index (name : Entry) (here : name ∈ visited)
      (there : name ∈ visited') :
      setting.index fetched.cache name = setting.index fetched'.cache name :=
    (one.toured.fresh name here).index_eq (two.toured.fresh name there)
      (same name here there)
  refine ⟨?_, fun name both => index name both.1 both.2,
    fun name both => (one.toured.fresh name both.1).sum_eq
      (two.toured.fresh name both.2)⟩
  intro name deps given known other imported
  obtain ⟨here, there⟩ := given
  exact ⟨one.closed name deps here known other imported,
    two.closed name deps there ((index name here there).symm.trans known)
      other imported⟩

/-- What is reached in both of two aligned updates has one snapshot. -/
theorem Aligned.snapshot_eq {result result' : StageResult}
    (aligned : Aligned setting first second area) (inArea : area stage.1)
    (one : Lists (setting.sum first) result.2
      (reached (setting.index first) stage))
    (two : Lists (setting.sum second) result'.2
      (reached (setting.index second) stage)) : result.2 = result'.2 :=
  (aligned.lists inArea one).unique two

/-! ## A second update -/

/-- The second of two updates finds every index as the first one left it. -/
theorem Updated.aligned
    (one : Updated setting start package repaired fetched visited done final)
    (two : Updated { setting with faults } start' package repaired' fetched'
      visited' done' final')
    (continued : repaired'.cache = final.cache) :
    Aligned setting fetched.cache fetched'.cache
      (fun name => name ∈ visited ∧ name ∈ visited') := by
  refine one.tree.aligned two.tree fun name _ there file file' stored stored'
    equal => ?_
  obtain ⟨found, isFound, origin⟩ := two.tree.toured.origin name there
  cases isFound.symm.trans stored'
  have before : (repaired'.cache.files name).index = some file := by
    rw [continued, (one.searching.planned.settled name).1, stored]
  rcases origin with old | ⟨_, differs⟩
  · exact Option.some.inj (before.symm.trans old)
  · exact absurd equal (differs file before)

theorem Updated.nothing_rebuilt
    (one : Updated setting start package repaired fetched visited done final)
    (two : Updated { setting with faults } start' package repaired' fetched'
      visited' done' final')
    (continued : repaired'.cache = final.cache) {result : StageResult}
    (inDone : (stage, result) ∈ done') : result.1 = false := by
  have aligned := one.aligned two continued
  have root : package ∈ visited ∧ package ∈ visited' :=
    ⟨(one.tree.mem_iff package).mpr .refl,
      (two.tree.mem_iff package).mpr .refl⟩
  refine two.accounted.none_rebuilt two.searching ?_ inDone
  intro stage result kind member isKind
  have reaches := (two.mem_iff stage).mp (List.mem_map_of_mem member)
  obtain ⟨path, both⟩ := aligned.symm.path root reaches
  obtain ⟨⟨_, earlier⟩, inFirst, rfl⟩ :=
    List.mem_map.mp ((one.mem_iff stage).mpr path)
  have same := aligned.snapshot_eq both
    (one.searching.planned.snapshots _ earlier inFirst)
    (two.searching.planned.snapshots _ result member)
  obtain ⟨archive, current⟩ :=
    one.searching.planned.current _ earlier kind inFirst isKind
  rw [Cache.productOf, two.tree.toured.product, continued, current, same]
  simp [Product.Stale]

theorem buildEvent_not_mem_lines {event : Event} {result : StageResult}
    (isEvent : buildEvent stage = some event) (kept : result.1 = false) :
    event ∉ lines (other, result) := by
  obtain ⟨name, type⟩ := stage
  obtain ⟨name', type'⟩ := other
  cases type' with
  | installation | build | buildEmpty =>
      simp [lines, buildEvent, kept]
  | source =>
      cases type <;> cases isEvent <;> simp [lines, buildEvent]

/-- The snapshots found for the stages list exactly what they depend on and
are the ones beside their archives, so no assertion fails, and the next
update with the same remote repository builds nothing. -/
theorem snapshots_agree (setting : Setting File Archive Tree) (fuel : Nat)
    (package : Entry) (start : Machine File Archive) :
    (∀ final, update setting fuel package start ≠
      .error .assertion final) ∧
    ∀ done final, update setting fuel package start = .ok done final →
      (∀ stage result, (stage, result) ∈ done →
        Lists (setting.sum final.cache) result.2
            (reached (setting.index final.cache) stage) ∧
          ∀ kind, stage.2.kind = some kind →
            ((final.cache.files stage.1).product kind).snapshot =
              .value result.2) ∧
      ∀ faults fuel' done' final', faults.aborts 0 = false →
        update { setting with faults } fuel' package ⟨final.cache, 0, []⟩ =
          .ok done' final' →
        ∀ stage event, buildEvent stage = some event →
          event ∉ final'.log := by
  have contract : Ensures (update setting fuel package) start _ _ :=
    update_ensures fuel package
  refine ⟨fun final failed => (contract.of_error failed).noAssertion rfl, ?_⟩
  intro done final ended
  obtain ⟨repaired, fetched, visited, updated⟩ := contract.of_ok ended
  have settled := updated.searching.planned.settled
  refine ⟨fun stage result inDone => ⟨?_, fun kind isKind => ?_⟩, ?_⟩
  · have index : setting.index final.cache = setting.index fetched.cache :=
      funext (settled.indexOf setting.externals)
    have sum : setting.sum final.cache = setting.sum fetched.cache :=
      funext (settled.checksumOf setting.externals)
    rw [index, sum]
    exact updated.searching.planned.snapshots stage result inDone
  · obtain ⟨archive, current⟩ :=
      updated.searching.planned.current stage result kind inDone isKind
    rw [current]
  · intro faults fuel' done' final' runs endedAgain stage event isEvent
    have again : Ensures (update { setting with faults } fuel' package)
        ⟨final.cache, 0, []⟩ _ _ := update_ensures fuel' package
    obtain ⟨repaired', fetched', visited', updated'⟩ :=
      again.of_ok endedAgain
    have same := updated'.untouched updated.version runs
    rw [updated'.accounted.log, updated'.tree.toured.log, same.2,
      List.append_nil, List.mem_append, List.mem_flatMap]
    intro given
    obtain ⟨⟨other, result⟩, inDone, line⟩ | visitedLine := given
    · exact buildEvent_not_mem_lines isEvent
        (updated.nothing_rebuilt updated' same.1 inDone) line
    · obtain ⟨name, _, isLine⟩ := List.mem_map.mp visitedLine
      obtain ⟨name', type⟩ := stage
      cases type <;> cases isEvent <;> cases isLine

def Sample.twice (first second : Setting String Contents Contents)
    (package : Entry) : PmM String Contents (List (Stage × StageResult)) := do
  let _ ← update first 9 package
  modify fun machine => ⟨machine.cache, 0, []⟩
  update second 9 package

theorem snapshots_agree_sample :
    ∃ done final done' final',
      update Sample.setting 9 Sample.b Sample.start = .ok done final ∧
      update Sample.setting 9 Sample.b ⟨final.cache, 0, []⟩ =
        .ok done' final' ∧
      ∀ stage event, buildEvent stage = some event → event ∉ final'.log := by
  have both : Normal
      (Sample.twice Sample.setting Sample.setting Sample.b Sample.start) := by
    decide +kernel
  have once : Normal (update Sample.setting 9 Sample.b Sample.start) := by
    decide +kernel
  obtain ⟨done, final, ended⟩ := once
  obtain ⟨done', final', endedAgain⟩ := (both.of_bind ended).of_bind rfl
  exact ⟨done, final, done', final', ended, endedAgain,
    ((snapshots_agree Sample.setting 9 Sample.b Sample.start).2 done final
      ended).2 Sample.noFaults 9 done' final' rfl endedAgain⟩

end Bacs.Pm
