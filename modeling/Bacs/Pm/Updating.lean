import Bacs.Pm.Soundness

/-!
# The contract of `repository::update`

An update verifies the cache, fetches the meta data of the import closure and
brings the stages up to date.  `Updated` says what is known when it ends, and
`update_ensures` what its failures leave.
-/

namespace Bacs.Pm

open Foundation DepthFirst Relation

variable {File Archive Tree : Type} {setting : Setting File Archive Tree}
  {externals : Externals File Archive Tree} {format : Format}
  {faults : Faults File Archive}

/-! ## Verification -/

/-- The archives and snapshots of the second cache are from the first. -/
def Cache.Fewer (before after : Cache File Archive) : Prop :=
  ∀ package kind,
    (∀ archive,
      ((after.files package).product kind).archive = some archive →
        ((before.files package).product kind).archive = some archive) ∧
    ∀ snapshot,
      ((after.files package).product kind).snapshot = .value snapshot →
        ((before.files package).product kind).snapshot = .value snapshot

namespace Cache.Fewer

variable {first second third : Cache File Archive}

theorem refl (cache : Cache File Archive) : cache.Fewer cache :=
  fun _ _ => ⟨fun _ => id, fun _ => id⟩

theorem trans (left : first.Fewer second) (right : second.Fewer third) :
    first.Fewer third :=
  fun package kind =>
    ⟨fun archive stored => (left package kind).1 archive
      ((right package kind).1 archive stored),
    fun snapshot written => (left package kind).2 snapshot
      ((right package kind).2 snapshot written)⟩

theorem strip (cache : Cache File Archive)
    (removed : Entry → Piece → Bool) : cache.Fewer (cache.strip removed) := by
  intro package kind
  cases kind <;>
    simp only [Cache.strip, PackageFiles.strip, PackageFiles.product] <;>
    constructor <;> intro value <;> split <;> simp

end Cache.Fewer

theorem Sound.fewer {before after : Cache File Archive}
    (sound : Sound externals format before) (fewer : before.Fewer after) :
    Sound externals format after :=
  fun package kind archive snapshot stored written =>
    sound package kind archive snapshot
      ((fewer package kind).1 archive stored)
      ((fewer package kind).2 snapshot written)

theorem resetDir_ensures (operation : Operation) (inside : Piece → Bool)
    {machine : Machine File Archive} :
    Ensures (resetDir faults operation inside) machine
      (fun _ final => machine.cache.Fewer final.cache)
      (Failed fun _ cache => machine.cache.Fewer cache) := by
  apply ensures_perform faults
  · intro given cache success
    obtain ⟨⟩ := given
    cases success
    exact .strip _ _
  · intro residue
    exact ⟨_, rfl, .strip _ _⟩

theorem repair_ensures {before : Cache File Archive}
    {machine : Machine File Archive} (fewer : before.Fewer machine.cache) :
    Ensures
      (do
        clean_ faults
        saveMeta faults externals) machine
      (fun _ final => before.Fewer final.cache ∧
        final.cache.version = .value externals.version)
      (Failed fun _ cache => before.Fewer cache) := by
  simp only [clean_, ensures_bind]
  refine (resetDir_ensures _ _).mono ?_
    (fun _ _ failed => failed.mono fun _ _ => fewer.trans)
  intro _ first fewerFirst
  refine (resetDir_ensures _ _).mono ?_
    (fun _ _ failed => failed.mono fun _ _ =>
      (fewer.trans fewerFirst).trans)
  intro _ second fewerSecond
  have all := (fewer.trans fewerFirst).trans fewerSecond
  apply ensures_perform faults
  · intro given cache success
    obtain ⟨⟩ := given
    cases success
    exact ⟨all, rfl⟩
  · intro residue
    exact ⟨_, rfl, all⟩

/-- An operation that reads succeeds if it is not made to fail. -/
theorem query_ok {Value : Type} {operation : Operation}
    {read : Cache File Archive → Option Value} {value : Value}
    {machine : Machine File Archive}
    (runs : faults.aborts machine.clock = false)
    (found : read machine.cache = some value) :
    query faults operation read machine =
      .ok value { machine with clock := machine.clock + 1 } := by
  simp [query, perform, runs, found]

theorem verifyAndRepair_current {machine : Machine File Archive}
    (current : machine.cache.version = .value externals.version)
    (runs : faults.aborts machine.clock = false) :
    Ensures (verifyAndRepair faults externals) machine
      (fun _ final => machine.Same final) (fun _ _ => False) := by
  have loaded : loadMeta faults machine =
      .ok externals.version { machine with clock := machine.clock + 1 } :=
    query_ok runs (by rw [current]; rfl)
  have checked : Ensures
      (do
        let version ← loadMeta faults
        return version != externals.version) machine
      (fun outdated final => outdated = false ∧ machine.Same final)
      (fun _ _ => False) := by
    simp [Ensures, bind, EStateM.bind, loaded, Pure.pure, EStateM.pure,
      Machine.Same]
  rw [verifyAndRepair, ensures_bind, ensures_tryCatch]
  refine checked.mono ?_ (fun _ _ impossible => impossible.elim)
  intro outdated final given
  obtain ⟨rfl, same⟩ := given
  simpa using same

theorem verifyAndRepair_ensures {machine : Machine File Archive} :
    Ensures (verifyAndRepair faults externals) machine
      (fun _ final => machine.cache.Fewer final.cache ∧
        final.cache.version = .value externals.version)
      (Failed fun _ cache => machine.cache.Fewer cache) := by
  simp only [verifyAndRepair, ensures_bind, ensures_tryCatch, ensures_pure]
  apply (ensures_query faults).mono
  · intro version middle given
    obtain ⟨found, same⟩ := given
    by_cases current : version = externals.version
    · simp only [current, bne_self_eq_false, Bool.false_eq_true, if_false,
        ensures_pure]
      rw [same.1, Slot.read_eq_some.mp found, current]
      exact ⟨.refl _, rfl⟩
    · simpa [current] using
        repair_ensures (same.1 ▸ Cache.Fewer.refl machine.cache)
  · intro failure middle given
    obtain ⟨abort, rfl, same⟩ := given
    simpa using repair_ensures (same ▸ Cache.Fewer.refl machine.cache)

/-! ## The update -/

theorem Observed.and {base : Cache File Archive} {area : Entry → Prop}
    {fuel : Nat}
    {first second : List (Stage × StageResult) → Machine File Archive → Prop}
    (left : Observed setting fuel base area first)
    (right : Observed setting fuel base area second) :
    Observed setting fuel base area (fun done machine =>
      first done machine ∧ second done machine) where
  same := fun done before final holds same =>
    ⟨left.same done before final holds.1 same,
      right.same done before final holds.2 same⟩
  step := fun done stage total result before final searching holds allowed
      known fresh collected finished =>
    ⟨left.step done stage total result before final searching holds.1
        allowed known fresh collected finished,
      right.step done stage total result before final searching holds.2
        allowed known fresh collected finished⟩

/-- The cache stays sound if it was sound and archives are faithful. -/
def KeepsSound (setting : Setting File Archive Tree)
    (before after : Cache File Archive) : Prop :=
  Faithful setting.externals →
    Sound setting.externals setting.format before →
      Sound setting.externals setting.format after

/-- What is known of an update that has ended well: `repaired` is the machine
after the verification, and `fetched` the one after `update_meta_tree`. -/
structure Updated (setting : Setting File Archive Tree)
    (start : Machine File Archive) (package : Entry)
    (repaired fetched : Machine File Archive) (visited : List Entry)
    (done : List (Stage × StageResult)) (final : Machine File Archive) :
    Prop where
  untouched : start.cache.version = .value setting.externals.version →
    setting.faults.aborts start.clock = false → start.Same repaired
  version : final.cache.version = .value setting.externals.version
  tree : MetaUpdated setting repaired package visited fetched
  searching : Searching setting fetched.cache (· ∈ visited) done final
  accounted : Accounted setting fetched (· ∈ visited) done final
  sound : KeepsSound setting start.cache final.cache
  mem_iff : ∀ stage, stage ∈ done.map Prod.fst ↔
    Reaches setting fetched.cache package stage

structure UpdateFailed (setting : Setting File Archive Tree)
    (start : Machine File Archive) (failure : Failure File Archive)
    (final : Machine File Archive) : Prop where
  noAssertion : failure ≠ .assertion
  sound : (∀ abort, failure = .operation abort →
    ¬ abort.Exposed setting.externals) →
      KeepsSound setting start.cache final.cache

theorem MetaUpdated.closed {start final : Machine File Archive}
    {package : Entry} {visited : List Entry}
    (updated : MetaUpdated setting start package visited final) :
    Closed (setting.index final.cache) (· ∈ visited) := by
  intro other deps member known imported inDeps
  rw [updated.mem_iff] at member ⊢
  exact member.tail ⟨deps, known, inDeps⟩

/-- A failure of the search for stages keeps the cache sound if it is not
exposed. -/
theorem Interrupted.updateFailed {fuel : Nat}
    {start fetched final : Machine File Archive} {visited : List Entry}
    {failure : Failure File Archive}
    (fresh : ∀ package ∈ visited, Fresh setting fetched.cache package)
    (interrupted : Interrupted setting fuel fetched.cache (· ∈ visited)
      (fun _ machine => KeepsSound setting start.cache machine.cache)
      failure final) : UpdateFailed setting start failure final := by
  cases interrupted with
  | reading _ sound failed =>
      obtain ⟨abort, rfl, same⟩ := failed
      exact ⟨nofun, fun _ faithful holds => same ▸ sound faithful holds⟩
  | finishing searching sound _ children halted =>
      rcases halted with ⟨abort, rfl, damaged⟩ | ⟨_, rfl, same⟩
      · exact ⟨nofun, fun safe faithful holds => damaged.sound faithful fresh
          searching children (sound faithful holds) (safe abort rfl)⟩
      · exact ⟨nofun, fun _ faithful holds => same ▸ sound faithful holds⟩

theorem Interrupted.mono {fuel : Nat} {base : Cache File Archive}
    {area : Entry → Prop}
    {more fewer : List (Stage × StageResult) → Machine File Archive → Prop}
    {failure : Failure File Archive} {final : Machine File Archive}
    (interrupted : Interrupted setting fuel base area more failure final)
    (weaken : ∀ done machine, more done machine → fewer done machine) :
    Interrupted setting fuel base area fewer failure final := by
  cases interrupted with
  | reading searching holds failed =>
      exact .reading searching (weaken _ _ holds) failed
  | finishing searching holds allowed children halted =>
      exact .finishing searching (weaken _ _ holds) allowed children halted

theorem updateStages_updated {fuel : Nat} {package : Entry}
    {start repaired fetched : Machine File Archive} {visited : List Entry}
    (unchanged : start.cache.version = .value setting.externals.version →
      setting.faults.aborts start.clock = false → start.Same repaired)
    (version : repaired.cache.version = .value setting.externals.version)
    (updated : MetaUpdated setting repaired package visited fetched)
    (sound : KeepsSound setting start.cache fetched.cache) :
    Ensures (updateStages setting fuel package) fetched
      (fun done final =>
        Updated setting start package repaired fetched visited done final)
      (UpdateFailed setting start) := by
  have observed := (Accounted.observed setting fuel fetched
    (· ∈ visited)).and (Sound.observed fuel updated.toured.fresh
      (Sound setting.externals setting.format start.cache))
  have first : package ∈ visited := (updated.mem_iff package).mpr .refl
  apply (updateStages_ensures updated.closed observed first
    ⟨.initial fetched, sound⟩).mono
  · intro done final given
    obtain ⟨searching, ⟨accounted, keeps⟩, mem_iff⟩ := given
    exact
      { untouched := unchanged
        version :=
          (accounted.version.trans updated.toured.version).trans version
        tree := updated
        searching := searching
        accounted := accounted
        sound := keeps
        mem_iff := mem_iff }
  · intro failure final unfinished
    cases unfinished with
    | circular _ holds _ _ => exact ⟨nofun, fun _ => holds.2⟩
    | outOfFuel _ holds _ => exact ⟨nofun, fun _ => holds.2⟩
    | interrupted interrupted =>
        exact (interrupted.mono fun _ _ => And.right).updateFailed
          updated.toured.fresh

theorem update_ensures (fuel : Nat) (package : Entry)
    {start : Machine File Archive} :
    Ensures (update setting fuel package) start
      (fun done final => ∃ repaired fetched visited,
        Updated setting start package repaired fetched visited done final)
      (UpdateFailed setting start) := by
  have verified : Ensures
      (verifyAndRepair setting.faults setting.externals) start
      (fun _ final => start.cache.Fewer final.cache ∧
        final.cache.version = .value setting.externals.version ∧
        (start.cache.version = .value setting.externals.version →
          setting.faults.aborts start.clock = false → start.Same final))
      (Failed fun _ cache => start.cache.Fewer cache) := by
    by_cases current : start.cache.version =
        .value setting.externals.version ∧
        setting.faults.aborts start.clock = false
    · refine (verifyAndRepair_current current.1 current.2).mono ?_
        (fun _ _ impossible => impossible.elim)
      intro _ final same
      rw [same.1]
      exact ⟨.refl _, current.1, fun _ _ => same⟩
    · refine verifyAndRepair_ensures.mono ?_ (fun _ _ failed => failed)
      exact fun _ final ended => ⟨ended.1, ended.2,
        fun isVersion runs => absurd ⟨isVersion, runs⟩ current⟩
  simp only [update, ensures_bind]
  apply verified.mono
  · intro _ repaired given
    obtain ⟨fewer, version, unchanged⟩ := given
    have everywhere : Covers setting repaired.cache fun _ => True :=
      fun _ _ _ _ _ _ _ _ => trivial
    apply (updateMetaTree_ensures fuel everywhere trivial).mono
    · intro visited fetched updated
      refine (updateStages_updated unchanged version updated
        fun _ sound => ?_).mono ?_ (fun _ _ stopped => stopped)
      · exact (sound.fewer fewer).of_same updated.toured.product
      · exact fun done final ended => ⟨repaired, fetched, visited, ended⟩
    · intro failure final stopped
      cases stopped with
      | outOfFuel same _ =>
          exact ⟨by simp, fun _ _ sound => (sound.fewer fewer).of_same same⟩
      | failed reason =>
          obtain ⟨abort, rfl, same⟩ := reason
          exact ⟨by simp, fun _ _ sound => (sound.fewer fewer).of_same same⟩
  · intro failure final given
    obtain ⟨abort, rfl, fewer⟩ := given
    exact ⟨by simp, fun _ _ sound => sound.fewer fewer⟩

end Bacs.Pm
