import Bacs.Pm.Planning

/-!
# Contracts of the distributor

A file that was brought up to date has the checksum asked for.  Updating the
sources of a package changes nothing but these; updating its meta data
changes its checksum file and its index.
-/

namespace Bacs.Pm

open Foundation

variable {File Archive Tree : Type} {setting : Setting File Archive Tree}

namespace PackageFiles

variable {files : PackageFiles File Archive} {target : Target}

theorem setFile_self : files.setFile (files.file target) target = files := by
  cases target with
  | index => rfl
  | source source => simp [setFile, PackageFiles.file]

@[simp] theorem setFile_setFile {first second : Option File} :
    (files.setFile first target).setFile second target =
      files.setFile second target := by
  cases target <;> simp [setFile]

end PackageFiles

theorem Cache.update_setFile_self {cache : Cache File Archive}
    {package : Entry} {target : Target} {file : Option File}
    (same : (cache.files package).file target = file) :
    (cache.update package fun files => files.setFile file target) = cache := by
  subst same
  simp [Cache.update, PackageFiles.setFile_self]

/-- After `update_file` the file has the checksum; it is the one that was
there, or the one in the remote repository if that one had another. -/
theorem updateFile_ensures (package : Entry) (target : Target)
    (checksum : Checksum) {machine : Machine File Archive} :
    Ensures (updateFile setting package target checksum) machine
      (fun _ final => ∃ file,
        setting.externals.checksum file = checksum ∧
        ((machine.cache.files package).file target = some file ∨
          setting.resource package (setting.format.remoteName target) =
              some file ∧
            ∀ old, (machine.cache.files package).file target = some old →
              setting.externals.checksum old ≠ checksum) ∧
        final.cache = machine.cache.update package
          (fun files => files.setFile (some file) target) ∧
        final.log = machine.log)
      (Failed fun _ cache => ∃ file, cache = machine.cache.update package
        fun files => files.setFile file target) := by
  have untouched : machine.cache = machine.cache.update package
      fun files => files.setFile
        ((machine.cache.files package).file target) target :=
    (Cache.update_setFile_self rfl).symm
  simp only [updateFile, fileOutdated, ensures_bind]
  refine (ensures_query setting.faults).mono ?_
    (fun _ _ failed => failed.mono fun _ cache same =>
      ⟨_, same.trans untouched⟩)
  intro outdated middle given
  obtain ⟨compared, same⟩ := given
  cases outdated with
  | false =>
      simp only [Bool.false_eq_true, if_false, ensures_pure]
      cases here : (machine.cache.files package).file target with
      | none =>
          rw [here] at compared
          cases compared
      | some file =>
          rw [here] at compared
          refine ⟨file, by simpa using compared, .inl rfl, ?_, same.2⟩
          rw [same.1, Cache.update_setFile_self here]
  | true =>
      simp only [if_true, ensures_bind]
      apply ensures_perform setting.faults
      · intro given cache fetched
        obtain ⟨⟩ := given
        simp only [Option.bind_eq_bind, Option.bind_eq_some_iff] at fetched
        obtain ⟨file, remote, stored⟩ := fetched
        cases stored
        rw [same.1]
        apply (ensures_query setting.faults).mono
        · intro given final given'
          obtain ⟨⟩ := given
          obtain ⟨checked, sameFinal⟩ := given'
          simp only [Cache.files_update_self,
            PackageFiles.file_setFile] at checked
          split at checked
          · rename_i agrees
            refine ⟨file, agrees, .inr ⟨remote, fun old there => ?_⟩,
              sameFinal.1, sameFinal.2.trans same.2⟩
            rw [there] at compared
            simpa using compared
          · cases checked
        · exact fun _ _ failed => failed.mono fun _ _ kept => ⟨_, kept⟩
      · intro residue
        refine ⟨_, rfl, residue.file, ?_⟩
        simp only [same.1]

theorem expectedChecksum_ensures (package : Entry) (target : Target)
    {machine : Machine File Archive} :
    Ensures (expectedChecksum setting package target) machine
      (fun checksum final => machine.Same final ∧ ∃ entry,
        setting.sum machine.cache package = some entry ∧
          entry.lookup (setting.format.checksumName target) = some checksum)
      (Failed (Harmless machine.cache)) := by
  refine (ensures_query setting.faults).mono ?_ (fun _ _ failed => failed)
  intro checksum final given
  obtain ⟨read, same⟩ := given
  simp only [Option.bind_eq_bind, Option.bind_eq_some_iff] at read
  obtain ⟨entry, known, found⟩ := read
  exact ⟨same, entry, known, found⟩

/-! ## Sources -/

/-- Nothing but archives of sources of the package changed. -/
def Cache.Resourced (package : Entry) (before after : Cache File Archive) :
    Prop :=
  ∃ source, after = before.update package fun files => { files with source }

namespace Cache.Resourced

variable {package : Entry} {before middle after : Cache File Archive}

theorem refl (cache : Cache File Archive) : Resourced package cache cache :=
  ⟨(cache.files package).source, by simp [Cache.update]⟩

theorem trans (first : Resourced package before middle)
    (second : Resourced package middle after) :
    Resourced package before after := by
  obtain ⟨one, rfl⟩ := first
  obtain ⟨two, rfl⟩ := second
  exact ⟨two, by simp⟩

theorem setFile (cache : Cache File Archive) (source : SourceId)
    (file : Option File) : Resourced package cache
      (cache.update package fun files =>
        files.setFile file (.source source)) := by
  refine ⟨Function.update (cache.files package).source source file, ?_⟩
  simp [Cache.update, PackageFiles.setFile]

theorem settled (resourced : Resourced package before after) :
    before.Settled after := by
  obtain ⟨source, rfl⟩ := resourced
  exact (Cache.Settled.refl before).update rfl rfl

theorem product (resourced : Resourced package before after)
    (other : Entry) (kind : Kind) :
    (after.files other).product kind = (before.files other).product kind := by
  obtain ⟨source, rfl⟩ := resourced
  exact Cache.files_update_frame (fun files => files.product kind)
    (by cases kind <;> rfl) other

theorem version (resourced : Resourced package before after) :
    after.version = before.version := by
  obtain ⟨source, rfl⟩ := resourced
  rfl

theorem source (resourced : Resourced package before after) {other : Entry}
    (different : other ≠ package) :
    (after.files other).source = (before.files other).source := by
  obtain ⟨source, rfl⟩ := resourced
  rw [Cache.files_update_of_ne different]

end Cache.Resourced

/-- The loop of `update_sources`. -/
theorem updateSources_loop (package : Entry) {base : Cache File Archive}
    (sources : List SourceId) {machine : Machine File Archive}
    (settled : base.Settled machine.cache) :
    Ensures
      (sources.foldlM (fun _ source => do
        let checksum ← expectedChecksum setting package (.source source)
        updateFile setting package (.source source) checksum) ()) machine
      (fun _ final =>
        Cache.Resourced package machine.cache final.cache ∧
        final.log = machine.log ∧
        (∀ entry, setting.sum base package = some entry →
          ∀ source ∈ sources, ∃ file,
            (final.cache.files package).source source = some file ∧
            entry.lookup (setting.format.checksumName (.source source)) =
              some (setting.externals.checksum file)) ∧
        ∀ source, source ∉ sources →
          (final.cache.files package).source source =
            (machine.cache.files package).source source)
      (Failed fun _ cache =>
        Cache.Resourced package machine.cache cache) := by
  induction sources generalizing machine with
  | nil => exact ⟨.refl _, rfl, by simp, fun _ _ => rfl⟩
  | cons source rest induction =>
      rw [List.foldlM_cons]
      simp only [ensures_bind]
      refine (expectedChecksum_ensures package (.source source)).mono ?_
        (fun _ _ failed => failed.mono fun _ _ same => same ▸ .refl _)
      intro checksum first given
      obtain ⟨same, found, knownHere, isListed⟩ := given
      rw [Setting.sum, settled.checksumOf setting.externals package]
        at knownHere
      apply (updateFile_ensures package (.source source) checksum).mono
      · intro _ second given
        obtain ⟨file, agrees, _, stored, log⟩ := given
        have step : Cache.Resourced package machine.cache second.cache := by
          rw [stored, same.1]
          exact .setFile _ _ _
        have settledSecond : base.Settled second.cache := by
          rw [stored, same.1]
          exact settled.update rfl rfl
        have here : (second.cache.files package).source =
            Function.update (machine.cache.files package).source source
              (some file) := by
          rw [stored, same.1, Cache.files_update_self]
          rfl
        refine (induction settledSecond).mono ?_
          (fun _ _ failed => failed.mono fun _ _ more => step.trans more)
        intro _ final given
        obtain ⟨more, logFinal, verified, others⟩ := given
        refine ⟨step.trans more, logFinal.trans (log.trans same.2), ?_, ?_⟩
        · intro entry known name member
          by_cases later : name ∈ rest
          · exact verified entry known name later
          · rcases List.mem_cons.mp member with rfl | inRest
            · cases knownHere.symm.trans known
              refine ⟨file, ?_, by rw [isListed, agrees]⟩
              rw [others name later, here, Function.update_self]
            · exact absurd inRest later
        · intro name outside
          rw [List.mem_cons, not_or] at outside
          rw [others name outside.2, here,
            Function.update_of_ne outside.1]
      · intro failure final given
        obtain ⟨abort, rfl, file, left⟩ := given
        refine ⟨abort, rfl, ?_⟩
        rw [left, same.1]
        exact .setFile _ _ _

theorem updateSources_ensures (package : Entry)
    {machine : Machine File Archive} :
    Ensures (updateSources setting package) machine
      (fun _ final =>
        Cache.Resourced package machine.cache final.cache ∧
        final.log = .updateSources package :: machine.log ∧
        ∀ entry, setting.sum machine.cache package = some entry →
          Verified setting machine.cache final.cache package)
      (Failed fun _ cache =>
        Cache.Resourced package machine.cache cache) := by
  simp only [updateSources, ensures_bind, ensures_logLine]
  refine (readIndex_ensures setting.faults setting.externals package).mono ?_
    (fun _ _ failed => failed.mono fun _ _ same => same ▸ .refl _)
  intro deps middle given
  obtain ⟨isIndex, same⟩ := given
  have settled : machine.cache.Settled middle.cache := by
    rw [same.1]
    exact .refl _
  apply (updateSources_loop package deps.sources settled).mono
  · intro _ final given
    obtain ⟨resourced, log, verified, _⟩ := given
    rw [same.1] at resourced
    exact ⟨resourced, log.trans same.2, fun entry known =>
      ⟨deps, entry, isIndex, known, verified entry known⟩⟩
  · exact fun _ _ failed => failed.mono fun _ _ resourced =>
      same.1 ▸ resourced

end Bacs.Pm
