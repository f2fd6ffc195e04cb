import Bacs.Foundation.Channel
import Bacs.Foundation.Runs
import Bacs.Pm.Refreshing
import Bacs.Pm.Sparing

/-!
# Entries are valid while they are held

A directory that has a meta file has a complete installation, whatever is
done to the directories of other packages, as long as no removal fails
halfway.  An entry is valid if the meta file is still there when the entry is
constructed.
-/

namespace Bacs.Pm.Extractor.SharedCache

open Foundation

variable {File Archive Content : Type}
  {config : Config File Archive Content} {group : Set Entry}
  {archives : Entry → Disk String Content → Prop}
  {package other : Entry} {before middle after : Disk String Content}

/-! ## Steps under the exclusive lock -/

section Programs

variable {surroundings : Surroundings File Archive Content}

/-- A program keeps meta files beside complete installations, unless a removal
fails untidily. -/
def Safe (config : Config File Archive Content) (group : Set Entry)
    (archives : Entry → Disk String Content → Prop)
    (start : Site File Archive Content)
    (program : SiteM File Archive Content Unit) : Prop :=
  (∀ package ∈ group, config.Good archives package start.disk) →
    Ensures program start
      (fun _ final =>
        ∀ package ∈ group, config.Good archives package final.disk)
      (fun failure final => Tidy config group failure →
        ∀ package ∈ group, config.Good archives package final.disk)

/-- Creating the directories on the way to that of a package. -/
theorem spares_makeDirectories (requestable : config.Requestable group)
    (isPackage : package ∈ group) (isOther : other ∈ group)
    {places : List (List String)}
    (above : ∀ place ∈ places, place <+: config.directory package)
    (made : before.makeDirectories places = some after) :
    config.Spares other before after := by
  induction places generalizing before with
  | nil =>
      cases made
      exact fun marked => ⟨marked, fun _ => rfl⟩
  | cons place places induction =>
      simp only [Disk.makeDirectories, List.foldlM_cons,
        Option.bind_eq_bind, Option.bind_eq_some_iff] at made
      obtain ⟨disk, first, rest⟩ := made
      have node := (Disk.makeDirectory_spec first).2
      have isAbove := above place List.mem_cons_self
      apply Config.Spares.trans _ (induction
        (fun place member => above place (List.mem_cons_of_mem _ member))
        rest)
      by_cases same : config.metaOf other = place
      · apply spares_of_unmarked
        apply unmarked_of_node
        rw [node, same, Function.update_self]
        exact .inr rfl
      · apply spares_of_same
        · rw [node, Function.update_of_ne same]
        · intro names
          rw [node, Function.update_of_ne]
          intro inData
          have through : config.dataOf other <+: config.directory package :=
            List.IsPrefix.trans ⟨names, inData⟩ isAbove
          by_cases different : other = package
          · subst different
            have lengths := through.length_le
            simp [Config.dataOf] at lengths
          · exact requestable.outside other isOther package isPackage
              different through

theorem createDirectories_safe (requestable : config.Requestable group)
    (isPackage : package ∈ group) (start : Site File Archive Content) :
    Safe config group archives start
      (createDirectories (config.station surroundings)
        (config.directory package)) := by
  intro good
  apply (createDirectories_ensures _).mono
  · intro _ final given other isOther
    apply Config.Spares.good _ (good other isOther)
    exact spares_makeDirectories requestable isPackage isOther
      (fun place member => (List.mem_inits _ _).mp member) given.2
  · intro failure final broke _ other isOther
    obtain ⟨abort, _, disk, _, _, _, created, after⟩ := broke
    apply Config.Spares.good _ (good other isOther)
    rw [disk, after]
    cases made : start.disk.makeDirectories
        ((config.directory package).inits.take created) with
    | none => exact fun marked => ⟨marked, fun _ => rfl⟩
    | some reached =>
        exact spares_makeDirectories requestable isPackage isOther
          (fun place member =>
            (List.mem_inits _ _).mp (List.mem_of_mem_take member)) made

theorem clean_safe (requestable : config.Requestable group)
    (start : Site File Archive Content) :
    Safe config group archives start (clean_ config surroundings) := by
  intro good
  apply (resetDir_ensures config.root).mono
  · intro _ final given other isOther
    have inside := requestable.inside other isOther
    have unmarked := unmarked_of_emptied given.2
      (inside.trans (List.prefix_append _ _))
    exact fun marked => absurd marked unmarked
  · intro failure final broke tidy other isOther
    obtain ⟨abort, same, disk, _, operation, begun, _⟩ := broke
    have spares := tidy abort same operation other isOther
    rw [begun] at spares
    rw [disk]
    exact spares.good (good other isOther)

theorem prepareDirectory_safe (requestable : config.Requestable group)
    (isPackage : package ∈ group) (start : Site File Archive Content) :
    Safe config group archives start
      (prepareDirectory config surroundings package) := by
  intro good
  rw [prepareDirectory, ensures_bind]
  apply ensures_inspect.mono
  · intro status looked given
    have good : ∀ package ∈ group,
        config.Good archives package looked.disk := by
      rw [given.2.1]
      exact good
    split
    · exact good
    · exact createDirectories_safe requestable isPackage looked good
    · rw [ensures_bind]
      apply (clean_safe requestable looked good).mono
      · intro _ cleaned good
        exact createDirectories_safe requestable isPackage cleaned good
      · exact fun _ _ stopped => stopped
  · intro failure final broke _
    obtain ⟨abort, _, disk, _, _, _, after⟩ := broke
    rw [disk, after]
    exact good

/-- What the repository caches for a package is an archive of it. -/
def Supplies (config : Config File Archive Content)
    (archives : Entry → Disk String Content → Prop) (package : Entry)
    (surroundings : Surroundings File Archive Content) : Prop :=
  ∀ done machine,
    Pm.update (config.station surroundings).toSetting surroundings.fuel
        package ⟨surroundings.cache, 0, []⟩ = .ok done machine →
      Supplied config archives package
        (machine.cache.files package).installation

theorem repositoryUpdate_safe (requestable : config.Requestable group)
    (isPackage : package ∈ group) {start : Site File Archive Content}
    (machine : start.machine = ⟨surroundings.cache, 0, []⟩)
    (supplies : Supplies config archives package surroundings) :
    Safe config group archives start
      (repositoryUpdate (config.station surroundings) surroundings.fuel
        package (config.directory package)) := by
  intro good
  have updated : Ensures (Pm.update (config.station surroundings).toSetting
      surroundings.fuel package) start.machine
      (fun _ machine => Supplied config archives package
        (machine.cache.files package).installation)
      (fun _ _ => True) := by
    rw [machine]
    unfold Ensures
    split
    · rename_i ended
      exact supplies _ _ ended
    · trivial
  rw [repositoryUpdate, ensures_bind]
  apply (ensures_onCache updated).mono
  · intro _ middle given
    obtain ⟨disk, supplied⟩ := given
    rw [← disk] at good
    apply update_ensures.mono
    · intro _ final given
      obtain ⟨_, unchanged | complete⟩ := given
      · rw [unchanged.1]
        exact good
      · exact Complete.good requestable isPackage complete supplied good
    · intro failure final given tidy
      obtain ⟨_, unchanged | failed⟩ := given
      · rw [unchanged]
        exact good
      · cases failed with
        | cut abort same after cut =>
            rw [after]
            exact Cut.good requestable isPackage cut supplied
              (tidy abort same) good
        | metaExists same ready found =>
            exact Ready.good requestable isPackage ready good
  · intro failure final given _
    rw [given.1]
    exact good

theorem updateDirectory_safe (requestable : config.Requestable group)
    (isPackage : package ∈ group) (disk : Disk String Content)
    (supplies : Supplies config archives package surroundings) :
    Safe config group archives (site surroundings disk)
      (updateDirectory config surroundings package) := by
  intro good
  rw [updateDirectory, repositoryUpdateAfter, ensures_bind]
  apply (needUpdate_ensures config.lifetime).mono
  · intro needed looked given
    obtain ⟨machine, same⟩ := given
    have good : ∀ package ∈ group,
        config.Good archives package looked.disk := by
      rw [same]
      exact good
    split
    · exact repositoryUpdate_safe requestable isPackage machine supplies good
    · exact good
  · intro failure final given _
    rw [given.2]
    exact good

end Programs

/-! ## Runs -/

def Thread.package? : Thread → Option Entry
  | .idle => none
  | .waiting package => some package
  | .preparing package => some package
  | .updating package => some package
  | .updated package => some package
  | .entering package => some package
  | .waitingClean => none
  | .cleaning => none
  | .leaving => none

/-- A failure of the program leaves the directories tidy. -/
def EndsTidily (config : Config File Archive Content) (group : Set Entry)
    (program : SiteM File Archive Content Unit)
    (start : Site File Archive Content) : Prop :=
  ∀ failure final, program start = .error failure final →
    Tidy config group failure

/-- The packages asked for are in the group, a failing removal is tidy, and
the meta file of a package is there when an entry of it is constructed. -/
def Allowed (config : Config File Archive Content) (group : Set Entry)
    (archives : Entry → Disk String Content → Prop) (state : State Content) :
    Nat × Action File Archive Content → Prop
  | (_, .get package _) => package ∈ group
  | (index, .prepare surroundings) =>
      ∀ package, state.threads[index]? = some (.preparing package) →
        EndsTidily config group
          (prepareDirectory config surroundings package)
          (site surroundings state.disk)
  | (index, .update surroundings) =>
      ∀ package, state.threads[index]? = some (.updating package) →
        Supplies config archives package surroundings ∧
          EndsTidily config group
            (updateDirectory config surroundings package)
            (site surroundings state.disk)
  | (_, .reset surroundings) =>
      EndsTidily config group (clean_ config surroundings)
        (site surroundings state.disk)
  | (index, .enter) =>
      ∀ package, state.threads[index]? = some (.entering package) →
        config.Marked package state.disk
  | _ => True

structure Valid (config : Config File Archive Content) (group : Set Entry)
    (archives : Entry → Disk String Content → Prop) (state : State Content) :
    Prop where
  good : ∀ package ∈ group, config.Good archives package state.disk
  held : ∀ package ∈ state.held,
    config.Installed archives package state.disk
  alone : ∀ thread ∈ state.threads, thread.exclusive = true →
    state.held = []
  requested : ∀ thread ∈ state.threads, ∀ package,
    thread.package? = some package → package ∈ group

section Steps

variable {state next : State Content} {index : Nat}
  {before after : Thread} {surroundings : Surroundings File Archive Content}

/-- A thread that goes on without the exclusive lock, or has it already. -/
theorem Valid.goOn (valid : Valid config group archives state)
    (alone : after.exclusive = true → state.held = [])
    (requested : ∀ package, after.package? = some package →
      package ∈ group) :
    Valid config group archives (state.goOn index after) where
  good := valid.good
  held := valid.held
  alone := forall_mem_set valid.alone alone
  requested := forall_mem_set valid.requested requested

/-- A step under the exclusive lock: nobody holds an entry then. -/
theorem Valid.perform (valid : Valid config group archives state)
    (there : state.threads[index]? = some before)
    (isExclusive : before.exclusive = true)
    {program : SiteM File Archive Content Unit}
    (safe : Safe config group archives (site surroundings state.disk)
      program)
    (tidy : EndsTidily config group program (site surroundings state.disk))
    (requested : ∀ package, after.package? = some package →
      package ∈ group) :
    Valid config group archives
      (state.perform index program surroundings after) := by
  have empty := valid.alone before (List.mem_of_getElem? there) isExclusive
  have kept := safe valid.good
  unfold State.perform
  split
  · rename_i outcome
    have good := kept.of_ok outcome
    refine ⟨good, ?_, forall_mem_set valid.alone fun _ => empty,
      forall_mem_set valid.requested requested⟩
    intro package member
    rw [empty] at member
    cases member
  · rename_i outcome
    have good := kept.of_error outcome (tidy _ _ outcome)
    refine ⟨good, ?_, forall_mem_set valid.alone fun _ => empty,
      forall_mem_set valid.requested ?_⟩
    · intro package member
      rw [empty] at member
      cases member
    · intro package none
      cases none

theorem requested_here (valid : Valid config group archives state)
    (there : state.threads[index]? = some before) {package : Entry}
    (works : before.package? = some package) : package ∈ group :=
  valid.requested before (List.mem_of_getElem? there) package works

theorem not_exclusive (shareable : state.shareable = true)
    {thread : Thread} (member : thread ∈ state.threads) :
    ¬ thread.exclusive = true := by
  intro isExclusive
  have notExclusive := List.all_eq_true.mp shareable thread member
  rw [isExclusive] at notExclusive
  cases notExclusive

theorem Valid.enter (valid : Valid config group archives state)
    (shareable : state.shareable = true)
    (installed : config.Installed archives package state.disk) :
    Valid config group archives
      { state with held := package :: state.held } where
  good := valid.good
  held := List.forall_mem_cons.mpr ⟨installed, valid.held⟩
  alone := fun _ member isExclusive =>
    absurd isExclusive (not_exclusive shareable member)
  requested := valid.requested

theorem Valid.get {surroundings : Surroundings File Archive Content}
    (valid : Valid config group archives state) (asked : package ∈ group)
    (taken : step config state (index, .get package surroundings) =
      some next) :
    Valid config group archives next := by
  have only : ∀ other, some package = some other → other ∈ group := by
    intro other same
    cases same
    exact asked
  simp only [step] at taken
  split at taken
  · split at taken
    · cases taken
      exact valid.goOn (by nofun) only
    · cases taken
      exact valid.goOn (by nofun) only
    · cases taken
      exact valid
  · cases taken

theorem Valid.lock (valid : Valid config group archives state)
    (taken : step config state (index, .lock) = some next) :
    Valid config group archives next := by
  simp only [step] at taken
  split at taken
  · rename_i free
    have empty : state.held = [] :=
      List.isEmpty_iff.mp (Bool.and_eq_true_iff.mp free).2
    split at taken
    · rename_i package there
      cases taken
      exact valid.goOn (fun _ => empty)
        fun _ works => requested_here valid there works
    · cases taken
      exact valid.goOn (fun _ => empty) (by nofun)
    · cases taken
  · cases taken

theorem Valid.unlock (valid : Valid config group archives state)
    (taken : step config state (index, .unlock) = some next) :
    Valid config group archives next := by
  simp only [step] at taken
  split at taken
  · rename_i package there
    cases taken
    exact valid.goOn (by nofun) fun _ works => requested_here valid there works
  · cases taken
    exact valid.goOn (by nofun) (by nofun)
  · cases taken

theorem Valid.release (valid : Valid config group archives state)
    (taken : step config state (index, .release package) = some next) :
    Valid config group archives next := by
  simp only [step] at taken
  split at taken
  · cases taken
    refine ⟨valid.good, ?_, ?_, valid.requested⟩
    · intro other member
      exact valid.held other (List.mem_of_mem_erase member)
    · intro thread member isExclusive
      rw [valid.alone thread member isExclusive]
      rfl
  · cases taken

theorem step_valid (requestable : config.Requestable group)
    {action : Nat × Action File Archive Content}
    (valid : Valid config group archives state)
    (allowed : Allowed config group archives state action)
    (taken : step config state action = some next) :
    Valid config group archives next := by
  obtain ⟨index, action⟩ := action
  cases action with
  | get package surroundings => exact valid.get allowed taken
  | clean =>
      simp only [step] at taken
      split at taken
      · cases taken
        exact valid.goOn (by nofun) (by nofun)
      · cases taken
  | lock => exact valid.lock taken
  | prepare surroundings =>
      simp only [step] at taken
      split at taken
      · rename_i package there
        cases taken
        have isPackage := requested_here valid there rfl
        exact valid.perform there rfl
          (prepareDirectory_safe requestable isPackage _)
          (allowed package there)
          fun _ works => requested_here valid there works
      · cases taken
  | update surroundings =>
      simp only [step] at taken
      split at taken
      · rename_i package there
        cases taken
        have isPackage := requested_here valid there rfl
        obtain ⟨supplies, tidy⟩ := allowed package there
        exact valid.perform there rfl
          (updateDirectory_safe requestable isPackage _ supplies) tidy
          fun _ works => requested_here valid there works
      · cases taken
  | reset surroundings =>
      simp only [step] at taken
      split at taken
      · rename_i there
        cases taken
        exact valid.perform there rfl (clean_safe requestable _) allowed
          (by nofun)
      · cases taken
  | unlock => exact valid.unlock taken
  | enter =>
      simp only [step] at taken
      split at taken
      · rename_i shareable
        split at taken
        · rename_i package there
          cases taken
          have isPackage := requested_here valid there rfl
          have installed := valid.good package isPackage
            (allowed package there)
          exact (valid.enter shareable installed).goOn (by nofun) (by nofun)
        · cases taken
      · cases taken
  | copy package =>
      simp only [step] at taken
      split at taken
      · rename_i possible
        cases taken
        exact valid.enter possible.1 (valid.held package possible.2)
      · cases taken
  | release package => exact valid.release taken

/-- While an entry is held, no step changes anything on the disk. -/
theorem Valid.untouched (valid : Valid config group archives state)
    (holding : state.held ≠ [])
    {action : Nat × Action File Archive Content}
    (taken : step config state action = some next) :
    next.disk = state.disk := by
  have unlocked : ∀ (index : Nat) (thread : Thread),
      state.threads[index]? = some thread →
      ¬ thread.exclusive = true := by
    intro index thread there isExclusive
    exact holding
      (valid.alone thread (List.mem_of_getElem? there) isExclusive)
  obtain ⟨index, action⟩ := action
  cases action with
  | prepare surroundings =>
      simp only [step] at taken
      split at taken
      · rename_i there
        exact absurd rfl (unlocked index _ there)
      · cases taken
  | update surroundings =>
      simp only [step] at taken
      split at taken
      · rename_i there
        exact absurd rfl (unlocked index _ there)
      · cases taken
  | reset surroundings =>
      simp only [step] at taken
      split at taken
      · rename_i there
        exact absurd rfl (unlocked index _ there)
      · cases taken
  | _ =>
      simp only [step] at taken
      repeat' split at taken
      all_goals cases taken
      all_goals rfl

end Steps

/-- The cache has been cleaned by its constructor. -/
def Initial (config : Config File Archive Content) (state : State Content) :
    Prop :=
  (∀ place, config.root <+: place → place ≠ config.root →
      state.disk.node place = none) ∧
    (∀ thread ∈ state.threads, thread = .idle) ∧ state.held = []

theorem Initial.valid (requestable : config.Requestable group)
    {state : State Content} (initial : Initial config state) :
    Valid config group archives state := by
  obtain ⟨empty, idle, none⟩ := initial
  refine ⟨?_, ?_, ?_, ?_⟩
  · intro package isPackage marked
    have inside := requestable.inside package isPackage
    refine absurd marked (unmarked_of_node (.inl (empty _ ?_ ?_)))
    · exact inside.trans (List.prefix_append _ _)
    · intro same
      have lengths := inside.length_le
      rw [← same] at lengths
      simp [Config.metaOf] at lengths
  · intro package member
    rw [none] at member
    cases member
  · intro thread member isExclusive
    exact none
  · intro thread member package works
    rw [idle thread member] at works
    cases works

/-- Whoever holds an entry finds a complete installation of its package, and
no step of any thread changes it. -/
theorem entries_valid (requestable : config.Requestable group)
    {start state : State Content} (initial : Initial config start)
    (run : Runs (step config) (Allowed config group archives) start state) :
    (∀ package ∈ state.held,
      config.Installed archives package state.disk) ∧
    ∀ action next, step config state action = some next →
      state.held ≠ [] → next.disk = state.disk := by
  have valid : Valid config group archives state :=
    run.invariant (initial.valid requestable)
      fun _ _ _ valid allowed taken => step_valid requestable valid allowed
        taken
  constructor
  · exact valid.held
  · intro action next taken holding
    exact valid.untouched holding taken

end Bacs.Pm.Extractor.SharedCache

/-! ## Two threads and one package -/

namespace Bacs.Pm.Extractor.SharedCache

open Foundation

namespace Sample

open Extractor.Sample (package oneAbort)

def config : Config String String Extractor.Sample.Stored where
  root := ["cache"]
  lifetime := 0
  externals := Extractor.Sample.externals
  format := Extractor.Sample.deployment.format
  snapshots := Extractor.Sample.deployment.snapshots
  metaName := "meta"
  metaName_ne := by decide

def surroundings :
    Surroundings String String Extractor.Sample.Stored where
  fuel := 9
  remote := Extractor.Sample.remote
  faults := (Extractor.Sample.call .update none []).faults
  cache := .empty
  system := oneAbort none []

def initial : State Extractor.Sample.Stored where
  disk := Extractor.Sample.emptyDisk
  threads := [.idle, .idle]
  held := []

abbrev Step := Nat × Action String String Extractor.Sample.Stored

/-- The state after some steps. -/
def after (steps : List Step) : State Extractor.Sample.Stored :=
  steps.foldl (fun state action => (step config state action).getD state)
    initial

/-- A thread fills the directory of a package, up to the release of its
lock. -/
def filling : List Step :=
  [(0, .get package surroundings), (0, .lock), (0, .prepare surroundings),
    (0, .update surroundings), (0, .unlock)]

theorem after_concat {steps : List Step} {action : Step}
    {next : State Extractor.Sample.Stored}
    (taken : step config (after steps) action = some next) :
    after (steps ++ [action]) = next := by
  rw [after, List.foldl_append, ← after, List.foldl_cons, List.foldl_nil,
    taken, Option.getD_some]

theorem reached {allowed : State Extractor.Sample.Stored → Step → Prop}
    (steps : List Step) {action : Step}
    (run : Runs (step config) allowed initial (after steps))
    (permitted : allowed (after steps) action)
    (possible : (step config (after steps) action).isSome = true) :
    Runs (step config) allowed initial (after (steps ++ [action])) := by
  obtain ⟨next, taken⟩ := Option.isSome_iff_exists.mp possible
  apply run.trans
  apply Runs.single permitted
  rw [after_concat taken]
  exact taken

/-- Only the sample package is asked for. -/
def group : Set Entry := {package}

/-- Every archive has the one file. -/
def archives (_ : Entry) (tree : Disk String Extractor.Sample.Stored) :
    Prop :=
  tree = Extractor.Sample.tree "main"

theorem requestable : config.Requestable group where
  inside := by
    intro other same
    cases same
    exact ⟨["a", ".install"], rfl⟩
  distinct := by
    intro first isFirst second isSecond different
    cases isFirst
    cases isSecond
    exact absurd rfl different
  outside := by
    intro first isFirst second isSecond different
    cases isFirst
    cases isSecond
    exact absurd rfl different

theorem initial_empty : Initial config initial := by
  refine ⟨?_, ?_, rfl⟩
  · intro place inside _
    apply if_neg
    intro same
    rw [same] at inside
    cases List.prefix_nil.mp inside
  · intro thread member
    exact List.eq_of_mem_replicate (n := 2) member

theorem supplies : Supplies config archives package surroundings := by
  intro done machine ended archive tree stored opened
  rw [Extractor.Sample.archive_of_update ended] at stored
  cases stored
  exact (Option.some.inj opened).symm

def succeeds : EStateM.Result
    (Failure String String Extractor.Sample.Stored)
    (Site String String Extractor.Sample.Stored) Unit → Bool
  | .ok _ _ => true
  | .error _ _ => false

theorem tidy_of_succeeds
    {program : SiteM String String Extractor.Sample.Stored Unit}
    {start : Site String String Extractor.Sample.Stored}
    (success : succeeds (program start) = true) :
    EndsTidily config group program start := by
  intro failure final ended
  rw [ended] at success
  cases success

theorem allowed_prepare (package : Entry) {steps : List Step} {index : Nat}
    (there : (after steps).threads[index]? = some (.preparing package))
    (success : succeeds (prepareDirectory config surroundings package
      (site surroundings (after steps).disk)) = true) :
    Allowed config group archives (after steps)
      (index, .prepare surroundings) := by
  intro other same
  rw [there] at same
  cases same
  exact tidy_of_succeeds success

theorem allowed_update {steps : List Step} {index : Nat}
    (there : (after steps).threads[index]? = some (.updating package))
    (success : succeeds (updateDirectory config surroundings package
      (site surroundings (after steps).disk)) = true) :
    Allowed config group archives (after steps)
      (index, .update surroundings) := by
  intro other same
  rw [there] at same
  cases same
  exact ⟨supplies, tidy_of_succeeds success⟩

theorem runs_filling : Runs (step config) (Allowed config group archives)
    initial (after filling) := by
  apply reached (filling.take 4)
  · apply reached (filling.take 3)
    · apply reached (filling.take 2)
      · apply reached (filling.take 1)
        · apply reached []
          · exact Runs.refl initial
          · exact rfl
          · decide +kernel
        · trivial
        · decide +kernel
      · apply allowed_prepare package
        · decide +kernel
        · decide +kernel
      · decide +kernel
    · apply allowed_update
      · decide +kernel
      · decide +kernel
    · decide +kernel
  · trivial
  · decide +kernel

/-- Another thread cleans the cache, before the first one constructs its
entry. -/
def cleaned : List Step :=
  filling ++ [(1, .clean), (1, .lock), (1, .reset surroundings),
    (1, .unlock)]

theorem runs_cleaned : Runs (step config) (Allowed config group archives)
    initial (after cleaned) := by
  apply reached (cleaned.take 8)
  · apply reached (cleaned.take 7)
    · apply reached (cleaned.take 6)
      · apply reached filling
        · exact runs_filling
        · trivial
        · decide +kernel
      · trivial
      · decide +kernel
    · apply tidy_of_succeeds
      decide +kernel
    · decide +kernel
  · trivial
  · decide +kernel

end Sample

/-- The entry of a directory that has just been filled. -/
theorem entries_valid_sample :
    Sample.config.Installed Sample.archives Extractor.Sample.package
      (Sample.after (Sample.filling ++ [(0, .enter)])).disk := by
  have run : Runs (step Sample.config)
      (Allowed Sample.config Sample.group Sample.archives) Sample.initial
      (Sample.after (Sample.filling ++ [(0, .enter)])) := by
    apply Sample.reached _ Sample.runs_filling
    · intro package there
      have same : some (Thread.entering package) =
          some (.entering Extractor.Sample.package) := by
        rw [← there]
        decide +kernel
      cases same
      unfold Config.Marked
      decide +kernel
    · decide +kernel
  have holding : Extractor.Sample.package ∈
      (Sample.after (Sample.filling ++ [(0, .enter)])).held := by
    decide +kernel
  exact (entries_valid Sample.requestable Sample.initial_empty run).1 _
    holding

/-- If the cache is cleaned between the update and the construction of the
entry, there is no directory, although nothing has failed. -/
theorem held_entry_missing :
    ∃ before state,
      Initial Sample.config Sample.initial ∧
        Runs (step Sample.config)
          (Allowed Sample.config Sample.group Sample.archives)
          Sample.initial before ∧
        step Sample.config before (0, .enter) = some state ∧
        Extractor.Sample.package ∈ state.held ∧
        ¬ Sample.config.Installed (fun _ _ => True) Extractor.Sample.package
          state.disk := by
  have possible : (step Sample.config (Sample.after Sample.cleaned)
      (0, .enter)).isSome = true := by
    decide +kernel
  obtain ⟨state, taken⟩ := Option.isSome_iff_exists.mp possible
  have isEntered : Sample.after (Sample.cleaned ++ [(0, .enter)]) = state :=
    Sample.after_concat taken
  refine ⟨_, state, Sample.initial_empty, Sample.runs_cleaned, taken, ?_⟩
  rw [← isEntered]
  constructor
  · decide +kernel
  · rintro ⟨tree, _, isDirectory, contents⟩
    have missing :
        (Sample.after (Sample.cleaned ++ [(0, .enter)])).disk.node
          (Sample.config.dataOf Extractor.Sample.package ++ []) = none := by
      decide +kernel
    rw [contents, isDirectory] at missing
    cases missing

end Bacs.Pm.Extractor.SharedCache
