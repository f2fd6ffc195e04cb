import Bacs.Foundation.Runs
import Bacs.Pm.Installing

/-!
# The freshness of an installation

Any packages are installed or updated in one directory, one call after
another, while the remote repository and the cache change in between.  As
long as the meta file can only be read where the data belong to it, an update
that trusts it is right to do so.
-/

namespace Bacs.Pm.Extractor

open Foundation

variable {File Archive Content : Type}

/-- What all installations in one directory have in common. -/
structure Deployment (File Archive Content : Type) where
  externals : Externals File Archive (Disk String Content)
  format : Format
  snapshots : SnapshotFormat Content
  config : ExtractConfig
  destination : List String

inductive CallKind where
  | install
  | update
  deriving DecidableEq, Repr

/-- A call of the repository, with the remote, the cache that it finds and
what the system does. -/
structure Call (File Archive Content : Type) where
  kind : CallKind
  package : Entry
  fuel : Nat
  remote : Remote File
  faults : Faults File Archive
  cache : Cache File Archive
  system : Nat → Response Content

section Calls

variable (deployment : Deployment File Archive Content)
  (call : Call File Archive Content) (disk : Disk String Content)

def Call.station : Station File Archive Content :=
  { externals := deployment.externals
    format := deployment.format
    remote := call.remote
    faults := call.faults
    snapshots := deployment.snapshots
    config := deployment.config
    system := call.system }

def Call.program : SiteM File Archive Content Unit :=
  match call.kind with
  | .install => repositoryInstall (call.station deployment) call.fuel
      call.package deployment.destination
  | .update => repositoryUpdate (call.station deployment) call.fuel
      call.package deployment.destination

def Call.run : EStateM.Result (Failure File Archive Content)
    (Site File Archive Content) Unit :=
  call.program deployment ⟨⟨call.cache, 0, []⟩, disk, 0⟩

/-- The snapshot that the meta file is read as. -/
def Deployment.reads : Option Snapshot :=
  Extractor.reads deployment.snapshots deployment.config
    deployment.destination disk

/-- The data; a meta file among them is not part of them. -/
def Deployment.contents (names : List String) : Option (Node Content) :=
  let place := deployment.config.dataPlace deployment.destination ++ names
  if place = deployment.config.metaPlace deployment.destination then none
  else disk.node place

/-- The directory holds what is in the cached installation archive, and its
meta file is the cached installation snapshot. -/
def Deployment.Fresh (product : Product Archive) : Prop :=
  ∃ archive snapshot tree,
    product = ⟨some archive, .value snapshot⟩ ∧
      deployment.externals.unpack archive = some tree ∧
        deployment.contents disk = tree.node ∧
          deployment.reads disk = some snapshot

variable (installs : Entry → Snapshot → Disk String Content)

/-- The cached archive belongs to the cached snapshot beside it: it has the
contents that the snapshot stands for in this package. -/
def Deployment.Belongs (package : Entry) (product : Product Archive) : Prop :=
  ∀ archive snapshot, product = ⟨some archive, .value snapshot⟩ →
    deployment.externals.unpack archive = some (installs package snapshot)

/-- What the repository has in its cache for the package, once it is up to
date, belongs together. -/
def Call.Matches : Prop :=
  ∀ done machine,
    Pm.update (call.station deployment).toSetting call.fuel call.package
        ⟨call.cache, 0, []⟩ = .ok done machine →
      deployment.Belongs installs call.package
        (machine.cache.files call.package).installation

/-- If the meta file is the cached snapshot, no other package that has other
contents under this snapshot is installed. -/
def Deployment.Recognizes (package : Entry) (product : Product Archive) :
    Prop :=
  ∀ archive snapshot, product = ⟨some archive, .value snapshot⟩ →
    deployment.reads disk = some snapshot →
      ∀ other, deployment.contents disk = (installs other snapshot).node →
        (installs other snapshot).node = (installs package snapshot).node

/-- An update does not find the snapshot of its package on the installation of
another one. -/
def Call.Recognizes : Prop :=
  call.kind = .update → ∀ done machine,
    Pm.update (call.station deployment).toSetting call.fuel call.package
        ⟨call.cache, 0, []⟩ = .ok done machine →
      deployment.Recognizes disk installs call.package
        (machine.cache.files call.package).installation

/-- A snapshot is only read where data are that it stands for in some
package. -/
def Deployment.Sound : Prop :=
  ∀ snapshot, deployment.reads disk = some snapshot →
    ∃ owner, deployment.contents disk = (installs owner snapshot).node

/-- An operation that fails leaves no readable snapshot beside data that do
not belong to it: resetting keeps the data as long as it keeps the meta file,
no meta file comes out of an archive, and a snapshot is not copied in
part. -/
def Abort.Tidy (product : Product Archive) (abort : Abort Content) : Prop :=
  match abort.operation with
  | .resetDir =>
      deployment.reads abort.after = none ∨
        deployment.contents abort.after = deployment.contents abort.before
  | .unpack => deployment.reads abort.after = none
  | .findMeta => deployment.reads abort.after = none
  | .copyMeta =>
      deployment.reads abort.after = none ∨
        deployment.reads abort.after = product.snapshot.read
  | _ => True

/-- A call that fails leaves the directory tidy. -/
def Call.Tidy : Prop :=
  ∀ failure final, call.run deployment disk = .error failure final →
    (∀ abort, failure = .operation abort →
      abort.Tidy deployment (cached final call.package)) ∧
    (failure = .metaExists → deployment.reads final.disk = none)

end Calls

/-- The disk that a call leaves, whether it succeeds or not. -/
def afterCall (deployment : Deployment File Archive Content)
    (disk : Disk String Content) (call : Call File Archive Content) :
    Option (Disk String Content) :=
  match call.run deployment disk with
  | .ok _ final => some final.disk
  | .error _ final => some final.disk

/-! ## The cache after an update -/

/-- After an update, the installation of the package is in the cache. -/
theorem update_installed {Tree : Type} {setting : Setting File Archive Tree}
    (fuel : Nat) (package : Entry) {start : Machine File Archive} :
    Ensures (Pm.update setting fuel package) start
      (fun _ final => ∃ archive snapshot,
        (final.cache.files package).installation =
          ⟨some archive, .value snapshot⟩)
      (fun _ _ => True) := by
  apply (Pm.update_ensures fuel package).mono
  · intro done final given
    obtain ⟨repaired, fetched, visited, updated⟩ := given
    obtain ⟨⟨_, result⟩, inDone, rfl⟩ := List.mem_map.mp
      ((updated.mem_iff (package, .installation)).mpr .refl)
    obtain ⟨archive, current⟩ := updated.searching.planned.current
      (package, .installation) result .installation inDone rfl
    exact ⟨archive, result.2, current⟩
  · intro _ _ _
    trivial

/-! ## What the directory holds -/

section Contents

variable {deployment : Deployment File Archive Content}
  {call : Call File Archive Content} {product : Product Archive}
  {before after : Disk String Content}
  {installs : Entry → Snapshot → Disk String Content} {package : Entry}

theorem reads_congr
    (same : after.node
        (deployment.config.metaPlace deployment.destination) =
      before.node (deployment.config.metaPlace deployment.destination)) :
    deployment.reads after = deployment.reads before := by
  unfold Deployment.reads reads
  rw [Disk.file?_congr same]

theorem reads_shrunk (shrunk : Disk.Shrunk before after)
    {snapshot : Snapshot} (read : deployment.reads after = some snapshot) :
    deployment.reads before = some snapshot := by
  obtain same | gone := shrunk.node
    (deployment.config.metaPlace deployment.destination)
  · rw [← reads_congr same]
    exact read
  · unfold Deployment.reads reads Disk.file? at read
    rw [gone] at read
    cases read

/-- No meta file is left in a directory that has been emptied. -/
theorem reads_emptied
    (emptied : Emptied deployment.destination before after) :
    deployment.reads after = none := by
  have gone : after.file?
      (deployment.config.metaPlace deployment.destination) = none := by
    apply Option.eq_none_iff_forall_ne_some.mpr
    intro content file
    have node := Disk.file?_eq_some.mp file
    rw [emptied] at node
    split at node
    · cases node
    · rw [ExtractConfig.metaPlace, if_pos (List.prefix_append _ _)] at node
      cases node
  unfold Deployment.reads reads
  rw [gone]
  rfl

theorem contents_congr
    (same : ∀ other,
      other ≠ deployment.config.metaPlace deployment.destination →
        after.node other = before.node other) :
    deployment.contents after = deployment.contents before := by
  funext names
  unfold Deployment.contents
  dsimp only
  split
  · rfl
  · rename_i different
    exact same _ different

/-- The data are what was unpacked, provided that no meta file was. -/
theorem Ready.contents
    (ready : Ready (call.station deployment) product
      deployment.destination before after)
    (absent : after.node
      (deployment.config.metaPlace deployment.destination) = none) :
    ∃ archive tree, product.archive = some archive ∧
      deployment.externals.unpack archive = some tree ∧
        deployment.contents after = tree.node := by
  obtain ⟨_, _, archive, tree, stored, opened, grafted⟩ := ready
  refine ⟨archive, tree, stored, opened, ?_⟩
  funext names
  have there : after.node
      (deployment.config.dataPlace deployment.destination ++ names) =
        tree.node names :=
    Disk.node_graft grafted
  unfold Deployment.contents
  dsimp only
  split
  · rename_i isMeta
    rw [← there, isMeta, absent]
  · exact there

theorem Complete.contents
    (complete : Complete (call.station deployment) product
      deployment.destination before after) :
    ∃ archive tree, product.archive = some archive ∧
      deployment.externals.unpack archive = some tree ∧
        deployment.contents after = tree.node ∧
          deployment.reads after = product.snapshot.read := by
  obtain ⟨ready, content, isReady, absent, stored, written⟩ := complete
  obtain ⟨archive, tree, isArchive, opened, contents⟩ :=
    isReady.contents absent
  refine ⟨archive, tree, isArchive, opened, ?_, ?_⟩
  · rw [← contents]
    exact contents_congr fun other different =>
      Disk.node_write_of_ne written different
  · have file : after.file?
        (deployment.config.metaPlace deployment.destination) =
          some content :=
      Disk.file?_eq_some.mpr (Disk.node_write_self written)
    unfold Deployment.reads reads
    rw [file]
    change deployment.snapshots.read content = _
    have slot : deployment.snapshots.slot content = product.snapshot :=
      SnapshotFormat.slot_file stored
    rw [← slot, SnapshotFormat.slot]
    cases deployment.snapshots.read content <;> rfl

/-- Data that belong to the cached snapshot, if that is what is read. -/
theorem sound_of_contents {archive : Archive} {tree : Disk String Content}
    (belongs : deployment.Belongs installs package product)
    (stored : product.archive = some archive)
    (opened : deployment.externals.unpack archive = some tree)
    (contents : deployment.contents after = tree.node)
    (read : deployment.reads after = none ∨
      deployment.reads after = product.snapshot.read) :
    deployment.Sound after installs := by
  intro snapshot found
  obtain nothing | cached := read
  · rw [nothing] at found
    cases found
  · rw [cached] at found
    have value := Slot.read_eq_some.mp found
    have same : product = ⟨some archive, .value snapshot⟩ := by
      rw [← stored, ← value]
    have installed := belongs archive snapshot same
    rw [opened] at installed
    exact ⟨package, by rw [contents, Option.some.inj installed]⟩

theorem Complete.sound
    (complete : Complete (call.station deployment) product
      deployment.destination before after)
    (belongs : deployment.Belongs installs package product) :
    deployment.Sound after installs := by
  obtain ⟨archive, tree, stored, opened, contents, read⟩ :=
    complete.contents
  exact sound_of_contents belongs stored opened contents (.inr read)

theorem sound_of_unread (unread : deployment.reads after = none) :
    deployment.Sound after installs := by
  intro snapshot found
  rw [unread] at found
  cases found

/-- An installation that is cut off tidily leaves a sound directory. -/
theorem Cut.sound {abort : Abort Content}
    (cut : Cut (call.station deployment) product deployment.destination
      before abort)
    (tidy : abort.Tidy deployment product)
    (belongs : deployment.Belongs installs package product)
    (sound : deployment.Sound before installs) :
    deployment.Sound abort.after installs := by
  unfold Abort.Tidy at tidy
  cases cut with
  | reset operation begun thinned =>
      rw [operation] at tidy
      obtain unread | kept := tidy
      · exact sound_of_unread unread
      · intro snapshot read
        rw [begun] at kept thinned
        rw [kept]
        exact sound snapshot (reads_shrunk thinned.shrunk read)
  | resetData operation emptied thinned =>
      intro snapshot read
      have earlier := reads_shrunk thinned.shrunk read
      rw [reads_emptied emptied] at earlier
      cases earlier
  | unpack operation prepared outside =>
      rw [operation] at tidy
      exact sound_of_unread tidy
  | find operation ready same =>
      rw [operation] at tidy
      exact sound_of_unread tidy
  | copy operation ready absent outside =>
      rw [operation] at tidy
      obtain ⟨archive, tree, stored, opened, contents⟩ :=
        ready.contents absent
      apply sound_of_contents belongs stored opened _ tidy
      rw [← contents]
      exact contents_congr outside
  | touch operation complete same =>
      rw [same]
      exact complete.sound belongs

/-! ## Calls -/

theorem InstallFailed.sound {failure : Failure File Archive Content}
    (failed : InstallFailed (call.station deployment) product
      deployment.destination before failure after)
    (tidy : ∀ abort, failure = .operation abort →
      abort.Tidy deployment product)
    (unread : failure = .metaExists → deployment.reads after = none)
    (belongs : deployment.Belongs installs package product)
    (sound : deployment.Sound before installs) :
    deployment.Sound after installs := by
  cases failed with
  | cut abort same disk cut =>
      rw [disk]
      exact cut.sound (tidy abort same) belongs sound
  | metaExists same ready found =>
      exact sound_of_unread (unread same)

theorem Complete.fresh {archive : Archive} {snapshot : Snapshot}
    (complete : Complete (call.station deployment) product
      deployment.destination before after)
    (isProduct : product = ⟨some archive, .value snapshot⟩) :
    deployment.Fresh after product := by
  obtain ⟨other, tree, stored, opened, contents, read⟩ := complete.contents
  have same : product = ⟨some other, .value snapshot⟩ := by
    rw [← stored, isProduct]
  refine ⟨other, snapshot, tree, same, opened, contents, ?_⟩
  rw [read, isProduct]
  rfl

/-- What is recognized by the cached snapshot has the data of the cached
archive. -/
theorem fresh_of_read {archive : Archive} {snapshot : Snapshot}
    (belongs : deployment.Belongs installs package product)
    (recognizes : deployment.Recognizes before installs package product)
    (sound : deployment.Sound before installs)
    (isProduct : product = ⟨some archive, .value snapshot⟩)
    (read : deployment.reads before = some snapshot) :
    deployment.Fresh before product := by
  obtain ⟨owner, contents⟩ := sound snapshot read
  have same := recognizes archive snapshot isProduct read owner contents
  exact ⟨archive, snapshot, installs package snapshot, isProduct,
    belongs archive snapshot isProduct, contents.trans same, read⟩

/-- The directory is fresh after a call, and it is sound unless a failing
operation was not tidy. -/
def Kept (deployment : Deployment File Archive Content)
    (installs : Entry → Snapshot → Disk String Content) (package : Entry)
    (program : SiteM File Archive Content Unit)
    (start : Site File Archive Content) : Prop :=
  Ensures program start
    (fun _ final => deployment.Fresh final.disk (cached final package) ∧
      deployment.Sound final.disk installs)
    (fun failure final =>
      (∀ abort, failure = .operation abort →
          abort.Tidy deployment (cached final package)) →
        (failure = .metaExists → deployment.reads final.disk = none) →
          deployment.Sound final.disk installs)

variable {start : Site File Archive Content}

theorem install_kept {archive : Archive} {snapshot : Snapshot}
    (isProduct : cached start package = ⟨some archive, .value snapshot⟩)
    (belongs : deployment.Belongs installs package (cached start package))
    (sound : deployment.Sound start.disk installs) :
    Kept deployment installs package
      (install (call.station deployment) package deployment.destination)
      start := by
  apply install_ensures.mono
  · intro _ final given
    obtain ⟨machine, complete⟩ := given
    rw [cached_congr machine]
    exact ⟨complete.fresh isProduct, complete.sound belongs⟩
  · intro failure final given tidy unread
    obtain ⟨machine, failed⟩ := given
    rw [cached_congr machine] at tidy
    exact failed.sound tidy unread belongs sound

theorem update_kept {archive : Archive} {snapshot : Snapshot}
    (isProduct : cached start package = ⟨some archive, .value snapshot⟩)
    (belongs : deployment.Belongs installs package (cached start package))
    (recognizes : deployment.Recognizes start.disk installs package
      (cached start package))
    (sound : deployment.Sound start.disk installs) :
    Kept deployment installs package
      (update (call.station deployment) package deployment.destination)
      start := by
  apply update_ensures.mono
  · intro _ final given
    obtain ⟨cache, unchanged | complete⟩ := given
    · obtain ⟨disk, current, read, isCurrent⟩ := unchanged
      rw [cached_of_cache cache, disk]
      have same : current = snapshot := by
        rw [isProduct] at isCurrent
        exact (Slot.value.inj isCurrent).symm
      subst same
      exact ⟨fresh_of_read belongs recognizes sound isProduct read,
        sound⟩
    · rw [cached_of_cache cache]
      exact ⟨complete.fresh isProduct, complete.sound belongs⟩
  · intro failure final given tidy unread
    obtain ⟨cache, unchanged | failed⟩ := given
    · rw [unchanged]
      exact sound
    · rw [cached_of_cache cache] at tidy
      exact failed.sound tidy unread belongs sound

theorem kept_of_update {disk : Disk String Content}
    {program : SiteM File Archive Content Unit}
    (holds : Product Archive → Prop)
    (updates : ∀ done machine,
      Pm.update (call.station deployment).toSetting call.fuel call.package
          ⟨call.cache, 0, []⟩ = .ok done machine →
        holds (machine.cache.files call.package).installation)
    (sound : deployment.Sound disk installs)
    (kept : ∀ (middle : Site File Archive Content) archive snapshot,
      middle.disk = disk →
      cached middle call.package = ⟨some archive, .value snapshot⟩ →
      holds (cached middle call.package) →
        Kept deployment installs call.package program middle) :
    Kept deployment installs call.package
      (do
        let _ ← onCache
          (Pm.update (call.station deployment).toSetting call.fuel
            call.package)
        program) ⟨⟨call.cache, 0, []⟩, disk, 0⟩ := by
  have updated : Ensures (Pm.update (call.station deployment).toSetting
      call.fuel call.package) ⟨call.cache, 0, []⟩
      (fun _ machine =>
        (∃ archive snapshot,
          (machine.cache.files call.package).installation =
            ⟨some archive, .value snapshot⟩) ∧
        holds (machine.cache.files call.package).installation)
      (fun _ _ => True) := by
    have held : Ensures (Pm.update (call.station deployment).toSetting
        call.fuel call.package) ⟨call.cache, 0, []⟩
        (fun _ machine =>
          holds (machine.cache.files call.package).installation)
        (fun _ _ => True) := by
      unfold Ensures
      split
      · rename_i ended
        exact updates _ _ ended
      · trivial
    apply ((update_installed call.fuel call.package).and held).mono
    · exact fun _ machine both => both
    · exact fun _ _ _ => trivial
  unfold Kept
  rw [ensures_bind]
  apply (ensures_onCache updated).mono
  · intro _ middle given
    obtain ⟨same, ⟨archive, snapshot, isProduct⟩, held⟩ := given
    exact kept middle archive snapshot same isProduct held
  · intro failure final given _ _
    rw [given.1]
    exact sound

variable {disk : Disk String Content}

theorem Call.kept (matching : call.Matches deployment installs)
    (recognizes : call.Recognizes deployment disk installs)
    (sound : deployment.Sound disk installs) :
    Kept deployment installs call.package (call.program deployment)
      ⟨⟨call.cache, 0, []⟩, disk, 0⟩ := by
  unfold Call.program
  cases kind : call.kind with
  | install =>
      apply kept_of_update (deployment.Belongs installs call.package)
        matching sound
      intro middle archive snapshot same isProduct belongs
      rw [← same] at sound
      exact install_kept isProduct belongs sound
  | update =>
      apply kept_of_update (fun product =>
        deployment.Belongs installs call.package product ∧
          deployment.Recognizes disk installs call.package product)
      · intro done machine ended
        exact ⟨matching done machine ended,
          recognizes kind done machine ended⟩
      · exact sound
      · intro middle archive snapshot same isProduct given
        rw [← same] at sound given
        exact update_kept isProduct given.1 given.2 sound

theorem afterCall_sound (matching : call.Matches deployment installs)
    (recognizes : call.Recognizes deployment disk installs)
    (tidy : call.Tidy deployment disk)
    (sound : deployment.Sound disk installs)
    (ended : afterCall deployment disk call = some after) :
    deployment.Sound after installs := by
  have kept := Call.kept matching recognizes sound
  unfold afterCall at ended
  split at ended
  · rename_i outcome
    cases ended
    exact (kept.of_ok outcome).2
  · rename_i outcome
    cases ended
    exact kept.of_error outcome (tidy _ _ outcome).1 (tidy _ _ outcome).2

/-- Whenever a call returns normally, the directory holds what is in the
cached installation archive of its package, provided that no update took the
installation of another package for its own and that the calls before were
tidy. -/
theorem destination_fresh {start : Disk String Content}
    (initially : deployment.reads start = none)
    (run : Runs (afterCall deployment)
      (fun disk call =>
        call.Matches deployment installs ∧
          call.Recognizes deployment disk installs ∧
            call.Tidy deployment disk)
      start disk)
    (matching : call.Matches deployment installs)
    (recognizes : call.Recognizes deployment disk installs)
    {final : Site File Archive Content}
    (ended : call.run deployment disk = .ok () final) :
    deployment.Fresh final.disk (cached final call.package) := by
  have sound : deployment.Sound disk installs := by
    apply run.invariant (sound_of_unread initially)
    intro before call after sound allowed taken
    obtain ⟨matching, recognizes, tidy⟩ := allowed
    exact afterCall_sound matching recognizes tidy sound taken
  exact ((Call.kept matching recognizes sound).of_ok ended).1

end Contents

/-! ## A package with one file -/

namespace Sample

def package : Entry := ⟨["a"]⟩

def index : Index :=
  { source :=
      { importSource := [], importPackage := [], self := [⟨"src", "main"⟩] }
    package := { importSource := [], importPackage := [], self := [] } }

def sums : SnapshotEntry :=
  ([⟨"index", "index"⟩, ⟨"main", "main"⟩] :
    List (Σ _ : String, Checksum)).toFinmap

abbrev Stored := String ⊕ Snapshot

def emptyDisk : Disk String Stored where
  node := fun place => if place = [] then some .directory else none
  rooted := by
    intro place name present
    simp at present

/-- A disk with one file. -/
def tree (file : String) : Disk String Stored :=
  ((emptyDisk.makeDirectory ["src"]).bind fun disk =>
    disk.write ["src", "main"] (.inl file)).getD emptyDisk

def fileOf (disk : Disk String Stored) (place : List String) : String :=
  match disk.file? place with
  | some (.inl file) => file
  | _ => ""

/-- Files are their own checksums, and an archive is the file in it. -/
def externals : Externals String String (Disk String Stored) where
  version := "1"
  checksum := id
  parseIndex := fun file => if file = "index" then some index else none
  parseChecksum := fun file => if file = "sums" then some sums else none
  unpackSource := fun file => emptyDisk.write ["main"] (.inl file)
  pack := fun disk => fileOf disk ["src", "main"]
  unpack := fun file => some (tree file)
  install := some
  empty := emptyDisk
  merge := fun disk destination contents =>
    if destination = [] then some contents
    else (disk.makeDirectory destination).bind fun disk =>
      disk.graft destination contents

def deployment : Deployment String String Stored where
  externals := externals
  format := { archiveSuffix := ".tar", index := none, checksum := none }
  snapshots :=
    { read := Sum.getRight?
      write := .inr
      garbled := .inl ""
      read_write := fun _ => rfl
      read_garbled := rfl }
  config := { metaPath := ["meta"], dataPath := some ["data"] }
  destination := ["dest"]

def remote : Remote String := fun _ name =>
  if name = "index" then some "index"
  else if name = "checksum" then some "sums"
  else if name = "main.tar" then some "main"
  else none

/-- What the system does if one file operation fails. -/
def oneAbort (operation : Option Nat) (removed : List (List String)) :
    Nat → Response Stored := fun number =>
  { aborts := operation = some number
    time := 0
    lastWriteTime := 0
    removed
    unpacked := emptyDisk
    copied := none
    created := 0 }

def call (kind : CallKind) (operation : Option Nat)
    (removed : List (List String)) : Call String String Stored :=
  { kind
    package
    fuel := 9
    remote
    faults :=
      { aborts := fun _ => false
        residue := fun _ =>
          { file := none, archive := none, snapshot := .absent
            version := .absent, removed := fun _ _ => false } }
    cache := .empty
    system := oneAbort operation removed }

/-- Every snapshot stands for the one installation there is. -/
def installs (_ : Entry) (_ : Snapshot) : Disk String Stored :=
  tree "main"

def archiveOf {Value : Type} :
    EStateM.Result (Pm.Failure String String) (Machine String String) Value →
      Option String
  | .ok _ machine => (machine.cache.files package).installation.archive
  | .error _ _ => none

theorem archive_of_update {done : List (Stage × StageResult)}
    {machine : Machine String String}
    (ended : Pm.update
      ((call .install none []).station deployment).toSetting 9 package
      ⟨.empty, 0, []⟩ = .ok done machine) :
    (machine.cache.files package).installation.archive = some "main" := by
  have built : archiveOf (Pm.update
      ((call .install none []).station deployment).toSetting 9 package
      ⟨.empty, 0, []⟩) = some "main" := by
    decide +kernel
  rw [ended] at built
  exact built

theorem matching (kind : CallKind) (operation : Option Nat)
    (removed : List (List String)) :
    (call kind operation removed).Matches deployment installs := by
  intro done machine ended archive snapshot isProduct
  have stored : (machine.cache.files
      (call kind operation removed).package).installation.archive =
        some "main" :=
    archive_of_update ended
  rw [isProduct] at stored
  cases stored
  rfl

theorem recognizes (kind : CallKind) (operation : Option Nat)
    (removed : List (List String)) (disk : Disk String Stored) :
    (call kind operation removed).Recognizes deployment disk installs := by
  intro _ _ _ _ _ _ _ _ _ _
  rfl

/-- The disk after some calls. -/
def after (calls : List (Call String String Stored)) : Disk String Stored :=
  calls.foldl (fun disk call =>
    match call.run deployment disk with
    | .ok _ final => final.disk
    | .error _ final => final.disk) emptyDisk

theorem afterCall_after (calls : List (Call String String Stored))
    (call : Call String String Stored) :
    afterCall deployment (after calls) call =
      some (after (calls ++ [call])) := by
  unfold afterCall after
  rw [List.foldl_append, List.foldl_cons, List.foldl_nil]
  split
  · rename_i outcome
    rw [outcome]
  · rename_i outcome
    rw [outcome]

theorem emptyDisk_unread : deployment.reads emptyDisk = none := by
  rfl

abbrev Outcome :=
  EStateM.Result (Failure String String Stored) (Site String String Stored)
    Unit

/-- The call succeeds, or fails to unpack and leaves no meta file. -/
def endsTidily : Outcome → Bool
  | .ok _ _ => true
  | .error (.operation abort) _ =>
      abort.operation == .unpack && (deployment.reads abort.after).isNone
  | .error _ _ => false

theorem tidy_of_endsTidily {call : Call String String Stored}
    {disk : Disk String Stored}
    (ends : endsTidily (call.run deployment disk) = true) :
    call.Tidy deployment disk := by
  intro failure final ended
  rw [ended] at ends
  cases failure with
  | cache failure => cases ends
  | metaExists => cases ends
  | operation abort =>
      obtain ⟨isUnpack, unread⟩ := Bool.and_eq_true_iff.mp ends
      constructor
      · intro other same
        cases same
        unfold Abort.Tidy
        rw [beq_iff_eq.mp isUnpack]
        exact Option.isNone_iff_eq_none.mp unread
      · intro same
        cases same

/-- The file that the data of a directory consist of. -/
def installedFile : Outcome → Option (Option (Node Stored))
  | .ok _ final => some (deployment.contents final.disk ["src", "main"])
  | .error _ _ => none

theorem ends_of_installedFile {outcome : Outcome}
    {file : Option (Node Stored)}
    (installed : installedFile outcome = some file) :
    ∃ final, outcome = .ok () final ∧
      deployment.contents final.disk ["src", "main"] = file := by
  cases outcome with
  | ok value final => exact ⟨final, rfl, Option.some.inj installed⟩
  | error failure final => cases installed

end Sample

/-- After an installation that failed tidily, an update installs anew. -/
theorem destination_fresh_sample :
    ∃ final, (Sample.call .update none []).run Sample.deployment
        (Sample.after [Sample.call .install none [],
          Sample.call .install (some 2) []]) = .ok () final ∧
      Sample.deployment.Fresh final.disk (cached final Sample.package) := by
  have first : Sample.endsTidily ((Sample.call .install none []).run
      Sample.deployment (Sample.after [])) = true := by
    decide +kernel
  have second : Sample.endsTidily ((Sample.call .install (some 2) []).run
      Sample.deployment
        (Sample.after [Sample.call .install none []])) = true := by
    decide +kernel
  have third : Sample.installedFile ((Sample.call .update none []).run
      Sample.deployment (Sample.after [Sample.call .install none [],
        Sample.call .install (some 2) []])) =
        some (some (.file (.inl "main"))) := by
    decide +kernel
  obtain ⟨final, ended, _⟩ := Sample.ends_of_installedFile third
  refine ⟨final, ended, ?_⟩
  apply destination_fresh Sample.emptyDisk_unread _
    (Sample.matching .update none [])
    (Sample.recognizes .update none [] _) ended
  apply Runs.trans
  · exact Runs.single
      ⟨Sample.matching _ _ _, Sample.recognizes _ _ _ _,
        Sample.tidy_of_endsTidily first⟩
      (Sample.afterCall_after [] _)
  · exact Runs.single
      ⟨Sample.matching _ _ _, Sample.recognizes _ _ _ _,
        Sample.tidy_of_endsTidily second⟩
      (Sample.afterCall_after [Sample.call .install none []] _)

/-- An installation that is cut off while it removes the old one may leave
the meta file beside missing data, and an update trusts it. -/
theorem destination_not_fresh :
    ∃ disk final,
      Runs (afterCall Sample.deployment)
          (fun _ call => call.Matches Sample.deployment Sample.installs)
          Sample.emptyDisk disk ∧
        (Sample.call .update none []).Matches Sample.deployment
          Sample.installs ∧
        (Sample.call .update none []).run Sample.deployment disk =
          .ok () final ∧
        ¬ Sample.deployment.Fresh final.disk
          (cached final Sample.package) := by
  have trusted : Sample.installedFile ((Sample.call .update none []).run
      Sample.deployment (Sample.after [Sample.call .install none [],
        Sample.call .install (some 0) [["data"]]])) = some none := by
    decide +kernel
  obtain ⟨final, ended, missing⟩ := Sample.ends_of_installedFile trusted
  refine ⟨_, final, ?_, Sample.matching _ _ _, ended, ?_⟩
  · apply Runs.trans
    · exact Runs.single (Sample.matching .install none [])
        (Sample.afterCall_after [] _)
    · exact Runs.single (Sample.matching .install (some 0) [["data"]])
        (Sample.afterCall_after [Sample.call .install none []] _)
  · intro fresh
    obtain ⟨archive, snapshot, tree, _, opened, contents, _⟩ := fresh
    have isTree : Sample.tree archive = tree := Option.some.inj opened
    rw [contents, ← isTree] at missing
    cases missing

end Bacs.Pm.Extractor
