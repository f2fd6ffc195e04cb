import Bacs.Pm.MetaTree
import Bacs.Pm.Rebuilding

/-!
# Archives that belong to their snapshots

What the builder makes for a stage is what the snapshot of the stage denotes:
the verified sources form a world with the checksums of the snapshot, and in
a sound cache the archives used are what that world yields.

A failed operation keeps the cache sound unless it is `Exposed`: it leaves a
new archive beside a readable snapshot that was not made with it.
-/

namespace Bacs.Pm

open Foundation DepthFirst Relation

variable {File Archive Tree : Type} {setting : Setting File Archive Tree}
  {base cache : Cache File Archive} {area : Entry → Prop} {fuel : Nat}
  {done : List (Stage × StageResult)} {stage : Stage} {kind : Kind}
  {before final : Machine File Archive} {tree : Tree} {snapshot : Snapshot}

/-- Checksums are free of collisions, and archives are packed faithfully. -/
structure Faithful (externals : Externals File Archive Tree) : Prop where
  checksum : Function.Injective externals.checksum
  unpack : ∀ tree, externals.unpack (externals.pack tree) = some tree

/-- The packages of a snapshot, with the files in the cache. -/
def worldOf (setting : Setting File Archive Tree)
    (base cache : Cache File Archive) (snapshot : Snapshot) : World File :=
  fun package =>
    if package ∈ snapshot then
      (setting.index base package).map fun deps =>
        { index := deps
          files := fun source =>
            if source ∈ deps.sources then (cache.files package).source source
            else none }
    else none

theorem worldOf_eq {package : Entry} {deps : Index}
    (member : package ∈ snapshot)
    (known : setting.index base package = some deps) :
    worldOf setting base cache snapshot package =
      some ⟨deps, fun source =>
        if source ∈ deps.sources then (cache.files package).source source
        else none⟩ := by
  rw [worldOf, if_pos member, known, Option.map_some]

theorem worldOf_matches {package : Entry}
    (fresh : Fresh setting base package)
    (verified : Verified setting base cache package)
    (member : package ∈ snapshot) {entry : SnapshotEntry}
    (isSum : setting.sum base package = some entry) :
    ∃ source, worldOf setting base cache snapshot package = some source ∧
      Matches setting.externals setting.format package source entry := by
  obtain ⟨deps, sum, known, isSum', files⟩ := verified
  cases isSum.symm.trans isSum'
  obtain ⟨checksumFile, other, file, _, stored, parsed, isFile, listed⟩ :=
    fresh
  have sameSum : setting.sum base package = some other := by
    simp [Setting.sum, Cache.checksumOf, stored, parsed]
  cases isSum.symm.trans sameSum
  refine ⟨_, worldOf_eq member known, ?_, ?_, ?_⟩
  · obtain ⟨raw, isRaw, absolute⟩ : ∃ raw,
        setting.externals.parseIndex file = some raw ∧
          raw.absolute package = deps := by
      simpa [Setting.index, Cache.indexOf, isFile,
        Option.bind_eq_some_iff] using known
    exact ⟨file, raw, isRaw, absolute.symm, listed⟩
  · intro name isSource
    obtain ⟨found, here, sum⟩ := files name isSource
    exact ⟨found, by simpa [isSource] using here, sum⟩
  · intro name notSource
    simp [notSource]

namespace Searching

/-- What a stage whose dependencies are finished reaches is finished. -/
theorem source_finished (searching : Searching setting base area done before)
    (children : ∀ child ∈ edges (setting.index base) stage,
      child ∈ done.map Prod.fst)
    (isKind : stage.2.kind = some kind) {package : Entry}
    (inside : package ∈ reached (setting.index base) stage) :
    ∃ result, ((package, StageType.source), result) ∈ done := by
  rcases ReflTransGen.cases_head inside with same | ⟨child, edge, path⟩
  · exact absurd (congrArg Prod.snd same) (notSource_of_kind isKind)
  · obtain ⟨⟨_, result⟩, inDone, rfl⟩ := List.mem_map.mp
      (searching.ordered.closed (children child edge) path)
    exact ⟨result, inDone⟩

theorem pins (searching : Searching setting base area done before)
    (fresh : ∀ package, area package → Fresh setting base package)
    (children : ∀ child ∈ edges (setting.index base) stage,
      child ∈ done.map Prod.fst)
    (isKind : stage.2.kind = some kind)
    (lists : Lists (setting.sum base) snapshot
      (reached (setting.index base) stage)) :
    Pins setting.externals setting.format snapshot
      (worldOf setting base before.cache snapshot) := by
  intro package
  constructor
  · intro entry found
    obtain ⟨result, inDone⟩ := searching.source_finished children isKind
      (lists.mem_iff.mpr ⟨entry, found⟩)
    exact worldOf_matches (fresh package (searching.allowed _ inDone).2)
      (searching.planned.verified package result inDone)
      (Finmap.mem_iff.mpr ⟨entry, found⟩) (lists.sum_of_lookup found)
  · intro missing
    rw [worldOf, if_neg (Finmap.lookup_eq_none.mp missing)]

theorem supplies (searching : Searching setting base area done before)
    (injective : Function.Injective setting.externals.checksum)
    (sound : Sound setting.externals setting.format before.cache)
    (lists : Lists (setting.sum base) snapshot
      (reached (setting.index base) stage))
    (pins : Pins setting.externals setting.format snapshot
      (worldOf setting base before.cache snapshot)) :
    Supplies setting before.cache (Below setting base done stage)
      (worldOf setting base before.cache snapshot) where
  source := by
    intro package deps below known
    rw [Setting.index,
      searching.planned.settled.indexOf setting.externals] at known
    obtain ⟨entry, found⟩ := lists.mem_iff.mp below.2
    refine ⟨_, worldOf_eq (Finmap.mem_iff.mpr ⟨entry, found⟩) known, rfl, ?_⟩
    intro source isSource
    simp [isSource]
  product := by
    intro package kind type archive contents below isKind stored opened
    obtain ⟨⟨_, result⟩, inDone, rfl⟩ := List.mem_map.mp below.1
    obtain ⟨found, product⟩ :=
      searching.planned.current _ result kind inDone isKind
    rw [product] at stored
    cases stored
    obtain ⟨tree, isTree, world, pinned, yields⟩ := sound package kind
      archive result.2 (by rw [product]) (by rw [product])
    cases opened.symm.trans isTree
    refine yields.mono (pinned.below injective pins fun other entry has => ?_)
    have smaller := searching.planned.snapshots _ result inDone
    obtain ⟨listed, isListed⟩ := lists.mem_iff.mp
      (below.2.trans (smaller.mem_iff.mpr ⟨entry, has⟩))
    have one := smaller.sum_of_lookup has
    have two := lists.sum_of_lookup isListed
    rw [isListed, ← two, one]

/-- What may be made for a stage is what its snapshot denotes. -/
theorem denotes (searching : Searching setting base area done before)
    (injective : Function.Injective setting.externals.checksum)
    (sound : Sound setting.externals setting.format before.cache)
    (fresh : ∀ package, area package → Fresh setting base package)
    (children : ∀ child ∈ edges (setting.index base) stage,
      child ∈ done.map Prod.fst)
    (isKind : stage.2.kind = some kind)
    (fits : Fits setting base before.cache (Below setting base done stage)
      stage kind tree snapshot) :
    Denotes setting.externals setting.format snapshot (kind.task stage.1)
      tree := by
  have pins := searching.pins fresh children isKind fits.1
  exact ⟨_, pins,
    fits.2 _ (searching.supplies injective sound fits.1 pins)⟩

end Searching

/-! ## What keeps a cache sound -/

variable {externals : Externals File Archive Tree} {format : Format}

theorem Sound.of_same (sound : Sound externals format cache)
    {other : Cache File Archive} (same : cache.SameProducts other) :
    Sound externals format other := by
  intro package kind
  rw [same package kind]
  exact sound package kind

/-- Changing one archive keeps a cache sound if the new one is. -/
theorem Sound.setProduct (sound : Sound externals format cache)
    {package : Entry} {product : Product Archive}
    (isSound : product.Sound externals format (kind.task package)) :
    Sound externals format (cache.update package fun files =>
      files.setProduct product kind) := by
  intro other otherKind
  by_cases same : other = package
  · subst same
    rw [Cache.files_update_self]
    by_cases kinds : otherKind = kind
    · subst kinds
      rw [PackageFiles.product_setProduct]
      exact isSound
    · rw [PackageFiles.product_setProduct_of_ne kinds]
      exact sound other otherKind
  · rw [Cache.files_update_of_ne same]
    exact sound other otherKind

theorem Product.sound_packed
    (inverse : ∀ tree, externals.unpack (externals.pack tree) = some tree)
    {task : Task Tree}
    (denotes : Denotes externals format snapshot task tree) :
    Product.Sound externals format
      ⟨some (externals.pack tree), .value snapshot⟩ task := by
  intro archive written stored same
  cases stored
  cases same
  exact ⟨tree, inverse tree, denotes⟩

theorem Sound.step (faithful : Faithful setting.externals)
    (fresh : ∀ package, area package → Fresh setting base package)
    (searching : Searching setting base area done before)
    {total result : StageResult}
    (children : ∀ child ∈ edges (setting.index base) stage,
      child ∈ done.map Prod.fst)
    (finished : Finished setting base (Below setting base done stage) stage
      total before result final)
    (sound : Sound setting.externals setting.format before.cache) :
    Sound setting.externals setting.format final.cache := by
  cases finished with
  | kept _ _ _ _ same =>
      rw [same.1]
      exact sound
  | rebuilt isKind _ _ fits cache _ =>
      rw [cache]
      exact sound.setProduct (Product.sound_packed faithful.unpack
        (searching.denotes faithful.checksum sound fresh children isKind
          fits))
  | source _ resourced _ _ _ => exact sound.of_same resourced.product

theorem Sound.observed (fuel : Nat)
    (fresh : ∀ package, area package → Fresh setting base package)
    (claim : Prop) :
    Observed setting fuel base area (fun _ machine =>
      Faithful setting.externals → claim →
        Sound setting.externals setting.format machine.cache) where
  same := by
    intro done before final sound same faithful holds
    rw [same.1]
    exact sound faithful holds
  step := fun _ _ _ _ _ _ searching sound _ _ _ collected finished faithful
      holds =>
    (sound faithful holds).step faithful fresh searching collected.mem finished

/-! ## Failed operations -/

/-- The operation leaves an archive beside a readable snapshot that was not
made with it. -/
def Abort.Exposed (externals : Externals File Archive Tree)
    (abort : Abort File Archive) : Prop :=
  match abort.operation with
  | .pack kind package =>
      let product := (abort.before.files package).product kind
      (∃ archive, abort.residue.archive = some (some archive) ∧
        product.archive ≠ some archive) ∧
      ∃ snapshot, product.snapshot = .value snapshot
  | .readEmptyChecksum package =>
      ∃ snapshot, (abort.before.files package).build.snapshot =
          .value snapshot ∧
        ∀ checksum, abort.before.checksumOf externals package =
            some checksum →
          snapshot ≠ Finmap.singleton package checksum
  | .writeSnapshot _ _ written =>
      ∃ snapshot, abort.residue.snapshot = .value snapshot ∧
        snapshot ≠ written
  | _ => False

theorem Product.sound_left {product : Product Archive} {task : Task Tree}
    (sound : product.Sound externals format task)
    {left : Option (Option Archive)}
    (safe : (∃ archive, left = some (some archive) ∧
        product.archive ≠ some archive) →
      ∀ snapshot, product.snapshot ≠ .value snapshot) :
    Product.Sound externals format
      { product with archive := left.getD product.archive } task := by
  intro archive snapshot stored written
  cases left with
  | none => exact sound archive snapshot stored written
  | some kept =>
      rw [Option.getD_some] at stored
      subst stored
      by_cases old : product.archive = some archive
      · exact sound archive snapshot old written
      · exact absurd written (safe ⟨archive, rfl, old⟩ snapshot)

/-- A failure of the builder that is not exposed keeps the cache sound. -/
theorem Broken.sound {package : Entry} {fits : Tree → Snapshot → Prop}
    {left : Cache File Archive} {abort : Abort File Archive}
    (made : ∀ tree snapshot, fits tree snapshot →
      Product.Sound setting.externals setting.format
        ⟨some (setting.externals.pack tree), .value snapshot⟩
        (kind.task package))
    (sound : Sound setting.externals setting.format cache)
    (broken : Broken setting fits kind package cache abort left)
    (safe : ¬ abort.Exposed setting.externals) :
    Sound setting.externals setting.format left := by
  cases broken with
  | harmless => exact sound
  | packing isPack isBefore =>
      simp only [Abort.Exposed, isPack, isBefore, not_and, not_exists] at safe
      have here : Product.Sound setting.externals setting.format
          { (cache.files package).product kind with
            archive := abort.residue.archive.getD
              ((cache.files package).product kind).archive }
          (kind.task package) :=
        Product.sound_left (sound package kind) safe
      simpa [Cache.update] using sound.setProduct here
  | listing isBuild isRead fitting isBefore =>
      subst isBuild
      simp only [Abort.Exposed, isRead, not_exists, not_and, not_forall]
        at safe
      have here : Product.Sound setting.externals setting.format
          { (cache.files package).product .build with
            archive := some
              (setting.externals.pack setting.externals.empty) }
          (Kind.build.task package) := by
        intro archive snapshot stored written
        obtain ⟨checksum, isSum, same⟩ := safe snapshot (by
          rw [isBefore, Cache.files_update_self]
          exact written)
        have settled : cache.Settled abort.before := by
          rw [isBefore]
          exact (Cache.Settled.refl cache).update (by simp) (by simp)
        rw [settled.checksumOf] at isSum
        rw [not_not] at same
        have sound := made _ _ (fitting checksum isSum)
        rw [← same] at sound
        exact sound archive snapshot stored rfl
      rw [isBefore]
      simpa [Cache.update] using sound.setProduct here
  | @writing tree written fitting isWrite =>
      simp only [Abort.Exposed, isWrite, not_exists, not_and, not_not] at safe
      refine sound.setProduct fun archive snapshot stored isLeft => ?_
      rw [safe snapshot isLeft]
      exact made tree written fitting archive written stored rfl

theorem Damaged.sound (faithful : Faithful setting.externals)
    (fresh : ∀ package, area package → Fresh setting base package)
    (searching : Searching setting base area done before)
    (children : ∀ child ∈ edges (setting.index base) stage,
      child ∈ done.map Prod.fst)
    (sound : Sound setting.externals setting.format before.cache)
    {abort : Abort File Archive}
    (damaged : Damaged setting base (Below setting base done stage) stage
      before.cache abort cache)
    (safe : ¬ abort.Exposed setting.externals) :
    Sound setting.externals setting.format cache := by
  have made {kind : Kind} (isKind : stage.2.kind = some kind) (tree : Tree)
      (snapshot : Snapshot)
      (fits : Fits setting base before.cache (Below setting base done stage)
        stage kind tree snapshot) :
      Product.Sound setting.externals setting.format
        ⟨some (setting.externals.pack tree), .value snapshot⟩
        (kind.task stage.1) :=
    Product.sound_packed faithful.unpack
      (searching.denotes faithful.checksum sound fresh children isKind fits)
  cases damaged with
  | resourced resourced => exact sound.of_same resourced.product
  | broken isKind broken => exact broken.sound (made isKind) sound safe
  | made isKind fits => exact sound.setProduct (made isKind _ _ fits)

end Bacs.Pm
