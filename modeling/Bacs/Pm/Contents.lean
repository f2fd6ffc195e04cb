import Bacs.Pm.Distributor

/-!
# What the archives of a package should contain

A world gives the index and the archives of packages.  `Yields` says what is
built from a world: the source of a package with everything it imports, its
build and its installation.  It knows nothing of caches and snapshots.

A snapshot pins a world down, as checksums are free of collisions, so it also
pins down what is built.  A cache is sound if every archive in it has the
contents that belong to the snapshot beside it.
-/

namespace Bacs.Pm

variable {File Archive Tree : Type}

structure PackageSource (File : Type) where
  index : Index
  files : SourceId → Option File

abbrev World (File : Type) := Entry → Option (PackageSource File)

/-- The second world has all that the first one has. -/
def World.Below (first second : World File) : Prop :=
  ∀ package source, first package = some source →
    second package = some source

/-! ## Building -/

inductive Instruction where
  | extract (package : Entry) (source : SourceId)
      (destination : List PathName)
  | source (package : Entry) (destination : List PathName)
  | install (package : Entry) (destination : List PathName)
  deriving DecidableEq, Repr

namespace PackageStage

variable (part : PackageStage) (package : Entry)
  (destination : List PathName)

def selfInstructions : List Instruction :=
  part.self.map fun i =>
    .extract package i.source (destination ++ [i.path])

def sourceInstructions : List Instruction :=
  part.importSource.map fun i => .source i.package (destination ++ [i.path])

def packageInstructions : List Instruction :=
  part.importPackage.map fun i =>
    .install i.package (destination ++ [i.path])

/-- What goes into a directory for one part of an index. -/
def instructions : List Instruction :=
  part.selfInstructions package destination ++
    (part.sourceInstructions destination ++
      part.packageInstructions destination)

end PackageStage

inductive Task (Tree : Type) where
  | run (instructions : List Instruction) (tree : Tree)
  | build (package : Entry)
  | installation (package : Entry)

def Kind.task (package : Entry) : Kind → Task Tree
  | .build => .build package
  | .installation => .installation package

variable (externals : Externals File Archive Tree)

inductive Yields (world : World File) : Task Tree → Tree → Prop where
  | done {tree : Tree} : Yields world (.run [] tree) tree
  | extract {package : Entry} {source : SourceId}
      {destination : List PathName} {rest : List Instruction}
      {tree contents next result : Tree} {known : PackageSource File}
      {file : File} :
      world package = some known → known.files source = some file →
      externals.unpackSource file = some contents →
      externals.merge tree destination contents = some next →
      Yields world (.run rest next) result →
      Yields world (.run (.extract package source destination :: rest) tree)
        result
  | source {package : Entry} {destination : List PathName}
      {rest : List Instruction} {tree next result : Tree}
      {known : PackageSource File} :
      world package = some known →
      Yields world
        (.run (known.index.source.instructions package destination) tree)
        next →
      Yields world (.run rest next) result →
      Yields world (.run (.source package destination :: rest) tree) result
  | install {package : Entry} {destination : List PathName}
      {rest : List Instruction} {tree contents next result : Tree} :
      Yields world (.installation package) contents →
      externals.merge tree destination contents = some next →
      Yields world (.run rest next) result →
      Yields world (.run (.install package destination :: rest) tree) result
  | buildEmpty {package : Entry} {known : PackageSource File} :
      world package = some known → known.index.source.empty = true →
      Yields world (.build package) externals.empty
  | build {package : Entry} {known : PackageSource File}
      {source built : Tree} :
      world package = some known → known.index.source.empty = false →
      Yields world (.run [.source package []] externals.empty) source →
      externals.install source = some built →
      Yields world (.build package) built
  | installation {package : Entry} {known : PackageSource File}
      {built tree result : Tree} :
      world package = some known → Yields world (.build package) built →
      externals.merge externals.empty [] built = some tree →
      Yields world
        (.run (known.index.package.instructions package []) tree) result →
      Yields world (.installation package) result

variable {externals} {world more : World File} {task : Task Tree}
  {tree other : Tree}

theorem Yields.functional (first : Yields externals world task tree)
    (second : Yields externals world task other) : tree = other := by
  induction first generalizing other with
  | done =>
      cases second
      rfl
  | extract known file contents merged _ induction =>
      cases second with
      | extract known' file' contents' merged' rest =>
          cases known.symm.trans known'
          cases file.symm.trans file'
          cases contents.symm.trans contents'
          cases merged.symm.trans merged'
          exact induction rest
  | source known _ _ body rest =>
      cases second with
      | source known' body' rest' =>
          cases known.symm.trans known'
          cases body body'
          exact rest rest'
  | install _ merged _ body rest =>
      cases second with
      | install body' merged' rest' =>
          cases body body'
          cases merged.symm.trans merged'
          exact rest rest'
  | buildEmpty known empty =>
      cases second with
      | buildEmpty _ _ => rfl
      | build known' proper _ _ =>
          cases known.symm.trans known'
          rw [empty] at proper
          cases proper
  | build known proper _ installed body =>
      cases second with
      | buildEmpty known' empty =>
          cases known.symm.trans known'
          rw [empty] at proper
          cases proper
      | build _ _ body' installed' =>
          cases body body'
          exact Option.some.inj (installed.symm.trans installed')
  | installation known _ merged _ built body =>
      cases second with
      | installation known' built' merged' body' =>
          cases known.symm.trans known'
          cases built built'
          cases merged.symm.trans merged'
          exact body body'

theorem Yields.mono (yields : Yields externals world task tree)
    (below : world.Below more) : Yields externals more task tree := by
  induction yields with
  | done => exact .done
  | extract known file contents merged _ rest =>
      exact .extract (below _ _ known) file contents merged rest
  | source known _ _ body rest => exact .source (below _ _ known) body rest
  | install _ merged _ body rest => exact .install body merged rest
  | buildEmpty known empty => exact .buildEmpty (below _ _ known) empty
  | build known proper _ installed body =>
      exact .build (below _ _ known) proper body installed
  | installation known _ merged _ built body =>
      exact .installation (below _ _ known) built merged body

theorem Yields.append {first second : List Instruction} {middle : Tree}
    (head : Yields externals world (.run first tree) middle)
    (tail : Yields externals world (.run second middle) other) :
    Yields externals world (.run (first ++ second) tree) other := by
  generalize start : Task.run first tree = task at head
  induction head generalizing first tree with
  | done =>
      cases start
      exact tail
  | extract known file contents merged _ induction =>
      cases start
      exact .extract known file contents merged (induction tail rfl)
  | source known body _ _ induction =>
      cases start
      exact .source known body (induction tail rfl)
  | install body merged _ _ induction =>
      cases start
      exact .install body merged (induction tail rfl)
  | buildEmpty known empty => cases start
  | build known proper _ installed _ => cases start
  | installation known _ merged _ _ _ => cases start

/-! ## Snapshots of worlds -/

variable (externals) (format : Format)

/-- The checksums of `entry` are those of the files of `source`, which has no
others. -/
structure Matches (package : Entry) (source : PackageSource File)
    (entry : SnapshotEntry) : Prop where
  index : ∃ file raw, externals.parseIndex file = some raw ∧
    source.index = raw.absolute package ∧
    entry.lookup (format.checksumName .index) =
      some (externals.checksum file)
  files : ∀ name ∈ source.index.sources, ∃ file,
    source.files name = some file ∧
      entry.lookup (format.checksumName (.source name)) =
        some (externals.checksum file)
  others : ∀ name, name ∉ source.index.sources → source.files name = none

/-- The world has the packages of the snapshot, with its checksums. -/
def Pins (snapshot : Snapshot) (world : World File) : Prop :=
  ∀ package,
    (∀ entry, snapshot.lookup package = some entry →
      ∃ source, world package = some source ∧
        Matches externals format package source entry) ∧
    (snapshot.lookup package = none → world package = none)

def Denotes (snapshot : Snapshot) (task : Task Tree) (tree : Tree) : Prop :=
  ∃ world, Pins externals format snapshot world ∧
    Yields externals world task tree

variable {externals format}

theorem Matches.unique {package : Entry} {first second : PackageSource File}
    {entry : SnapshotEntry}
    (injective : Function.Injective externals.checksum)
    (one : Matches externals format package first entry)
    (two : Matches externals format package second entry) :
    first = second := by
  have sameIndex : first.index = second.index := by
    obtain ⟨file, raw, parsed, absolute, found⟩ := one.index
    obtain ⟨file', raw', parsed', absolute', found'⟩ := two.index
    cases injective (Option.some.inj (found.symm.trans found'))
    cases parsed.symm.trans parsed'
    rw [absolute, absolute']
  have sameFiles : first.files = second.files := by
    funext name
    by_cases member : name ∈ first.index.sources
    · obtain ⟨file, known, found⟩ := one.files name member
      obtain ⟨file', known', found'⟩ := two.files name (sameIndex ▸ member)
      cases injective (Option.some.inj (found.symm.trans found'))
      rw [known, known']
    · rw [one.others name member, two.others name (sameIndex ▸ member)]
  cases first
  cases second
  simp only at sameIndex sameFiles
  rw [sameIndex, sameFiles]

theorem Pins.below {first second : Snapshot}
    (injective : Function.Injective externals.checksum)
    (one : Pins externals format first world)
    (two : Pins externals format second more)
    (smaller : ∀ package entry, first.lookup package = some entry →
      second.lookup package = some entry) : world.Below more := by
  intro package source known
  cases found : first.lookup package with
  | none =>
      rw [(one package).2 found] at known
      cases known
  | some entry =>
      obtain ⟨left, knownLeft, matchLeft⟩ := (one package).1 entry found
      obtain ⟨right, knownRight, matchRight⟩ :=
        (two package).1 entry (smaller package entry found)
      cases known.symm.trans knownLeft
      rw [knownRight, matchLeft.unique injective matchRight]

theorem Denotes.functional {snapshot : Snapshot}
    (injective : Function.Injective externals.checksum)
    (first : Denotes externals format snapshot task tree)
    (second : Denotes externals format snapshot task other) :
    tree = other := by
  obtain ⟨world, pins, yields⟩ := first
  obtain ⟨more, pinsMore, yieldsMore⟩ := second
  exact (yields.mono
    (pins.below injective pinsMore fun _ _ found => found)).functional
      yieldsMore

/-! ## Sound caches -/

variable (externals format)

/-- If there are an archive and a readable snapshot, they belong together. -/
def Product.Sound (product : Product Archive) (task : Task Tree) : Prop :=
  ∀ archive snapshot, product.archive = some archive →
    product.snapshot = .value snapshot →
      ∃ tree, externals.unpack archive = some tree ∧
        Denotes externals format snapshot task tree

def Sound (cache : Cache File Archive) : Prop :=
  ∀ package kind,
    ((cache.files package).product kind).Sound externals format
      (kind.task package)

end Bacs.Pm
