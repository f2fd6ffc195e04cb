import Bacs.Pm.Installing
import Bacs.Pm.SharedCache

/-!
# Installations beside each other

What is done to the directory of one package spares the installations of the
others: where a meta file is left, so are the data beside it.
-/

namespace Bacs.Pm.Extractor.SharedCache

variable {File Archive Content : Type}
  {config : Config File Archive Content} {group : Set Entry}
  {archives : Entry → Disk String Content → Prop}
  {package other : Entry} {before middle after : Disk String Content}

/-! ## Directories -/

section Directories

variable (config : Config File Archive Content)

def Config.metaOf (package : Entry) : List String :=
  config.directory package ++ [config.metaName]

def Config.dataOf (package : Entry) : List String :=
  config.directory package ++ ["data"]

/-- The packages have directories of their own in the cache, none of which is
among the data of another package. -/
structure Config.Requestable (group : Set Entry) : Prop where
  inside : ∀ package ∈ group, config.root <+: config.directory package
  distinct : ∀ package ∈ group, ∀ other ∈ group, package ≠ other →
    config.directory package ≠ config.directory other
  outside : ∀ package ∈ group, ∀ other ∈ group, package ≠ other →
    ¬ config.dataOf package <+: config.directory other

def Config.Marked (package : Entry) (disk : Disk String Content) : Prop :=
  (disk.file? (config.metaOf package)).isSome

variable (archives : Entry → Disk String Content → Prop)

/-- There is a directory with what was in an installation archive of the
package. -/
def Config.Installed (package : Entry) (disk : Disk String Content) : Prop :=
  ∃ tree, archives package tree ∧ tree.node [] = some .directory ∧
    ∀ names, disk.node (config.dataOf package ++ names) = tree.node names

/-- A meta file is beside a complete installation only. -/
def Config.Good (package : Entry) (disk : Disk String Content) : Prop :=
  config.Marked package disk → config.Installed archives package disk

/-- If the meta file is still there, so are the data. -/
def Config.Spares (package : Entry) (before after : Disk String Content) :
    Prop :=
  config.Marked package after → config.Marked package before ∧
    ∀ names, after.node (config.dataOf package ++ names) =
      before.node (config.dataOf package ++ names)

end Directories

theorem Config.Spares.trans (first : config.Spares package before middle)
    (second : config.Spares package middle after) :
    config.Spares package before after := by
  intro marked
  obtain ⟨marked, data⟩ := second marked
  obtain ⟨marked, earlier⟩ := first marked
  exact ⟨marked, fun names => (data names).trans (earlier names)⟩

theorem Config.Spares.good (spares : config.Spares package before after)
    (good : config.Good archives package before) :
    config.Good archives package after := by
  intro marked
  obtain ⟨marked, data⟩ := spares marked
  obtain ⟨tree, isArchive, isDirectory, contents⟩ := good marked
  exact ⟨tree, isArchive, isDirectory,
    fun names => (data names).trans (contents names)⟩

theorem spares_of_same
    (isMeta : after.node (config.metaOf package) =
      before.node (config.metaOf package))
    (data : ∀ names, after.node (config.dataOf package ++ names) =
      before.node (config.dataOf package ++ names)) :
    config.Spares package before after := by
  intro marked
  unfold Config.Marked at marked ⊢
  rw [Disk.file?_congr isMeta] at marked
  exact ⟨marked, data⟩

theorem spares_of_unmarked (unmarked : ¬ config.Marked package after) :
    config.Spares package before after :=
  fun marked => absurd marked unmarked

theorem unmarked_of_node (node : after.node (config.metaOf package) = none ∨
      after.node (config.metaOf package) = some .directory) :
    ¬ config.Marked package after := by
  intro marked
  obtain ⟨content, file⟩ := Option.isSome_iff_exists.mp marked
  rw [Disk.file?_eq_some] at file
  obtain nothing | directory := node
  · rw [nothing] at file
    cases file
  · rw [directory] at file
    cases file

theorem unmarked_of_emptied {place : List String}
    (emptied : Emptied place before after)
    (above : place <+: config.metaOf package) :
    ¬ config.Marked package after := by
  apply unmarked_of_node
  rw [emptied, if_pos above]
  split
  · exact .inr rfl
  · exact .inl rfl

/-! ## Places of two packages -/

section Places

variable {first second names : List String} {name last : String}

theorem not_above_of_ne (different : first ≠ second)
    (outside : ¬ first ++ [name] <+: second) :
    ¬ first ++ [name] <+: second ++ [last] := by
  intro above
  obtain same | above := List.prefix_concat_iff.mp above
  · exact different (List.append_inj_left' same rfl)
  · exact outside above

theorem not_above_below (different : first ≠ second)
    (outside : ¬ first ++ [name] <+: second)
    (outside' : ¬ second ++ [name] <+: first) :
    ¬ first ++ [name] <+: second ++ [name] ++ names := by
  intro above
  obtain above | above := List.prefix_or_prefix_of_prefix above
    (List.prefix_append (second ++ [name]) names)
  · exact not_above_of_ne different outside above
  · exact not_above_of_ne different.symm outside' above

/-- A directory that the data of another package lie in has the whole
directory of this package in it. -/
theorem prefix_of_above (outside : ¬ second ++ [name] <+: first)
    (above : first <+: second ++ [name] ++ names) : first <+: second := by
  obtain above | above := List.prefix_or_prefix_of_prefix above
    (List.prefix_append (second ++ [name]) names)
  · obtain same | above := List.prefix_concat_iff.mp above
    · exact absurd (same ▸ List.prefix_refl first) outside
    · exact above
  · exact absurd above outside

end Places

/-! ## What is done for another package -/

section Other

variable (requestable : config.Requestable group) (isPackage : package ∈ group)
  (isOther : other ∈ group) (different : package ≠ other)

include requestable isPackage isOther different

theorem spares_emptied
    (emptied : Emptied (config.directory package) before after) :
    config.Spares other before after := by
  have outside' :=
    requestable.outside other isOther package isPackage different.symm
  by_cases above : config.directory package <+: config.metaOf other
  · exact spares_of_unmarked (unmarked_of_emptied emptied above)
  · apply spares_of_same
    · exact emptied.outside _ above
    · intro names
      apply emptied.outside
      intro inside
      have isAbove := prefix_of_above outside' inside
      exact above (isAbove.trans (List.prefix_append _ _))

/-- What happens among the data of one package does not concern another. -/
theorem spares_inData
    (kept : ∀ place, ¬ config.dataOf package <+: place →
      after.node place = before.node place) :
    config.Spares other before after := by
  have apart := requestable.distinct package isPackage other isOther different
  have outside :=
    requestable.outside package isPackage other isOther different
  have outside' :=
    requestable.outside other isOther package isPackage different.symm
  apply spares_of_same
  · exact kept _ (not_above_of_ne apart outside)
  · intro names
    exact kept _ (not_above_below apart outside outside')

theorem spares_metaFile
    (kept : ∀ place, place ≠ config.metaOf package →
      after.node place = before.node place) :
    config.Spares other before after := by
  have apart := requestable.distinct package isPackage other isOther different
  have outside' :=
    requestable.outside other isOther package isPackage different.symm
  apply spares_of_same
  · apply kept
    intro same
    exact apart (List.append_inj_left' same rfl).symm
  · intro names
    apply kept
    intro same
    apply not_above_of_ne apart.symm outside'
    exact ⟨names, same⟩

end Other

/-! ## Installing -/

section Installing

variable {surroundings : Surroundings File Archive Content}
  {product : Product Archive}

theorem not_data_above_meta (config : Config File Archive Content)
    (package : Entry) :
    ¬ config.dataOf package <+: config.metaOf package := by
  intro above
  have same := (List.prefix_append_right_inj _).mp above
  obtain ⟨_, same⟩ := same
  exact config.metaName_ne (List.cons.inj same).1.symm

theorem unmarked_inData
    (kept : ∀ place, ¬ config.dataOf package <+: place →
      after.node place = before.node place)
    (unmarked : ¬ config.Marked package before) :
    ¬ config.Marked package after := by
  unfold Config.Marked at unmarked ⊢
  rw [Disk.file?_congr (kept _ (not_data_above_meta config package))]
  exact unmarked

theorem Prepared.unmarked
    (prepared : Prepared (config.station surroundings)
      (config.directory package) before after) :
    ¬ config.Marked package after := by
  obtain ⟨emptied, first, second⟩ := prepared
  exact unmarked_inData second.outside
    (unmarked_of_emptied first (List.prefix_append _ _))

theorem Ready.unmarked
    (ready : Ready (config.station surroundings) product
      (config.directory package) before after) :
    ¬ config.Marked package after := by
  obtain ⟨prepared, isPrepared, filled⟩ := ready
  exact unmarked_inData filled.outside (Prepared.unmarked isPrepared)

/-- The archive that is unpacked is one of the package. -/
def Supplied (config : Config File Archive Content)
    (archives : Entry → Disk String Content → Prop) (package : Entry)
    (product : Product Archive) : Prop :=
  ∀ archive tree, product.archive = some archive →
    config.externals.unpack archive = some tree → archives package tree

theorem Ready.installed
    (ready : Ready (config.station surroundings) product
      (config.directory package) before after)
    (supplied : Supplied config archives package product) :
    config.Installed archives package after := by
  obtain ⟨_, _, archive, tree, stored, opened, grafted⟩ := ready
  exact ⟨tree, supplied archive tree stored opened,
    (Disk.graft_spec grafted).2.1, fun _ => Disk.node_graft grafted⟩

theorem installed_metaFile
    (kept : ∀ place, place ≠ config.metaOf package →
      after.node place = before.node place)
    (installed : config.Installed archives package before) :
    config.Installed archives package after := by
  obtain ⟨tree, isArchive, isDirectory, contents⟩ := installed
  refine ⟨tree, isArchive, isDirectory, ?_⟩
  intro names
  rw [kept, contents]
  intro same
  exact not_data_above_meta config package ⟨names, same⟩

theorem Complete.outside
    (complete : Complete (config.station surroundings) product
      (config.directory package) before after) :
    ∃ ready, Ready (config.station surroundings) product
        (config.directory package) before ready ∧
      ∀ place, place ≠ config.metaOf package →
        after.node place = ready.node place := by
  obtain ⟨ready, content, isReady, _, _, written⟩ := complete
  exact ⟨ready, isReady,
    fun _ different => Disk.node_write_of_ne written different⟩

theorem Complete.installed
    (complete : Complete (config.station surroundings) product
      (config.directory package) before after)
    (supplied : Supplied config archives package product) :
    config.Installed archives package after := by
  obtain ⟨ready, isReady, kept⟩ := Complete.outside complete
  exact installed_metaFile kept (Ready.installed isReady supplied)

section Others

variable (requestable : config.Requestable group) (isPackage : package ∈ group)
  (isOther : other ∈ group) (different : package ≠ other)

include requestable isPackage isOther different

theorem Prepared.spares
    (prepared : Prepared (config.station surroundings)
      (config.directory package) before after) :
    config.Spares other before after := by
  obtain ⟨emptied, first, second⟩ := prepared
  exact Config.Spares.trans
    (spares_emptied requestable isPackage isOther different first)
    (spares_inData requestable isPackage isOther different
      second.outside)

theorem Ready.spares
    (ready : Ready (config.station surroundings) product
      (config.directory package) before after) :
    config.Spares other before after := by
  obtain ⟨prepared, isPrepared, filled⟩ := ready
  exact Config.Spares.trans
    (Prepared.spares requestable isPackage isOther different isPrepared)
    (spares_inData requestable isPackage isOther different
      filled.outside)

theorem Complete.spares
    (complete : Complete (config.station surroundings) product
      (config.directory package) before after) :
    config.Spares other before after := by
  obtain ⟨ready, isReady, kept⟩ := Complete.outside complete
  exact Config.Spares.trans
    (Ready.spares requestable isPackage isOther different isReady)
    (spares_metaFile requestable isPackage isOther different kept)

end Others

/-- If a removal fails, what it leaves of an installation with its meta file
is all of it. -/
def Tidy (config : Config File Archive Content) (group : Set Entry)
    (failure : Failure File Archive Content) : Prop :=
  ∀ abort, failure = .operation abort → abort.operation = .resetDir →
    ∀ package ∈ group, config.Spares package abort.before abort.after

/-- An installation that is cut off leaves all meta files beside complete
installations. -/
theorem Cut.good {abort : Abort Content}
    (requestable : config.Requestable group) (isPackage : package ∈ group)
    (cut : Cut (config.station surroundings) product
      (config.directory package) before abort)
    (supplied : Supplied config archives package product)
    (tidy : abort.operation = .resetDir →
      ∀ package ∈ group, config.Spares package abort.before abort.after)
    (good : ∀ package ∈ group, config.Good archives package before) :
    ∀ package ∈ group, config.Good archives package abort.after := by
  intro other isOther
  by_cases different : package = other
  · subst different
    cases cut with
    | reset operation begun thinned =>
        have spares := tidy operation package isPackage
        rw [begun] at spares
        exact spares.good (good package isPackage)
    | resetData operation emptied thinned =>
        have unmarked :=
          unmarked_of_emptied emptied (List.prefix_append _ _)
        have spares := tidy operation package isPackage
        exact fun marked => absurd (spares marked).1 unmarked
    | unpack operation prepared outside =>
        exact fun marked => absurd marked
          (unmarked_inData outside (Prepared.unmarked prepared))
    | find operation ready same =>
        rw [same]
        exact fun marked => absurd marked (Ready.unmarked ready)
    | copy operation ready absent outside =>
        exact fun _ => installed_metaFile outside
          (Ready.installed ready supplied)
    | touch operation complete same =>
        rw [same]
        exact fun _ => Complete.installed complete supplied
  · apply Config.Spares.good _ (good other isOther)
    cases cut with
    | reset operation begun thinned =>
        have spares := tidy operation other isOther
        rw [begun] at spares
        exact spares
    | resetData operation emptied thinned =>
        exact Config.Spares.trans
          (spares_emptied requestable isPackage isOther different emptied)
          (tidy operation other isOther)
    | unpack operation prepared outside =>
        exact Config.Spares.trans
          (Prepared.spares requestable isPackage isOther different prepared)
          (spares_inData requestable isPackage isOther different outside)
    | find operation ready same =>
        rw [same]
        exact Ready.spares requestable isPackage isOther different ready
    | copy operation ready absent outside =>
        exact Config.Spares.trans
          (Ready.spares requestable isPackage isOther different ready)
          (spares_metaFile requestable isPackage isOther different outside)
    | touch operation complete same =>
        rw [same]
        exact Complete.spares requestable isPackage isOther different complete

theorem Ready.good
    (requestable : config.Requestable group) (isPackage : package ∈ group)
    (ready : Ready (config.station surroundings) product
      (config.directory package) before after)
    (good : ∀ package ∈ group, config.Good archives package before) :
    ∀ package ∈ group, config.Good archives package after := by
  intro other isOther
  by_cases different : package = other
  · subst different
    exact fun marked => absurd marked (Ready.unmarked ready)
  · exact Config.Spares.good
      (Ready.spares requestable isPackage isOther different ready)
      (good other isOther)

theorem Complete.good
    (requestable : config.Requestable group) (isPackage : package ∈ group)
    (complete : Complete (config.station surroundings) product
      (config.directory package) before after)
    (supplied : Supplied config archives package product)
    (good : ∀ package ∈ group, config.Good archives package before) :
    ∀ package ∈ group, config.Good archives package after := by
  intro other isOther
  by_cases different : package = other
  · subst different
    exact fun _ => Complete.installed complete supplied
  · exact Config.Spares.good
      (Complete.spares requestable isPackage isOther different complete)
      (good other isOther)

end Installing

end Bacs.Pm.Extractor.SharedCache
