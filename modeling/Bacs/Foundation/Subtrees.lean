import Bacs.Foundation.Disk

/-!
# Operations on subtrees

An operation that keeps to a place depends only on what is there and below,
and it changes nothing else.  Operations that keep to different entries of a
directory do not disturb one another, so their order does not matter.
-/

namespace Bacs.Disk

variable {Name File : Type*} {disk final first second third : Disk Name File}
  {place other root : List Name} {names : List Name}

/-! ## Disks that agree at a place -/

/-- The disks have the same at a place and below it. -/
def Agree (place : List Name) (first second : Disk Name File) : Prop :=
  ∀ names, first.node (place ++ names) = second.node (place ++ names)

theorem Agree.refl (place : List Name) (disk : Disk Name File) :
    Agree place disk disk := fun _ => rfl

theorem Agree.symm (agree : Agree place first second) :
    Agree place second first := fun names => (agree names).symm

theorem Agree.trans (agree : Agree place first second)
    (later : Agree place second third) : Agree place first third :=
  fun names => (agree names).trans (later names)

theorem Agree.append (agree : Agree place first second)
    (names : List Name) : Agree (place ++ names) first second := by
  intro others
  rw [List.append_assoc]
  exact agree (names ++ others)

theorem Agree.node (agree : Agree place first second)
    (within : place <+: other) : first.node other = second.node other := by
  obtain ⟨names, rfl⟩ := within
  exact agree names

theorem Agree.here (agree : Agree place first second) :
    first.node place = second.node place :=
  agree.node List.prefix_rfl

theorem Agree.isDirectory (agree : Agree place first second)
    (within : place <+: other) :
    first.isDirectory other = second.isDirectory other := by
  unfold Disk.isDirectory
  rw [agree.node within]

theorem Agree.file? (agree : Agree place first second)
    (within : place <+: other) : first.file? other = second.file? other :=
  file?_congr (agree.node within)

theorem Agree.below (agree : Agree place first second)
    (within : place <+: other) : first.below other = second.below other := by
  funext names
  exact agree.node (within.trans (List.prefix_append other names))

/-- What is the same outside a place is the same at all that is apart. -/
theorem agree_of_frame
    (frame : ∀ elsewhere, ¬ place <+: elsewhere →
      final.node elsewhere = disk.node elsewhere)
    (apart : ∀ names, ¬ place <+: other ++ names) :
    Agree other disk final :=
  fun names => (frame (other ++ names) (apart names)).symm

theorem apart_entries {name second : Name} (different : name ≠ second)
    (names : List Name) : ¬ root ++ [name] <+: root ++ [second] ++ names := by
  intro within
  rw [List.append_assoc, List.prefix_append_right_inj,
    List.singleton_append, List.cons_prefix_cons] at within
  exact different within.1

section Writing

variable [DecidableEq Name]

theorem Agree.write (agree : Agree place first second) (name : Name)
    (contents : File) :
    Option.Rel (Agree place) (first.write (place ++ [name]) contents)
      (second.write (place ++ [name]) contents) := by
  have there := agree.isDirectory (List.prefix_append place [name])
  have inside := agree.isDirectory (List.prefix_refl place)
  by_cases writable : first.isDirectory (place ++ [name]).dropLast ∧
      ¬ first.isDirectory (place ++ [name])
  · have same : second.isDirectory (place ++ [name]).dropLast ∧
        ¬ second.isDirectory (place ++ [name]) := by
      rw [List.dropLast_concat] at writable ⊢
      rwa [← inside, ← there]
    rw [Disk.write, Disk.write, dif_pos writable, dif_pos same]
    apply Option.Rel.some
    intro names
    by_cases itself : place ++ names = place ++ [name]
    · simp [itself]
    · simp [itself, agree names]
  · have same : ¬ (second.isDirectory (place ++ [name]).dropLast ∧
        ¬ second.isDirectory (place ++ [name])) := by
      rw [List.dropLast_concat] at writable ⊢
      rwa [← inside, ← there]
    rw [Disk.write, Disk.write, dif_neg writable, dif_neg same]
    exact Option.Rel.none

theorem Agree.removeAll (agree : Agree place first second)
    (tree : List Name) :
    Agree place (first.removeAll tree) (second.removeAll tree) := by
  intro names
  rw [node_removeAll, node_removeAll, agree names]

end Writing

/-! ## Related outcomes -/

section Related

variable {State Other Value Result : Type*} (related : State → Other → Prop)
  {alike : Value → Result → Prop}

variable {related} in
theorem rel_isSome {outcome : Option State} {result : Option Other}
    (same : Option.Rel related outcome result) :
    outcome.isSome = result.isSome := by
  cases same with
  | some _ => rfl
  | none => rfl

theorem rel_bind {outcome : Option State} {result : Option Other}
    {next : State → Option Value} {rest : Other → Option Result}
    (same : Option.Rel related outcome result)
    (later : ∀ state other, related state other →
      Option.Rel alike (next state) (rest other)) :
    Option.Rel alike (outcome.bind next) (result.bind rest) := by
  cases same with
  | some alike => exact later _ _ alike
  | none => exact Option.Rel.none

theorem rel_foldlM {Item : Type*} {items : List Item}
    {step : State → Item → Option State} {move : Other → Item → Option Other}
    {state : State} {start : Other} (same : related state start)
    (later : ∀ item ∈ items, ∀ state other, related state other →
      Option.Rel related (step state item) (move other item)) :
    Option.Rel related (items.foldlM step state)
      (items.foldlM move start) := by
  induction items generalizing state start with
  | nil => exact Option.Rel.some same
  | cons item items ih =>
      rw [List.foldlM_cons, List.foldlM_cons]
      apply rel_bind related (later item List.mem_cons_self state start same)
      intro state other same
      apply ih same
      intro item member
      exact later item (List.mem_cons_of_mem _ member)

end Related

/-! ## Operations that keep to a place -/

/-- On disks that have the same there as the given one. -/
structure KeepsTo (place : List Name) (disk : Disk Name File)
    (step : Disk Name File → Option (Disk Name File)) : Prop where
  same : ∀ first second, Agree place disk first → Agree place disk second →
    Option.Rel (Agree place) (step first) (step second)
  frame : ∀ first final, Agree place disk first → step first = some final →
    ∀ elsewhere, ¬ place <+: elsewhere →
      final.node elsewhere = first.node elsewhere

variable {step : Disk Name File → Option (Disk Name File)}

theorem KeepsTo.congr (keeps : KeepsTo place first step)
    (agree : Agree place first second) : KeepsTo place second step := by
  constructor
  · intro one two here there
    exact keeps.same one two (agree.trans here) (agree.trans there)
  · intro one final here
    exact keeps.frame one final (agree.trans here)

theorem KeepsTo.isSome (keeps : KeepsTo place first step)
    (agree : Agree place first second) :
    (step first).isSome = (step second).isSome :=
  rel_isSome (keeps.same first second (Agree.refl place first) agree)

theorem KeepsTo.agree (keeps : KeepsTo place first step)
    (agree : Agree place first second) {one two : Disk Name File}
    (took : step first = some one) (takes : step second = some two) :
    Agree place one two := by
  have same := keeps.same first second (Agree.refl place first) agree
  rw [took, takes] at same
  cases same with
  | some alike => exact alike

/-- An operation can be run on any disk that has the same there. -/
theorem KeepsTo.transfer (keeps : KeepsTo place first step)
    (agree : Agree place first second) {one : Disk Name File}
    (took : step first = some one) :
    ∃ two, step second = some two ∧ Agree place one two := by
  have some := keeps.isSome agree
  rw [took] at some
  obtain ⟨two, takes⟩ := Option.isSome_iff_exists.mp some.symm
  exact ⟨two, takes, keeps.agree agree took takes⟩

/-! ## Operations on the entries of a directory -/

/-- Each operation has done what it does by itself. -/
structure Entrywise (root names : List Name)
    (step : Name → Disk Name File → Option (Disk Name File))
    (disk final : Disk Name File) : Prop where
  entry : ∀ name ∈ names, ∃ done, step name disk = some done ∧
    Agree (root ++ [name]) done final
  frame : ∀ place, (∀ name ∈ names, ¬ root ++ [name] <+: place) →
    final.node place = disk.node place

section Entries

variable {step : Name → Disk Name File → Option (Disk Name File)}

theorem KeepsTo.others {name : Name} {next : Disk Name File}
    (keeps : KeepsTo (root ++ [name]) disk (step name))
    (took : step name disk = some next) {other : Name}
    (different : name ≠ other) : Agree (root ++ [other]) disk next :=
  agree_of_frame (keeps.frame disk next (Agree.refl _ disk) took)
    (apart_entries different)

theorem entrywise_of_foldlM (distinct : names.Nodup)
    (keeps : ∀ name ∈ names, KeepsTo (root ++ [name]) disk (step name))
    (steps : names.foldlM (fun disk name => step name disk) disk =
      some final) :
    Entrywise root names step disk final := by
  induction names generalizing disk with
  | nil =>
      cases steps
      exact ⟨by simp, fun _ _ => rfl⟩
  | cons name names ih =>
      rw [List.foldlM_cons, Option.bind_eq_bind,
        Option.bind_eq_some_iff] at steps
      obtain ⟨next, took, steps⟩ := steps
      obtain ⟨absent, distinct⟩ := List.nodup_cons.mp distinct
      have here := keeps name List.mem_cons_self
      have different : ∀ other ∈ names, name ≠ other :=
        fun other member same => absent (same ▸ member)
      have others : ∀ other ∈ names, Agree (root ++ [other]) disk next :=
        fun other member => here.others took (different other member)
      have done := ih distinct
        (fun other member =>
          (keeps other (List.mem_cons_of_mem _ member)).congr
            (others other member)) steps
      constructor
      · intro other member
        cases member with
        | head =>
            refine ⟨next, took, ?_⟩
            intro rest
            apply (done.frame (root ++ [name] ++ rest) _).symm
            intro other member
            exact apart_entries (different other member).symm rest
        | tail _ member =>
            obtain ⟨later, takes, agree⟩ := done.entry other member
            obtain ⟨early, took, same⟩ :=
              ((keeps other (List.mem_cons_of_mem _ member)).congr
                (others other member)).transfer (others other member).symm
                takes
            exact ⟨early, took, same.symm.trans agree⟩
      · intro place apart
        rw [done.frame place fun other member =>
          apart other (List.mem_cons_of_mem _ member)]
        exact here.frame disk next (Agree.refl _ disk) took place
          (apart name List.mem_cons_self)

theorem isSome_foldlM_iff (distinct : names.Nodup)
    (keeps : ∀ name ∈ names, KeepsTo (root ++ [name]) disk (step name)) :
    (names.foldlM (fun disk name => step name disk) disk).isSome ↔
      ∀ name ∈ names, (step name disk).isSome := by
  constructor
  · intro steps name member
    obtain ⟨final, steps⟩ := Option.isSome_iff_exists.mp steps
    obtain ⟨done, took, _⟩ :=
      (entrywise_of_foldlM distinct keeps steps).entry name member
    rw [took]
    rfl
  · intro each
    induction names generalizing disk with
    | nil => rfl
    | cons name names ih =>
        obtain ⟨next, took⟩ :=
          Option.isSome_iff_exists.mp (each name List.mem_cons_self)
        obtain ⟨absent, distinct⟩ := List.nodup_cons.mp distinct
        have others : ∀ other ∈ names, Agree (root ++ [other]) disk next :=
          fun other member =>
            (keeps name List.mem_cons_self).others took
              fun same => absent (same ▸ member)
        rw [List.foldlM_cons, took]
        apply ih distinct
        · intro other member
          exact (keeps other (List.mem_cons_of_mem _ member)).congr
            (others other member)
        · intro other member
          rw [← (keeps other (List.mem_cons_of_mem _ member)).isSome
            (others other member)]
          exact each other (List.mem_cons_of_mem _ member)

/-- The same entries in another order have the same result. -/
theorem Entrywise.agree {others : List Name} {start ending : Disk Name File}
    (done : Entrywise root names step disk final)
    (does : Entrywise root others step start ending)
    (keeps : ∀ name ∈ names, KeepsTo (root ++ [name]) disk (step name))
    (agree : Agree root disk start)
    (same : ∀ name, name ∈ names ↔ name ∈ others) :
    Agree root final ending := by
  intro rest
  by_cases entry : ∃ name ∈ names, root ++ [name] <+: root ++ rest
  · obtain ⟨name, member, within⟩ := entry
    obtain ⟨one, took, before⟩ := done.entry name member
    obtain ⟨two, takes, after⟩ := does.entry name ((same name).mp member)
    rw [← before.node within, ← after.node within]
    exact ((keeps name member).agree (agree.append [name]) took takes).node
      within
  · push Not at entry
    rw [done.frame _ entry, does.frame _ fun name member =>
      entry name ((same name).mpr member)]
    exact agree rest

end Entries

/-! ## Copying -/

/-- A tree is copied to where nothing is yet, and not into itself. -/
def Copyable (disk : Disk Name File) (src dst : List Name) : Prop :=
  (disk.node src).isSome ∧ disk.node dst = none ∧
    disk.isDirectory dst.dropLast ∧ dst ≠ [] ∧ ¬ src <+: dst

instance [DecidableEq Name] (disk : Disk Name File) (src dst : List Name) :
    Decidable (disk.Copyable src dst) := by
  have nothing : Decidable (disk.node dst = none) :=
    decidable_of_iff ((disk.node dst).isNone = true) Option.isNone_iff_eq_none
  unfold Copyable
  infer_instance

/-- What `copy_tree` makes of files and directories. -/
def copyTree [DecidableEq Name] (disk : Disk Name File)
    (src dst : List Name) : Option (Disk Name File) :=
  if copyable : disk.Copyable src dst then
    some
      { node := fun place =>
          if dst <+: place then disk.node (src ++ place.drop dst.length)
          else disk.node place
        rooted := by
          obtain ⟨_, absent, directory, proper, _⟩ := copyable
          intro parent name present
          have longer : parent <+: parent ++ [name] :=
            List.prefix_append parent [name]
          by_cases inside : dst <+: parent
          · rw [if_pos (inside.trans longer),
              List.drop_append_of_le_length inside.length_le,
              ← List.append_assoc] at present
            rw [if_pos inside]
            exact disk.rooted _ name present
          · rw [if_neg inside]
            by_cases itself : dst <+: parent ++ [name]
            · obtain same | above := List.prefix_concat_iff.mp itself
              · rw [same, List.dropLast_concat] at directory
                exact isDirectory_iff.mp directory
              · exact absurd above inside
            · rw [if_neg itself] at present
              exact disk.rooted parent name present }
  else none

theorem copyTree_spec [DecidableEq Name] {src dst : List Name}
    (copied : disk.copyTree src dst = some final) :
    disk.Copyable src dst ∧ ∀ place, final.node place =
      if dst <+: place then disk.node (src ++ place.drop dst.length)
      else disk.node place := by
  unfold copyTree at copied
  split at copied
  · rename_i copyable
    cases copied
    exact ⟨copyable, fun _ => rfl⟩
  · cases copied

/-! ## Changes below a place -/

/-- All that has changed is at the place or below it, and finitely much is
new. -/
structure ChangedBelow (place : List Name) (disk final : Disk Name File) :
    Prop where
  frame : ∀ other, ¬ place <+: other → final.node other = disk.node other
  finite : disk.Finite → final.Finite

theorem ChangedBelow.refl (place : List Name) (disk : Disk Name File) :
    ChangedBelow place disk disk :=
  ⟨fun _ _ => rfl, fun finite => finite⟩

theorem ChangedBelow.trans (one : ChangedBelow place first second)
    (two : ChangedBelow place second third) :
    ChangedBelow place first third := by
  constructor
  · intro other outside
    rw [two.frame other outside, one.frame other outside]
  · intro finite
    exact two.finite (one.finite finite)

theorem ChangedBelow.mono (changed : ChangedBelow other first second)
    (within : place <+: other) : ChangedBelow place first second := by
  constructor
  · intro elsewhere outside
    apply changed.frame
    exact fun inside => outside (within.trans inside)
  · exact changed.finite

theorem ChangedBelow.parent {name : Name}
    (changed : ChangedBelow (root ++ [name]) first second) :
    second.node root = first.node root := by
  apply changed.frame
  intro within
  have longer := within.length_le
  rw [List.length_append, List.length_singleton] at longer
  omega

theorem ChangedBelow.sibling {name other : Name}
    (changed : ChangedBelow (root ++ [name]) first second)
    (different : name ≠ other) : Agree (root ++ [other]) first second :=
  agree_of_frame changed.frame (apart_entries different)

section Operations

variable [DecidableEq Name] {contents : File}

theorem changedBelow_update {node : Option (Node File)}
    (update : final.node = Function.update disk.node place node) :
    ChangedBelow place disk final := by
  constructor
  · intro other outside
    rw [update, Function.update_of_ne]
    exact fun same => outside (same ▸ List.prefix_rfl)
  · intro finite
    apply (finite.union (Set.finite_singleton place)).subset
    intro other present
    change (final.node other).isSome at present
    by_cases same : other = place
    · exact .inr same
    · left
      rw [update, Function.update_of_ne same] at present
      exact present

theorem changedBelow_write
    (written : disk.write place contents = some final) :
    ChangedBelow place disk final :=
  changedBelow_update (Disk.write_spec written).2

theorem changedBelow_makeDirectory
    (made : disk.makeDirectory place = some final) :
    ChangedBelow place disk final :=
  changedBelow_update (makeDirectory_spec made).2

theorem node_makeDirectory
    (made : disk.makeDirectory place = some final) :
    final.node place = some .directory := by
  rw [(makeDirectory_spec made).2, Function.update_self]

theorem changedBelow_create {node : Node File}
    (created : disk.create place node = some final) :
    ChangedBelow place disk final :=
  changedBelow_update (create_spec created).2

theorem changedBelow_removeAll :
    ChangedBelow place disk (disk.removeAll place) := by
  constructor
  · intro other outside
    rw [node_removeAll, if_neg outside]
  · intro finite
    apply finite.subset
    intro other present
    change ((disk.removeAll place).node other).isSome at present
    rw [node_removeAll] at present
    split at present
    · cases present
    · exact present

theorem changedBelow_copyTree {src : List Name}
    (copied : disk.copyTree src place = some final) :
    ChangedBelow place disk final := by
  have spec := (copyTree_spec copied).2
  constructor
  · intro other outside
    rw [spec, if_neg outside]
  · intro finite
    have copies : {names | (disk.node (src ++ names)).isSome}.Finite := by
      apply Set.Finite.preimage _ finite
      intro one _ two _ same
      exact List.append_cancel_left same
    apply (finite.union (copies.image (place ++ ·))).subset
    intro other present
    change (final.node other).isSome at present
    rw [spec] at present
    split at present
    · rename_i within
      obtain ⟨names, rfl⟩ := within
      rw [List.drop_left] at present
      exact .inr ⟨names, present, rfl⟩
    · exact .inl present

theorem node_copyTree {src : List Name}
    (copied : disk.copyTree src place = some final) :
    final.node place = disk.node src := by
  rw [(copyTree_spec copied).2, if_pos List.prefix_rfl, List.drop_length,
    List.append_nil]

theorem finite_makeDirectories {places : List (List Name)}
    (finite : disk.Finite)
    (made : disk.makeDirectories places = some final) : final.Finite := by
  unfold makeDirectories at made
  induction places generalizing disk with
  | nil =>
      cases made
      exact finite
  | cons first places ih =>
      rw [List.foldlM_cons, Option.bind_eq_bind,
        Option.bind_eq_some_iff] at made
      obtain ⟨next, entered, made⟩ := made
      exact ih ((changedBelow_makeDirectory entered).finite finite) made

theorem changedBelow_makeDirectories {name : Name} {names : List Name}
    (directory : disk.node place = some .directory)
    (made : disk.makeDirectories (place ++ name :: names).inits =
      some final) :
    ChangedBelow (place ++ [name]) disk final ∧
      ∀ other, final.node other =
        if other <+: place ++ name :: names then some .directory
        else disk.node other := by
  have above : ∀ other, other <+: place →
      disk.node other = some .directory := by
    intro other within
    by_cases itself : other = place
    · rw [itself]
      exact directory
    · have there : (disk.node ([] ++ place)).isSome := by simp [directory]
      simpa using directory_above there within itself
  have spec := makeDirectories_inits (above [] List.nil_prefix)
    (place ++ name :: names)
  rw [made] at spec
  refine ⟨⟨fun other outside => ?_, ?_⟩, spec.2⟩
  · rw [spec.2]
    split
    case isTrue within =>
      have shorter : other <+: place := by
        rcases List.prefix_or_prefix_of_prefix within
          (show place ++ [name] <+: place ++ name :: names by simp) with
          before | after
        · rcases List.prefix_concat_iff.mp before with same | inside
          · exact absurd (same ▸ List.prefix_rfl) outside
          · exact inside
        · exact absurd after outside
      exact (above other shorter).symm
    case isFalse => rfl
  · exact fun finite => finite_makeDirectories finite made

end Operations

/-! ## A disk from a list -/

section Entries

variable [DecidableEq Name] (entries : List (List Name × Node File))

/-- What is listed is in a directory that is listed. -/
def Closed : Prop :=
  ∀ entry ∈ entries, entry.1 = [] ∨
    (entries.find? fun above => above.1 = entry.1.dropLast).map (·.2) =
      some .directory

instance [DecidableEq File] : Decidable (Closed entries) :=
  inferInstanceAs (Decidable (∀ entry ∈ entries, _))

/-- The disk with the entries; of two for one place it has the first. -/
def ofEntries (closed : Closed entries) : Disk Name File where
  node place := (entries.find? fun entry => entry.1 = place).map (·.2)
  rooted := by
    intro place name present
    rw [Option.isSome_map, List.find?_isSome] at present
    obtain ⟨entry, member, same⟩ := present
    have same : entry.1 = place ++ [name] := of_decide_eq_true same
    rcases closed entry member with top | inside
    · rw [top] at same
      exact absurd same (by simp)
    · rwa [same, List.dropLast_concat] at inside

variable {entries} {closed : Closed entries}

theorem mem_of_ofEntries {node : Node File}
    (found : (ofEntries entries closed).node place = some node) :
    (place, node) ∈ entries := by
  obtain ⟨entry, there, same⟩ := Option.map_eq_some_iff.mp found
  have chosen := List.find?_some there
  have here : entry.1 = place := of_decide_eq_true chosen
  have member := List.mem_of_find?_eq_some there
  rw [← here, ← same]
  exact member

theorem finite_ofEntries :
    {names | ((ofEntries entries closed).node (place ++ names)).isSome}.Finite := by
  have keys : {other | ((ofEntries entries closed).node other).isSome}.Finite := by
    apply (List.finite_toSet (entries.map (·.1))).subset
    intro other present
    obtain ⟨node, found⟩ := Option.isSome_iff_exists.mp present
    exact List.mem_map.mpr ⟨_, mem_of_ofEntries found, rfl⟩
  apply Set.Finite.preimage _ keys
  intro one _ two _ same
  exact List.append_cancel_left same

end Entries

end Bacs.Disk
