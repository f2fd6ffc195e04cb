import Bacs.Common.CopyTree

/-!
# What copying a tree does

A call that ends without an error has created one node for each path that it
was called with, and changed nothing that was there.
-/

namespace Bacs.Common

open Foundation LexicalPath Disk

variable {Name Contents : Type}
  {state next final : Disk Name (Leaf Name Contents)}
  {path source destination : Route Name} {place src dst : List Name}
  {node : Node (Leaf Name Contents)}

/-! ## Operations on files -/

theorem orFail_ok {Value : Type} {failure : Errno → CopyFailure}
    {outcome : Except Errno Value} {value : Value} :
    orFail failure outcome state = .ok value final ↔
      outcome = .ok value ∧ final = state := by
  cases outcome with
  | ok found =>
      change EStateM.Result.ok found state = _ ↔ _
      rw [EStateM.Result.ok.injEq, Except.ok.injEq, eq_comm (a := state)]
  | error errno =>
      constructor
      · intro impossible
        cases impossible
      · rintro ⟨impossible, _⟩
        cases impossible

theorem pathExists_ok {answer : Bool}
    (run : pathExists path state = .ok answer final) : final = state := by
  unfold pathExists at run
  rw [get_bind] at run
  cases found : state.stat path with
  | ok node =>
      rw [found] at run
      cases run
      rfl
  | error errno =>
      rw [found] at run
      cases errno <;> cases run <;> rfl

theorem pathExists_of_absent (located : state.locate path.bare = .ok place)
    (absent : state.node place = none) :
    pathExists path state = .ok false state := by
  unfold pathExists
  rw [get_bind, stat_of_absent located absent]
  rfl

theorem symlinkStatus_ok :
    symlinkStatus path state = .ok node final ↔
      (∃ place, state.locate path = .ok place ∧
        state.node place = some node) ∧ final = state := by
  unfold symlinkStatus
  rw [get_bind, orFail_ok]
  exact and_congr_left' present_ok

theorem isDirectory_ok {answer : Bool} :
    isDirectory path state = .ok answer final ↔
      ∃ place node, state.follow path = .ok place ∧
        state.node place = some node ∧ final = state ∧
          (answer = true ↔ node = .directory) := by
  unfold isDirectory
  rw [get_bind, bind_eq_ok]
  simp only [orFail_ok, stat, present_ok]
  constructor
  · rintro ⟨node, _, ⟨⟨place, followed, found⟩, rfl⟩, run⟩
    refine ⟨place, node, followed, found, ?_⟩
    cases node <;> cases run <;> simp
  · rintro ⟨place, node, followed, found, rfl, decided⟩
    refine ⟨node, _, ⟨⟨place, followed, found⟩, rfl⟩, ?_⟩
    cases node with
    | directory =>
        rw [decided.mpr rfl]
        rfl
    | file leaf =>
        have no : answer = false := by
          rw [← Bool.not_eq_true, decided]
          simp
        rw [no]
        rfl

variable {listing : Listing Name (Leaf Name Contents)} {names : List Name}

theorem directoryEntries_ok :
    directoryEntries listing path state = .ok names final ↔
      ∃ place, state.follow path = .ok place ∧
        names = listing.list state place ∧ final = state := by
  unfold directoryEntries
  rw [get_bind, bind_eq_ok]
  simp only [orFail_ok]
  constructor
  · rintro ⟨place, _, ⟨followed, rfl⟩, ⟨⟩⟩
    exact ⟨place, followed, rfl, rfl⟩
  · rintro ⟨place, followed, rfl, rfl⟩
    exact ⟨place, _, ⟨followed, rfl⟩, rfl⟩

variable [DecidableEq Name]

theorem createAt_ok :
    createAt path node state = .ok () final ↔
      ∃ place, state.locateNew path node = .ok place ∧
        state.create place node = some final := by
  unfold createAt
  rw [get_bind, bind_eq_ok]
  simp only [orFail_ok]
  constructor
  · rintro ⟨place, middle, ⟨located, same⟩, run⟩
    rw [same] at run
    cases creates : state.create place node with
    | some created =>
        rw [creates] at run
        cases run
        exact ⟨place, located, creates⟩
    | none =>
        rw [creates] at run
        cases run
  · rintro ⟨place, located, creates⟩
    refine ⟨place, _, ⟨located, rfl⟩, ?_⟩
    rw [creates]
    rfl

/-- The node at the source is created at the destination. -/
structure Made (state next : Disk Name (Leaf Name Contents))
    (source destination : Route Name) (src dst : List Name)
    (node : Node (Leaf Name Contents)) : Prop where
  source : state.locate source = .ok src
  found : state.node src = some node
  supported : node ≠ .file .other
  destination : state.locateNew destination node = .ok dst
  created : state.create dst node = some next

theorem copy_ok :
    copy source destination state = .ok () final ↔
      ∃ src dst node, Made state final source destination src dst node := by
  unfold copy
  rw [bind_eq_ok]
  simp only [symlinkStatus_ok]
  constructor
  · rintro ⟨node, middle, ⟨⟨src, located, found⟩, same⟩, run⟩
    rw [same] at run
    have supported : node ≠ .file .other := by
      rintro rfl
      cases run
    have creates : createAt destination node state = .ok () final := by
      cases node with
      | directory => exact run
      | file leaf =>
          cases leaf with
          | regular => exact run
          | symlink => exact run
          | other => exact absurd rfl supported
    obtain ⟨dst, there, created⟩ := createAt_ok.mp creates
    exact ⟨src, dst, node, located, found, supported, there, created⟩
  · rintro ⟨src, dst, node, made⟩
    refine ⟨node, _, ⟨⟨src, made.source, made.found⟩, rfl⟩, ?_⟩
    have creates := createAt_ok.mpr ⟨dst, made.destination, made.created⟩
    cases node with
    | directory => exact creates
    | file leaf =>
        cases leaf with
        | regular => exact creates
        | symlink => exact creates
        | other => exact absurd rfl made.supported

/-- Nothing is at the path, if there can be anything. -/
def Absent (state : Disk Name (Leaf Name Contents)) (path : Route Name) :
    Prop :=
  ∀ place, state.locate path = .ok place → state.node place = none

theorem removeAll_ok (absent : Absent state path)
    (run : removeAll listing path state = .ok () final) : final = state := by
  unfold removeAll at run
  rw [get_bind] at run
  cases found : state.lstat path with
  | ok node =>
      obtain ⟨place, located, there⟩ := present_ok.mp found
      rw [absent place located] at there
      cases there
  | error errno =>
      rw [found] at run
      cases errno <;> cases run <;> rfl

theorem removeAll_of_absent (located : state.locate path.bare = .ok place)
    (absent : state.node place = none) :
    removeAll listing path state = .ok () state := by
  unfold removeAll
  rw [get_bind, lstat_of_absent located absent]
  rfl

/-! ## One call -/

variable {option : CopyOption} {fuel : Nat}

theorem clear_ok
    (run : clear listing option destination state = .ok () final)
    (harmless : option = .failIfExists ∨ Absent state destination) :
    final = state := by
  unfold clear at run
  cases option with
  | failIfExists =>
      rw [bind_eq_ok] at run
      obtain ⟨answer, middle, asked, run⟩ := run
      rw [pathExists_ok asked] at run
      cases answer with
      | false =>
          cases run
          rfl
      | true => cases run
  | overwriteIfExists =>
      rcases harmless with impossible | absent
      · cases impossible
      · exact removeAll_ok absent run

theorem clear_of_absent (located : state.locate destination.bare = .ok dst)
    (absent : state.node dst = none) :
    clear listing option destination state = .ok () state := by
  unfold clear
  cases option with
  | failIfExists =>
      rw [bind_eq_ok]
      exact ⟨_, _, pathExists_of_absent located absent, rfl⟩
  | overwriteIfExists => exact removeAll_of_absent located absent

def copyEntries (listing : Listing Name (Leaf Name Contents)) (fuel : Nat)
    (source destination : Route Name) (names : List Name) :
    CopyM Name Contents Unit :=
  names.foldlM
    (fun _ filename =>
      copyTree listing fuel .failIfExists (source / filename)
        (destination / filename)) ()

/-- What is done after the copying, where the source leads to `place`. -/
inductive Descent (listing : Listing Name (Leaf Name Contents)) (fuel : Nat)
    (source destination : Route Name)
    (next final : Disk Name (Leaf Name Contents)) (place : List Name) :
    Prop where
  | entries (directory : next.node place = some .directory)
      (copied : copyEntries listing fuel source destination
        (listing.list next place) next = .ok () final)
  | leaf (leaf : Leaf Name Contents)
      (found : next.node place = some (.file leaf)) (same : final = next)

theorem copyTree_ok_iff
    (cleared : clear listing option destination state = .ok () state) :
    copyTree listing (fuel + 1) option source destination state =
      .ok () final ↔
    ∃ next, (∃ src dst node, Made state next source destination src dst node) ∧
      ∃ place, next.follow source = .ok place ∧
        Descent listing fuel source destination next final place := by
  rw [copyTree, bind_eq_ok]
  constructor
  · rintro ⟨_, middle, cleans, run⟩
    rw [cleared] at cleans
    cases cleans
    rw [bind_eq_ok] at run
    obtain ⟨node, middle, asked, run⟩ := run
    rw [(symlinkStatus_ok.mp asked).2, bind_eq_ok] at run
    obtain ⟨_, next, copied, run⟩ := run
    refine ⟨next, copy_ok.mp copied, ?_⟩
    rw [bind_eq_ok] at run
    obtain ⟨answer, middle, asked, run⟩ := run
    obtain ⟨place, node, followed, found, same, decided⟩ :=
      isDirectory_ok.mp asked
    rw [same] at run
    refine ⟨place, followed, ?_⟩
    cases answer with
    | true =>
        rw [if_pos rfl, bind_eq_ok] at run
        obtain ⟨names, middle, listed, run⟩ := run
        obtain ⟨listed, led, names, same⟩ := directoryEntries_ok.mp listed
        rw [followed] at led
        cases led
        rw [same, names] at run
        rw [decided.mp rfl] at found
        exact .entries found run
    | false =>
        cases run
        cases node with
        | directory => exact absurd (decided.mpr rfl) Bool.false_ne_true
        | file leaf => exact .leaf leaf found rfl
  · rintro ⟨next, ⟨src, dst, node, made⟩, place, followed, descent⟩
    refine ⟨(), state, cleared, ?_⟩
    rw [bind_eq_ok]
    refine ⟨node, state,
      symlinkStatus_ok.mpr ⟨⟨src, made.source, made.found⟩, rfl⟩, ?_⟩
    rw [bind_eq_ok]
    refine ⟨(), next, copy_ok.mpr ⟨src, dst, node, made⟩, ?_⟩
    rw [bind_eq_ok]
    cases descent with
    | entries directory copied =>
        refine ⟨true, next, isDirectory_ok.mpr
          ⟨place, _, followed, directory, rfl, by simp⟩, ?_⟩
        rw [if_pos rfl, bind_eq_ok]
        exact ⟨_, next,
          directoryEntries_ok.mpr ⟨place, followed, rfl, rfl⟩, copied⟩
    | leaf leaf found same =>
        refine ⟨false, next, isDirectory_ok.mpr
          ⟨place, _, followed, found, rfl, by simp⟩, ?_⟩
        rw [same]
        rfl

theorem copyTree_succ
    (run : copyTree listing (fuel + 1) option source destination state =
      .ok () final)
    (harmless : option = .failIfExists ∨ Absent state destination) :
    ∃ next, (∃ src dst node, Made state next source destination src dst node) ∧
      ∃ place, next.follow source = .ok place ∧
        Descent listing fuel source destination next final place := by
  have first := run
  rw [copyTree, bind_eq_ok] at first
  obtain ⟨_, middle, cleared, _⟩ := first
  rw [clear_ok cleared harmless] at cleared
  exact (copyTree_ok_iff cleared).mp run

/-- The overload that throws ends normally where the other one does. -/
theorem copyTreeThrowing_ok_iff :
    copyTreeThrowing listing fuel option source destination state =
        .ok () final ↔
      copyTree listing fuel option source destination state =
        .ok () final := by
  unfold copyTreeThrowing
  simp only [tryCatch, tryCatchThe, MonadExceptOf.tryCatch,
    EStateM.tryCatch, EStateM.Backtrackable.restore, EStateM.dummyRestore]
  cases outcome : copyTree listing fuel option source destination state with
  | ok value last => simp
  | error failure last =>
      constructor
      · intro impossible
        cases failure <;> cases impossible
      · intro impossible
        cases impossible

/-! ## What is there stays -/

namespace Made

variable (made : Made state next source destination src dst node)

include made

theorem absent : state.node dst = none :=
  (create_spec made.created).1

theorem kept : Kept state next :=
  Kept.of_create made.created

theorem here : next.node dst = some node := by
  rw [(create_spec made.created).2, Function.update_self]

theorem elsewhere (different : place ≠ dst) :
    next.node place = state.node place := by
  rw [(create_spec made.created).2, Function.update_of_ne different]

end Made

theorem copyTree_kept
    (run : copyTree listing fuel option source destination state =
      .ok () final)
    (harmless : option = .failIfExists ∨ Absent state destination) :
    Kept state final := by
  induction fuel generalizing option source destination state final with
  | zero => cases run
  | succ fuel ih =>
      obtain ⟨next, ⟨src, dst, node, made⟩, place, _, descent⟩ :=
        copyTree_succ run harmless
      apply made.kept.trans
      cases descent with
      | entries directory copied =>
          refine reach_of_foldlM Kept.refl Kept.trans ?_ copied
          intro filename state final run
          exact ih run (.inl rfl)
      | leaf leaf found same =>
          rw [same]
          exact Kept.refl next

theorem copyEntries_kept {names : List Name}
    (run : copyEntries listing fuel source destination names state =
      .ok () final) : Kept state final :=
  reach_of_foldlM Kept.refl Kept.trans
    (fun _ _ _ run => copyTree_kept run (.inl rfl)) run

theorem copyEntries_round {names : List Name} {name : Name}
    (run : copyEntries listing fuel source destination names state =
      .ok () final) (member : name ∈ names) :
    ∃ before after, Kept state before ∧
      copyTree listing fuel .failIfExists (source / name)
        (destination / name) before = .ok () after ∧
      Kept after final :=
  round_of_foldlM Kept.refl Kept.trans
    (fun _ _ _ run => copyTree_kept run (.inl rfl)) run member

/-- Where the source is a directory, its entries are copied. -/
theorem Descent.of_directory
    (descent : Descent listing fuel source destination next final place)
    (followed : next.follow source = .ok place)
    (led : next.follow source = .ok src)
    (directory : next.node src = some .directory) :
    copyEntries listing fuel source destination (listing.list next src)
      next = .ok () final := by
  rw [led] at followed
  cases followed
  cases descent with
  | leaf leaf found _ =>
      rw [directory] at found
      cases found
  | entries _ copied => exact copied

theorem copyTree_adds
    (run : copyTree listing fuel .failIfExists source destination state =
      .ok () final) :
    ∃ place, state.node place = none ∧ (final.node place).isSome := by
  cases fuel with
  | zero => cases run
  | succ fuel =>
      obtain ⟨next, ⟨src, dst, node, made⟩, place, _, descent⟩ :=
        copyTree_succ run (.inl rfl)
      refine ⟨dst, made.absent, ?_⟩
      cases descent with
      | entries directory copied =>
          rw [(copyEntries_kept copied).found made.here]
          rfl
      | leaf leaf found same =>
          rw [same, made.here]
          rfl

/-! ## What is in the tree is copied -/

section Tree

variable {disk : Disk Name (Leaf Name Contents)} {names : List Name}

omit [DecidableEq Name] in
theorem locate_tree (located : disk.locate source = .ok src)
    (present : (disk.node (src ++ names)).isSome) :
    disk.locate (source.descend names) = .ok (src ++ names) :=
  locate_descend located names fun _ within proper =>
    directory_above present within proper

omit [DecidableEq Name] in
theorem follow_tree (located : disk.locate source = .ok src)
    (directory : disk.node (src ++ names) = some .directory) :
    disk.follow (source.descend names) = .ok (src ++ names) :=
  follow_of_locate (locate_tree located (by simp [directory])) directory
    (by simp)

omit [DecidableEq Name] in
theorem locate_entry (located : state.locate (path.descend names) =
      .ok (place ++ names))
    (directory : state.node (place ++ names) = some .directory)
    (name : Name) : state.locate (path.descend (names ++ [name])) =
      .ok (place ++ (names ++ [name])) := by
  rw [← Route.descend_div, ← List.append_assoc]
  exact locate_div (follow_of_locate located directory (by simp)) directory

theorem Made.places (made : Made state next (source.descend names)
      (destination.descend names) src dst node)
    (plain : destination.slash = false) (kept : Kept disk state)
    {tree copied : List Name}
    (located : disk.locate source = .ok tree)
    (present : (disk.node (tree ++ names)).isSome)
    (there : state.locate (destination.descend names) = .ok copied) :
    src = tree ++ names ∧ dst = copied ∧
      disk.node (tree ++ names) = some node := by
  have source := made.source
  rw [kept.locate (locate_tree located present)] at source
  have destination := made.destination
  rw [locateNew_plain (Route.descend_slash plain names), there] at destination
  cases source
  cases destination
  refine ⟨rfl, rfl, ?_⟩
  rw [← kept.node _ present]
  exact made.found

/-- A call for a path of the tree creates copies of all that is below it, and
none was there. -/
theorem copyTree_copies (plain : destination.slash = false)
    (kept : Kept disk state) (finite : disk.Finite)
    (located : disk.locate source = .ok src)
    (there : state.locate (destination.descend names) = .ok (dst ++ names))
    (run : copyTree listing fuel .failIfExists (source.descend names)
      (destination.descend names) state = .ok () final)
    (more : List Name) (present : (disk.node (src ++ (names ++ more))).isSome) :
    state.node (dst ++ (names ++ more)) = none ∧
      final.node (dst ++ (names ++ more)) =
        disk.node (src ++ (names ++ more)) := by
  induction fuel generalizing names more state final with
  | zero => cases run
  | succ fuel ih =>
      obtain ⟨next, ⟨_, _, node, made⟩, place, followed, descent⟩ :=
        copyTree_succ run (.inl rfl)
      have here : (disk.node (src ++ names)).isSome :=
        isSome_above present (List.prefix_append names more)
      obtain ⟨rfl, rfl, found⟩ := made.places plain kept located here there
      have nextKept := kept.trans made.kept
      cases more with
      | nil =>
          rw [List.append_nil]
          refine ⟨made.absent, ?_⟩
          rw [found]
          cases descent with
          | entries directory copied =>
              exact (copyEntries_kept copied).found made.here
          | leaf leaf _ same =>
              rw [same]
              exact made.here
      | cons name more =>
          have directory : disk.node (src ++ names) = some .directory :=
            directory_above present (List.prefix_append names _) (by simp)
          rw [directory] at found
          cases found
          have led := follow_tree (nextKept.locate located)
            (nextKept.found directory)
          have copied :=
            descent.of_directory followed led (nextKept.found directory)
          rw [List.append_cons] at present ⊢
          have child : (next.node (src ++ names ++ [name])).isSome := by
            have above := isSome_above present
              (List.prefix_append (names ++ [name]) more)
            rw [List.append_assoc, nextKept.node _ above]
            exact above
          obtain ⟨before, after, reached, round, rest⟩ :=
            copyEntries_round copied ((listing.mem_list _ _
              ((nextKept.finite finite).entries _) name).mpr child)
          rw [Route.descend_div, Route.descend_div] at round
          have stays := made.kept.trans reached
          have entry := locate_entry (stays.locate there)
            (reached.found made.here) name
          obtain ⟨absent, same⟩ :=
            ih (kept.trans stays) entry round more present
          refine ⟨stays.absent absent, ?_⟩
          rw [← same]
          apply rest.node
          rw [same]
          exact present

end Tree

end Bacs.Common
