import Mathlib.Data.Set.Finite.Lattice
import Bacs.Common.PartlyCopied

/-!
# Trees that are copied

A tree is copied exactly if its destination can be created and each of its
links leads to a file or to an empty directory.  Paths are copied after the
directories they are in; a link is followed when it has been copied itself.
-/

namespace Bacs.Common

open Foundation LexicalPath Disk

variable {Name Contents : Type}
  {disk state next final : Disk Name (Leaf Name Contents)}
  {source destination : Route Name} {src dst place above : List Name}

/-! ## Harmless trees are copied -/

/-- The turn of a path comes when the directories above it have been copied,
and nothing at or below it. -/
structure Turn (disk state : Disk Name (Leaf Name Contents))
    (src dst : List Name) (done : Set (List Name)) (above : List Name) :
    Prop where
  partly : PartlyCopied disk state src dst done
  up : ∀ names, names <+: above → names ≠ above → names ∈ done
  fresh : ∀ names, above <+: names → names ∉ done

section Harmless

variable {done : Set (List Name)} {names : List Name} {name other : Name}

theorem proper_iff_above :
    names <+: above ++ [name] ∧ names ≠ above ++ [name] ↔
      names <+: above := by
  rw [List.prefix_concat_iff]
  constructor
  · rintro ⟨itself | within, different⟩
    · exact absurd itself different
    · exact within
  · intro within
    refine ⟨.inr within, ?_⟩
    rintro rfl
    have shorter := within.length_le
    rw [List.length_append, List.length_singleton] at shorter
    omega

theorem Turn.onWay (turn : Turn disk state src dst done above)
    (within : names <+: above) : names ∈ insert above done := by
  by_cases itself : names = above
  · exact .inl itself
  · exact .inr (turn.up names within itself)

theorem Turn.entry (turn : Turn disk state src dst done above)
    (inside : above ++ [name] <+: names) : names ∉ insert above done := by
  rintro (rfl | before)
  · have longer := inside.length_le
    rw [List.length_append, List.length_singleton] at longer
    omega
  · exact turn.fresh names ((List.prefix_append above [name]).trans inside)
      before

theorem not_mem_entry (different : name ≠ other) (notDone : names ∉ done)
    (inside : above ++ [other] <+: names) :
    names ∉ done ∪ {names | above ++ [name] <+: names} := by
  rintro (before | entry)
  · exact notDone before
  · exact (apart_of_ne above different).not_within entry inside

theorem mem_entries_iff {entries : List Name}
    (all : ∀ name, name ∈ entries ↔
      (disk.below src (above ++ [name])).isSome)
    (present : (disk.below src names).isSome) :
    names ∈ insert above done ∪
        {names | ∃ name ∈ entries, above ++ [name] <+: names} ↔
      names ∈ done ∪ {names | above <+: names} := by
  constructor
  · rintro ((rfl | before) | ⟨name, _, inside⟩)
    · exact .inr (List.prefix_refl names)
    · exact .inl before
    · exact .inr ((List.prefix_append above [name]).trans inside)
  · rintro (before | ⟨more, rfl⟩)
    · exact .inl (.inr before)
    · cases more with
      | nil => exact .inl (.inl (List.append_nil above))
      | cons name more =>
          have within : above ++ [name] <+: above ++ name :: more :=
            ⟨more, (List.append_cons above name more).symm⟩
          exact .inr ⟨name, (all name).mpr (isSome_above present within),
            within⟩

variable [DecidableEq Name] {listing : Listing Name (Leaf Name Contents)}
  {fuel : Nat}

/-- When the turn of a path comes, it is copied with all that is below it. -/
def CopiesAt (listing : Listing Name (Leaf Name Contents)) (fuel : Nat)
    (option : CopyOption) (disk : Disk Name (Leaf Name Contents))
    (source destination : Route Name) (src dst above : List Name) : Prop :=
  ∀ state done, Turn disk state src dst done above →
    ∃ final, copyTree listing fuel option (source.descend above)
        (destination.descend above) state = .ok () final ∧
      PartlyCopied disk final src dst (done ∪ {names | above <+: names})

theorem copyEntries_partly {entries : List Name}
    (rounds : ∀ name ∈ entries,
      CopiesAt listing fuel .failIfExists disk source destination src dst
        (above ++ [name]))
    (nodup : entries.Nodup)
    (partly : PartlyCopied disk state src dst done)
    (up : ∀ names, names <+: above → names ∈ done)
    (fresh : ∀ name ∈ entries, ∀ names, above ++ [name] <+: names →
      names ∉ done) :
    ∃ final, copyEntries listing fuel (source.descend above)
        (destination.descend above) entries state = .ok () final ∧
      PartlyCopied disk final src dst
        (done ∪ {names | ∃ name ∈ entries, above ++ [name] <+: names}) := by
  induction entries generalizing state done with
  | nil =>
      refine ⟨state, rfl, partly.congr ?_⟩
      simp
  | cons name entries ih =>
      obtain ⟨middle, round, afterRound⟩ := rounds name List.mem_cons_self
        state done
        { partly := partly
          up := fun names within proper =>
            up names (proper_iff_above.mp ⟨within, proper⟩)
          fresh := fresh name List.mem_cons_self }
      obtain ⟨notLater, nodup⟩ := List.nodup_cons.mp nodup
      obtain ⟨final, rest, afterRest⟩ := ih
        (fun other member => rounds other (List.mem_cons_of_mem name member))
        nodup afterRound (fun names within => .inl (up names within)) (by
          intro other member names inside
          have notDone := fresh other (List.mem_cons_of_mem name member) names
            inside
          refine not_mem_entry ?_ notDone inside
          rintro rfl
          exact notLater member)
      refine ⟨final, ?_, afterRest.congr fun names _ => ?_⟩
      · rw [copyEntries, List.foldlM_cons, bind_eq_ok]
        rw [← Route.descend_div, ← Route.descend_div] at round
        exact ⟨(), middle, round, rest⟩
      · simp only [Set.mem_union, Set.mem_ofPred_eq, List.exists_mem_cons_iff,
          or_assoc]

theorem Turn.made (turn : Turn disk state src dst done above)
    (copying : Copying disk source destination src)
    (there : disk.locate destination = .ok dst)
    {node : Node (Leaf Name Contents)}
    (found : disk.node (src ++ above) = some node)
    (listing : Listing Name (Leaf Name Contents)) (option : CopyOption) :
    clear listing option (destination.descend above) state = .ok () state ∧
      ∃ next, Made state next (source.descend above)
        (destination.descend above) (src ++ above) (dst ++ above) node := by
  have present : (disk.node (src ++ above)).isSome := by simp [found]
  have absent := copying.absent dst there
  have kept := PartlyCopied.kept_initial absent turn.partly copying.finite
  have located :=
    turn.partly.locate there absent copying.finite present turn.up
  have nothing : state.node (dst ++ above) = none :=
    turn.partly.missing above (turn.fresh above (List.prefix_refl above))
  have plain := Route.descend_slash copying.plain above
  refine ⟨clear_of_absent (Route.bare_eq plain ▸ located) nothing, ?_⟩
  obtain ⟨next, created⟩ := create_of_located located nothing node
  exact ⟨next,
    { source := kept.locate (locate_tree copying.located present)
      found := kept.found found
      supported := by
        rintro rfl
        exact copying.supported above found
      destination := (locateNew_plain plain node).trans located
      created := created }⟩

/-- After the copying of a file or of a harmless link nothing is left to
do. -/
theorem descent_leaf {leaf : Leaf Name Contents}
    (copying : Copying disk source destination src)
    (links : LinksHarmless disk source src dst)
    (found : disk.node (src ++ above) = some (.file leaf))
    (kept : Kept disk next) (partly : PartlyCopied disk next src dst done)
    (up : ∀ names, names <+: above → names ∈ done) :
    ∃ place, next.follow (source.descend above) = .ok place ∧
      Descent listing fuel (source.descend above) (destination.descend above)
        next next place := by
  by_cases link : ∃ target, leaf = .symlink target
  · obtain ⟨target, rfl⟩ := link
    obtain ⟨first, before, harmless⟩ := links above target found
    obtain ⟨place, followed, ends⟩ :=
      harmless.later found before partly up copying.finite
    refine ⟨place, followed, ?_⟩
    rcases ends with ⟨leaf, here⟩ | ⟨directory, empty⟩
    · exact .leaf leaf here rfl
    · apply Descent.entries directory
      have none : listing.list next place = [] := by
        apply List.eq_nil_iff_forall_not_mem.mpr
        intro name member
        rw [listing.mem_list _ _
          ((partly.finite copying.finite).entries place), empty name] at member
        cases member
      rw [none]
      rfl
  · have present : (disk.node (src ++ above)).isSome := by simp [found]
    have located := kept.locate (locate_tree copying.located present)
    refine ⟨src ++ above, ?_, .leaf leaf (kept.found found) rfl⟩
    apply follow_of_locate located (kept.found found)
    intro target same
    cases same
    exact link ⟨target, rfl⟩

/-- A harmless tree is copied, whatever the order of its entries. -/
theorem copyTree_partly (copying : Copying disk source destination src)
    (there : disk.locate destination = .ok dst)
    (links : LinksHarmless disk source src dst) {option : CopyOption}
    (present : (disk.node (src ++ above)).isSome)
    (deep : ∀ names, (disk.node (src ++ (above ++ names))).isSome →
      names.length < fuel) :
    CopiesAt listing fuel option disk source destination src dst above := by
  induction fuel generalizing option above with
  | zero =>
      have impossible := deep [] (by simpa using present)
      exact absurd impossible (Nat.not_lt_zero _)
  | succ fuel ih =>
      intro state done turn
      obtain ⟨node, found⟩ := Option.isSome_iff_exists.mp present
      obtain ⟨cleared, next, made⟩ :=
        turn.made copying there found listing option
      have partly := turn.partly.made found made
      have kept := PartlyCopied.kept_initial (copying.absent dst there) partly
        copying.finite
      have onWay : ∀ names, names <+: above → names ∈ insert above done :=
        fun names => turn.onWay
      suffices rest : ∃ final,
          (∃ place, next.follow (source.descend above) = .ok place ∧
            Descent listing fuel (source.descend above)
              (destination.descend above) next final place) ∧
          PartlyCopied disk final src dst (done ∪ {names | above <+: names}) by
        obtain ⟨final, descends, afterwards⟩ := rest
        exact ⟨final, (copyTree_ok_iff cleared).mpr
          ⟨next, ⟨_, _, _, made⟩, descends⟩, afterwards⟩
      cases node with
      | directory =>
          have entry : ∀ name, name ∈ listing.list next (src ++ above) ↔
              (disk.below src (above ++ [name])).isSome := by
            intro name
            rw [listing.mem_list _ _
              ((partly.finite copying.finite).entries _), List.append_assoc,
              partly.tree (copying.apart there)]
            rfl
          have rounds : ∀ name ∈ listing.list next (src ++ above),
              CopiesAt listing fuel .failIfExists disk source destination src
                dst (above ++ [name]) := by
            intro name member
            apply ih ((entry name).mp member)
            intro names present
            rw [List.append_assoc] at present
            have longer := deep _ present
            rw [List.length_append, List.length_singleton] at longer
            omega
          obtain ⟨final, copied, afterwards⟩ := copyEntries_partly rounds
            (listing.nodup next (src ++ above)) partly onWay
            (fun name _ names => turn.entry)
          refine ⟨final, ⟨src ++ above, ?_, ?_⟩, ?_⟩
          · exact follow_tree (kept.locate copying.located) (kept.found found)
          · exact .entries (kept.found found) copied
          · exact afterwards.congr fun names present =>
              mem_entries_iff entry present
      | file leaf =>
          refine ⟨next, descent_leaf copying links found kept partly onWay,
            partly.congr fun names present => ?_⟩
          have none : ∀ name, name ∈ [] ↔
              (disk.below src (above ++ [name])).isSome := by
            intro name
            rw [below, ← List.append_assoc,
              node_below_eq_none (by simp [found]) (List.cons_ne_nil _ _)]
            simp
          rw [← mem_entries_iff none present]
          simp

end Harmless

/-! ## Copied trees are harmless -/

section Necessary

variable [DecidableEq Name] {listing : Listing Name (Leaf Name Contents)}
  {last : Disk Name (Leaf Name Contents)} {fuel : Nat}

/-- A path of the tree has been copied before its turn: it is neither above
nor below the path that is copied now. -/
def Early (disk state : Disk Name (Leaf Name Contents))
    (src dst above : List Name) : Prop :=
  ∃ names, (disk.below src names).isSome ∧ Apart above names ∧
    (state.below dst names).isSome

/-- An entry of a directory behind a link is copied too early, if it is not
copied outside the destination. -/
theorem early_of_adds {target : LinkTarget Name}
    (copied : Copied disk last src dst)
    (link : disk.below src above = some (.file (.symlink target)))
    (partly : PartlyCopied disk next src dst {names | names <+: above})
    (kept : Kept final last) (absent : next.node place = none)
    (added : (final.node place).isSome) : Early disk final src dst above := by
  have there : (last.node place).isSome := by
    rw [kept.node place added]
    exact added
  by_cases inside : dst <+: place
  · obtain ⟨names, rfl⟩ := inside
    have present : (disk.below src names).isSome := by
      rw [← copied.copy]
      exact there
    have notAbove : ¬ names <+: above := by
      intro within
      have copy := partly.copied names within
      rw [below, absent] at copy
      rw [← copy] at present
      cases present
    refine ⟨names, present, ⟨?_, notAbove⟩, added⟩
    rintro ⟨rest, rfl⟩
    by_cases top : rest = []
    · rw [top, List.append_nil] at notAbove
      exact notAbove (List.prefix_refl above)
    · rw [below, ← List.append_assoc, node_below_eq_none _ top] at present
      · cases present
      · change disk.below src above ≠ _
        simp [link]
  · rw [copied.unchanged place inside, ← partly.unchanged place inside,
      absent] at there
    cases there

/-- What is copied early is copied again when it is its turn, which is an
error. -/
theorem Early.entry {name : Name} {names : List Name}
    (early : Early disk state src dst (above ++ [name]))
    (copying : Copying disk source destination src)
    (kept : Kept disk state)
    (there : state.locate (destination.descend above) = .ok (dst ++ above))
    (directory : state.node (dst ++ above) = some .directory)
    (entries : ∀ other, (disk.below src (above ++ [other])).isSome →
      other = name ∨ other ∈ names)
    (run : copyEntries listing fuel (source.descend above)
      (destination.descend above) names state = .ok () final) :
    Early disk final src dst above := by
  obtain ⟨place, present, apart, early⟩ := early
  by_cases inside : above <+: place
  · exfalso
    obtain ⟨rest, rfl⟩ := inside
    cases rest with
    | nil =>
        rw [List.append_nil] at apart
        exact apart.2 (List.prefix_append above [name])
    | cons other rest =>
        rw [List.append_cons above other rest] at present apart early
        have within := List.prefix_append (above ++ [other]) rest
        have member : other ∈ names := by
          rcases entries other (isSome_above present within) with rfl | later
          · exact absurd within apart.1
          · exact later
        obtain ⟨before, after, reached, round, _⟩ :=
          copyEntries_round run member
        rw [Route.descend_div, Route.descend_div] at round
        have absent := (copyTree_copies copying.plain (kept.trans reached)
          copying.finite copying.located (locate_entry (reached.locate there)
            (reached.found directory) other) round rest present).1
        have stays : (state.node (dst ++ (above ++ [other] ++ rest))).isSome :=
          early
        rw [reached.absent absent] at stays
        cases stays
  · refine ⟨place, present, ⟨inside, ?_⟩, ?_⟩
    · intro within
      exact apart.2 (within.trans (List.prefix_append above [name]))
    · rw [below, (copyEntries_kept run).node _ early]
      exact early

theorem round_partly (copying : Copying disk source destination src)
    (there : disk.locate destination = .ok dst) {option : CopyOption}
    (present : (disk.node (src ++ above)).isSome)
    (partly : PartlyCopied disk state src dst
      {names | names <+: above ∧ names ≠ above})
    (clean : option = .failIfExists ∨
      Absent state (destination.descend above))
    (run : copyTree listing (fuel + 1) option (source.descend above)
      (destination.descend above) state = .ok () final) :
    ∃ next, PartlyCopied disk next src dst {names | names <+: above} ∧
      next.locate (destination.descend above) = .ok (dst ++ above) ∧
      ∃ place, next.follow (source.descend above) = .ok place ∧
        Descent listing fuel (source.descend above)
          (destination.descend above) next final place := by
  have absent := copying.absent dst there
  have kept := PartlyCopied.kept_initial absent partly copying.finite
  have located := partly.locate there absent copying.finite present
    fun _ within proper => ⟨within, proper⟩
  obtain ⟨next, ⟨_, _, node, made⟩, place, followed, descent⟩ :=
    copyTree_succ run clean
  obtain ⟨rfl, rfl, found⟩ :=
    made.places copying.plain kept copying.located present located
  refine ⟨next, (partly.made found made).congr ?_,
    made.kept.locate located, place, followed, descent⟩
  intro names _
  constructor
  · rintro (itself | ⟨within, _⟩)
    · rw [itself]
      exact List.prefix_refl above
    · exact within
  · intro within
    by_cases itself : names = above
    · exact .inl itself
    · exact .inr ⟨within, itself⟩

/-- A link that is not harmless leads to a directory, and an entry of it is
copied early. -/
theorem harmless_or_early_link
    (copying : Copying disk source destination src)
    (there : disk.locate destination = .ok dst)
    (copied : Copied disk last src dst) {target : LinkTarget Name}
    {option : CopyOption}
    (link : disk.below src above = some (.file (.symlink target)))
    (partly : PartlyCopied disk state src dst
      {names | names <+: above ∧ names ≠ above})
    (clean : option = .failIfExists ∨
      Absent state (destination.descend above))
    (run : copyTree listing (fuel + 1) option (source.descend above)
      (destination.descend above) state = .ok () final)
    (kept : Kept final last) :
    (∃ state, PartlyCopied disk state src dst {names | names <+: above} ∧
      Harmless state (source.descend above)) ∨
    Early disk final src dst above := by
  obtain ⟨next, partly, _, place, followed, descent⟩ :=
    round_partly copying there (isSome_of_below link) partly clean run
  cases descent with
  | leaf leaf found same =>
      exact .inl ⟨next, partly, place, followed, .inl ⟨leaf, found⟩⟩
  | entries directory entries =>
      by_cases empty : ∀ name, next.node (place ++ [name]) = none
      · exact .inl ⟨next, partly, place, followed, .inr ⟨directory, empty⟩⟩
      · obtain ⟨name, child⟩ := not_forall.mp empty
        have member := (listing.mem_list _ _
          ((partly.finite copying.finite).entries place) name).mpr
          (Option.isSome_iff_ne_none.mpr child)
        obtain ⟨before, after, reached, round, rest⟩ :=
          copyEntries_round entries member
        obtain ⟨new, missing, added⟩ := copyTree_adds round
        refine .inr (early_of_adds copied link partly kept
          (reached.absent missing) ?_)
        rw [rest.node new added]
        exact added

/-- When the entries on the way to a link come first, the link is harmless or
something is copied early. -/
theorem harmless_or_early (copying : Copying disk source destination src)
    (there : disk.locate destination = .ok dst)
    (copied : Copied disk last src dst) (above way : List Name)
    {target : LinkTarget Name} {option : CopyOption}
    (link : disk.below src (above ++ way) = some (.file (.symlink target)))
    (partly : PartlyCopied disk state src dst
      {names | names <+: above ∧ names ≠ above})
    (clean : option = .failIfExists ∨
      Absent state (destination.descend above))
    (run : copyTree (listing.toward (src ++ (above ++ way))) fuel option
      (source.descend above) (destination.descend above) state =
        .ok () final)
    (kept : Kept final last) :
    (∃ state, PartlyCopied disk state src dst
        {names | names <+: above ++ way} ∧
      Harmless state (source.descend (above ++ way))) ∨
    Early disk final src dst above := by
  induction way generalizing above state final option fuel with
  | nil =>
      cases fuel with
      | zero => cases run
      | succ fuel =>
          rw [List.append_nil] at link ⊢
          exact harmless_or_early_link copying there copied link partly clean
            run kept
  | cons name way ih =>
      cases fuel with
      | zero => cases run
      | succ fuel =>
          have linked := isSome_of_below link
          have directory : disk.node (src ++ above) = some .directory :=
            directory_above linked (List.prefix_append above _) (by simp)
          obtain ⟨next, partly, located, place, followed, descent⟩ :=
            round_partly copying there (by simp [directory]) partly clean run
          have nextKept := PartlyCopied.kept_initial
            (copying.absent dst there) partly copying.finite
          have led := follow_tree (nextKept.locate copying.located)
            (nextKept.found directory)
          have entries :=
            descent.of_directory followed led (nextKept.found directory)
          have child : (next.node (src ++ above ++ [name])).isSome := by
            have there := isSome_above linked
              ⟨way, (List.append_cons above name way).symm⟩
            rw [List.append_assoc, nextKept.node _ there]
            exact there
          have finite := (partly.finite copying.finite).entries (src ++ above)
          have onWay : src ++ above ++ [name] <+:
              src ++ (above ++ name :: way) := ⟨way, by simp⟩
          obtain ⟨rest, first⟩ := listing.toward_list onWay
            ((listing.mem_list next _ finite name).mpr child)
          have all := (listing.toward
            (src ++ (above ++ name :: way))).mem_list next _ finite
          rw [first] at entries all
          rw [copyEntries, List.foldlM_cons, bind_eq_ok] at entries
          obtain ⟨_, middle, round, others⟩ := entries
          rw [Route.descend_div, Route.descend_div] at round
          rw [List.append_cons above name way] at link round ⊢
          have middleKept : Kept middle final := copyEntries_kept others
          have untouched : PartlyCopied disk next src dst
              {names | names <+: above ++ [name] ∧ names ≠ above ++ [name]} :=
            partly.congr fun names _ => proper_iff_above.symm
          rcases ih (above ++ [name]) link untouched (.inl rfl) round
            (middleKept.trans kept) with harmless | early
          · exact .inl harmless
          · right
            have roundKept := copyTree_kept round (.inl rfl)
            refine early.entry copying (nextKept.trans roundKept)
              (roundKept.locate located) (roundKept.found ?_) ?_ others
            · exact (partly.copied above (List.prefix_refl above)).trans
                directory
            · intro other present
              rw [← List.mem_cons, all, List.append_assoc,
                nextKept.node _ present]
              exact present

end Necessary

/-! ## Copying trees -/

variable [DecidableEq Name]

/-- There is no error, and the tree is copied. -/
def CopiesTree (listing : Listing Name (Leaf Name Contents))
    (option : CopyOption) (disk : Disk Name (Leaf Name Contents))
    (source destination : Route Name) (src : List Name) : Prop :=
  ∃ enough, ∀ fuel, enough ≤ fuel → ∃ final dst,
    copyTree listing fuel option source destination disk = .ok () final ∧
      disk.locate destination.bare = .ok dst ∧ Copied disk final src dst

/-- The destination can be created, with a separator at its end only as a
directory, and no link of the tree does harm. -/
def Copyable (disk : Disk Name (Leaf Name Contents))
    (source destination : Route Name) (src : List Name) : Prop :=
  ∃ dst, disk.locate destination.bare = .ok dst ∧
    (destination.slash → disk.node src = some .directory) ∧
    LinksHarmless disk source src dst

theorem Copyable.copies (copyable : Copyable disk source destination src)
    (copying : Copying disk source destination src)
    (listing : Listing Name (Leaf Name Contents)) (option : CopyOption) :
    CopiesTree listing option disk source destination src := by
  obtain ⟨dst, there, _, links⟩ := copyable
  rw [Route.bare_eq copying.plain] at there
  have absent := copying.absent dst there
  obtain ⟨bound, deep⟩ := (copying.finite.image List.length).bddAbove
  refine ⟨bound + 1, fun fuel enough => ?_⟩
  have copies : CopiesAt listing fuel option disk source destination src dst
      [] := by
    apply copyTree_partly copying there links
    · simpa using copying.present
    · intro names present
      have short := deep ⟨src ++ names, present, rfl⟩
      rw [List.length_append] at short
      omega
  obtain ⟨final, run, partly⟩ := copies disk ∅
    { partly := PartlyCopied.initial absent
      up := by
        intro names within proper
        exact absurd (List.prefix_nil.mp within) proper
      fresh := fun _ _ impossible => impossible }
  rw [Route.descend_nil, Route.descend_nil] at run
  refine ⟨final, dst, run, Route.bare_eq copying.plain ▸ there,
    partly.whole fun names => ?_⟩
  exact .inr List.nil_prefix

theorem copyable_of_copies (copying : Copying disk source destination src)
    {option : CopyOption}
    (copies : ∀ listing,
      CopiesTree listing option disk source destination src) :
    Copyable disk source destination src := by
  obtain ⟨_, dst, _, there, _⟩ := (copies default).choose_spec _ le_rfl
  have noSlash : destination.slash → disk.node src = some .directory := by
    rw [copying.plain]
    exact fun impossible => absurd impossible Bool.false_ne_true
  refine ⟨dst, there, noSlash, fun names target link => ?_⟩
  rw [Route.bare_eq copying.plain] at there
  have absent := copying.absent dst there
  obtain ⟨enough, copies⟩ :=
    copies ((default : Listing Name _).toward (src ++ names))
  obtain ⟨final, place, run, located, copied⟩ := copies enough le_rfl
  rw [Route.bare_eq copying.plain, there] at located
  cases located
  have untouched : PartlyCopied disk disk src dst
      {above | above <+: [] ∧ above ≠ []} := by
    apply (PartlyCopied.initial absent).congr
    intro above _
    constructor
    · intro impossible
      cases impossible
    · rintro ⟨within, proper⟩
      exact absurd (List.prefix_nil.mp within) proper
  rw [← Route.descend_nil source, ← Route.descend_nil destination] at run
  have clean : Absent disk (destination.descend []) := by
    rw [Route.descend_nil]
    exact copying.absent
  rcases harmless_or_early copying there copied [] names link untouched
    (.inr clean) run (Kept.refl final) with harmless | ⟨_, _, apart, _⟩
  · exact harmless
  · exact absurd List.nil_prefix apart.1

/-! ## A separator at the end of the destination -/

theorem descent_bare {listing : Listing Name (Leaf Name Contents)}
    {fuel : Nat} :
    Descent listing fuel source destination next final place ↔
      Descent listing fuel source destination.bare next final place := by
  constructor
  · intro descent
    cases descent with
    | entries directory copied => exact .entries directory copied
    | leaf leaf found same => exact .leaf leaf found same
  · intro descent
    cases descent with
    | entries directory copied => exact .entries directory copied
    | leaf leaf found same => exact .leaf leaf found same

theorem made_slash {node : Node (Leaf Name Contents)}
    (slash : destination.slash = true) :
    Made disk next source destination src dst node ↔
      node = .directory ∧
        Made disk next source destination.bare src dst node := by
  constructor
  · intro made
    obtain ⟨directory, located⟩ := (locateNew_slash slash).mp made.destination
    exact ⟨directory,
      { made with destination := (locateNew_plain rfl node).trans located }⟩
  · rintro ⟨directory, made⟩
    have located := made.destination
    rw [locateNew_plain rfl] at located
    exact { made with
      destination := (locateNew_slash slash).mpr ⟨directory, located⟩ }

/-- Only a directory is copied to a path with a separator at its end, and as
to the path without it. -/
theorem copyTree_slash {listing : Listing Name (Leaf Name Contents)}
    {option : CopyOption} {fuel : Nat}
    (slash : destination.slash = true)
    (there : disk.locate destination.bare = .ok dst)
    (absent : disk.node dst = none) (located : disk.locate source = .ok src) :
    copyTree listing fuel option source destination disk = .ok () final ↔
      disk.node src = some .directory ∧
        copyTree listing fuel option source destination.bare disk =
          .ok () final := by
  cases fuel with
  | zero =>
      constructor
      · intro impossible
        cases impossible
      · rintro ⟨_, impossible⟩
        cases impossible
  | succ fuel =>
      have cleared : clear listing option destination.bare disk =
          .ok () disk := clear_of_absent there absent
      rw [copyTree_ok_iff (clear_of_absent there absent),
        copyTree_ok_iff cleared]
      simp only [made_slash slash]
      constructor
      · rintro ⟨next, ⟨_, _, _, rfl, made⟩, place, followed, descent⟩
        have source := made.source
        rw [located] at source
        cases source
        exact ⟨made.found, next, ⟨_, _, _, made⟩, place, followed,
          descent_bare.mp descent⟩
      · rintro ⟨directory, next, ⟨_, _, node, made⟩, place, followed,
          descent⟩
        have source := made.source
        rw [located] at source
        cases source
        have found := made.found
        rw [directory, Option.some.injEq] at found
        exact ⟨next, ⟨_, _, node, found.symm, made⟩, place, followed,
          descent_bare.mpr descent⟩

theorem copiesTree_slash {listing : Listing Name (Leaf Name Contents)}
    {option : CopyOption} (slash : destination.slash = true)
    (copying : Copying disk source destination.bare src) :
    CopiesTree listing option disk source destination src ↔
      disk.node src = some .directory ∧
        CopiesTree listing option disk source destination.bare src := by
  have copyTree (fuel : Nat) (dst : List Name)
      (final : Disk Name (Leaf Name Contents))
      (there : disk.locate destination.bare = .ok dst) :
      copyTree listing fuel option source destination disk =
          .ok () final ↔
        disk.node src = some .directory ∧
          copyTree listing fuel option source destination.bare disk =
            .ok () final :=
    copyTree_slash slash there (copying.absent dst there) copying.located
  constructor
  · rintro ⟨enough, copies⟩
    constructor
    · obtain ⟨final, dst, run, there, _⟩ := copies enough le_rfl
      exact ((copyTree enough dst final there).mp run).1
    · refine ⟨enough, fun fuel more => ?_⟩
      obtain ⟨final, dst, run, there, copied⟩ := copies fuel more
      exact ⟨final, dst, ((copyTree fuel dst final there).mp run).2, there,
        copied⟩
  · rintro ⟨directory, enough, copies⟩
    refine ⟨enough, fun fuel more => ?_⟩
    obtain ⟨final, dst, run, there, copied⟩ := copies fuel more
    exact ⟨final, dst, (copyTree fuel dst final there).mpr ⟨directory, run⟩,
      there, copied⟩

/-- A tree is copied, in whatever order directories list their entries,
exactly if its destination can be created and every link of it leads to a file
or to an empty directory. -/
theorem copiesTree_iff (copying : Copying disk source destination.bare src)
    (option : CopyOption) :
    (∀ listing, CopiesTree listing option disk source destination src) ↔
      Copyable disk source destination src := by
  have bare : (∀ listing,
      CopiesTree listing option disk source destination.bare src) ↔
        Copyable disk source destination.bare src :=
    ⟨copyable_of_copies copying,
      fun copyable listing => copyable.copies copying listing option⟩
  cases slash : destination.slash with
  | false => rwa [Route.bare_eq slash] at bare
  | true =>
      simp only [copiesTree_slash slash copying, forall_and, forall_const,
        bare]
      constructor
      · rintro ⟨directory, dst, there, _, links⟩
        exact ⟨dst, there, fun _ => directory, links⟩
      · rintro ⟨dst, there, directory, links⟩
        refine ⟨directory slash, dst, there, ?_, links⟩
        exact fun impossible => absurd impossible Bool.false_ne_true

/-- A directory with a link to the file beside it, if there is one. -/
def oneLink (contents : Option Nat) : Disk Bool (Leaf Bool Nat) where
  node
    | [] => some .directory
    | [true] => some .directory
    | [true, true] => some (.file (.symlink ⟨false, [.down false]⟩))
    | [true, false] => contents.map fun contents => .file (.regular contents)
    | _ => none
  rooted := by
    intro place name present
    cases place with
    | nil => rfl
    | cons first rest =>
        cases rest with
        | nil =>
            cases first with
            | true => rfl
            | false => cases name <;> cases present
        | cons second rest =>
            cases first <;> cases second <;> cases rest <;> simp at present

theorem oneLink_copying (contents : Option Nat) :
    Copying (oneLink contents) ⟨[], [.down true], false⟩ ⟨[], [.down false], false⟩
      [true] where
  plain := rfl
  located := rfl
  present := rfl
  supported := by
    intro names
    unfold below oneLink
    dsimp only
    split <;> simp
  finite := by
    apply (Set.toFinite {[], [true], [true, true], [true, false]}).subset
    intro place present
    change ((oneLink contents).node place).isSome at present
    unfold oneLink at present
    dsimp only at present
    split at present <;> simp_all
  absent := by
    rintro _ ⟨⟩
    rfl
  outside := by
    rintro _ ⟨⟩
    decide

/-- A tree with a link that leads nowhere is not copied without an error. -/
theorem not_copiesTree_dangling :
    Copying (oneLink none) ⟨[], [.down true], false⟩ ⟨[], [.down false], false⟩ [true] ∧
      ¬ ∀ listing, CopiesTree listing .failIfExists (oneLink none)
        ⟨[], [.down true], false⟩ ⟨[], [.down false], false⟩ [true] := by
  refine ⟨oneLink_copying none, fun copies => ?_⟩
  obtain ⟨_, ⟨⟩, _, links⟩ := copyable_of_copies (oneLink_copying none) copies
  obtain ⟨state, partly, place, followed, _⟩ := links [true] _ rfl
  have directory : state.node [true] = some .directory :=
    partly.unchanged [true] (by decide)
  have link : state.node [true, true] =
      some (.file (.symlink ⟨false, [.down false]⟩)) :=
    partly.unchanged [true, true] (by decide)
  have nothing : state.node [true, false] = none :=
    partly.unchanged [true, false] (by decide)
  have route : (⟨[], [.down true], false⟩ : Route Bool).descend [true] =
      ⟨[], [.down true, .down true], false⟩ := rfl
  rw [route] at followed
  simp [follow, Route.path, maxLinks, resolve, advance, directory, link,
    nothing] at followed

/-- The link is followed when the directory and the link have been copied. -/
def oneLinkCopied (contents : Option Nat) : Disk Bool (Leaf Bool Nat) where
  node
    | [false] => some .directory
    | [false, true] => some (.file (.symlink ⟨false, [.down false]⟩))
    | place => (oneLink contents).node place
  rooted := by
    intro place name present
    cases place with
    | nil => rfl
    | cons first rest =>
        cases rest with
        | nil => cases first <;> rfl
        | cons second rest =>
            cases first <;> cases second <;> cases rest <;>
              simp [oneLink] at present

theorem copiesTree_iff_oneLink :
    CopiesTree default .failIfExists (oneLink (some 7))
      ⟨[], [.down true], false⟩ ⟨[], [.down false], false⟩ [true] := by
  refine (copiesTree_iff (oneLink_copying (some 7)) .failIfExists).mpr
    ⟨[false], rfl, fun _ => rfl, ?_⟩ default
  intro names target link
  have onlyLink : names = [true] := by
    unfold below oneLink at link
    dsimp only at link
    split at link <;> simp_all
  subst onlyLink
  refine ⟨oneLinkCopied (some 7), ⟨?_, ?_, ?_⟩,
    ⟨[true, false], rfl, .inl ⟨_, rfl⟩⟩⟩
  · intro names within
    obtain rfl | ⟨rest, rfl, above⟩ := List.prefix_cons_iff.mp within
    · rfl
    · rw [List.prefix_nil.mp above]
      rfl
  · intro names notWithin
    unfold below oneLinkCopied oneLink
    dsimp only
    split <;> simp_all
  · intro place outside
    cases place with
    | nil => rfl
    | cons first rest =>
        cases first with
        | true => rfl
        | false => exact absurd (List.prefix_append [false] rest) outside

end Bacs.Common
