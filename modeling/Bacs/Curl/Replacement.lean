import Bacs.Curl.OptionSet

/-!
# What an option replaces

The slots of an option set are tiled by the options stored in it.  Setting an
option takes exactly those off that have an id in common with it, unsets each
of them once, and fails no assertion of `unsetopt`.
-/

namespace Bacs.Curl

open Foundation

variable {lastEntry : Nat} {Handle Value : Type} {handle : Handle}
  {work before middle after : Work lastEntry Handle Value}
  {opt : SharedOption lastEntry Value} {id : CurlOption lastEntry}
  {ids : List (CurlOption lastEntry)}

/-! ## One stored option -/

namespace Work

@[simp] theorem check_of_holds {holds : Bool} {assertion : Assertion}
    (isTrue : holds = true) :
    work.check holds assertion = work := by
  rw [check, if_pos isTrue]

@[simp] theorem check_options (work : Work lastEntry Handle Value)
    (holds : Bool) (assertion : Assertion) :
    (work.check holds assertion).options = work.options := by
  unfold check
  split
  · rfl
  · rfl

variable {holds : Bool} {assertion : Assertion}

@[simp] theorem check_log :
    (work.check holds assertion).log = work.log := by
  unfold check
  split
  · rfl
  · rfl

theorem mem_check_failed {other : Assertion}
    (member : other ∈ (work.check holds assertion).failed) :
    other ∈ work.failed ∨ other = assertion := by
  unfold check at member
  split at member
  · exact .inl member
  · obtain member | member := List.mem_append.mp member
    · exact .inl member
    · exact .inr (List.mem_singleton.mp member)

theorem resetOther_of_stored (stored : work.options id.slot = some opt) :
    work.resetOther opt id =
      { work with options := Function.update work.options id.slot none } := by
  unfold resetOther
  rw [stored]
  simp

theorem foldl_resetOther (distinct : (ids.map CurlOption.slot).Nodup)
    (stored : ∀ id ∈ ids, work.options id.slot = some opt) :
    ids.foldl (resetOther opt) work =
      { work with
        options := fill work.options (ids.map CurlOption.slot) none } := by
  induction ids generalizing work with
  | nil => rfl
  | cons id ids induction =>
      obtain ⟨notAgain, distinct⟩ := List.nodup_cons.mp distinct
      rw [List.foldl_cons,
        resetOther_of_stored (stored id List.mem_cons_self), induction]
      · rfl
      · exact distinct
      · intro other member
        have different : other.slot ≠ id.slot := by
          intro same
          exact notAgain (same ▸ List.mem_map_of_mem member)
        simp only [Function.update_of_ne different]
        exact stored other (List.mem_cons_of_mem id member)

end Work

/-! ## The options that are taken off -/

/-- The options that are taken off to free some slots, in the order in which
they are unset. -/
structure Removed (handle : Handle) (slots : List (Fin lastEntry))
    (before after : Work lastEntry Handle Value)
    (removed : List (SharedOption lastEntry Value)) : Prop where
  log : after.log = before.log ++
    removed.map fun opt => .unsetopt handle opt.address
  failed : after.failed = before.failed
  distinct : removed.Nodup
  meets : ∀ opt, opt ∈ removed ↔
    Lies before.options opt ∧ ∃ slot ∈ slots, slot ∈ opt.slots
  rest : ∀ slot opt, after.options slot = some opt ↔
    before.options slot = some opt ∧ opt ∉ removed

namespace Removed

variable {slots slots' : List (Fin lastEntry)}
  {removed removed' : List (SharedOption lastEntry Value)}

theorem nothing (apart : ∀ opt, Lies before.options opt →
      ∀ slot ∈ slots, slot ∉ opt.slots) :
    Removed handle slots before before [] where
  log := (List.append_nil _).symm
  failed := rfl
  distinct := List.nodup_nil
  meets := by
    intro opt
    constructor
    · intro member
      cases member
    · rintro ⟨stored, slot, member, met⟩
      exact absurd met (apart opt stored slot member)
  rest := by simp

theorem lies (first : Removed handle slots before after removed) :
    Lies after.options opt ↔ Lies before.options opt ∧ opt ∉ removed := by
  constructor
  · rintro ⟨slot, stored⟩
    obtain ⟨stored, isKept⟩ := (first.rest slot opt).mp stored
    exact ⟨⟨slot, stored⟩, isKept⟩
  · rintro ⟨⟨slot, stored⟩, isKept⟩
    exact ⟨slot, (first.rest slot opt).mpr ⟨stored, isKept⟩⟩

theorem trans (first : Removed handle slots before middle removed)
    (second : Removed handle slots' middle after removed') :
    Removed handle (slots ++ slots') before after (removed ++ removed') where
  log := by
    rw [second.log, first.log, List.map_append, List.append_assoc]
  failed := second.failed.trans first.failed
  distinct := by
    apply List.Nodup.append first.distinct second.distinct
    intro opt taken takenLater
    obtain ⟨stored, _⟩ := (second.meets opt).mp takenLater
    exact (first.lies.mp stored).2 taken
  meets := by
    intro opt
    rw [List.mem_append, first.meets, second.meets, first.lies, first.meets]
    constructor
    · rintro (⟨stored, slot, member, met⟩ | ⟨⟨stored, _⟩, slot, member, met⟩)
      · exact ⟨stored, slot, List.mem_append_left _ member, met⟩
      · exact ⟨stored, slot, List.mem_append_right _ member, met⟩
    · rintro ⟨stored, slot, member, met⟩
      by_cases takenFirst : ∃ slot ∈ slots, slot ∈ opt.slots
      · exact .inl ⟨stored, takenFirst⟩
      · right
        refine ⟨⟨stored, fun taken => takenFirst taken.2⟩, slot, ?_, met⟩
        obtain member | member := List.mem_append.mp member
        · exact absurd ⟨slot, member, met⟩ takenFirst
        · exact member
  rest := by
    intro slot opt
    rw [second.rest, first.rest, List.mem_append, and_assoc, not_or]

theorem tiled (first : Removed handle slots before after removed)
    (tiled : Tiled SharedOption.slots before.options) :
    Tiled SharedOption.slots after.options :=
  tiled.keep first.rest

theorem free (first : Removed handle slots before after removed)
    (tiled : Tiled SharedOption.slots before.options) :
    ∀ slot ∈ slots, after.options slot = none := by
  intro slot member
  cases there : after.options slot with
  | none => rfl
  | some opt =>
      obtain ⟨stored, isKept⟩ := (first.rest slot opt).mp there
      have met := (tiled slot opt stored).1
      exact absurd ((first.meets opt).mpr
        ⟨⟨slot, stored⟩, slot, member, met⟩) isKept

end Removed

/-- The options that have an id in common with those to be set have different
slots for their ids. -/
def Separate (slots : List (Fin lastEntry))
    (set : OptionSet lastEntry Value) : Prop :=
  ∀ opt, Lies set opt → (∃ slot ∈ slots, slot ∈ opt.slots) →
    opt.slots.Nodup

theorem unsetopt_free (handle : Handle)
    (tiled : Tiled SharedOption.slots before.options)
    (there : before.options id.slot = none) :
    Removed handle [id.slot] before (before.unsetopt handle id) [] := by
  have unchanged : before.unsetopt handle id = before := by
    unfold Work.unsetopt
    rw [there]
    apply Work.check_of_holds
    rw [there]
    rfl
  rw [unchanged]
  apply Removed.nothing
  intro opt stored slot member met
  cases List.mem_singleton.mp member
  rw [tiled.same_of_meet stored met] at there
  cases there

/-- The option that has the id is unset, and leaves all of its slots. -/
theorem unsetopt_stored (handle : Handle)
    (tiled : Tiled SharedOption.slots before.options)
    (there : before.options id.slot = some opt)
    (distinct : opt.slots.Nodup) :
    Removed handle [id.slot] before (before.unsetopt handle id) [opt] := by
  obtain ⟨member, covered⟩ := tiled id.slot opt there
  have emptied := Work.foldl_resetOther distinct
    fun other isId => covered other.slot (List.mem_map_of_mem isId)
  have result : before.unsetopt handle id =
      { before with
        options := fill before.options opt.slots none
        log := before.log ++ [.unsetopt handle opt.address] } := by
    unfold Work.unsetopt
    rw [there]
    simp only [emptied]
    apply Work.check_of_holds
    rw [Option.isNone_iff_eq_none]
    exact (fill_apply _ _).trans (if_pos member)
  rw [result]
  constructor
  · rfl
  · rfl
  · exact List.nodup_singleton opt
  · intro other
    rw [List.mem_singleton]
    constructor
    · intro same
      subst same
      exact ⟨⟨id.slot, there⟩, id.slot, List.mem_singleton_self _, member⟩
    · rintro ⟨stored, slot, isId, met⟩
      cases List.mem_singleton.mp isId
      have same := tiled.same_of_meet stored met
      rw [there] at same
      exact (Option.some.inj same).symm
  · intro slot other
    rw [List.mem_singleton]
    exact tiled.take there

theorem unsetopt_removed (handle : Handle)
    (tiled : Tiled SharedOption.slots before.options)
    (separate : Separate [id.slot] before.options) :
    ∃ removed, Removed handle [id.slot] before
      (before.unsetopt handle id) removed := by
  cases there : before.options id.slot with
  | none => exact ⟨[], unsetopt_free handle tiled there⟩
  | some opt =>
      have distinct : opt.slots.Nodup :=
        separate opt ⟨id.slot, there⟩ ⟨id.slot, List.mem_singleton_self _,
          (tiled id.slot opt there).1⟩
      exact ⟨[opt], unsetopt_stored handle tiled there distinct⟩

theorem unsetAll_removed (handle : Handle)
    (ids : List (CurlOption lastEntry))
    (tiled : Tiled SharedOption.slots before.options)
    (separate : Separate (ids.map CurlOption.slot) before.options) :
    ∃ removed, Removed handle (ids.map CurlOption.slot) before
      (before.unsetAll handle ids) removed := by
  induction ids generalizing before with
  | nil => exact ⟨[], Removed.nothing nofun⟩
  | cons id ids induction =>
      have here : Separate [id.slot] before.options := by
        intro opt stored met
        obtain ⟨slot, member, met⟩ := met
        cases List.mem_singleton.mp member
        exact separate opt stored ⟨id.slot, List.mem_cons_self, met⟩
      obtain ⟨removed, first⟩ := unsetopt_removed handle tiled here
      have later : Separate (ids.map CurlOption.slot)
          (before.unsetopt handle id).options := by
        intro opt stored met
        obtain ⟨slot, member, met⟩ := met
        exact separate opt (first.lies.mp stored).1
          ⟨slot, List.mem_cons_of_mem _ member, met⟩
      obtain ⟨removed', second⟩ := induction (first.tiled tiled) later
      exact ⟨removed ++ removed', first.trans second⟩

/-! ## Setting an option -/

/-- What a set holds after an option has been set, with or without storing
it. -/
structure Replaced (handle : Handle) (opt : SharedOption lastEntry Value)
    (before after : Work lastEntry Handle Value)
    (removed : List (SharedOption lastEntry Value)) : Prop where
  tiled : Tiled SharedOption.slots after.options
  log : after.log = before.log ++
    (removed.map fun opt => .unsetopt handle opt.address) ++
      [.setopt handle opt.address]
  failed : ∀ assertion ∈ after.failed,
    assertion ∈ before.failed ∨ assertion = .idsGiven
  distinct : removed.Nodup
  meets : ∀ other, other ∈ removed ↔ Lies before.options other ∧
    ∃ slot ∈ opt.slots, slot ∈ other.slots
  origin : ∀ other, Lies after.options other →
    other = opt ∨ Lies before.options other ∧ other ∉ removed
  kept : ∀ other, Lies before.options other → other ∉ removed →
    Lies after.options other

theorem setoptByCurl_replaced (before : Work lastEntry Handle Value)
    (handle : Handle) (opt : SharedOption lastEntry Value)
    (tiled : Tiled SharedOption.slots before.options)
    (separate : Separate opt.slots before.options) :
    ∃ removed, Replaced handle opt before
      (before.setoptByCurl handle opt) removed := by
  obtain ⟨removed, isRemoved⟩ := unsetAll_removed handle opt.option.ids
    tiled separate
  exact ⟨removed, {
    tiled := isRemoved.tiled tiled
    log := congrArg (· ++ [Event.setopt handle opt.address]) isRemoved.log
    failed := fun assertion member => .inl (isRemoved.failed ▸ member)
    distinct := isRemoved.distinct
    meets := isRemoved.meets
    origin := fun other stored => .inr (isRemoved.lies.mp stored)
    kept := fun other stored isKept => isRemoved.lies.mpr
      ⟨stored, isKept⟩ }⟩

theorem Removed.replaced {removed : List (SharedOption lastEntry Value)}
    (tiled : Tiled SharedOption.slots before.options)
    (isRemoved : Removed handle opt.slots before after removed) :
    Replaced handle opt before
      (({ after with options := fill after.options opt.slots (some opt) }
        : Work lastEntry Handle Value).record (.setopt handle opt.address))
      removed := by
  have free := isRemoved.free tiled
  constructor
  · exact (isRemoved.tiled tiled).put free
  · exact congrArg (· ++ [Event.setopt handle opt.address]) isRemoved.log
  · intro assertion member
    exact .inl (isRemoved.failed ▸ member)
  · exact isRemoved.distinct
  · exact isRemoved.meets
  · rintro other ⟨slot, stored⟩
    have there := (fill_apply _ _).symm.trans stored
    split at there
    · exact .inl (Option.some.inj there).symm
    · exact .inr (isRemoved.lies.mp ⟨slot, there⟩)
  · intro other stored isKept
    obtain ⟨slot, stored⟩ := isRemoved.lies.mpr ⟨stored, isKept⟩
    refine ⟨slot, (fill_apply _ _).trans ((if_neg ?_).trans stored)⟩
    intro inside
    rw [free slot inside] at stored
    cases stored

/-- `store_and_setopt` begins with an assertion of its own. -/
theorem Replaced.of_check {removed : List (SharedOption lastEntry Value)}
    {holds : Bool}
    (replaced : Replaced handle opt (before.check holds .idsGiven) after
      removed) :
    Replaced handle opt before after removed := by
  obtain ⟨tiled, log, failed, distinct, meets, origin, kept⟩ := replaced
  rw [Work.check_log] at log
  simp only [Work.check_options] at meets origin kept
  refine ⟨tiled, log, ?_, distinct, meets, origin, kept⟩
  intro assertion member
  obtain earlier | isGiven := failed assertion member
  · exact Work.mem_check_failed earlier
  · exact .inr isGiven

theorem storeAndSetopt_replaced (before : Work lastEntry Handle Value)
    (handle : Handle) (opt : SharedOption lastEntry Value)
    (tiled : Tiled SharedOption.slots before.options)
    (separate : Separate opt.slots before.options) :
    ∃ removed, Replaced handle opt before
      (before.storeAndSetopt handle opt) removed := by
  rw [← before.check_options (!opt.option.ids.isEmpty) .idsGiven]
    at tiled separate
  obtain ⟨removed, isRemoved⟩ := unsetAll_removed handle opt.option.ids
    tiled separate
  exact ⟨removed, (isRemoved.replaced tiled).of_check⟩

/-! ## Setting all options -/

section Each

variable {throws : SharedOption lastEntry Value → Bool}
  {set : OptionSet lastEntry Value}

theorem setoptEach_once
    (throws : SharedOption lastEntry Value → Bool)
    (rest : List (Option (SharedOption lastEntry Value)))
    (seen : List Nat) :
    ((OptionSet.setoptEach throws rest seen).1.map
        SharedOption.address).Nodup ∧
      ∀ opt ∈ (OptionSet.setoptEach throws rest seen).1,
        some opt ∈ rest ∧ opt.address ∉ seen := by
  induction rest generalizing seen with
  | nil => exact ⟨List.nodup_nil, by nofun⟩
  | cons first rest induction =>
      cases first with
      | none =>
          obtain ⟨once, stored⟩ := induction seen
          refine ⟨once, ?_⟩
          intro opt member
          obtain ⟨there, unseen⟩ := stored opt member
          exact ⟨List.mem_cons_of_mem _ there, unseen⟩
      | some first =>
          rw [OptionSet.setoptEach]
          split
          · obtain ⟨once, stored⟩ := induction seen
            refine ⟨once, ?_⟩
            intro opt member
            obtain ⟨there, unseen⟩ := stored opt member
            exact ⟨List.mem_cons_of_mem _ there, unseen⟩
          · rename_i unseenFirst
            split
            · refine ⟨List.nodup_singleton _, ?_⟩
              intro opt member
              cases List.mem_singleton.mp member
              exact ⟨List.mem_cons_self, unseenFirst⟩
            · obtain ⟨once, stored⟩ := induction (first.address :: seen)
              constructor
              · apply List.nodup_cons.mpr
                refine ⟨?_, once⟩
                intro again
                obtain ⟨opt, member, same⟩ := List.mem_map.mp again
                exact (stored opt member).2 (same ▸ List.mem_cons_self)
              · intro opt member
                obtain same | member := List.mem_cons.mp member
                · subst same
                  exact ⟨List.mem_cons_self, unseenFirst⟩
                · obtain ⟨there, unseen⟩ := stored opt member
                  exact ⟨List.mem_cons_of_mem _ there,
                    fun earlier => unseen (List.mem_cons_of_mem _ earlier)⟩

theorem setoptEach_all
    (rest : List (Option (SharedOption lastEntry Value)))
    (seen : List Nat)
    (works : ∀ opt, some opt ∈ rest → throws opt = false) :
    ∀ opt, some opt ∈ rest → opt.address ∉ seen →
      opt.address ∈ (OptionSet.setoptEach throws rest seen).1.map
        SharedOption.address := by
  induction rest generalizing seen with
  | nil => nofun
  | cons first rest induction =>
      have worksLater : ∀ opt, some opt ∈ rest → throws opt = false :=
        fun opt member => works opt (List.mem_cons_of_mem _ member)
      intro opt member unseen
      cases first with
      | none =>
          obtain nothing | member := List.mem_cons.mp member
          · cases nothing
          · exact induction seen worksLater opt member unseen
      | some first =>
          rw [OptionSet.setoptEach]
          obtain same | member := List.mem_cons.mp member
          · cases same
            rw [if_neg unseen, works opt List.mem_cons_self]
            exact List.mem_cons_self
          · split
            · exact induction seen worksLater opt member unseen
            · rw [works first List.mem_cons_self]
              by_cases same : opt.address = first.address
              · rw [same]
                exact List.mem_cons_self
              · apply List.mem_cons_of_mem
                apply induction _ worksLater opt member
                intro earlier
                obtain isFirst | isSeen := List.mem_cons.mp earlier
                · exact same isFirst
                · exact unseen isSeen

theorem some_mem_slots : some opt ∈ (List.finRange lastEntry).map set ↔
    Lies set opt := by
  rw [List.mem_map]
  exact ⟨fun ⟨slot, _, stored⟩ => ⟨slot, stored⟩,
    fun ⟨slot, stored⟩ => ⟨slot, List.mem_finRange slot, stored⟩⟩

theorem setopt_once (set : OptionSet lastEntry Value)
    (throws : SharedOption lastEntry Value → Bool) :
    ((set.setopt throws).1.map SharedOption.address).Nodup ∧
      ∀ opt ∈ (set.setopt throws).1, Lies set opt := by
  obtain ⟨once, stored⟩ := setoptEach_once throws
    ((List.finRange lastEntry).map set) []
  exact ⟨once, fun opt member => some_mem_slots.mp (stored opt member).1⟩

/-- If no stored option throws, exactly one of those that are set governs a
slot in use: the one that is stored there. -/
theorem setopt_all (tiled : Tiled SharedOption.slots set)
    (identified : ∀ opt other, Lies set opt → Lies set other →
      opt.address = other.address → opt = other)
    (works : ∀ opt, Lies set opt → throws opt = false)
    {slot : Fin lastEntry} (stored : set slot = some opt) :
    (set.setopt throws).1.filter (fun other => slot ∈ other.slots) =
      [opt] := by
  obtain ⟨once, areStored⟩ := setopt_once set throws
  have isSet : opt ∈ (set.setopt throws).1 := by
    have address := setoptEach_all ((List.finRange lastEntry).map set) []
      (fun other member => works other (some_mem_slots.mp member)) opt
      (some_mem_slots.mpr ⟨slot, stored⟩) List.not_mem_nil
    obtain ⟨other, member, same⟩ := List.mem_map.mp address
    rw [← identified other opt (areStored other member) ⟨slot, stored⟩ same]
    exact member
  apply List.perm_singleton.mp
  rw [List.perm_ext_iff_of_nodup (once.of_map.filter _)
    (List.nodup_singleton opt)]
  intro other
  rw [List.mem_filter, List.mem_singleton]
  constructor
  · rintro ⟨member, governs⟩
    have there := tiled.same_of_meet (areStored other member)
      (of_decide_eq_true governs)
    rw [stored] at there
    exact (Option.some.inj there).symm
  · intro same
    subst same
    exact ⟨isSet, decide_eq_true (tiled slot other stored).1⟩

end Each

end Bacs.Curl
