import Bacs.Foundation.Latest
import Bacs.Foundation.Outcome
import Bacs.Problem.Simple0

/-!
# The groups of a profile

The groups of a profile cover the tests and depend on each other in a chain if
every group that has a score or a condition to continue lists its tests, too,
and no group of numbered tests has one without an id.
-/

namespace Bacs.Problem

open Foundation

variable {Settings : Type}

/-! ## What a profile should be -/

/-- The test id matches `\d+`. -/
def IsNumber (id : String) : Prop :=
  id ≠ "" ∧ ∀ character ∈ id.toList, character.isDigit = true

def DependsOn (first second : TestGroup Settings) : Prop :=
  second.dependency = [first.id]

structure WellFormed (tests : List String)
    (others : List (TestGroup Settings)) (last : TestGroup Settings) :
    Prop where
  covered : ∀ test ∈ tests,
    ∃ testGroup ∈ others ++ [last], test ∈ testGroup.tests.query
  rest : ∀ test, test ∈ last.tests.query ↔
    test ∈ tests ∧ ∀ testGroup ∈ others, test ∉ testGroup.tests.query
  named : ∀ testGroup ∈ others, testGroup.id ≠ ""
  distinct : (others.map TestGroup.id).Nodup
  chain : (others ++ [last]).IsChain DependsOn
  earlier : ∀ before testGroup after,
    others ++ [last] = before ++ testGroup :: after →
      ∀ id ∈ testGroup.dependency, ∃ other ∈ before, other.id = id
  order : ∀ testGroup ∈ others ++ [last],
    testGroup.tests.order = .numeric ↔
      ∀ id ∈ testGroup.tests.query, IsNumber id

/-- The last group is the default group. -/
def WellFormedProfile (tests : List String)
    (profile : List (TestGroup Settings)) : Prop :=
  ∃ others last, profile = others ++ [last] ∧ WellFormed tests others last

namespace Simple0

/-! ## What a section should be -/

/-- The group has a score or a condition to continue. -/
def Valued (testsSection : List (String × String)) (groupId : String) :
    Prop :=
  ∃ entry ∈ testsSection, entry.1 = scorePrefix ++ groupId ∨
    entry.1 = continueConditionPrefix ++ groupId

instance (testsSection : List (String × String)) (groupId : String) :
    Decidable (Valued testsSection groupId) :=
  inferInstanceAs (Decidable (∃ entry ∈ _, _))

def listed (testsSection : List (String × String)) (groupId : String) :
    Option (List String) :=
  (latest id (groupPrefix ++ groupId) testsSection).map testIds

def Unlisted (testsSection : List (String × String)) (test : String) :
    Prop :=
  ∀ groupId, ∀ ids ∈ listed testsSection groupId, test ∉ ids

def Numbered (tests : String → Prop) : Prop :=
  (∀ id, tests id → onlyDigits id = true) → ¬ tests ""

structure Regular (testsSection : List (String × String))
    (tests : List String) : Prop where
  grouped : ∀ groupId, Valued testsSection groupId →
    (listed testsSection groupId).isSome = true
  numbered : ∀ groupId, ∀ ids ∈ listed testsSection groupId,
    Numbered (· ∈ ids)
  rest : Numbered fun test => test ∈ tests ∧ Unlisted testsSection test

theorem suffixAfter_eq_some {start key suffix : String} :
    suffixAfter start key = some suffix ↔ key = start ++ suffix := by
  unfold suffixAfter
  constructor
  · intro found
    obtain ⟨starts, ⟨⟩⟩ := Option.ite_none_right_eq_some.mp found
    obtain ⟨rest, whole⟩ := List.isPrefixOf_iff_prefix.mp starts
    rw [← whole, List.drop_left]
    apply String.toList_injective
    rw [String.toList_append, String.toList_ofList, whole]
  · rintro rfl
    simp

theorem numeric_iff {ids : List String} :
    (testOrder ids = .numeric ↔ ∀ id ∈ ids, IsNumber id) ↔
      Numbered (· ∈ ids) := by
  have digits : testOrder ids = .numeric ↔
      ∀ id ∈ ids, onlyDigits id = true := by
    rw [← List.all_eq_true, testOrder]
    split <;> simp_all
  rw [digits]
  constructor
  · intro numbers only empty
    exact (numbers.mp only "" empty).1 rfl
  · intro numbered
    constructor
    · intro only id member
      constructor
      · rintro rfl
        exact numbered only member
      · exact List.all_eq_true.mp (only id member)
    · intro numbers id member
      exact List.all_eq_true.mpr (numbers id member).2

/-! ## The groups of a section -/

structure Outline where
  id : String
  query : List String
  order : Order
  dependency : List String

def outline (testGroup : TestGroup Settings) : Outline where
  id := testGroup.id
  query := testGroup.tests.query
  order := testGroup.tests.order
  dependency := testGroup.dependency

def namedOutline (groupId : String) (ids : List String) : Outline :=
  ⟨groupId, ids, testOrder ids, []⟩

/-- A group that has been created for its score or condition only. -/
def bareOutline : Outline :=
  ⟨"", [], .identity, []⟩

@[simp] theorem changeGroup_get (groups : TestGroups Settings)
    (groupId other : String)
    (change : TestGroup Settings → TestGroup Settings) :
    (changeGroup groups groupId change)[other]? =
      if groupId = other then some (change (groups[groupId]?.getD {}))
      else groups[other]? := by
  rw [changeGroup, Std.TreeMap.getElem?_alter]
  simp only [Std.LawfulEqCmp.compare_eq_iff_eq]

theorem listed_concat (passed : List (String × String))
    (key tests groupId : String) :
    listed (passed ++ [(key, tests)]) groupId =
      if key = groupPrefix ++ groupId then some (testIds tests)
      else listed passed groupId := by
  rw [listed, latest_concat]
  split <;> simp_all [listed]

def Initialized (passed : List (String × String))
    (groups : TestGroups Settings) : Prop :=
  groups[""]? = none ∧ ∀ groupId, groups[groupId]?.map outline =
    (listed passed groupId).map (namedOutline groupId)

theorem initializeGroup_initialized {passed : List (String × String)}
    {entry : String × String} {before after : TestGroups Settings}
    (initialized : Initialized passed before)
    (taken : initializeGroup before entry = .ok after) :
    Initialized (passed ++ [entry]) after := by
  obtain ⟨unnamed, same⟩ := initialized
  obtain ⟨key, tests⟩ := entry
  unfold initializeGroup at taken
  split at taken
  case h_1 other =>
    cases taken
    refine ⟨unnamed, fun groupId => ?_⟩
    have different : key ≠ groupPrefix ++ groupId := by
      intro named
      rw [suffixAfter_eq_some.mpr named] at other
      cases other
    rw [listed_concat, if_neg different, same]
  case h_2 groupId named =>
    split at taken
    case isTrue => cases taken
    case isFalse filled =>
      cases taken
      obtain rfl : key = groupPrefix ++ groupId :=
        suffixAfter_eq_some.mp named
      constructor
      · rw [changeGroup_get, if_neg filled, unnamed]
      · intro other
        rw [changeGroup_get, listed_concat]
        by_cases chosen : groupId = other
        · subst other
          have clear : ((before[groupId]?.getD {}).dependency) = [] := by
            have outlined := same groupId
            cases found : before[groupId]? with
            | none => rfl
            | some testGroup =>
                rw [found] at outlined
                obtain ⟨ids, _, known⟩ :=
                  Option.map_eq_some_iff.mp outlined.symm
                exact (congrArg Outline.dependency known).symm
          simp [outline, namedOutline, clear]
        · have different : groupPrefix ++ groupId ≠ groupPrefix ++ other := by
            simpa [String.append_right_inj] using chosen
          rw [if_neg chosen, if_neg different, same]

/-- The groups are those that list their tests, and those with a score or a
condition. -/
def Outlined (testsSection passed : List (String × String))
    (groups : TestGroups Settings) : Prop :=
  groups[""]? = none ∧ ∀ groupId, groups[groupId]?.map outline =
    ((listed testsSection groupId).map (namedOutline groupId)).or
      (if Valued passed groupId then some bareOutline else none)

theorem prefixes_differ (first second : String) :
    scorePrefix ++ first ≠ continueConditionPrefix ++ second := by
  intro same
  have heads := congrArg (fun key : String => key.toList.head?) same
  simp [scorePrefix, continueConditionPrefix] at heads

theorem valued_concat {passed : List (String × String)}
    {entry : String × String} {groupId : String} :
    Valued (passed ++ [entry]) groupId ↔
      Valued passed groupId ∨ entry.1 = scorePrefix ++ groupId ∨
        entry.1 = continueConditionPrefix ++ groupId := by
  simp only [Valued, List.mem_append, List.mem_singleton, or_and_right,
    exists_or, exists_eq_left]

/-- A turn of the second loop changes nothing, or the score or condition of
one group. -/
theorem setValue_cases {entry : String × String}
    {before after : TestGroups Settings}
    (taken : setValue before entry = .ok after) :
    ((∀ groupId, entry.1 ≠ scorePrefix ++ groupId ∧
        entry.1 ≠ continueConditionPrefix ++ groupId) ∧ after = before) ∨
      ∃ groupId change, groupId ≠ "" ∧
        (∀ other, entry.1 = scorePrefix ++ other ∨
          entry.1 = continueConditionPrefix ++ other ↔ groupId = other) ∧
        (∀ testGroup : TestGroup Settings,
          outline (change testGroup) = outline testGroup) ∧
        after = changeGroup before groupId change := by
  obtain ⟨key, value⟩ := entry
  unfold setValue at taken
  split at taken
  case h_1 groupId named =>
    obtain rfl : key = scorePrefix ++ groupId := suffixAfter_eq_some.mp named
    split at taken
    case isTrue => cases taken
    case isFalse filled =>
      split at taken
      case h_1 => cases taken
      case h_2 score _ =>
        cases taken
        refine .inr ⟨groupId, _, filled, ?_, ?_, rfl⟩
        · intro other
          simp [String.append_right_inj, prefixes_differ]
        · exact fun _ => rfl
  case h_2 unscored =>
    have notScore : ∀ groupId, key ≠ scorePrefix ++ groupId := by
      intro groupId named
      rw [suffixAfter_eq_some.mpr named] at unscored
      cases unscored
    split at taken
    case h_1 groupId named =>
      obtain rfl : key = continueConditionPrefix ++ groupId :=
        suffixAfter_eq_some.mp named
      split at taken
      case isTrue => cases taken
      case isFalse filled =>
        split at taken
        case h_1 => cases taken
        case h_2 continueCondition _ =>
          cases taken
          refine .inr ⟨groupId, _, filled, ?_, ?_, rfl⟩
          · intro other
            simp [String.append_right_inj, (prefixes_differ _ _).symm]
          · exact fun _ => rfl
    case h_2 unconditional =>
      cases taken
      refine .inl ⟨fun groupId => ⟨notScore groupId, ?_⟩, rfl⟩
      intro named
      rw [suffixAfter_eq_some.mpr named] at unconditional
      cases unconditional

theorem setValue_outlined {testsSection passed : List (String × String)}
    {entry : String × String} {before after : TestGroups Settings}
    (outlined : Outlined testsSection passed before)
    (taken : setValue before entry = .ok after) :
    Outlined testsSection (passed ++ [entry]) after := by
  obtain ⟨unnamed, same⟩ := outlined
  obtain ⟨neither, rfl⟩ | ⟨groupId, change, filled, valued, kept, rfl⟩ :=
    setValue_cases taken
  · refine ⟨unnamed, fun groupId => ?_⟩
    rw [same]
    simp only [valued_concat, neither groupId, or_false]
  · constructor
    · rw [changeGroup_get, if_neg filled, unnamed]
    · intro other
      rw [changeGroup_get]
      simp only [valued_concat, valued other]
      by_cases chosen : groupId = other
      · subst other
        have known := same groupId
        simp only [or_true, if_true, Option.map_some, kept]
        cases found : before[groupId]? with
        | none =>
            rw [found, Option.map_none] at known
            have unlisted := (Option.or_eq_none_iff.mp known.symm).1
            rw [unlisted]
            rfl
        | some testGroup =>
            rw [found] at known
            cases tests : listed testsSection groupId with
            | none =>
                rw [tests] at known
                obtain ⟨_, bare⟩ :=
                  Option.ite_none_right_eq_some.mp known.symm
                exact bare.symm
            | some ids =>
                rw [tests] at known
                exact known
      · simp only [chosen, if_false, or_false, same]

/-- What `read_tests` has collected. -/
theorem readTests_outlined {testsSection : List (String × String)}
    {storage : TestStorage} {groups : TestGroups Settings}
    (ends : readTests testsSection storage = .ok groups) :
    Outlined testsSection testsSection groups := by
  unfold readTests at ends
  split at ends
  · cases ends
  · split at ends
    · cases ends
    · obtain ⟨listedGroups, first, second⟩ := bind_ok ends
      have initialized : Initialized testsSection listedGroups := by
        apply foldlM_ok Initialized _ _ first
        · simp [Initialized, listed]
        · intro passed entry before after kept taken
          exact initializeGroup_initialized kept taken
      apply foldlM_ok (Outlined testsSection) _ _ second
      · refine ⟨initialized.1, fun groupId => ?_⟩
        rw [initialized.2]
        simp [Valued]
      · intro passed entry before after kept taken
        exact setValue_outlined kept taken

/-! ## The chain of groups -/

/-- The groups of the profile, each with the one before it. -/
def linked (settings : Settings) :
    Option String → List (String × TestGroup Settings) →
      List (TestGroup Settings)
  | _, [] => []
  | previous, (groupId, testGroup) :: rest =>
      addTestGroupDependency { testGroup with process := some settings }
          previous :: linked settings (some groupId) rest

variable {settings : Settings}

theorem addTestGroups (entries : List (String × TestGroup Settings))
    (last : TestGroup Settings) (collected : Collected Settings) :
    let final := entries.foldl (addTestGroup settings) collected
    final.testGroup ++
        [addTestGroupDependency { last with process := some settings }
          final.previousTestGroup] =
      collected.testGroup ++
        linked settings collected.previousTestGroup
          (entries ++ [("", last)]) ∧
      ∀ test, test ∈ final.unusedTests ↔
        test ∈ collected.unusedTests ∧
          ∀ entry ∈ entries, test ∉ entry.2.tests.query := by
  induction entries generalizing collected with
  | nil => simp [linked]
  | cons entry entries ih =>
      obtain ⟨groups, unused⟩ := ih (addTestGroup settings collected entry)
      constructor
      · refine groups.trans ?_
        simp [addTestGroup, linked]
      · intro test
        refine (unused test).trans ?_
        simp [addTestGroup, and_assoc]

/-- The profile has the groups of the map and a last one for the tests that
none of them lists. -/
theorem readProfiles_linked {testsSection : List (String × String)}
    {testSet : List String} {groups : TestGroups Settings}
    {profile : List (TestGroup Settings)}
    (ends : readProfiles settings testsSection testSet groups =
      .ok profile) :
    ∃ last : TestGroup Settings,
      profile = linked settings none (groups.toList ++ [("", last)]) ∧
      outline last = namedOutline "" last.tests.query ∧
      ∀ test, test ∈ last.tests.query ↔ test ∈ testSet ∧
        ∀ entry ∈ groups.toList, test ∉ entry.2.tests.query := by
  obtain ⟨continueCondition, _, ends⟩ := bind_ok ends
  cases ends
  obtain ⟨whole, unused⟩ := addTestGroups groups.toList
    { tests :=
        { order := testOrder (groups.toList.foldl (addTestGroup settings)
            ⟨[], testSet, none⟩).unusedTests
          query := (groups.toList.foldl (addTestGroup settings)
            ⟨[], testSet, none⟩).unusedTests
          continueCondition }
      score := ((testsSection.lookup "score").bind toInt64).getD 0 }
    ⟨[], testSet, none⟩
  exact ⟨_, whole, rfl, unused⟩

theorem linked_map (settings : Settings) (previous : Option String)
    (entries : List (String × TestGroup Settings)) :
    (linked settings previous entries).map
        (fun testGroup => (testGroup.id, testGroup.tests)) =
      entries.map fun entry => (entry.2.id, entry.2.tests) := by
  induction entries generalizing previous with
  | nil => rfl
  | cons entry rest ih =>
      rw [linked, List.map_cons, List.map_cons, ih]
      cases previous <;> rfl

theorem linked_tests {entries : List (String × TestGroup Settings)}
    {previous : Option String} (holds : TestSequence → Prop) :
    (∀ testGroup ∈ linked settings previous entries,
        holds testGroup.tests) ↔
      ∀ entry ∈ entries, holds entry.2.tests := by
  have same := congrArg
    (fun pairs : List (String × TestSequence) =>
      ∀ pair ∈ pairs, holds pair.2) (linked_map settings previous entries)
  simpa only [List.forall_mem_map] using (iff_of_eq same)

theorem linked_head (settings : Settings)
    {entries : List (String × TestGroup Settings)}
    (clear : ∀ entry ∈ entries, entry.2.dependency = []) :
    ∀ testGroup ∈ (linked settings none entries).head?,
      testGroup.dependency = [] := by
  cases entries with
  | nil => nofun
  | cons entry rest =>
      rintro testGroup ⟨⟩
      exact clear entry (by simp)

/-- The groups make a chain exactly if every group but the last has the id it
is known by. -/
theorem linked_chain {entries : List (String × TestGroup Settings)}
    (clear : ∀ entry ∈ entries, entry.2.dependency = [])
    (previous : Option String) :
    (linked settings previous entries).IsChain DependsOn ↔
      ∀ entry ∈ entries.dropLast, entry.2.id = entry.1 := by
  induction entries generalizing previous with
  | nil => simp [linked]
  | cons entry rest ih =>
      cases rest with
      | nil => simp [linked]
      | cons next rest =>
          have others := ih
            (fun other member => clear other (by simp [member]))
            (some entry.1)
          have nextClear := clear next (by simp)
          rw [List.dropLast_cons_cons, List.forall_mem_cons, ← others]
          simp only [linked, List.isChain_cons_cons]
          apply and_congr_left
          intro _
          cases previous <;>
            simp [DependsOn, addTestGroupDependency, nextClear, eq_comm]

/-- In a chain that begins without a dependency, every dependency is on an
earlier group. -/
theorem earlier_of_chain {profile : List (TestGroup Settings)}
    (first : ∀ testGroup ∈ profile.head?, testGroup.dependency = [])
    (chain : profile.IsChain DependsOn)
    {before after : List (TestGroup Settings)}
    {testGroup : TestGroup Settings}
    (split : profile = before ++ testGroup :: after) :
    ∀ id ∈ testGroup.dependency, ∃ other ∈ before, other.id = id := by
  subst split
  cases before using List.reverseRecOn with
  | nil =>
      intro id member
      rw [first testGroup rfl] at member
      cases member
  | append_singleton before previous =>
      have depends : DependsOn previous testGroup :=
        List.isChain_iff_forall_rel_of_append_cons_cons.mp chain
          (by rw [List.append_assoc, List.singleton_append])
      intro id member
      rw [depends, List.mem_singleton] at member
      exact ⟨previous, by simp, member.symm⟩

/-! ## The profile -/

/-- The groups of a section, each with its id in the map. -/
structure EntriesOf (testsSection : List (String × String))
    (entries : List (String × TestGroup Settings)) : Prop where
  named : ∀ entry ∈ entries, entry.1 ≠ ""
  outlined : ∀ entry ∈ entries, some (outline entry.2) =
    ((listed testsSection entry.1).map (namedOutline entry.1)).or
      (if Valued testsSection entry.1 then some bareOutline else none)
  complete : ∀ groupId, (listed testsSection groupId).isSome = true ∨
    Valued testsSection groupId → ∃ entry ∈ entries, entry.1 = groupId
  distinct : (entries.map Prod.fst).Nodup

theorem Outlined.entries {testsSection : List (String × String)}
    {groups : TestGroups Settings}
    (outlined : Outlined testsSection testsSection groups) :
    EntriesOf testsSection groups.toList := by
  obtain ⟨unnamed, same⟩ := outlined
  have found : ∀ entry ∈ groups.toList, groups[entry.1]? = some entry.2 :=
    fun entry member =>
      Std.TreeMap.mem_toList_iff_getElem?_eq_some.mp member
  constructor
  · intro entry member empty
    have present := found entry member
    rw [empty, unnamed] at present
    cases present
  · intro entry member
    rw [← same, found entry member]
    rfl
  · intro groupId either
    have present : (groups[groupId]?.map outline).isSome = true := by
      rw [same, Option.isSome_or]
      rcases either with tests | valued
      · simp [tests]
      · simp [valued]
    rw [Option.isSome_map] at present
    obtain ⟨testGroup, present⟩ := Option.isSome_iff_exists.mp present
    exact ⟨(groupId, testGroup),
      Std.TreeMap.mem_toList_iff_getElem?_eq_some.mpr present, rfl⟩
  · rw [List.Nodup, List.pairwise_map]
    apply Std.TreeMap.distinct_keys_toList.imp
    intro first second different same
    exact different (Std.LawfulEqCmp.compare_eq_iff_eq.mpr same)

namespace EntriesOf

variable {testsSection : List (String × String)}
  {entries : List (String × TestGroup Settings)}

/-- A group lists its tests, or it has a score or condition only. -/
theorem cases (of : EntriesOf testsSection entries)
    {entry : String × TestGroup Settings} (member : entry ∈ entries) :
    (∃ ids, listed testsSection entry.1 = some ids ∧
      outline entry.2 = namedOutline entry.1 ids) ∨
    (listed testsSection entry.1 = none ∧ Valued testsSection entry.1 ∧
      outline entry.2 = bareOutline) := by
  have known := of.outlined entry member
  cases tests : listed testsSection entry.1 with
  | some ids =>
      rw [tests] at known
      exact .inl ⟨ids, rfl, Option.some.inj known⟩
  | none =>
      rw [tests] at known
      obtain ⟨valued, bare⟩ := Option.ite_none_right_eq_some.mp known.symm
      exact .inr ⟨rfl, valued, (Option.some.inj bare).symm⟩

theorem clear (of : EntriesOf testsSection entries)
    {entry : String × TestGroup Settings} (member : entry ∈ entries) :
    entry.2.dependency = [] := by
  obtain ⟨ids, _, known⟩ | ⟨_, _, known⟩ := of.cases member
  · exact congrArg Outline.dependency known
  · exact congrArg Outline.dependency known

theorem of_listed (of : EntriesOf testsSection entries) {groupId : String}
    {ids : List String} (tests : listed testsSection groupId = some ids) :
    ∃ entry ∈ entries, entry.1 = groupId ∧
      outline entry.2 = namedOutline groupId ids := by
  obtain ⟨entry, member, rfl⟩ := of.complete groupId (.inl (by simp [tests]))
  obtain ⟨others, same, known⟩ | ⟨none, _⟩ := of.cases member
  · cases tests.symm.trans same
    exact ⟨entry, member, rfl, known⟩
  · rw [tests] at none
    cases none

theorem unlisted_iff (of : EntriesOf testsSection entries) {test : String} :
    Unlisted testsSection test ↔
      ∀ entry ∈ entries, test ∉ entry.2.tests.query := by
  constructor
  · intro unlisted entry member queried
    obtain ⟨ids, tests, known⟩ | ⟨_, _, known⟩ := of.cases member
    · rw [show entry.2.tests.query = ids from
        congrArg Outline.query known] at queried
      exact unlisted entry.1 ids tests queried
    · rw [show entry.2.tests.query = [] from
        congrArg Outline.query known] at queried
      cases queried
  · intro unqueried groupId ids tests member
    obtain ⟨entry, present, _, known⟩ := of.of_listed tests
    apply unqueried entry present
    rw [show entry.2.tests.query = ids from congrArg Outline.query known]
    exact member

/-- Groups have their own ids exactly if all of them list their tests. -/
theorem grouped_iff (of : EntriesOf testsSection entries) :
    (∀ groupId, Valued testsSection groupId →
        (listed testsSection groupId).isSome = true) ↔
      ∀ entry ∈ entries, entry.2.id = entry.1 := by
  constructor
  · intro grouped entry member
    obtain ⟨ids, _, known⟩ | ⟨none, valued, _⟩ := of.cases member
    · exact congrArg Outline.id known
    · have some := grouped entry.1 valued
      rw [none] at some
      cases some
  · intro own groupId valued
    obtain ⟨entry, member, rfl⟩ := of.complete groupId (.inr valued)
    obtain ⟨ids, tests, _⟩ | ⟨_, _, known⟩ := of.cases member
    · rw [tests]
      rfl
    · have empty : entry.2.id = "" := congrArg Outline.id known
      rw [own entry member] at empty
      exact absurd empty (of.named entry member)

def InOrder (tests : TestSequence) : Prop :=
  tests.order = .numeric ↔ ∀ id ∈ tests.query, IsNumber id

theorem inOrder_iff {testGroup : TestGroup Settings} {groupId : String}
    {ids : List String}
    (known : outline testGroup = namedOutline groupId ids) :
    InOrder testGroup.tests ↔ Numbered (· ∈ ids) := by
  have order : testGroup.tests.order = testOrder ids :=
    congrArg Outline.order known
  have query : testGroup.tests.query = ids := congrArg Outline.query known
  rw [InOrder, order, query]
  exact numeric_iff

theorem numbered_iff (of : EntriesOf testsSection entries)
    (own : ∀ entry ∈ entries, entry.2.id = entry.1) :
    (∀ groupId, ∀ ids ∈ listed testsSection groupId,
        Numbered (· ∈ ids)) ↔
      ∀ entry ∈ entries, InOrder entry.2.tests := by
  constructor
  · intro numbered entry member
    obtain ⟨ids, tests, known⟩ | ⟨_, _, known⟩ := of.cases member
    · exact (inOrder_iff known).mpr (numbered entry.1 ids tests)
    · have empty : entry.2.id = "" := congrArg Outline.id known
      rw [own entry member] at empty
      exact absurd empty (of.named entry member)
  · intro ordered groupId ids tests
    obtain ⟨entry, member, _, known⟩ := of.of_listed tests
    exact (inOrder_iff known).mp (ordered entry member)

end EntriesOf

/-- The last group is in order exactly if the tests that are left are
numbered. -/
theorem inOrder_last_iff {testsSection : List (String × String)}
    {tests : List String} {last : TestGroup Settings}
    (known : outline last = namedOutline "" last.tests.query)
    (unused : ∀ test, test ∈ last.tests.query ↔
      test ∈ tests ∧ Unlisted testsSection test) :
    EntriesOf.InOrder last.tests ↔
      Numbered fun test => test ∈ tests ∧ Unlisted testsSection test := by
  rw [EntriesOf.inOrder_iff known]
  simp only [unused]

/-- The groups of a profile and the default group after them. -/
theorem linked_split (settings : Settings)
    (entries : List (String × TestGroup Settings))
    (last : TestGroup Settings) :
    ∃ others final, linked settings none (entries ++ [("", last)]) =
        others ++ [final] ∧
      final.tests = last.tests ∧
      others.map TestGroup.id = entries.map (fun entry => entry.2.id) ∧
      others.map TestGroup.tests = entries.map fun entry => entry.2.tests := by
  have same := linked_map settings none (entries ++ [("", last)])
  rw [List.map_append, List.map_singleton] at same
  obtain ⟨others, final, split, front, back⟩ := List.map_eq_append_iff.mp same
  obtain ⟨final, rfl, finalTests⟩ := List.map_eq_singleton_iff.mp back
  refine ⟨others, final, split, congrArg Prod.snd finalTests, ?_, ?_⟩
  · have ids := congrArg (List.map Prod.fst) front
    rwa [List.map_map, List.map_map] at ids
  · have tests := congrArg (List.map Prod.snd) front
    rwa [List.map_map, List.map_map] at tests

/-- A profile is well-formed exactly if its section is regular. -/
theorem wellFormedProfile_iff {testsSection : List (String × String)}
    {storage : TestStorage} {profile : List (TestGroup Settings)}
    (made : testGroups settings testsSection storage = .ok profile) :
    WellFormedProfile storage.testSet profile ↔
      Regular testsSection storage.testSet := by
  obtain ⟨groups, read, ends⟩ := bind_ok made
  have of := (readTests_outlined read).entries
  obtain ⟨last, whole, known, unused⟩ := readProfiles_linked ends
  simp only [← of.unlisted_iff] at unused
  have clear : ∀ entry ∈ groups.toList ++ [("", last)],
      entry.2.dependency = [] := by
    intro entry member
    rcases List.mem_append.mp member with other | default
    · exact of.clear other
    · rw [List.mem_singleton.mp default]
      exact congrArg Outline.dependency known
  have chain : profile.IsChain DependsOn ↔
      ∀ entry ∈ groups.toList, entry.2.id = entry.1 := by
    rw [whole, linked_chain clear, List.dropLast_concat]
  have order : (∀ testGroup ∈ profile, EntriesOf.InOrder testGroup.tests) ↔
      (∀ entry ∈ groups.toList, EntriesOf.InOrder entry.2.tests) ∧
        EntriesOf.InOrder last.tests := by
    rw [whole, linked_tests, List.forall_mem_append,
      List.forall_mem_singleton]
  constructor
  · rintro ⟨others, final, rfl, wellFormed⟩
    have own := chain.mp wellFormed.chain
    obtain ⟨ordered, lastOrdered⟩ := order.mp wellFormed.order
    exact {
      grouped := of.grouped_iff.mpr own
      numbered := (of.numbered_iff own).mpr ordered
      rest := (inOrder_last_iff known unused).mp lastOrdered }
  · intro regular
    have own := of.grouped_iff.mp regular.grouped
    have ordered := (of.numbered_iff own).mp regular.numbered
    have lastOrdered := (inOrder_last_iff known unused).mpr regular.rest
    have chained := chain.mpr own
    obtain ⟨others, final, split, finalTests, ids, tests⟩ :=
      linked_split settings groups.toList last
    rw [← whole] at split
    rw [List.map_congr_left own] at ids
    have queries : ∀ test, Unlisted testsSection test ↔
        ∀ testGroup ∈ others, test ∉ testGroup.tests.query := by
      intro test
      rw [of.unlisted_iff]
      have same := congrArg (∀ tests ∈ ·, test ∉ tests.query) tests
      simp only [List.forall_mem_map] at same
      exact iff_of_eq same.symm
    refine ⟨others, final, split, ?_⟩
    constructor
    · intro test member
      by_contra uncovered
      simp only [not_exists, not_and, List.forall_mem_append,
        List.forall_mem_singleton] at uncovered
      apply uncovered.2
      rw [finalTests]
      exact (unused test).mpr ⟨member, (queries test).mpr uncovered.1⟩
    · intro test
      rw [finalTests, ← queries]
      exact unused test
    · intro testGroup member
      have present : testGroup.id ∈ others.map TestGroup.id :=
        List.mem_map_of_mem member
      rw [ids] at present
      obtain ⟨entry, inside, same⟩ := List.mem_map.mp present
      rw [← same]
      exact of.named entry inside
    · rw [ids]
      exact of.distinct
    · rw [← split]
      exact chained
    · intro before testGroup after parts
      rw [← split] at parts
      apply earlier_of_chain _ chained parts
      rw [whole]
      exact linked_head settings clear
    · rw [← split]
      exact order.mpr ⟨ordered, lastOrdered⟩

/-- Two groups, one of which has a score, and a test that is left. -/
theorem wellFormedProfile_scored :
    ∃ profile, testGroups () [("group_first", "1 2"),
        ("group_second", "2 sample"), ("score_first", "10")]
      ⟨["in", "out"], ["1", "2", "3", "sample"], by decide, by decide⟩ =
        .ok profile ∧
      (WellFormedProfile ["1", "2", "3", "sample"] profile ↔
        Regular [("group_first", "1 2"), ("group_second", "2 sample"),
          ("score_first", "10")] ["1", "2", "3", "sample"]) := by
  obtain ⟨profile, made⟩ :
      ∃ profile, testGroups () [("group_first", "1 2"),
          ("group_second", "2 sample"), ("score_first", "10")]
        ⟨["in", "out"], ["1", "2", "3", "sample"], by decide, by decide⟩ =
          .ok profile := ⟨_, rfl⟩
  exact ⟨profile, made, wellFormedProfile_iff made⟩

/-- A score without a group makes a group without an id, which the default
group does not depend on. -/
theorem not_wellFormedProfile_score :
    ∃ profile, testGroups () [("score_first", "10")]
      ⟨["in"], ["1"], by decide, by decide⟩ = .ok profile ∧
      ¬ WellFormedProfile ["1"] profile := by
  refine ⟨[{ process := some (), score := 10 },
    { process := some ()
      tests :=
        { query := ["1"], order := .numeric, continueCondition := .whileOk }
      dependency := ["first"] }], rfl, ?_⟩
  rintro ⟨others, last, same, wellFormed⟩
  have chain := wellFormed.chain
  rw [← same, List.isChain_pair, DependsOn] at chain
  revert chain
  decide

end Simple0

end Bacs.Problem
