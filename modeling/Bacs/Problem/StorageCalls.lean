import Bacs.Foundation.Commuting
import Bacs.Problem.ListStorage

/-!
# Calls of the list storage

Which of the stored tests is looked at does not matter, because all of them
have the same data ids.  Adding a test is then a partial step that does not
depend on hashing, and such steps commute.
-/

namespace Bacs.Problem.ListStorage

open Foundation

variable {Path : Type}

/-- All tests have the same data ids, and only data ids are marked as text. -/
structure Consistent (storage : ListStorage Path) : Prop where
  same : ∀ testId data otherId other,
    storage.tests.lookup testId = some data →
    storage.tests.lookup otherId = some other → data.keys = other.keys
  marked : ∀ dataId ∈ storage.textDataSet, ∃ testId data,
    storage.tests.lookup testId = some data ∧ dataId ∈ data.keys

theorem initial_consistent (defaultDataType : TestDataType) :
    (initial defaultDataType : ListStorage Path).Consistent := by
  constructor
  · intro testId data otherId other found
    simp [initial] at found
  · intro dataId member
    simp [initial] at member

section Consistency

variable {storage : ListStorage Path}

theorem Consistent.unmarked (consistent : storage.Consistent)
    (empty : storage.tests = ∅) : storage.textDataSet = ∅ := by
  apply Finset.eq_empty_of_forall_notMem
  intro dataId member
  obtain ⟨testId, data, found, _⟩ := consistent.marked dataId member
  simp [empty] at found

theorem Consistent.keys_begin (consistent : storage.Consistent)
    (hashing : Hashing Path) (filled : storage.tests ≠ ∅)
    {testId : String} {data : TestData Path}
    (found : storage.tests.lookup testId = some data) :
    (hashing.begin storage.tests filled).keys = data.keys := by
  obtain ⟨beginId, atBegin⟩ := hashing.begin_mem storage.tests filled
  exact consistent.same _ _ _ _ atBegin found

end Consistency

/-! ## One addition, whatever the hashing -/

variable [DecidableEq Path]

/-- What the default type marks when the first test is added. -/
def marks (type : TestDataType) (dataIds : Finset String) : Finset String :=
  match type with
  | .text => dataIds
  | .binary => ∅

/-- The test has the data ids of the others and no other files than before. -/
def Fits (storage : ListStorage Path) (test : String × TestData Path) :
    Prop :=
  (∀ otherId other, storage.tests.lookup otherId = some other →
    other.keys = test.2.keys) ∧
  ∀ stored, storage.tests.lookup test.1 = some stored → stored = test.2

def added (storage : ListStorage Path) (test : String × TestData Path) :
    ListStorage Path :=
  { storage.store test.1 test.2 with
    textDataSet :=
      if storage.tests = ∅ then marks storage.defaultDataType test.2.keys
      else storage.textDataSet }

open Classical in
noncomputable def add (storage : ListStorage Path)
    (test : String × TestData Path) : Option (ListStorage Path) :=
  if storage.Fits test then some (storage.added test) else none

section Lookups

variable (storage : ListStorage Path) (test : String × TestData Path)

theorem lookup_added (otherId : String) :
    (storage.added test).tests.lookup otherId =
      if otherId = test.1 then some test.2
      else storage.tests.lookup otherId := by
  by_cases same : otherId = test.1
  · rw [if_pos same, same]
    exact Finmap.lookup_insert _
  · rw [if_neg same]
    exact Finmap.lookup_insert_of_ne _ same

theorem added_ne_empty : (storage.added test).tests ≠ ∅ := by
  intro empty
  have found := lookup_added storage test test.1
  simp [empty] at found

end Lookups

section Fitting

variable {storage : ListStorage Path}

theorem Consistent.added (consistent : storage.Consistent)
    {test : String × TestData Path} (fits : storage.Fits test) :
    (storage.added test).Consistent := by
  have keysOf : ∀ otherId other,
      (storage.added test).tests.lookup otherId = some other →
        other.keys = test.2.keys := by
    intro otherId other found
    rw [lookup_added] at found
    split at found
    · exact congrArg Finmap.keys (Option.some.inj found).symm
    · exact fits.1 otherId other found
  constructor
  · intro testId data otherId other found otherFound
    exact (keysOf testId data found).trans (keysOf otherId other otherFound).symm
  · intro dataId member
    refine ⟨test.1, test.2, by simp [lookup_added], ?_⟩
    simp only [ListStorage.added, store] at member
    split at member
    · cases type : storage.defaultDataType with
      | text => simpa [type, marks] using member
      | binary => simp [type, marks] at member
    · obtain ⟨otherId, other, found, inOther⟩ :=
        consistent.marked dataId member
      rwa [← fits.1 otherId other found]

/-- A second test fits after the first if it fits before it and the two
agree. -/
theorem fits_added {first second : String × TestData Path}
    (fits : storage.Fits first) :
    (storage.added first).Fits second ↔
      storage.Fits second ∧ first.2.keys = second.2.keys ∧
        (first.1 = second.1 → first.2 = second.2) := by
  constructor
  · rintro ⟨keysOf, stored⟩
    have sameKeys : first.2.keys = second.2.keys :=
      keysOf first.1 first.2 (by simp [lookup_added])
    have sameData : first.1 = second.1 → first.2 = second.2 := by
      intro sameId
      exact stored first.2 (by simp [lookup_added, sameId])
    refine ⟨⟨?_, ?_⟩, sameKeys, sameData⟩
    · intro otherId other found
      exact (fits.1 otherId other found).trans sameKeys
    · intro other found
      by_cases sameId : second.1 = first.1
      · exact (fits.2 other (sameId ▸ found)).trans (sameData sameId.symm)
      · exact stored other (by rwa [lookup_added, if_neg sameId])
  · rintro ⟨⟨keysOf, stored⟩, sameKeys, sameData⟩
    constructor
    · intro otherId other found
      rw [lookup_added] at found
      split at found
      · cases found
        exact sameKeys
      · exact keysOf otherId other found
    · intro other found
      rw [lookup_added] at found
      split at found
      case isTrue sameId =>
        cases found
        exact sameData sameId.symm
      · exact stored other found

theorem textDataSet_added_added (first second : String × TestData Path) :
    ((storage.added first).added second).textDataSet =
      (storage.added first).textDataSet :=
  if_neg (added_ne_empty storage first)

theorem added_added {first second : String × TestData Path}
    (sameKeys : first.2.keys = second.2.keys)
    (sameData : first.1 = second.1 → first.2 = second.2) :
    (storage.added first).added second =
      (storage.added second).added first := by
  have tests : (storage.tests.insert first.1 first.2).insert second.1 second.2 =
      (storage.tests.insert second.1 second.2).insert first.1 first.2 := by
    by_cases sameId : first.1 = second.1
    · rw [sameId, sameData sameId]
    · exact Finmap.insert_insert_of_ne _ sameId
  ext1
  · rfl
  · exact tests
  · rw [textDataSet_added_added, textDataSet_added_added]
    simp only [added, sameKeys]

theorem add_commute (storage : ListStorage Path)
    (first second : String × TestData Path) :
    (storage.add first).bind (·.add second) =
      (storage.add second).bind (·.add first) := by
  by_cases fitsFirst : storage.Fits first
  · by_cases fitsSecond : storage.Fits second
    · by_cases agree : first.2.keys = second.2.keys ∧
          (first.1 = second.1 → first.2 = second.2)
      · have firstFits := (fits_added fitsSecond).2
          ⟨fitsFirst, agree.1.symm, fun same => (agree.2 same.symm).symm⟩
        have secondFits := (fits_added fitsFirst).2 ⟨fitsSecond, agree⟩
        simp [add, fitsFirst, fitsSecond, firstFits, secondFits,
          added_added agree.1 agree.2]
      · have firstFails : ¬ (storage.added second).Fits first := by
          intro fits
          obtain ⟨_, sameKeys, sameData⟩ := (fits_added fitsSecond).1 fits
          exact agree ⟨sameKeys.symm, fun same => (sameData same.symm).symm⟩
        have secondFails : ¬ (storage.added first).Fits second :=
          fun fits => agree ((fits_added fitsFirst).1 fits).2
        simp [add, fitsFirst, fitsSecond, firstFails, secondFails]
    · have fails : ¬ (storage.added first).Fits second :=
        fun fits => fitsSecond ((fits_added fitsFirst).1 fits).1
      simp [add, fitsFirst, fitsSecond, fails]
  · by_cases fitsSecond : storage.Fits second
    · have fails : ¬ (storage.added second).Fits first :=
        fun fits => fitsFirst ((fits_added fitsSecond).1 fits).1
      simp [add, fitsFirst, fitsSecond, fails]
    · simp [add, fitsFirst, fitsSecond]

/-- A stored test fits, and storing it again is nothing new. -/
theorem Consistent.add_stored (consistent : storage.Consistent)
    {testId : String} {data : TestData Path}
    (found : storage.tests.lookup testId = some data) :
    storage.add (testId, data) = some storage := by
  have fits : storage.Fits (testId, data) := by
    constructor
    · intro otherId other otherFound
      exact consistent.same _ _ _ _ otherFound found
    · intro stored storedFound
      exact Option.some.inj (storedFound.symm.trans found)
  have filled : storage.tests ≠ ∅ := by
    intro empty
    simp [empty] at found
  have stored : storage.tests.insert testId data = storage.tests := by
    apply Finmap.ext_lookup
    intro otherId
    by_cases same : otherId = testId
    · rw [same, found]
      exact Finmap.lookup_insert _
    · exact Finmap.lookup_insert_of_ne _ same
  simp [add, fits, ListStorage.added, store, filled, stored]

end Fitting

/-! ## The calls -/

def typed (type : TestDataType) (dataIds text : Finset String) :
    Finset String :=
  match type with
  | .text => dataIds ∪ text
  | .binary => text \ dataIds

theorem typed_typed (type : TestDataType) (first second text : Finset String) :
    typed type second (typed type first text) =
      typed type (first ∪ second) text := by
  cases type with
  | text =>
      simp only [typed]
      rw [← Finset.union_assoc, Finset.union_comm second]
  | binary => exact sdiff_sdiff_left

section Calls

variable {storage : ListStorage Path} (hashing : Hashing Path)

theorem setDataType_run (filled : storage.tests ≠ ∅) {dataId : String}
    (known : dataId ∈ hashing.begin storage.tests filled)
    (type : TestDataType) :
    setDataType hashing dataId type storage =
      .ok () { storage with
        textDataSet := typed type {dataId} storage.textDataSet } := by
  simp only [setDataType, bind, EStateM.bind, get_run, filled, known]
  cases type with
  | text => rfl
  | binary =>
      rw [typed, Finset.sdiff_singleton_eq_erase]
      rfl

/-- A type is set where the data id is known, and nowhere else. -/
theorem setDataType_ensures (consistent : storage.Consistent)
    (dataId : String) (type : TestDataType) :
    Ensures (setDataType hashing dataId type) storage
      (fun _ final => final.Consistent)
      (fun _ final => final = storage) := by
  by_cases filled : storage.tests = ∅
  · simp [setDataType, filled]
  by_cases known : dataId ∈ hashing.begin storage.tests filled
  · rw [Ensures, setDataType_run hashing filled known]
    constructor
    · exact consistent.same
    · intro other member
      cases type with
      | binary => exact consistent.marked other (Finset.mem_sdiff.1 member).1
      | text =>
          obtain isNew | before := Finset.mem_union.1 member
          · obtain rfl := Finset.mem_singleton.1 isNew
            obtain ⟨testId, atBegin⟩ := hashing.begin_mem _ filled
            exact ⟨testId, _, atBegin, Finmap.mem_keys.2 known⟩
          · exact consistent.marked other before
  · simp [setDataType, filled, known]

theorem setDataTypes_run (storage : ListStorage Path)
    (filled : storage.tests ≠ ∅) (dataIds : List String)
    (known : ∀ dataId ∈ dataIds,
      dataId ∈ hashing.begin storage.tests filled) (type : TestDataType) :
    (dataIds.forM fun dataId => setDataType hashing dataId type) storage =
      .ok () { storage with
        textDataSet := typed type dataIds.toFinset storage.textDataSet } := by
  induction dataIds generalizing storage with
  | nil => cases type <;> simp [typed] <;> rfl
  | cons dataId rest ih =>
      change (setDataType hashing dataId type >>= fun _ =>
        rest.forM fun dataId => setDataType hashing dataId type) storage = _
      have first := setDataType_run hashing filled
        (known dataId List.mem_cons_self) type
      simp only [bind, EStateM.bind, first]
      refine (ih { storage with
          textDataSet := typed type {dataId} storage.textDataSet } filled
        fun other member =>
          known other (List.mem_cons_of_mem _ member)).trans ?_
      rw [typed_typed, List.toFinset_cons, Finset.insert_eq]

/-- Adding a test in the code is adding it whatever the hashing. -/
theorem addTest_ensures (consistent : storage.Consistent)
    (testId : String) (data : TestData Path) :
    Ensures (addTest hashing testId data) storage
      (fun _ final => storage.add (testId, data) = some final)
      (fun _ final =>
        storage.add (testId, data) = none ∧ final = storage) := by
  simp only [addTest, ensures_bind, ensures_get]
  split
  case isTrue empty =>
    have fits : storage.Fits (testId, data) := by
      constructor <;> simp [empty]
    have filled : (storage.store testId data).tests ≠ ∅ :=
      added_ne_empty storage (testId, data)
    have atBegin : hashing.begin (storage.store testId data).tests filled =
        data := by
      obtain ⟨beginId, found⟩ := hashing.begin_mem _ filled
      have here := (lookup_added storage (testId, data) beginId).symm.trans found
      split at here
      · exact (Option.some.inj here).symm
      · simp [empty] at here
    rw [ensures_bind, ensures_set, Ensures, setDataTypes_run hashing _ filled]
    · rw [add, if_pos fits, added, if_pos empty]
      have listed : (hashing.listing data).toFinset = data.keys := by
        ext dataId
        simp [hashing.mem_listing]
      have marked : typed storage.defaultDataType data.keys
          storage.textDataSet = marks storage.defaultDataType data.keys := by
        rw [consistent.unmarked empty]
        cases storage.defaultDataType <;> simp [typed, marks]
      simp [listed, store, marked]
    · intro dataId member
      rw [atBegin, ← Finmap.mem_keys]
      exact (hashing.mem_listing data dataId).1 member
  case isFalse filled =>
  split
  case isTrue different =>
    rw [ensures_throw, add, if_neg]
    · exact ⟨rfl, rfl⟩
    · rintro ⟨keysOf, _⟩
      obtain ⟨beginId, atBegin⟩ := hashing.begin_mem _ filled
      exact different (keysOf beginId _ atBegin).symm
  case isFalse sameKeys =>
    have keysOf : ∀ otherId other,
        storage.tests.lookup otherId = some other →
          other.keys = data.keys := by
      intro otherId other found
      rw [← consistent.keys_begin hashing filled found]
      exact (not_not.1 sameKeys).symm
    cases found : storage.tests.lookup testId with
    | none =>
        have fits : storage.Fits (testId, data) := ⟨keysOf, by simp [found]⟩
        simp [add, fits, added, filled, store]
    | some stored =>
        by_cases equal : stored = data
        · subst equal
          simpa using consistent.add_stored found
        · have fails : ¬ storage.Fits (testId, data) :=
            fun fits => equal (fits.2 stored found)
          simp [add, fails, equal]

theorem perform_ensures (consistent : storage.Consistent)
    (call : StorageCall Path) :
    Ensures (perform call) storage (fun _ final => final.Consistent)
      (fun _ final => final = storage) := by
  cases call with
  | addTest hashing testId data =>
      refine (addTest_ensures hashing consistent testId data).mono ?_
        fun _ _ failed => failed.2
      intro _ final taken
      rw [add] at taken
      split at taken
      case isTrue fits => exact Option.some.inj taken ▸ consistent.added fits
      case isFalse => simp at taken
  | setDataType hashing dataId type =>
      exact setDataType_ensures hashing consistent dataId type

end Calls

/-! ## Sequences of calls -/

/-- The storage after a call, the exception of which is caught. -/
def attempt (storage : ListStorage Path) (call : StorageCall Path) :
    ListStorage Path :=
  match perform call storage with
  | .ok _ final => final
  | .error _ final => final

def afterCalls (defaultDataType : TestDataType)
    (calls : List (StorageCall Path)) : ListStorage Path :=
  calls.foldl attempt (initial defaultDataType)

/-- Additions one after the other, up to the first exception. -/
def addTests (additions : List (Hashing Path × String × TestData Path)) :
    StorageM Path Unit :=
  additions.forM fun (hashing, testId, data) => addTest hashing testId data

theorem attempt_consistent {storage : ListStorage Path}
    (consistent : storage.Consistent) (call : StorageCall Path) :
    (attempt storage call).Consistent := by
  have ended := perform_ensures consistent call
  unfold Ensures at ended
  unfold attempt
  cases outcome : perform call storage with
  | ok value final =>
      rw [outcome] at ended
      exact ended
  | error exception final =>
      rw [outcome] at ended
      exact ended ▸ consistent

theorem afterCalls_consistent (defaultDataType : TestDataType)
    (calls : List (StorageCall Path)) :
    (afterCalls defaultDataType calls).Consistent := by
  refine List.foldlRecOn calls attempt (initial_consistent defaultDataType) ?_
  intro storage consistent call _
  exact attempt_consistent consistent call

theorem addTests_ok {storage : ListStorage Path}
    (consistent : storage.Consistent)
    (additions : List (Hashing Path × String × TestData Path))
    (final : ListStorage Path) :
    addTests additions storage = .ok () final ↔
      (additions.map (·.2)).foldlM add storage = some final := by
  induction additions generalizing storage with
  | nil =>
      constructor
      · rintro ⟨⟩
        rfl
      · rintro ⟨⟩
        rfl
  | cons addition rest ih =>
      obtain ⟨hashing, testId, data⟩ := addition
      change (addTest hashing testId data >>= fun _ => addTests rest) storage =
        _ ↔ (storage.add (testId, data)).bind
          (List.foldlM add · (rest.map (·.2))) = _
      have ended := addTest_ensures hashing consistent testId data
      unfold Ensures at ended
      cases outcome : addTest hashing testId data storage with
      | ok value middle =>
          rw [outcome] at ended
          have kept := (perform_ensures consistent
            (.addTest hashing testId data)).of_ok outcome
          simpa [bind, EStateM.bind, outcome, ended] using ih kept
      | error exception middle =>
          rw [outcome] at ended
          simp [bind, EStateM.bind, outcome, ended.1]

/-- After any calls all stored tests have one set of data ids.  Calls that
throw change nothing, and neither does adding a stored test again.  Tests can
be added in any order. -/
theorem tests_have_one_data_set (defaultDataType : TestDataType)
    (calls : List (StorageCall Path)) :
    (afterCalls defaultDataType calls).Consistent ∧
    (∀ call exception final,
      perform call (afterCalls defaultDataType calls) =
        .error exception final →
      final = afterCalls defaultDataType calls) ∧
    (∀ hashing testId data,
      (afterCalls defaultDataType calls).tests.lookup testId = some data →
      addTest hashing testId data (afterCalls defaultDataType calls) =
        .ok () (afterCalls defaultDataType calls)) ∧
    ∀ first second : List (Hashing Path × String × TestData Path),
      (first.map (·.2)).Perm (second.map (·.2)) → ∀ final,
      (addTests first (afterCalls defaultDataType calls) = .ok () final ↔
        addTests second (afterCalls defaultDataType calls) =
          .ok () final) := by
  have consistent := afterCalls_consistent defaultDataType calls
  refine ⟨consistent, ?_, ?_, ?_⟩
  · intro call exception final thrown
    exact (perform_ensures consistent call).of_error thrown
  · intro hashing testId data found
    have ended := addTest_ensures hashing consistent testId data
    rw [consistent.add_stored found] at ended
    unfold Ensures at ended
    cases outcome : addTest hashing testId data
        (afterCalls defaultDataType calls) with
    | ok value final =>
        rw [outcome] at ended
        rw [Option.some.inj ended]
    | error exception final =>
        rw [outcome] at ended
        simp at ended
  · intro first second same final
    rw [addTests_ok consistent, addTests_ok consistent,
      foldlM_perm add_commute same]

end Bacs.Problem.ListStorage
