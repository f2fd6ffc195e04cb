import Bacs.Foundation.Ensures
import Mathlib.Data.Finmap

/-!
# The list storage of tests

A test has a file for each of its data ids.  The first test that is added says
which data ids there are, and the others have to have the same.  The maps are
hash maps, so that every call finds their elements in some order.
-/

namespace Bacs.Problem

/-- `test_data`.  Paths are told apart by `operator==`. -/
abbrev TestData (Path : Type) := Finmap fun _ : String => Path

abbrev Tests (Path : Type) := Finmap fun _ : String => TestData Path

inductive TestDataType where
  | text
  | binary
  deriving DecidableEq, Repr

inductive ListStorageError where
  | inconsistentTestDataSet
  | inconsistentTestData (message : String)
  | emptySet
  | unknownData (dataId : String)
  deriving DecidableEq, Repr

@[ext] structure ListStorage (Path : Type) where
  defaultDataType : TestDataType
  tests : Tests Path
  textDataSet : Finset String

/-- The order in which hash maps are iterated. -/
structure Hashing (Path : Type) where
  /-- `m_tests.begin()->second` -/
  begin : ∀ tests : Tests Path, tests ≠ ∅ → TestData Path
  listing : TestData Path → List String
  begin_mem : ∀ tests filled, ∃ testId,
    tests.lookup testId = some (begin tests filled)
  listing_nodup : ∀ data, (listing data).Nodup
  mem_listing : ∀ data dataId, dataId ∈ listing data ↔ dataId ∈ data.keys

/-- Hash maps can be iterated. -/
instance {Path : Type} : Nonempty (Hashing Path) := by
  have first (tests : Tests Path) (filled : tests ≠ ∅) :
      ∃ testId data, tests.lookup testId = some data := by
    by_contra none
    refine filled (Finmap.ext_lookup fun testId => ?_)
    cases found : tests.lookup testId with
    | none => rfl
    | some data => exact absurd ⟨testId, data, found⟩ none
  choose testId data found using first
  exact ⟨{
    begin := data
    listing := fun data => data.keys.toList
    begin_mem := fun tests filled => ⟨_, found tests filled⟩
    listing_nodup := fun data => data.keys.nodup_toList
    mem_listing := fun data _ => Finset.mem_toList }⟩

abbrev StorageM (Path : Type) :=
  EStateM ListStorageError (ListStorage Path)

namespace ListStorage

variable {Path : Type} [DecidableEq Path]

def initial (defaultDataType : TestDataType) : ListStorage Path :=
  ⟨defaultDataType, ∅, ∅⟩

def dataType (storage : ListStorage Path) (dataId : String) : TestDataType :=
  if dataId ∈ storage.textDataSet then .text else .binary

def setDataType (hashing : Hashing Path) (dataId : String)
    (type : TestDataType) : StorageM Path Unit := do
  let storage ← get
  if empty : storage.tests = ∅ then throw .emptySet
  else if dataId ∉ hashing.begin storage.tests empty then
    throw (.unknownData dataId)
  else
    match type with
    | .binary =>
        set { storage with textDataSet := storage.textDataSet.erase dataId }
    | .text =>
        set { storage with textDataSet := insert dataId storage.textDataSet }

def dataSet (hashing : Hashing Path) : StorageM Path (Finset String) := do
  let storage ← get
  if empty : storage.tests = ∅ then throw .emptySet
  else pure (hashing.begin storage.tests empty).keys

def testSet (storage : ListStorage Path) : Finset String :=
  storage.tests.keys

/-- `m_tests[test_id] = data` -/
def store (storage : ListStorage Path) (testId : String)
    (data : TestData Path) : ListStorage Path :=
  { storage with tests := storage.tests.insert testId data }

def differentFiles : String :=
  "Tests with the same id have different data files."

def addTest (hashing : Hashing Path) (testId : String)
    (data : TestData Path) : StorageM Path Unit := do
  let storage ← get
  if empty : storage.tests = ∅ then
    set (storage.store testId data)
    (hashing.listing data).forM fun dataId =>
      setDataType hashing dataId storage.defaultDataType
  else if data.keys ≠ (hashing.begin storage.tests empty).keys then
    throw .inconsistentTestDataSet
  else
    match storage.tests.lookup testId with
    | none => set (storage.store testId data)
    | some stored =>
        if stored ≠ data then throw (.inconsistentTestData differentFiles)

inductive StorageCall (Path : Type) where
  | addTest (hashing : Hashing Path) (testId : String) (data : TestData Path)
  | setDataType (hashing : Hashing Path) (dataId : String)
      (type : TestDataType)

def perform : StorageCall Path → StorageM Path Unit
  | .addTest hashing testId data => addTest hashing testId data
  | .setDataType hashing dataId type => setDataType hashing dataId type

end ListStorage

end Bacs.Problem
