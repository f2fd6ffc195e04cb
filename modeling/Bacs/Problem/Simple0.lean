import Bacs.Foundation.Numeral
import Bacs.Foundation.Tokens
import Mathlib.Data.List.Chain

/-!
# Test groups of a simple0 problem

The `[tests]` section of the configuration has a key for each group, its score
and its condition to continue.  The groups are collected in a map, and the
profile has them in its order, with a last group for the tests that are left.
-/

namespace Bacs.Problem

open Foundation

/-- `TestSequence::Order`. -/
inductive Order where
  | identity
  | numeric
  | lexicographical
  deriving DecidableEq, Repr

/-- `TestSequence::ContinueCondition`. -/
inductive ContinueCondition where
  | always
  | whileOk
  deriving DecidableEq, Repr

/-- `TestSequence`, with queries for test ids only. -/
structure TestSequence where
  query : List String := []
  order : Order := .identity
  continueCondition : ContinueCondition := .always
  deriving DecidableEq, Repr

/-- `TestGroup`.  A dependency is the id of a test group. -/
structure TestGroup (Settings : Type) where
  id : String := ""
  process : Option Settings := none
  tests : TestSequence := {}
  dependency : List String := []
  score : Int := 0
  deriving DecidableEq, Repr

/-- `test::storage`.  The sets are listed in the order in which they are
iterated. -/
structure TestStorage where
  dataSet : List String
  testSet : List String
  distinctData : dataSet.Nodup
  distinctTests : testSet.Nodup

inductive Simple0Error where
  | testNoInData
  | testUnknownData
  | emptyGroupId
  | invalidContinueCondition (continueCondition : String)
  /-- `ptree_bad_data`. -/
  | badData (value : String)
  deriving DecidableEq, Repr

namespace Simple0

variable {Settings : Type}

/-- `m_test_groups`. -/
abbrev TestGroups (Settings : Type) := Std.TreeMap String (TestGroup Settings)

/-- `m_test_groups[group_id]`, changed in its place. -/
def changeGroup (groups : TestGroups Settings) (groupId : String)
    (change : TestGroup Settings → TestGroup Settings) :
    TestGroups Settings :=
  groups.alter groupId fun testGroup => some (change (testGroup.getD {}))

def onlyDigits (id : String) : Bool :=
  id.toList.all Char.isDigit

def testOrder (tests : List String) : Order :=
  if tests.all onlyDigits then .numeric else .lexicographical

def testContinueCondition (continueCondition : String) :
    Except Simple0Error ContinueCondition :=
  if continueCondition = "ALWAYS" then .ok .always
  else if continueCondition = "WHILE_OK" then .ok .whileOk
  else .error (.invalidContinueCondition continueCondition)

/-- `get_value<std::int64_t>`: spaces may surround the number. -/
def toInt64 (value : String) : Option Int :=
  match extractNumeral .dec value.toList with
  | none => none
  | some numeral =>
      let number : Int :=
        if numeral.negative then -numeral.magnitude else numeral.magnitude
      if numeral.rest.all isSpace && -2 ^ 63 ≤ number && number < 2 ^ 63 then
        some number
      else none

def continueConditionPrefix : String := "continue_condition_"

def groupPrefix : String := "group_"

def scorePrefix : String := "score_"

/-- What follows a prefix, if the key starts with it. -/
def suffixAfter (start key : String) : Option String :=
  if start.toList.isPrefixOf key.toList then
    some (String.ofList (key.toList.drop start.toList.length))
  else none

/-- The test ids of a `group_` key. -/
def testIds (tests : String) : List String :=
  let ids := splitCompressed isSpace tests.toList
  if ids = [[]] then [] else ids.map String.ofList

def initializeGroup (groups : TestGroups Settings)
    (entry : String × String) :
    Except Simple0Error (TestGroups Settings) :=
  match suffixAfter groupPrefix entry.1 with
  | none => .ok groups
  | some groupId =>
      if groupId = "" then .error .emptyGroupId
      else
        .ok (changeGroup groups groupId fun testGroup =>
          { testGroup with
            id := groupId
            tests :=
              { order := testOrder (testIds entry.2)
                query := testIds entry.2
                continueCondition := .whileOk } })

def setValue (groups : TestGroups Settings) (entry : String × String) :
    Except Simple0Error (TestGroups Settings) :=
  match suffixAfter scorePrefix entry.1 with
  | some groupId =>
      if groupId = "" then .error .emptyGroupId
      else
        match toInt64 entry.2 with
        | none => .error (.badData entry.2)
        | some score =>
            .ok (changeGroup groups groupId fun testGroup =>
              { testGroup with score })
  | none =>
      match suffixAfter continueConditionPrefix entry.1 with
      | some groupId =>
          if groupId = "" then .error .emptyGroupId
          else
            match testContinueCondition entry.2 with
            | .error error => .error error
            | .ok continueCondition =>
                .ok (changeGroup groups groupId fun testGroup =>
                  { testGroup with
                    tests := { testGroup.tests with continueCondition } })
      | none => .ok groups

/-- The file `out` is optional. -/
def expectedSize (dataSet : List String) : Nat :=
  if "out" ∉ dataSet then 1 else 2

/-- `driver::read_tests`. -/
def readTests (testsSection : List (String × String))
    (storage : TestStorage) : Except Simple0Error (TestGroups Settings) :=
  if "in" ∉ storage.dataSet then .error .testNoInData
  else if storage.dataSet.length ≠ expectedSize storage.dataSet then
    .error .testUnknownData
  else do
    let groups ← testsSection.foldlM initializeGroup ∅
    testsSection.foldlM setValue groups

def addTestGroupDependency (testGroup : TestGroup Settings)
    (dependencyTestGroup : Option String) : TestGroup Settings :=
  match dependencyTestGroup with
  | none => testGroup
  | some id => { testGroup with dependency := testGroup.dependency ++ [id] }

/-- What `read_profiles` has collected. -/
structure Collected (Settings : Type) where
  testGroup : List (TestGroup Settings)
  unusedTests : List String
  previousTestGroup : Option String

/-- One turn of the loop of `read_profiles`. -/
def addTestGroup (settings : Settings) (collected : Collected Settings)
    (entry : String × TestGroup Settings) : Collected Settings where
  testGroup := collected.testGroup ++
    [addTestGroupDependency { entry.2 with process := some settings }
      collected.previousTestGroup]
  unusedTests :=
    collected.unusedTests.filter fun test => test ∉ entry.2.tests.query
  previousTestGroup := some entry.1

/-- `driver::read_profiles`, the test groups of the only profile. -/
def readProfiles (settings : Settings)
    (testsSection : List (String × String)) (testSet : List String)
    (groups : TestGroups Settings) :
    Except Simple0Error (List (TestGroup Settings)) := do
  let collected :=
    groups.toList.foldl (addTestGroup settings) ⟨[], testSet, none⟩
  let continueCondition ← testContinueCondition
    ((testsSection.lookup "continue_condition").getD "WHILE_OK")
  let defaultTestGroup : TestGroup Settings :=
    { process := some settings
      tests :=
        { order := testOrder collected.unusedTests
          query := collected.unusedTests
          continueCondition }
      score := ((testsSection.lookup "score").bind toInt64).getD 0 }
  return collected.testGroup ++
    [addTestGroupDependency defaultTestGroup collected.previousTestGroup]

/-- What the driver makes of the section and the tests. -/
def testGroups (settings : Settings)
    (testsSection : List (String × String)) (storage : TestStorage) :
    Except Simple0Error (List (TestGroup Settings)) := do
  let groups ← readTests testsSection storage
  readProfiles settings testsSection storage.testSet groups

end Simple0

end Bacs.Problem
