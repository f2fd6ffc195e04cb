import Bacs.Foundation.Tokens
import Bacs.Pm.Entry

/-!
# Names of package references

A reference is built from its name and is written under it again.  Only a
reference without components has no name.
-/

namespace Bacs.Pm

open Foundation

inductive EntryError where
  | invalidEntryName (name : String)
  | emptyEntry
  deriving DecidableEq, Repr

namespace Entry

def splitName (name : String) (delim : Char) : List String :=
  (splitCompressed (· == delim) name.toList).map String.ofList

def build (name : String) (delim : Char) : Except EntryError Entry :=
  if (splitName name delim).all isAllowedSubpath then
    .ok ⟨splitName name delim⟩
  else .error (.invalidEntryName name)

def name (entry : Entry) (delim : Char) : Except EntryError String :=
  if entry.empty then .error .emptyEntry
  else .ok ((String.singleton delim).intercalate entry.location)

/-- `operator/` -/
instance : Div Entry :=
  ⟨fun entry other => ⟨entry.location ++ other.location⟩⟩

/-- What every reference of the program keeps. -/
def Valid (entry : Entry) : Prop :=
  ∀ component ∈ entry.location, isAllowedSubpath component = true

instance (entry : Entry) : Decidable entry.Valid :=
  inferInstanceAs (Decidable (∀ _ ∈ _, _))

theorem isAllowedSubpath_iff {subpath : String} :
    isAllowedSubpath subpath = true ↔
      subpath ≠ "" ∧
        ∀ symbol ∈ subpath.toList, isAllowedSymbol symbol = true := by
  simp [isAllowedSubpath, List.all_eq_true]

theorem Valid.plain {entry : Entry} (valid : entry.Valid) :
    ∀ component ∈ entry.location,
      component ≠ "" ∧ '/' ∉ component.toList := by
  intro component member
  have allowed := isAllowedSubpath_iff.mp (valid component member)
  constructor
  · exact allowed.1
  · intro separator
    have symbol := allowed.2 '/' separator
    exact absurd symbol (by decide)

theorem build_valid {name : String} {delim : Char} {entry : Entry}
    (built : build name delim = .ok entry) : entry.Valid := by
  unfold build at built
  split at built
  case isTrue allowed =>
    cases built
    intro component member
    exact List.all_eq_true.mp allowed component member
  case isFalse => cases built

/-- A reference is built again from the name it is written under. -/
theorem build_name {entry : Entry} (valid : entry.Valid) {name : String}
    (named : entry.name '/' = .ok name) : build name '/' = .ok entry := by
  unfold Entry.name at named
  split at named
  case isTrue => cases named
  case isFalse filled =>
    cases named
    have some : entry.location ≠ [] := by simpa [empty] using filled
    have tokens : splitCompressed (· == '/')
        (['/'].intercalate (entry.location.map String.toList)) =
          entry.location.map String.toList := by
      apply splitCompressed_intercalate
      · simpa using some
      · intro token member
        obtain ⟨component, among, rfl⟩ := List.mem_map.mp member
        have plain := valid.plain component among
        exact ⟨by simpa using plain.1, plain.2⟩
    have allowed : entry.location.all isAllowedSubpath = true :=
      List.all_eq_true.mpr valid
    have same : splitName
        ((String.singleton '/').intercalate entry.location) '/' =
          entry.location := by
      rw [splitName, String.toList_intercalate, String.toList_singleton,
        tokens]
      simp [Function.comp_def]
    simp only [build, same, allowed, if_true]

/-- Valid references are those that the constructors can make. -/
theorem valid_iff {entry : Entry} :
    entry.Valid ↔
      entry.location = [] ∨
        ∃ name delim, build name delim = .ok entry := by
  constructor
  · intro valid
    by_cases none : entry.location = []
    · exact .inl none
    · right
      have named : entry.name '/' =
          .ok ((String.singleton '/').intercalate entry.location) := by
        simp [name, empty, none]
      exact ⟨_, '/', build_name valid named⟩
  · rintro (none | ⟨name, delim, built⟩)
    · simp [Valid, none]
    · exact build_valid built

end Entry

end Bacs.Pm
