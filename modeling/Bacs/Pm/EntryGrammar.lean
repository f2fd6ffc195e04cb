import Bacs.Pm.EntryNames

/-!
# The grammar of package references

The texts that a reference is built from are, but for repeated separators, the
names that references are written under.
-/

namespace Bacs.Pm.Entry

open Foundation

/-- Components that are not empty, joined by single separators. -/
def IsName (text : List Char) : Prop :=
  ∃ components : List (List Char), components ≠ [] ∧
    (∀ component ∈ components, component ≠ [] ∧
      ∀ symbol ∈ component, isAllowedSymbol symbol = true) ∧
    text = ['/'].intercalate components

/-- The text with every run of separators collapsed to one. -/
def collapsed (name : String) : String :=
  String.ofList (collapse (· == '/') name.toList)

theorem splitName_eq (name : String) :
    splitName name '/' =
      ((collapsed name).toList.splitOn '/').map String.ofList := by
  rw [splitName, collapsed, String.toList_ofList, splitCompressed_eq_splitOnP,
    List.splitOn_eq_splitOnP]

theorem isAllowedSubpath_ofList {component : List Char} :
    isAllowedSubpath (String.ofList component) = true ↔
      component ≠ [] ∧ ∀ symbol ∈ component, isAllowedSymbol symbol = true := by
  rw [isAllowedSubpath_iff, String.toList_ofList]
  simp

theorem build_eq_ok_iff {name : String} {entry : Entry} :
    build name '/' = .ok entry ↔
      entry.location = splitName name '/' ∧ entry.Valid := by
  obtain ⟨location⟩ := entry
  unfold build
  constructor
  · intro built
    split at built
    case isTrue allowed =>
      cases built
      exact ⟨rfl, List.all_eq_true.mp allowed⟩
    case isFalse => cases built
  · rintro ⟨rfl, valid⟩
    rw [if_pos (List.all_eq_true.mpr valid)]

theorem separator_notMem {component : List Char}
    (allowed : ∀ symbol ∈ component, isAllowedSymbol symbol = true) :
    '/' ∉ component := by
  intro member
  exact absurd (allowed '/' member) (by decide)

theorem build_succeeds_iff (name : String) :
    (∃ entry, build name '/' = .ok entry) ↔
      IsName (collapsed name).toList := by
  constructor
  · rintro ⟨entry, built⟩
    obtain ⟨location, valid⟩ := build_eq_ok_iff.mp built
    rw [splitName_eq] at location
    refine ⟨_, List.splitOn_ne_nil '/' _, ?_,
      (List.intercalate_splitOn '/').symm⟩
    intro component member
    apply isAllowedSubpath_ofList.mp
    apply valid
    rw [location]
    exact List.mem_map_of_mem member
  · rintro ⟨components, filled, allowed, text⟩
    refine ⟨⟨components.map String.ofList⟩, build_eq_ok_iff.mpr ⟨?_, ?_⟩⟩
    · rw [splitName_eq, text, List.splitOn_intercalate '/' _ filled]
      exact fun component member => separator_notMem (allowed component member).2
    · intro subpath member
      obtain ⟨component, among, rfl⟩ := List.mem_map.mp member
      exact isAllowedSubpath_ofList.mpr (allowed component among)

theorem Valid.div {left right : Entry} (validLeft : left.Valid)
    (validRight : right.Valid) : (left / right).Valid := by
  intro component member
  rcases List.mem_append.mp member with first | second
  · exact validLeft component first
  · exact validRight component second

section Built

variable {name : String} {entry : Entry} (built : build name '/' = .ok entry)

include built

theorem location_ne_nil_of_build : entry.location ≠ [] := by
  rw [(build_eq_ok_iff.mp built).1, splitName_eq]
  simp

theorem name_of_build :
    entry.name '/' = .ok ("/".intercalate entry.location) := by
  have filled := location_ne_nil_of_build built
  simp [Entry.name, empty, filled]

theorem intercalate_of_build :
    "/".intercalate entry.location = collapsed name := by
  apply String.toList_injective
  rw [String.toList_intercalate, (build_eq_ok_iff.mp built).1, splitName_eq,
    List.map_map]
  have texts : String.toList ∘ String.ofList = id := by
    funext text
    exact String.toList_ofList
  rw [texts, List.map_id]
  exact List.intercalate_splitOn '/'

end Built

/-- References are built from the texts of the grammar and written as they
are; they are found again under their names, and so are joined ones. -/
theorem grammar_round_trip :
    (∀ name, (∃ entry, build name '/' = .ok entry) ↔
      IsName (collapsed name).toList) ∧
    (∀ name entry, build name '/' = .ok entry →
      entry.name '/' = .ok (collapsed name)) ∧
    (∀ name entry, build name '/' = .ok entry → ∀ written,
      entry.name '/' = .ok written → build written '/' = .ok entry) ∧
    ∀ first second left right,
      build first '/' = .ok left → build second '/' = .ok right →
      ∃ leftName rightName, left.name '/' = .ok leftName ∧
        right.name '/' = .ok rightName ∧
        (left / right).name '/' = .ok (leftName ++ "/" ++ rightName) ∧
        build (leftName ++ "/" ++ rightName) '/' = .ok (left / right) := by
  refine ⟨build_succeeds_iff, ?_, ?_, ?_⟩
  · intro name entry built
    rw [name_of_build built, intercalate_of_build built]
  · intro name entry built written named
    exact build_name (build_valid built) named
  · intro first second left right builtLeft builtRight
    have filledLeft := location_ne_nil_of_build builtLeft
    have filledRight := location_ne_nil_of_build builtRight
    have joined : (left / right).name '/' = .ok
        ("/".intercalate left.location ++ "/" ++
          "/".intercalate right.location) := by
      have location : (left / right).location =
          left.location ++ right.location := rfl
      rw [← String.intercalate_append_of_ne_nil filledLeft filledRight,
        Entry.name, empty, location]
      simp [filledLeft]
    refine ⟨_, _, name_of_build builtLeft, name_of_build builtRight, joined, ?_⟩
    apply build_name _ joined
    exact (build_valid builtLeft).div (build_valid builtRight)

theorem grammar_round_trip_joined :
    ((⟨["123", "456"]⟩ : Entry) / ⟨["789"]⟩).name '/' = .ok "123/456/789" ∧
      build "123/456/789" '/' =
        .ok ((⟨["123", "456"]⟩ : Entry) / ⟨["789"]⟩) := by
  obtain ⟨leftName, rightName, namedLeft, namedRight, joined, built⟩ :=
    grammar_round_trip.2.2.2 "123//456" "789" ⟨["123", "456"]⟩ ⟨["789"]⟩
      (by decide) (by decide)
  obtain rfl : "123/456" = leftName := Except.ok.inj namedLeft
  obtain rfl : "789" = rightName := Except.ok.inj namedRight
  exact ⟨joined, built⟩

end Bacs.Pm.Entry
