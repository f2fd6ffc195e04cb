import Bacs.Foundation.LexicalPath
import Bacs.Go.Path
import Bacs.Pm.EntryNames

/-!
# Absolute package references

Both implementations resolve a reference by a walk over its components: one
over the components that it keeps, the other over those it splits off a name.
-/

namespace Bacs.Pm.Entry

open Bacs.LexicalPath

def absolute (entry root : Entry) : Entry :=
  entry.makeAbsolute root

/-- References that depend on the root they are resolved against. -/
def Relative (entry : Entry) : Prop :=
  entry.location.head? = some "." ∨ entry.location.head? = some ".."

instance (entry : Entry) : Decidable entry.Relative :=
  inferInstanceAs (Decidable (_ ∨ _))

/-- The components that lead to the package from the top. -/
def components (entry root : Entry) : List String :=
  if entry.Relative then root.location ++ entry.location
  else entry.location

def steps (components : List String) : List (Step String) :=
  components.map Step.ofComponent

theorem absolute_location (entry root : Entry) :
    (entry.absolute root).location =
      normalize (entry.components root) := by
  unfold absolute makeAbsolute
  split
  case isTrue none =>
    have missing : entry.location = [] := by simpa [empty] using none
    simp [components, Relative, missing, normalize]
  case isFalse => split <;> simp_all [components, Relative]

theorem components_plain {entry root : Entry} (valid : entry.Valid)
    (rooted : root.Valid) :
    ∀ component ∈ entry.components root,
      component ≠ "" ∧ '/' ∉ component.toList := by
  intro component member
  unfold components at member
  split at member
  case isTrue =>
    rcases List.mem_append.mp member with above | own
    · exact rooted.plain component above
    · exact valid.plain component own
  case isFalse => exact valid.plain component member

/-! ## Normal components -/

/-- Names alone, without `.` and `..`. -/
def Normal (components : List String) : Prop :=
  ∀ component ∈ components, component ≠ "." ∧ component ≠ ".."

/-- One turn of the loop of `makeAbsolute`. -/
def resolve (normal : List String) (component : String) : List String :=
  if component = "." then normal
  else if component = ".." then normal.dropLast
  else normal ++ [component]

theorem normalize_eq_foldl (components : List String) :
    normalize components = components.foldl resolve [] :=
  rfl

theorem mem_resolve {normal : List String} {component kept : String}
    (member : kept ∈ resolve normal component) :
    kept ∈ normal ∨ kept = component ∧ kept ≠ "." ∧ kept ≠ ".." := by
  unfold resolve at member
  split_ifs at member with this parent
  · exact .inl member
  · exact .inl (List.mem_of_mem_dropLast member)
  · rcases List.mem_append.mp member with before | last
    · exact .inl before
    · have same := List.mem_singleton.mp last
      subst same
      exact .inr ⟨rfl, this, parent⟩

theorem mem_normalize {components : List String} {kept : String}
    (member : kept ∈ normalize components) :
    kept ∈ components ∧ kept ≠ "." ∧ kept ≠ ".." := by
  have among : ∀ normal : List String,
      kept ∈ components.foldl resolve normal →
        kept ∈ normal ∨ kept ∈ components ∧ kept ≠ "." ∧ kept ≠ ".." := by
    clear member
    induction components with
    | nil =>
        intro normal member
        exact .inl member
    | cons component rest ih =>
        intro normal member
        rcases ih _ member with before | ⟨later, name⟩
        · rcases mem_resolve before with earlier | ⟨rfl, name⟩
          · exact .inl earlier
          · exact .inr ⟨by simp, name⟩
        · exact .inr ⟨by simp [later], name⟩
  rw [normalize_eq_foldl] at member
  rcases among [] member with none | found
  · cases none
  · exact found

theorem normalize_normal (components : List String) :
    Normal (normalize components) :=
  fun _ member => (mem_normalize member).2

theorem normalize_of_normal {components : List String}
    (clean : Normal components) : normalize components = components := by
  have appended : ∀ normal : List String,
      components.foldl resolve normal = normal ++ components := by
    induction components with
    | nil => simp
    | cons component rest ih =>
        intro normal
        have first := clean component (by simp)
        have others := ih fun other member => clean other (by simp [member])
        simp [resolve, first.1, first.2, others]
  simpa [normalize_eq_foldl] using appended []

theorem Normal.not_relative {entry : Entry} (clean : Normal entry.location) :
    ¬ entry.Relative := by
  rintro (this | parent)
  · exact (clean "." (List.mem_of_head? this)).1 rfl
  · exact (clean ".." (List.mem_of_head? parent)).2 rfl

theorem absolute_of_normal {entry : Entry} (clean : Normal entry.location)
    (root : Entry) : entry.absolute root = entry := by
  have same : (entry.absolute root).location = entry.location := by
    rw [absolute_location, components, if_neg clean.not_relative,
      normalize_of_normal clean]
  exact congrArg Entry.mk same

/-! ## Both walks -/

theorem normalize_eq_walk {components : List String}
    (filled : ∀ component ∈ components, component ≠ "") :
    normalize components = walk [] (steps components) := by
  rw [normalize_eq_foldl, walk, steps, List.foldl_map]
  apply List.foldl_ext
  intro normal component member
  have some := filled component member
  by_cases this : component = "."
  · simp [resolve, this, Step.ofComponent, Step.run]
  · by_cases parent : component = ".."
    · simp [resolve, parent, Step.ofComponent, Step.run]
    · simp [resolve, some, this, parent, Step.ofComponent, Step.run]

theorem foldl_appendElem (components : List String) :
    components.foldl Go.Path.appendElem [] = walk [] (steps components) := by
  rw [walk, steps, List.foldl_map]
  apply List.foldl_ext
  intro normal component _
  unfold Go.Path.appendElem Go.Path.thisPath Go.Path.parentPath
  by_cases none : component = ""
  · simp [none, Step.ofComponent, Step.run]
  · by_cases this : component = "."
    · simp [this, Step.ofComponent, Step.run]
    · by_cases parent : component = ".."
      · simp [parent, Step.ofComponent, Step.run]
      · simp [none, this, parent, Step.ofComponent, Step.run]

/-- The name of a reference; the empty text where it has none. -/
def path (entry : Entry) : String :=
  match entry.name '/' with
  | .ok name => name
  | .error _ => ""

theorem path_eq (entry : Entry) :
    entry.path = "/".intercalate entry.location := by
  unfold path name
  by_cases none : entry.location = []
  · simp [empty, none]
  · simp only [empty, List.isEmpty_iff, none, if_false]
    rfl

theorem split_path {entry : Entry} (valid : entry.Valid) :
    Go.Path.split entry.path = entry.location := by
  rw [path_eq]
  exact Go.Path.split_intercalate valid.plain

theorem go_absolute {entry root : Entry} (valid : entry.Valid)
    (rooted : root.Valid) :
    Go.Path.absolute entry.path root.path =
      "/".intercalate (walk [] (steps (entry.components root))) := by
  unfold Go.Path.absolute
  simp only [split_path valid, split_path rooted, foldl_appendElem]
  rfl

theorem absolute_eq_walk {entry root : Entry} (valid : entry.Valid)
    (rooted : root.Valid) :
    (entry.absolute root).location =
      walk [] (steps (entry.components root)) := by
  rw [absolute_location]
  apply normalize_eq_walk
  intro component member
  exact (components_plain valid rooted component member).1

theorem Valid.absolute {entry root : Entry} (valid : entry.Valid)
    (rooted : root.Valid) : (entry.absolute root).Valid := by
  intro component member
  rw [absolute_location] at member
  have own := (mem_normalize member).1
  unfold components at own
  split at own
  case isTrue =>
    rcases List.mem_append.mp own with above | inside
    · exact rooted component above
    · exact valid component inside
  case isFalse => exact valid component own

/-- A resolved reference is normal, and both implementations agree on it. -/
theorem absolute_normal_form (entry root : Entry) (valid : entry.Valid)
    (rooted : root.Valid) :
    Normal (entry.absolute root).location ∧
    (∀ other : Entry, other.Valid →
      (entry.absolute root).absolute other = entry.absolute root) ∧
    (entry.Relative →
      (entry.absolute root).location =
        walk [] (steps (root.location ++ entry.location))) ∧
    (¬ entry.Relative →
      ∀ other : Entry, other.Valid →
        entry.absolute other = entry.absolute root) ∧
    "/".intercalate (entry.absolute root).location =
      Go.Path.absolute entry.path root.path := by
  have normal : Normal (entry.absolute root).location := by
    rw [absolute_location]
    exact normalize_normal _
  refine ⟨normal, ?_, ?_, ?_, ?_⟩
  · intro other _
    exact absolute_of_normal normal other
  · intro relative
    rw [absolute_eq_walk valid rooted, components, if_pos relative]
  · intro plain other _
    have same : (entry.absolute other).location =
        (entry.absolute root).location := by
      simp only [absolute_location, components, if_neg plain]
    exact congrArg Entry.mk same
  · rw [go_absolute valid rooted, absolute_eq_walk valid rooted]

/-- Climbing above the top of the repository stays there. -/
theorem absolute_normal_form_climbing :
    let entry : Entry := ⟨["..", "..", "lib"]⟩
    let root : Entry := ⟨["bacs"]⟩
    (entry.absolute root).location = ["lib"] ∧
      "/".intercalate (entry.absolute root).location =
        Go.Path.absolute entry.path root.path := by
  constructor
  · rfl
  · exact (absolute_normal_form ⟨["..", "..", "lib"]⟩ ⟨["bacs"]⟩
      (by decide) (by decide)).2.2.2.2

end Bacs.Pm.Entry
