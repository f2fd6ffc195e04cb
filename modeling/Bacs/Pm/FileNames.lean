import Bacs.Pm.Publishing

/-!
# The names of files in the cache

A name that the cache accepts leads to a file of its directory, which has the
last part of the name.  All slashes of such a name stand in front.
-/

namespace Bacs.Pm.Publishing

open LexicalPath

theorem sourceFilePath_plain {name : String} (plain : '/' ∉ name.toList) :
    sourceFilePath name = some name :=
  if_pos (.inl plain)

/-- A name that is accepted is one of slashes only, or the name of a file with
or without the slashes of a root. -/
theorem sourceFilePath_cases {name base : String}
    (accepted : sourceFilePath name = some base) :
    (∀ character ∈ name.toList, character = '/') ∧ base = name ∨
      '/' ∉ base.toList ∧ base ≠ "" ∧ (name = base ∨ name = "//" ++ base) := by
  by_cases separators : ∀ character ∈ name.toList, character = '/'
  · rw [sourceFilePath, if_pos (.inr separators)] at accepted
    exact .inl ⟨separators, (Option.some.inj accepted).symm⟩
  · right
    by_cases plain : '/' ∉ name.toList
    · rw [sourceFilePath_plain plain] at accepted
      cases accepted
      refine ⟨plain, ?_, .inl rfl⟩
      rintro rfl
      exact separators (by simp)
    · rw [sourceFilePath, if_neg (not_or.mpr ⟨plain, separators⟩)] at accepted
      split at accepted
      · rename_i base split
        obtain ⟨plain, ⟨⟩⟩ := Option.ite_none_left_eq_some.mp accepted
        refine ⟨by simpa using plain, ?_, .inr ?_⟩
        · intro empty
          apply separators
          have none : base = [] := by simpa using empty
          simp [split, none]
        · apply String.toList_injective
          simp [split]
      · cases accepted

theorem sourceFilePath_root {base : String} (plain : '/' ∉ base.toList)
    (filled : base ≠ "") : sourceFilePath ("//" ++ base) = some base := by
  have characters : ("//" ++ base).toList = '/' :: '/' :: base.toList := by
    rw [String.toList_append]
    rfl
  have notPlain : ¬ '/' ∉ ("//" ++ base).toList := by
    simp [characters]
  have notSeparators :
      ¬ ∀ character ∈ ("//" ++ base).toList, character = '/' := by
    intro separators
    cases first : base.toList with
    | nil => exact filled (by simpa using first)
    | cons character rest =>
        apply plain
        rw [first, ← separators character (by simp [first])]
        exact List.mem_cons_self
  rw [sourceFilePath, if_neg (not_or.mpr ⟨notPlain, notSeparators⟩),
    characters]
  simp only [if_neg plain, String.ofList_toList]

/-! ## Places -/

variable {source : List String}

theorem locate_plain (source : List String) {name : String}
    (plain : '/' ∉ name.toList) :
    locate source name = source ++ [name] ∨
      locate source name = source ∨
      locate source name = source.dropLast := by
  rw [locate, stepsOf_plain plain]
  simp only [walk_cons, walk_nil]
  unfold Step.ofComponent
  split
  · exact Or.inr (Or.inl rfl)
  · split
    · exact Or.inr (Or.inr rfl)
    · exact Or.inl rfl

theorem locate_name {name : String} (plain : '/' ∉ name.toList)
    (nonempty : name ≠ "") (ordinary : name ≠ "." ∧ name ≠ "..") :
    locate source name = source ++ [name] := by
  rw [locate, stepsOf_plain plain]
  simp [Step.ofComponent, Step.run, nonempty, ordinary]

theorem locate_slash (source : List String) (characters : List Char) :
    locate source (String.ofList ('/' :: characters)) =
      locate source (String.ofList characters) := by
  simp [locate, stepsOf, List.splitOn_cons_eq_if_modifyHead,
    Step.ofComponent, Step.run]

theorem leaf_slash (characters : List Char) :
    leaf (String.ofList ('/' :: characters)) =
      leaf (String.ofList characters) := by
  have filled := List.splitOn_ne_nil '/' characters
  have split : ('/' :: characters).splitOn '/' =
      [] :: characters.splitOn '/' := by
    simp [List.splitOn_cons_eq_if_modifyHead]
  rw [leaf, leaf, String.toList_ofList, String.toList_ofList, split,
    List.getLast?_cons_of_ne_nil filled]

def Frontal (path : String) : Prop :=
  '/' ∉ path.toList.dropWhile (· = '/')

theorem leaf_frontal (source : List String) {path : String}
    (frontal : Frontal path) :
    locate source path = locate source (leaf path) ∧
      '/' ∉ (leaf path).toList := by
  obtain ⟨characters, rfl⟩ : ∃ characters, path = String.ofList characters :=
    ⟨path.toList, String.ofList_toList.symm⟩
  induction characters with
  | nil => simp [leaf]
  | cons character rest ih =>
      by_cases slash : character = '/'
      · subst slash
        rw [locate_slash, leaf_slash]
        apply ih
        simpa [Frontal] using frontal
      · have plain : '/' ∉ (String.ofList (character :: rest)).toList := by
          simpa [Frontal, slash] using frontal
        have itself : leaf (String.ofList (character :: rest)) =
            String.ofList (character :: rest) := by
          rw [leaf, List.splitOn_eq_singleton plain]
          exact String.ofList_toList
        rw [itself]
        exact ⟨rfl, plain⟩

theorem frontal_of_append {first second : String}
    (frontal : Frontal (first ++ second)) : Frontal first := by
  unfold Frontal at frontal ⊢
  rw [String.toList_append, List.dropWhile_append] at frontal
  split at frontal
  · rename_i separators
    have none : first.toList.dropWhile (· = '/') = [] := by
      simpa using separators
    rw [none]
    exact List.not_mem_nil
  · intro slash
    exact frontal (List.mem_append_left _ slash)

theorem frontal_of_accepted {name base : String}
    (accepted : sourceFilePath name = some base) : Frontal name := by
  have plain : ∀ characters : List Char, '/' ∉ characters →
      '/' ∉ characters.dropWhile (· = '/') :=
    fun characters absent slash =>
      absent ((List.dropWhile_sublist _).subset slash)
  unfold Frontal
  obtain ⟨separators, _⟩ | ⟨absent, _, rfl | rfl⟩ :=
    sourceFilePath_cases accepted
  · have none : name.toList.dropWhile (· = '/') = [] := by
      simpa using separators
    rw [none]
    exact List.not_mem_nil
  · exact plain _ absent
  · have characters : ("//" ++ base).toList = '/' :: '/' :: base.toList := by
      simp
    rw [characters]
    simpa using plain _ absent

theorem locate_accepted (source : List String) {name base : String}
    (accepted : sourceFilePath name = some base) :
    locate source name = locate source base := by
  obtain ⟨_, rfl⟩ | ⟨_, _, rfl | rfl⟩ := sourceFilePath_cases accepted
  · rfl
  · rfl
  · have characters : "//" ++ base =
        String.ofList ('/' :: '/' :: base.toList) := by
      apply String.toList_injective
      simp
    rw [characters, locate_slash, locate_slash, String.ofList_toList]

theorem locate_index : locate source "index" = source ++ ["index"] :=
  locate_name (by decide) (by decide) (by decide)

theorem locate_checksum :
    locate source "checksum" = source ++ ["checksum"] :=
  locate_name (by decide) (by decide) (by decide)

end Bacs.Pm.Publishing
