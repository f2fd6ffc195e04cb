import Mathlib.Data.List.Basic
import Mathlib.Data.String.Basic

/-!
# Package paths of the Go repository

The paths are strings here, and `absolute` splits its arguments by itself.
-/

namespace Bacs.Go.Path

def separator : Char := '/'

def parentPath : String := ".."

def thisPath : String := "."

def split (path : String) : List String :=
  ((path.toList.splitOn separator).map String.ofList).filter (· ≠ "")

/-- One turn of the loop of `absolute`. -/
def appendElem (absPathElems : List String) (elem : String) : List String :=
  if elem = "" then absPathElems
  else if elem = thisPath then absPathElems
  else if elem = parentPath then absPathElems.dropLast
  else absPathElems ++ [elem]

def absolute (path root : String) : String :=
  let pathElements := split path
  let pathElements :=
    if pathElements.head? = some thisPath ∨
        pathElements.head? = some parentPath
    then split root ++ pathElements
    else pathElements
  "/".intercalate (pathElements.foldl appendElem [])

/-- Elements without separators are found again in the path they make. -/
theorem split_intercalate {elements : List String}
    (plain : ∀ element ∈ elements,
      element ≠ "" ∧ separator ∉ element.toList) :
    split ("/".intercalate elements) = elements := by
  have filled : elements.filter (· ≠ "") = elements := by
    rw [List.filter_eq_self]
    intro element member
    simpa using (plain element member).1
  have texts : ("/".intercalate elements).toList =
      [separator].intercalate (elements.map String.toList) :=
    String.toList_intercalate
  rw [split, texts]
  cases elements with
  | nil => simp
  | cons element rest =>
      rw [List.splitOn_intercalate]
      · simpa [Function.comp_def] using filled
      · intro text member
        obtain ⟨element, among, rfl⟩ := List.mem_map.mp member
        exact (plain element among).2
      · simp

end Bacs.Go.Path
