import Mathlib.Data.List.Basic
import Mathlib.Logic.Function.Iterate

/-!
# Forward iterators

An iterator has values still to come.  Where incrementing takes the first of
them away and dereferencing reads it, the iterator walks exactly over the
values it started with.
-/

namespace Bacs.Foundation

variable {Iterator Value : Type*}

/-- `remaining` lists what a valid iterator still has to show. -/
structure Traverses (valid : Iterator → Prop) (atEnd : Iterator → Bool)
    (dereference : Iterator → Option Value) (increment : Iterator → Iterator)
    (remaining : Iterator → List Value) : Prop where
  ends : ∀ iterator, valid iterator →
    (atEnd iterator = true ↔ remaining iterator = [])
  reads : ∀ iterator, valid iterator →
    ∀ value ∈ (remaining iterator).head?, dereference iterator = some value
  moves : ∀ iterator, valid iterator → remaining iterator ≠ [] →
    valid (increment iterator) ∧
      remaining (increment iterator) = (remaining iterator).tail

namespace Traverses

variable {valid : Iterator → Prop} {atEnd : Iterator → Bool}
  {dereference : Iterator → Option Value} {increment : Iterator → Iterator}
  {remaining : Iterator → List Value} {start : Iterator}

theorem iterate
    (walk : Traverses valid atEnd dereference increment remaining)
    (begins : valid start) {count : Nat}
    (within : count ≤ (remaining start).length) :
    valid (increment^[count] start) ∧
      remaining (increment^[count] start) = (remaining start).drop count := by
  induction count with
  | zero => exact ⟨begins, rfl⟩
  | succ count ih =>
      obtain ⟨kept, left⟩ := ih (by omega)
      have more : remaining (increment^[count] start) ≠ [] := by
        rw [left]
        simp only [ne_eq, List.drop_eq_nil_iff]
        omega
      obtain ⟨next, shorter⟩ := walk.moves _ kept more
      rw [Function.iterate_succ_apply']
      exact ⟨next, by rw [shorter, left, List.tail_drop]⟩

/-- Before the last value the iterator shows the values in their order. -/
theorem shows
    (walk : Traverses valid atEnd dereference increment remaining)
    (begins : valid start) {count : Nat}
    (within : count < (remaining start).length) :
    atEnd (increment^[count] start) = false ∧
      dereference (increment^[count] start) = (remaining start)[count]? := by
  obtain ⟨kept, left⟩ := walk.iterate begins (Nat.le_of_lt within)
  have some : (remaining start).drop count =
      (remaining start)[count] :: (remaining start).drop (count + 1) :=
    List.drop_eq_getElem_cons within
  constructor
  · rw [Bool.eq_false_iff, ne_eq, walk.ends _ kept, left, some]
    exact List.cons_ne_nil _ _
  · rw [List.getElem?_eq_getElem within]
    apply walk.reads _ kept
    rw [left, some]
    rfl

theorem finishes
    (walk : Traverses valid atEnd dereference increment remaining)
    (begins : valid start) :
    atEnd (increment^[(remaining start).length] start) = true := by
  obtain ⟨kept, left⟩ := walk.iterate begins (Nat.le_refl _)
  rw [walk.ends _ kept, left, List.drop_length]

end Traverses

end Bacs.Foundation
