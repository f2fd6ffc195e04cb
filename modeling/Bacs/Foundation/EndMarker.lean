import Mathlib.Data.List.Count

/-!
# Calls that end with a marker

A handler is called with one value after another and last, once, with a
marker.  In a log of several kinds of events, some may not come after others.
-/

namespace Bacs.Foundation

variable {α : Type}

/-- The calls of a handler, with the marker last and nowhere else, and there
if and only if they have ended. -/
def Marked (marker : α) (ended : Prop) (calls : List α) : Prop :=
  ∃ values, marker ∉ values ∧
    (ended ∧ calls = values ++ [marker] ∨ ¬ ended ∧ calls = values)

namespace Marked

variable {marker value : α} {ended ended' : Prop} {calls : List α}

theorem nil (marker : α) (unended : ¬ ended) : Marked marker ended [] :=
  ⟨[], List.not_mem_nil, .inr ⟨unended, rfl⟩⟩

theorem congr (marked : Marked marker ended calls)
    (same : ended ↔ ended') : Marked marker ended' calls := by
  rw [Marked, ← same]
  exact marked

theorem call (marked : Marked marker ended calls) (unended : ¬ ended)
    (other : value ≠ marker) : Marked marker ended (calls ++ [value]) := by
  obtain ⟨values, unmarked, ⟨finished, _⟩ | ⟨_, same⟩⟩ := marked
  · exact absurd finished unended
  · refine ⟨values ++ [value], ?_, .inr ⟨unended, by rw [same]⟩⟩
    intro member
    obtain earlier | here := List.mem_append.mp member
    · exact unmarked earlier
    · exact other (List.mem_singleton.mp here).symm

theorem finish (marked : Marked marker ended calls) (unended : ¬ ended)
    (ended' : Prop) (finished : ended') :
    Marked marker ended' (calls ++ [marker]) := by
  obtain ⟨values, unmarked, ⟨done, _⟩ | ⟨_, same⟩⟩ := marked
  · exact absurd done unended
  · exact ⟨values, unmarked, .inl ⟨finished, by rw [same]⟩⟩

theorem last (marked : Marked marker ended calls) (before after : List α)
    (split : calls = before ++ marker :: after) : after = [] := by
  obtain ⟨values, unmarked, ⟨_, same⟩ | ⟨_, same⟩⟩ := marked
  · obtain none | ⟨front, last, rfl⟩ := List.eq_nil_or_concat after
    · exact none
    · rw [same, List.concat_eq_append, ← List.cons_append,
        ← List.append_assoc] at split
      have earlier : values = before ++ marker :: front :=
        (List.append_inj' split rfl).1
      rw [earlier] at unmarked
      simp at unmarked
  · rw [← same, split] at unmarked
    simp at unmarked

variable [BEq α] [LawfulBEq α]

theorem count (marked : Marked marker ended calls) (finished : ended) :
    calls.count marker = 1 := by
  obtain ⟨values, unmarked, ⟨_, same⟩ | ⟨unended, _⟩⟩ := marked
  · rw [same, List.count_append, List.count_eq_zero_of_not_mem unmarked]
    simp
  · exact absurd finished unended

theorem count_le (marked : Marked marker ended calls) :
    calls.count marker ≤ 1 := by
  by_cases finished : ended
  · exact Nat.le_of_eq (marked.count finished)
  · obtain ⟨values, unmarked, ⟨done, _⟩ | ⟨_, same⟩⟩ := marked
    · exact absurd done finished
    · rw [same, List.count_eq_zero_of_not_mem unmarked]
      exact Nat.zero_le 1

end Marked

/-- No `late` event comes after a `stop` event. -/
def Stops (stop late : α) (log : List α) : Prop :=
  ∀ before after, log = before ++ late :: after → stop ∉ before

namespace Stops

variable {stop late event : α} {log : List α}

theorem nil (stop late : α) : Stops stop late [] := by
  intro before after split
  simp at split

theorem append (stops : Stops stop late log)
    (intime : event = late → stop ∉ log) :
    Stops stop late (log ++ [event]) := by
  intro before after split
  obtain rfl | ⟨front, last, rfl⟩ := List.eq_nil_or_concat after
  · obtain ⟨same, here⟩ := List.append_inj' split rfl
    rw [← same]
    exact intime (List.cons.inj here).1
  · rw [List.concat_eq_append, ← List.cons_append,
      ← List.append_assoc] at split
    exact stops before front (List.append_inj' split rfl).1

end Stops

end Bacs.Foundation
