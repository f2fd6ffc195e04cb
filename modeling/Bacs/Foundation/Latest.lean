import Mathlib.Data.List.Induction
import Mathlib.Logic.Function.Basic

/-!
# The latest assignment

Values are assigned to names, one after the other.  Names that are spelled
differently may stand for one key, and the value of a key is the one that was
assigned last to any of its names.
-/

namespace Bacs.Foundation

variable {Name Key Value : Type*} [DecidableEq Key]

def latest (key : Name → Key) (wanted : Key)
    (assigned : List (Name × Value)) : Option Value :=
  (assigned.filter fun entry => key entry.1 = wanted).getLast?.map Prod.snd

variable {key : Name → Key}

@[simp] theorem latest_nil (wanted : Key) :
    latest key wanted ([] : List (Name × Value)) = none :=
  rfl

theorem latest_concat (wanted : Key) (assigned : List (Name × Value))
    (name : Name) (value : Value) :
    latest key wanted (assigned ++ [(name, value)]) =
      if key name = wanted then some value
      else latest key wanted assigned := by
  by_cases same : key name = wanted <;> simp [latest, same]

theorem latest_eq_none {wanted : Key} {assigned : List (Name × Value)}
    (absent : ∀ entry ∈ assigned, key entry.1 ≠ wanted) :
    latest key wanted assigned = none := by
  have nothing : assigned.filter (fun entry => key entry.1 = wanted) = [] := by
    simpa [List.filter_eq_nil_iff] using absent
  rw [latest, nothing]
  rfl

/-- Assigning one after the other is a map of the latest assignments. -/
theorem foldl_update_latest [DecidableEq Name]
    (assigned : List (Name × Value)) :
    assigned.foldl (fun (mapping : Name → Option Value) entry =>
        Function.update mapping entry.1 (some entry.2)) (fun _ => none) =
      fun name => latest id name assigned := by
  induction assigned using List.reverseRecOn with
  | nil => rfl
  | append_singleton assigned entry ih =>
      rw [List.foldl_append, ih]
      funext name
      rw [latest_concat]
      by_cases same : entry.1 = name
      · subst same
        simp
      · simp [same, Function.update_of_ne (Ne.symm same)]

end Bacs.Foundation
