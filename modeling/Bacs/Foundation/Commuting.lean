import Mathlib.Data.List.Basic

/-!
# Steps that commute

Steps that may fail can be taken in any order if each two of them commute,
also in whether they fail.
-/

namespace Bacs.Foundation

variable {State Item : Type*} {step : State → Item → Option State}

theorem foldlM_perm
    (commute : ∀ state first second,
      (step state first).bind (step · second) =
        (step state second).bind (step · first))
    {items others : List Item} (same : items.Perm others) (start : State) :
    items.foldlM step start = others.foldlM step start := by
  induction same generalizing start with
  | nil => rfl
  | cons item _ ih =>
      rw [List.foldlM_cons, List.foldlM_cons]
      exact congrArg (step start item).bind (funext ih)
  | swap first second rest =>
      have swapped := congrArg (·.bind fun next => rest.foldlM step next)
        (commute start second first)
      simp only [List.foldlM_cons, Option.bind_eq_bind]
      simpa only [Option.bind_assoc] using swapped
  | trans _ _ before after =>
      exact (before start).trans (after start)

end Bacs.Foundation
