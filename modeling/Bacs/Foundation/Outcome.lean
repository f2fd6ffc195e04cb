import Mathlib.Data.List.Basic

/-!
# Computations that may fail

A computation in `Except` that ends well did so in all its steps.  What a loop
keeps, of the elements it has passed and of what it has made of them, holds of
the whole list when the loop ends well.
-/

namespace Bacs.Foundation

variable {Error α β : Type}

theorem bind_ok {first : Except Error α} {next : α → Except Error β}
    {result : β} (ends : first >>= next = .ok result) :
    ∃ value, first = .ok value ∧ next value = .ok result := by
  cases first with
  | error error => cases ends
  | ok value => exact ⟨value, rfl, ends⟩

theorem foldlM_ok (holds : List α → β → Prop)
    {step : β → α → Except Error β} {items : List α} {start final : β}
    (initially : holds [] start)
    (preserved : ∀ passed item before after, holds passed before →
      step before item = .ok after → holds (passed ++ [item]) after)
    (ends : items.foldlM step start = .ok final) : holds items final := by
  have loop : ∀ items passed start, holds passed start →
      items.foldlM step start = .ok final →
        holds (passed ++ items) final := by
    intro items
    induction items with
    | nil =>
        intro passed start kept ends
        cases ends
        rwa [List.append_nil]
    | cons item items ih =>
        intro passed start kept ends
        rw [List.foldlM_cons] at ends
        obtain ⟨next, taken, others⟩ := bind_ok ends
        have later := ih (passed ++ [item]) next
          (preserved passed item start next kept taken) others
        rwa [List.append_assoc] at later
  exact loop items [] start initially ends

end Bacs.Foundation
