import Mathlib.Algebra.Order.Round
import Mathlib.Data.Rat.Floor
import Mathlib.Tactic.Linarith

/-!
# Rounding halves away from zero
-/

namespace Bacs.Foundation

/-- The nearest integer; of two, the one that is further from zero. -/
def Nearest (number : ℚ) (integer : ℤ) : Prop :=
  |number - integer| < 1 / 2 ∨
    |number - integer| = 1 / 2 ∧ |number| < |(integer : ℚ)|

def roundAway (number : ℚ) : ℤ :=
  if 0 ≤ number then ⌊number + 1 / 2⌋ else -⌊-number + 1 / 2⌋

theorem nearest_neg {number : ℚ} {integer : ℤ} :
    Nearest (-number) (-integer) ↔ Nearest number integer := by
  have distance : |-number - ((-integer : ℤ) : ℚ)| = |number - integer| := by
    rw [← abs_neg]
    push_cast
    ring_nf
  rw [Nearest, Nearest, distance, abs_neg, Int.cast_neg, abs_neg]

theorem nearest_iff_of_nonneg {number : ℚ} {integer : ℤ}
    (nonneg : 0 ≤ number) :
    Nearest number integer ↔ ⌊number + 1 / 2⌋ = integer := by
  rw [Int.floor_eq_iff]
  constructor
  · rintro (closer | ⟨half, further⟩)
    · obtain ⟨above, below⟩ := abs_lt.mp closer
      constructor <;> linarith
    · rw [abs_of_nonneg nonneg] at further
      have positive : (0 : ℚ) < integer := by
        by_contra negative
        have small : (integer : ℚ) ≤ 0 := not_lt.mp negative
        rw [abs_of_nonpos small] at further
        have far : |number - integer| = number - integer :=
          abs_of_nonneg (by linarith)
        have one : -1 < integer := by
          have : (-1 : ℚ) < integer := by linarith
          exact_mod_cast this
        have zero : integer = 0 := by
          have : integer ≤ 0 := by exact_mod_cast small
          omega
        rw [zero] at further
        simp at further
        linarith
      rw [abs_of_pos positive] at further
      rw [abs_of_neg (by linarith)] at half
      constructor <;> linarith
  · rintro ⟨above, below⟩
    by_cases half : number + 1 / 2 = integer
    · refine .inr ⟨?_, ?_⟩
      · rw [abs_of_neg (by linarith)]
        linarith
      · rw [abs_of_nonneg nonneg, abs_of_pos (by linarith)]
        linarith
    · refine .inl (abs_lt.mpr ⟨?_, by linarith⟩)
      have strict : (integer : ℚ) < number + 1 / 2 :=
        lt_of_le_of_ne above (Ne.symm half)
      linarith

theorem nearest_iff {number : ℚ} {integer : ℤ} :
    Nearest number integer ↔ roundAway number = integer := by
  unfold roundAway
  split
  case isTrue nonneg => exact nearest_iff_of_nonneg nonneg
  case isFalse negative =>
    have nonneg : 0 ≤ -number := by linarith
    rw [← nearest_neg, nearest_iff_of_nonneg nonneg]
    constructor <;> intro same <;> omega

end Bacs.Foundation
