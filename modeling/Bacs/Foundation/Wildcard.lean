import Mathlib.Data.List.Infix

/-!
# Wildcards

A wildcard is a sequence of pieces, each of which stands for one character of
some kind or for any number of any characters.
-/

namespace Bacs.Foundation

variable {Character : Type*}

inductive Piece (Character : Type*) where
  | many
  | one (accepts : Character → Bool)

namespace Piece

/-- The pieces stand for the text. -/
def Matches : List (Piece Character) → List Character → Prop
  | [], text => text = []
  | many :: rest, text =>
      ∃ before after, text = before ++ after ∧ Matches rest after
  | one accepts :: rest, text =>
      ∃ character after, text = character :: after ∧
        accepts character = true ∧ Matches rest after

def test : List (Piece Character) → List Character → Bool
  | [], text => text.isEmpty
  | many :: rest, text => text.tails.any (test rest)
  | one _ :: _, [] => false
  | one accepts :: rest, character :: after =>
      accepts character && test rest after

theorem test_iff {pieces : List (Piece Character)}
    {text : List Character} :
    test pieces text = true ↔ Matches pieces text := by
  induction pieces generalizing text with
  | nil => exact List.isEmpty_iff
  | cons piece rest ih =>
      cases piece with
      | many =>
          rw [test, Matches, List.any_eq_true]
          constructor
          · rintro ⟨after, member, matched⟩
            obtain ⟨before, whole⟩ := (List.mem_tails _ _).mp member
            exact ⟨before, after, whole.symm, ih.mp matched⟩
          · rintro ⟨before, after, rfl, matched⟩
            exact ⟨after, (List.mem_tails _ _).mpr ⟨before, rfl⟩,
              ih.mpr matched⟩
      | one accepts =>
          cases text with
          | nil =>
              rw [test, Matches]
              constructor
              · nofun
              · rintro ⟨_, _, ⟨⟩, _⟩
          | cons character after =>
              rw [test, Matches, Bool.and_eq_true, ih]
              constructor
              · rintro ⟨accepted, matched⟩
                exact ⟨character, after, rfl, accepted, matched⟩
              · rintro ⟨_, _, ⟨⟩, accepted, matched⟩
                exact ⟨accepted, matched⟩

def width : List (Piece Character) → Nat
  | [] => 0
  | many :: rest => width rest
  | one _ :: rest => width rest + 1

theorem Matches.width_le {pieces : List (Piece Character)}
    {text : List Character} (matched : Matches pieces text) :
    width pieces ≤ text.length := by
  induction pieces generalizing text with
  | nil => exact Nat.zero_le _
  | cons piece rest ih =>
      cases piece with
      | many =>
          obtain ⟨before, after, rfl, later⟩ := matched
          have bound := ih later
          rw [width, List.length_append]
          omega
      | one accepts =>
          obtain ⟨character, after, rfl, _, later⟩ := matched
          have bound := ih later
          rw [width, List.length_cons]
          omega

/-- Some character of a kind is accepted by every piece. -/
def Inhabited (kind : Character → Prop)
    (pieces : List (Piece Character)) : Prop :=
  ∀ accepts, one accepts ∈ pieces →
    ∃ character, kind character ∧ accepts character = true

end Piece

end Bacs.Foundation
