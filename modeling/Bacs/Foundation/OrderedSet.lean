import Mathlib.Data.List.Basic

/-!
# Ordered sets

A set is the list of its elements in their order.  An element is inserted
unless there is one that is neither less nor greater.
-/

namespace Bacs.Foundation

variable {α : Type*} {less : α → α → Bool}

def insertOrdered (less : α → α → Bool) (value : α) : List α → List α
  | [] => [value]
  | other :: rest =>
      if less value other then value :: other :: rest
      else if less other value then other :: insertOrdered less value rest
      else other :: rest

def insertAll (less : α → α → Bool) (values : List α) : List α :=
  values.foldl (fun set value => insertOrdered less value set) []

def Ordered (less : α → α → Bool) (set : List α) : Prop :=
  set.Pairwise fun first second => less first second = true

instance (set : List α) : Decidable (Ordered less set) :=
  inferInstanceAs (Decidable (set.Pairwise _))

theorem mem_insertOrdered {value element : α} {set : List α}
    (member : element ∈ insertOrdered less value set) :
    element = value ∨ element ∈ set := by
  induction set with
  | nil => exact .inl (List.mem_singleton.mp member)
  | cons other rest induction =>
      unfold insertOrdered at member
      split at member
      · exact List.mem_cons.mp member
      · split at member
        · obtain rfl | later := List.mem_cons.mp member
          · exact .inr List.mem_cons_self
          · obtain same | there := induction later
            · exact .inl same
            · exact .inr (List.mem_cons_of_mem _ there)
        · exact .inr member

theorem mem_insertAll {values : List α} {element : α}
    (member : element ∈ insertAll less values) : element ∈ values := by
  have inserted : ∀ (values set : List α),
      element ∈ values.foldl
        (fun set value => insertOrdered less value set) set →
      element ∈ set ∨ element ∈ values := by
    intro values
    induction values with
    | nil =>
        intro set there
        exact .inl there
    | cons value values induction =>
        intro set there
        obtain earlier | later := induction _ there
        · obtain rfl | before := mem_insertOrdered earlier
          · exact .inr List.mem_cons_self
          · exact .inl before
        · exact .inr (List.mem_cons_of_mem _ later)
  obtain none | there := inserted values [] member
  · cases none
  · exact there

theorem insertOrdered_last
    (asymmetric : ∀ first second, less first second = true →
      less second first = false) {value : α} {set : List α}
    (last : ∀ element ∈ set, less element value = true) :
    insertOrdered less value set = set ++ [value] := by
  induction set with
  | nil => rfl
  | cons other rest induction =>
      have before := last other List.mem_cons_self
      rw [insertOrdered, asymmetric other value before, before,
        induction (fun element member =>
          last element (List.mem_cons_of_mem _ member))]
      rfl

/-- The elements of a set, inserted in their order, make the same set. -/
theorem insertAll_ordered
    (asymmetric : ∀ first second, less first second = true →
      less second first = false) {set : List α}
    (ordered : Ordered less set) : insertAll less set = set := by
  have inserted : ∀ rest front : List α, Ordered less (front ++ rest) →
      rest.foldl (fun set value => insertOrdered less value set) front =
        front ++ rest := by
    intro rest
    induction rest with
    | nil =>
        intro front _
        exact (List.append_nil front).symm
    | cons value rest induction =>
        intro front ordered
        have last : ∀ element ∈ front, less element value = true := by
          intro element member
          exact (List.pairwise_append.mp ordered).2.2 element member value
            List.mem_cons_self
        rw [List.foldl_cons, insertOrdered_last asymmetric last,
          induction (front ++ [value]) (by simpa using ordered)]
        simp
  exact inserted set [] ordered

end Bacs.Foundation
