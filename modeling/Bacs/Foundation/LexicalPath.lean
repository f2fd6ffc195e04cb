import Mathlib.Data.List.Infix
import Mathlib.Data.Set.Basic
import Mathlib.Data.Set.Disjoint
import Mathlib.Data.Set.Lattice
import Mathlib.Data.String.Basic
import Mathlib.Order.CompletePartialOrder

/-!
# Lexical paths

A place in a tree is the list of names that leads to it from the top.  A path
is a list of steps from some place; climbing above the top stays at the top.
The subtrees of two different names below one place do not meet.
-/

namespace Bacs.LexicalPath

variable {Name : Type*}

inductive Step (Name : Type*) where
  | stay
  | up
  | down (name : Name)
  deriving DecidableEq, Repr

def Step.run (place : List Name) : Step Name → List Name
  | .stay => place
  | .up => place.dropLast
  | .down name => place ++ [name]

def walk (start : List Name) (steps : List (Step Name)) : List Name :=
  steps.foldl Step.run start

@[simp] theorem walk_nil (start : List Name) : walk start [] = start :=
  rfl

@[simp] theorem walk_cons
    (start : List Name) (step : Step Name) (rest : List (Step Name)) :
    walk start (step :: rest) = walk (step.run start) rest :=
  rfl

theorem walk_append (start : List Name) (first second : List (Step Name)) :
    walk start (first ++ second) = walk (walk start first) second :=
  List.foldl_append

/-- A path of names alone is appended to the place where it starts. -/
theorem walk_down (start names : List Name) :
    walk start (names.map .down) = start ++ names := by
  induction names generalizing start with
  | nil => simp
  | cons name rest ih => simp [Step.run, ih]

/-! ## Climbing -/

/-- Some part of the steps from the start leads higher than `depth` above
it. -/
def climbs : Nat → List (Step Name) → Bool
  | _, [] => false
  | depth, .stay :: rest => climbs depth rest
  | 0, .up :: _ => true
  | depth + 1, .up :: rest => climbs depth rest
  | depth, .down _ :: rest => climbs (depth + 1) rest

theorem climbs_append_stay (depth : Nat) (steps : List (Step Name)) :
    climbs depth (steps ++ [.stay]) = climbs depth steps := by
  induction steps generalizing depth with
  | nil => rfl
  | cons step rest ih =>
      cases step with
      | stay => exact ih depth
      | down name => exact ih (depth + 1)
      | up =>
          cases depth with
          | zero => rfl
          | succ depth => exact ih depth

theorem climbs_down (depth : Nat) (names : List Name)
    (steps : List (Step Name)) :
    climbs depth (names.map .down ++ steps) =
      climbs (depth + names.length) steps := by
  induction names generalizing depth with
  | nil => rfl
  | cons name rest ih =>
      have deeper := ih (depth + 1)
      rwa [Nat.add_right_comm, Nat.add_assoc] at deeper

theorem climbs_of_succ {depth : Nat} {steps : List (Step Name)}
    (high : climbs (depth + 1) steps = true) : climbs depth steps = true := by
  induction steps generalizing depth with
  | nil => cases high
  | cons step rest ih =>
      cases step with
      | stay => exact ih high
      | down name => exact ih high
      | up =>
          cases depth with
          | zero => rfl
          | succ depth => exact ih high

theorem walk_of_not_climbs (base : List Name) {top : List Name}
    {steps : List (Step Name)} (low : climbs top.length steps = false) :
    walk (base ++ top) steps = base ++ walk top steps := by
  induction steps generalizing top with
  | nil => rfl
  | cons step rest ih =>
      cases step with
      | stay => exact ih low
      | down name =>
          have deeper : climbs (top ++ [name]).length rest = false := by
            simpa [climbs] using low
          simpa [Step.run] using ih deeper
      | up =>
          rcases List.eq_nil_or_concat' top with rfl | ⟨others, last, rfl⟩
          · cases low
          · have higher : climbs others.length rest = false := by
              simpa [climbs] using low
            simpa [Step.run, ← List.append_assoc] using ih higher

/-- Steps that climb leave nothing of the place above which they climb. -/
theorem walk_of_climbs (name : Name) {top : List Name}
    {steps : List (Step Name)} (high : climbs top.length steps = true) :
    walk (name :: top) steps = walk top steps := by
  induction steps generalizing top with
  | nil => cases high
  | cons step rest ih =>
      cases step with
      | stay => exact ih high
      | down other =>
          have deeper : climbs (top ++ [other]).length rest = true := by
            simpa [climbs] using high
          simpa [Step.run] using ih deeper
      | up =>
          rcases List.eq_nil_or_concat' top with rfl | ⟨others, last, rfl⟩
          · rfl
          · have higher : climbs others.length rest = true := by
              simpa [climbs] using high
            have dropped : (name :: (others ++ [last])).dropLast =
                name :: others := by
              rw [← List.cons_append, List.dropLast_concat]
            simpa [Step.run, dropped] using ih higher

/-- A walk finds no names but those it starts from and is given. -/
theorem mem_walk {name : Name} {start : List Name}
    {steps : List (Step Name)} (member : name ∈ walk start steps) :
    name ∈ start ∨ .down name ∈ steps := by
  induction steps generalizing start with
  | nil => exact .inl member
  | cons step rest ih =>
      rcases ih member with before | later
      · cases step with
        | stay => exact .inl before
        | up => exact .inl (List.mem_of_mem_dropLast before)
        | down other =>
            rcases List.mem_append.1 before with old | new
            · exact .inl old
            · rw [List.mem_singleton.1 new]
              exact .inr List.mem_cons_self
      · exact .inr (List.mem_cons_of_mem step later)

/-- The places at `tree` and below it. -/
def Within (tree : List Name) : Set (List Name) :=
  {place | tree <+: place}

/-- The places below `tree`. -/
def Below (tree : List Name) : Set (List Name) :=
  {place | tree <+: place ∧ place ≠ tree}

/-- Neither of two places is at or below the other. -/
def Apart (left right : List Name) : Prop :=
  ¬ left <+: right ∧ ¬ right <+: left

theorem mem_below {tree place : List Name} :
    place ∈ Below tree ↔ tree <+: place ∧ place ≠ tree :=
  Iff.rfl

@[simp] theorem within_self (tree : List Name) : tree ∈ Within tree :=
  List.prefix_refl tree

theorem append_mem_below (tree : List Name) {names : List Name}
    (proper : names ≠ []) :
    tree ++ names ∈ Below tree :=
  ⟨List.prefix_append tree names, by simpa using proper⟩

theorem below_subset_within (tree : List Name) : Below tree ⊆ Within tree :=
  fun _ below => below.1

theorem dropLast_not_mem_below (tree : List Name) :
    tree.dropLast ∉ Below tree := by
  intro found
  obtain ⟨inside, different⟩ := found
  exact different (inside.eq_of_length_le
    (List.dropLast_prefix tree).length_le).symm

/-- Places that are apart have no common place at or below them. -/
theorem within_disjoint {left right : List Name} (apart : Apart left right) :
    Disjoint (Within left) (Within right) := by
  rw [Set.disjoint_left]
  intro place inLeft inRight
  rcases List.prefix_or_prefix_of_prefix inLeft inRight with above | above
  · exact apart.1 above
  · exact apart.2 above

theorem Apart.not_within {left right place : List Name}
    (apart : Apart left right) (inside : left <+: place) :
    ¬ right <+: place :=
  Set.disjoint_left.mp (within_disjoint apart) inside

theorem apart_of_ne (tree : List Name) {left right : Name}
    (different : left ≠ right) :
    Apart (tree ++ [left]) (tree ++ [right]) := by
  constructor
  · intro above
    have same := (List.prefix_append_right_inj tree).mp above
    exact different (by simpa using same)
  · intro above
    have same := (List.prefix_append_right_inj tree).mp above
    exact different (by simpa [eq_comm] using same)

theorem Apart.symm {left right : List Name} (apart : Apart left right) :
    Apart right left :=
  ⟨apart.2, apart.1⟩

theorem Apart.mono {left right innerLeft innerRight : List Name}
    (apart : Apart left right) (inLeft : innerLeft ∈ Within left)
    (inRight : innerRight ∈ Within right) :
    Apart innerLeft innerRight := by
  have separate := Set.disjoint_left.mp (within_disjoint apart)
  constructor
  · intro above
    exact separate (List.IsPrefix.trans inLeft above) inRight
  · intro above
    exact separate inLeft (List.IsPrefix.trans inRight above)

/-! ## Paths as strings -/

def Step.ofComponent (component : String) : Step String :=
  if component = "" ∨ component = "." then .stay
  else if component = ".." then .up
  else .down component

def stepsOf (path : String) : List (Step String) :=
  (path.toList.splitOn '/').map fun component =>
    Step.ofComponent (String.ofList component)

theorem stepsOf_plain {path : String} (plain : '/' ∉ path.toList) :
    stepsOf path = [Step.ofComponent path] := by
  simp [stepsOf, List.splitOn_eq_singleton plain]

theorem walk_separators (start : List String) {path : String}
    (separators : ∀ character ∈ path.toList, character = '/') :
    walk start (stepsOf path) = start := by
  unfold stepsOf
  generalize path.toList = characters at separators
  induction characters with
  | nil => simp [Step.ofComponent, Step.run]
  | cons character rest ih =>
      have leading := separators character (by simp)
      subst leading
      rw [List.splitOn_cons_eq_if_modifyHead]
      simpa [Step.ofComponent, Step.run] using
        ih fun other member => separators other (by simp [member])

end Bacs.LexicalPath
