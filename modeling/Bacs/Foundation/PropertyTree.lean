import Mathlib.Data.List.Basic

/-!
# Property trees

A tree holds data and children with keys, in their order.  A child is found
and put by the keys on the path to it; the first child with a key is meant.
-/

namespace Bacs.Foundation

inductive PropertyTree (Key Data : Type) where
  | node (data : Data) (children : List (Key × PropertyTree Key Data))

namespace PropertyTree

variable {Key Data : Type}

def data : PropertyTree Key Data → Data
  | .node data _ => data

def children : PropertyTree Key Data → List (Key × PropertyTree Key Data)
  | .node _ children => children

@[simp] theorem data_node (data : Data)
    (children : List (Key × PropertyTree Key Data)) :
    (PropertyTree.node data children).data = data := rfl

@[simp] theorem children_node (data : Data)
    (children : List (Key × PropertyTree Key Data)) :
    (PropertyTree.node data children).children = children := rfl

def leaf (data : Data) : PropertyTree Key Data :=
  .node data []

variable [DecidableEq Key]

def find (key : Key) :
    List (Key × PropertyTree Key Data) → Option (PropertyTree Key Data)
  | [] => none
  | (other, child) :: rest => if other = key then some child else find key rest

/-- Change the first child with a key, or append one. -/
def update (key : Key)
    (change : Option (PropertyTree Key Data) → PropertyTree Key Data) :
    List (Key × PropertyTree Key Data) → List (Key × PropertyTree Key Data)
  | [] => [(key, change none)]
  | (other, child) :: rest =>
      if other = key then (other, change (some child)) :: rest
      else (other, child) :: update key change rest

/-- `get_child_optional` -/
def get : List Key → PropertyTree Key Data → Option (PropertyTree Key Data)
  | [], tree => some tree
  | key :: path, tree =>
      match find key tree.children with
      | some child => get path child
      | none => none

/-- `put_child`, which makes the children on the path that are missing. -/
def put [Inhabited Data] (value : PropertyTree Key Data) :
    List Key → Option (PropertyTree Key Data) → PropertyTree Key Data
  | [], _ => value
  | key :: path, tree =>
      match tree with
      | some tree =>
          .node tree.data (update key (put value path) tree.children)
      | none => .node default (update key (put value path) [])

theorem find_update (key : Key)
    (change : Option (PropertyTree Key Data) → PropertyTree Key Data)
    (children : List (Key × PropertyTree Key Data)) :
    find key (update key change children) =
      some (change (find key children)) := by
  induction children with
  | nil => simp [update, find]
  | cons child children induction =>
      by_cases same : child.1 = key
      · simp [update, find, same]
      · simp [update, find, same, induction]

theorem find_update_other {key other : Key} (different : other ≠ key)
    (change : Option (PropertyTree Key Data) → PropertyTree Key Data)
    (children : List (Key × PropertyTree Key Data)) :
    find other (update key change children) = find other children := by
  induction children with
  | nil => simp [update, find, different.symm]
  | cons child children induction =>
      by_cases same : child.1 = key
      · simp [update, find, same, different.symm]
      · simp [update, find, same, induction]

variable [Inhabited Data]

/-- An optional tree, which has no children where it is missing. -/
def getAt (path : List Key) (tree : Option (PropertyTree Key Data)) :
    Option (PropertyTree Key Data) :=
  tree.bind (get path)

theorem get_put (value : PropertyTree Key Data) (path : List Key)
    (tree : Option (PropertyTree Key Data)) :
    get path (put value path tree) = some value := by
  induction path generalizing tree with
  | nil => rfl
  | cons key path induction =>
      cases tree with
      | none => simp [put, get, find_update, induction]
      | some tree => simp [put, get, find_update, induction]

/-- Nothing changes at a path that is neither above nor below. -/
theorem get_put_other (value : PropertyTree Key Data)
    {path other : List Key} (apart : ¬ path <+: other)
    (apart' : ¬ other <+: path) (tree : Option (PropertyTree Key Data)) :
    get other (put value path tree) = getAt other tree := by
  induction path generalizing other tree with
  | nil => exact absurd (List.nil_prefix) apart
  | cons key path induction =>
      cases other with
      | nil => exact absurd (List.nil_prefix) apart'
      | cons first other =>
          by_cases same : first = key
          · subst first
            have deeper : ∀ child : Option (PropertyTree Key Data),
                get other (put value path child) = getAt other child := by
              intro child
              apply induction
              · intro before
                exact apart ((List.prefix_cons_inj key).mpr before)
              · intro before
                exact apart' ((List.prefix_cons_inj key).mpr before)
            cases tree with
            | none =>
                simp [put, get, getAt, find_update, deeper, find]
            | some tree =>
                simp only [put, get, getAt, children_node, find_update,
                  deeper, Option.bind_some]
                cases find key tree.children with
                | none => rfl
                | some child => rfl
          · cases tree with
            | none =>
                simp [put, get, getAt, find_update_other same, find]
            | some tree =>
                simp [put, get, getAt, find_update_other same]

end PropertyTree

end Bacs.Foundation
