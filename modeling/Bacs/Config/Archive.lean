import Bacs.Config.Types
import Bacs.Foundation.PropertyTree

/-!
# The input and output archives

What is written to a property tree is text.  Most integers are read in the
base that their prefix tells; the wrapper that is used for this leaves bools
and integers of eight bits to the stream, which reads a number without
letters and a single character.
-/

namespace Bacs.Config

open Foundation

abbrev Ptree := PropertyTree Text Text

inductive Error where
  /-- `ptree_bad_data` -/
  | badData (data : Text)
  | variantLoadNoKey
  | variantLoadMultipleKeys
  | variantLoadInvalidKey (key : Text) (message : String)
  deriving DecidableEq, Repr

/-! ## Text -/

/-- `stream >> value`, and what is left in the stream. -/
def extractInteger (basefield : Basefield) (signed : Bool) (width : Width)
    (text : Text) : Option (Integer signed width × Text) :=
  match extractNumeral basefield text with
  | none => none
  | some numeral =>
      let magnitude : Int := numeral.magnitude
      let number : Int :=
        if numeral.negative = false then magnitude
        else if signed then -magnitude
        else (2 ^ width.bits - magnitude) % 2 ^ width.bits
      if signed = false ∧ greatest signed width < magnitude then none
      else if inRange : InRange signed width number then
        some (⟨number, inRange⟩, numeral.rest)
      else none

/-- The integer of eight bits whose code a character has. -/
def ofCode (signed : Bool) (code : Nat) : Option (Integer signed .w8) :=
  let number : Int :=
    if signed ∧ 128 ≤ code % 256 then code % 256 - 256 else code % 256
  if inRange : InRange signed .w8 number then some ⟨number, inRange⟩ else none

/-- `stream >> character` -/
def extractCharacter (signed : Bool) (text : Text) :
    Option (Integer signed .w8 × Text) :=
  match text.dropWhile isSpace with
  | [] => none
  | character :: rest =>
      (ofCode signed character.toNat).map fun number => (number, rest)

/-- `stream >> value` of a bool, which is a number without `boolalpha`. -/
def extractBool (text : Text) : Option (Bool × Text) :=
  match extractNumeral .unset text with
  | none => none
  | some numeral =>
      if numeral.magnitude = 0 then some (false, numeral.rest)
      else if numeral.magnitude = 1 ∧ numeral.negative = false then
        some (true, numeral.rest)
      else none

/-- `stream >> wrapper`, without a base. -/
def extractWrapped (signed : Bool) :
    (width : Width) → Text → Option (Integer signed width × Text)
  | .w8, text => extractCharacter signed text
  | .w16, text => extractInteger .unset signed .w16 text
  | .w32, text => extractInteger .unset signed .w32 text
  | .w64, text => extractInteger .unset signed .w64 text

/-- `get_value`: nothing but spaces may be left in the stream. -/
def getValue {α : Type} (extract : Text → Option (α × Text))
    (tree : Ptree) : Except Error α :=
  match extract tree.data with
  | some (value, rest) =>
      if rest.dropWhile isSpace = [] then .ok value
      else .error (.badData tree.data)
  | none => .error (.badData tree.data)

/-! ## Saving -/

def printBool (value : Bool) : Text :=
  if value then ['t', 'r', 'u', 'e'] else ['f', 'a', 'l', 's', 'e']

/-- `put_child`, into a tree that is there. -/
def putChild (path : Text) (child tree : Ptree) : Ptree :=
  PropertyTree.put child (components path) (some tree)

mutual

def Ty.save : (type : Ty) → type.Value → Ptree
  | .bool, value => .leaf (printBool value)
  | .integer _ _, value => .leaf (printInteger value.1)
  | .string, value => .leaf value
  | .path, value => .leaf value
  | .duration _ _, value => .leaf (printInteger value.1)
  | .vector element, values =>
      .node [] (List.map (fun value => ([], element.save value)) values)
  | .set element, values =>
      .node [] (List.map (fun value => ([], element.save value)) values)
  | .map mapped, values =>
      .node [] (List.map
        (fun ((key, value) : Text × mapped.Value) => (key, mapped.save value))
        values)
  | .variant alternatives, value =>
      let chosen : Text × Ptree := alternatives.save value
      putChild chosen.1 chosen.2 (.leaf [])
  | .record fields, value => fields.save value (.leaf [])

/-- The key of the alternative that is saved, and its tree. -/
def Alternatives.save :
    (alternatives : Alternatives) → alternatives.Value → Text × Ptree
  | .last key type, value => (key, type.save value)
  | .cons key type _, .inl value => (key, type.save value)
  | .cons _ _ rest, .inr value => rest.save value

/-- One field after another is put into the tree, unless it is optional and
there is no value. -/
def Fields.save : (fields : Fields) → fields.Value → Ptree → Ptree
  | .nil, _, tree => tree
  | .required name type rest, (value, values), tree =>
      rest.save values (putChild name.text (type.save value) tree)
  | .optional _ _ rest, (none, values), tree => rest.save values tree
  | .optional name type rest, (some value, values), tree =>
      rest.save values (putChild name.text (type.save value) tree)

end

/-! ## Loading -/

/-- Load the children of a tree, one after another. -/
def loadChildren {α : Type} (load : Text → Ptree → Except Error α)
    (tree : Ptree) : Except Error (List α) :=
  tree.children.mapM fun child => load child.1 child.2

variable (classes : Classes)

mutual

def Ty.load : (type : Ty) → Ptree → Except Error type.Value
  | .bool, tree => getValue extractBool tree
  | .integer signed width, tree => getValue (extractWrapped signed width) tree
  | .string, tree => .ok tree.data
  | .path, tree => .ok tree.data
  | .duration signed width, tree =>
      getValue (extractInteger .dec signed width) tree
  | .vector element, tree =>
      loadChildren (fun _ child => element.load child) tree
  | .set element, tree =>
      (loadChildren (fun _ child => element.load child) tree).map
        (insertAll (classes.less element))
  | .map mapped, tree =>
      (loadChildren (fun key child =>
        (mapped.load child).map fun value => (key, value)) tree).map
        (insertAll fun first second => lessKey first.1 second.1)
  | .variant alternatives, tree =>
      match tree.children with
      | [] => .error .variantLoadNoKey
      | [(key, child)] => alternatives.load key child
      | _ => .error .variantLoadMultipleKeys
  | .record fields, tree => fields.load tree

def Alternatives.load : (alternatives : Alternatives) → Text → Ptree →
    Except Error alternatives.Value
  | .last key type, name, tree =>
      if name = key then type.load tree
      else
        .error (.variantLoadInvalidKey name
          "There is no types left for variant.")
  | .cons key type rest, name, tree =>
      if name = key then (type.load tree).map .inl
      else (rest.load name tree).map .inr

/-- A field that is missing is reset. -/
def Fields.load : (fields : Fields) → Ptree → Except Error fields.Value
  | .nil, _ => .ok ()
  | .required name type rest, tree => do
      let value ←
        match PropertyTree.get (components name.text) tree with
        | some child => type.load child
        | none => .ok (classes.initial type)
      let values ← rest.load tree
      return (value, values)
  | .optional name type rest, tree => do
      let value ←
        match PropertyTree.get (components name.text) tree with
        | some child => (type.load child).map some
        | none => .ok none
      let values ← rest.load tree
      return (value, values)

end

end Bacs.Config
