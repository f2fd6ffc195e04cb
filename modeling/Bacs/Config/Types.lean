import Bacs.Foundation.Numeral
import Bacs.Foundation.OrderedSet

/-!
# Types of configurations

A configuration is built from numbers, texts and durations by containers,
variants and records with optional fields.  Its values are given with the
type; what the compiler would reject cannot be written down.
-/

namespace Bacs.Config

open Foundation

abbrev Text := List Char

inductive Width where
  | w8
  | w16
  | w32
  | w64
  deriving DecidableEq, Repr

def Width.bits : Width → Nat
  | .w8 => 8
  | .w16 => 16
  | .w32 => 32
  | .w64 => 64

def least (signed : Bool) (width : Width) : Int :=
  if signed then -2 ^ (width.bits - 1) else 0

def greatest (signed : Bool) (width : Width) : Int :=
  if signed then 2 ^ (width.bits - 1) - 1 else 2 ^ width.bits - 1

def InRange (signed : Bool) (width : Width) (number : Int) : Prop :=
  least signed width ≤ number ∧ number ≤ greatest signed width

instance (signed : Bool) (width : Width) (number : Int) :
    Decidable (InRange signed width number) := instDecidableAnd

def Integer (signed : Bool) (width : Width) : Type :=
  { number : Int // InRange signed width number }

instance (signed : Bool) (width : Width) :
    DecidableEq (Integer signed width) :=
  inferInstanceAs (DecidableEq (Subtype (InRange signed width)))

/-- A path in a property tree: it is not empty and does not end with a dot,
which the property tree asserts when it is walked. -/
structure Name where
  text : Text
  isPath : text ≠ [] ∧ text.getLast? ≠ some '.'

def components (path : Text) : List Text :=
  path.splitOn '.'

mutual

inductive Ty where
  | bool
  | integer (signed : Bool) (width : Width)
  | string
  | path
  | duration (signed : Bool) (width : Width)
  | vector (element : Ty)
  | set (element : Ty)
  | map (mapped : Ty)
  | variant (alternatives : Alternatives)
  | record (fields : Fields)

inductive Alternatives where
  | last (key : Text) (type : Ty)
  | cons (key : Text) (type : Ty) (rest : Alternatives)

inductive Fields where
  | nil
  | required (name : Name) (type : Ty) (rest : Fields)
  | optional (name : Name) (type : Ty) (rest : Fields)

end

mutual

/-- Sets and maps are the lists of their elements in their order. -/
def Ty.Value : Ty → Type
  | .bool => Bool
  | .integer signed width => Integer signed width
  | .string => Text
  | .path => Text
  | .duration signed width => Integer signed width
  | .vector element => List element.Value
  | .set element => List element.Value
  | .map mapped => List (Text × mapped.Value)
  | .variant alternatives => alternatives.Value
  | .record fields => fields.Value

def Alternatives.Value : Alternatives → Type
  | .last _ type => type.Value
  | .cons _ type rest => type.Value ⊕ rest.Value

def Fields.Value : Fields → Type
  | .nil => Unit
  | .required _ type rest => type.Value × rest.Value
  | .optional _ type rest => Option type.Value × rest.Value

end

def Alternatives.keys : Alternatives → List Text
  | .last key _ => [key]
  | .cons key _ rest => key :: rest.keys

def Fields.names : Fields → List Name
  | .nil => []
  | .required name _ rest => name :: rest.names
  | .optional name _ rest => name :: rest.names

/-- Neither name is the other, or the other followed by a dot and more. -/
def Apart (first second : Name) : Prop :=
  ¬ components first.text <+: components second.text ∧
    ¬ components second.text <+: components first.text

instance (first second : Name) : Decidable (Apart first second) :=
  instDecidableAnd

mutual

/-- The keys of a variant are distinct, not empty and without dots, and the
names of the fields of a record are apart. -/
def Ty.WellFormed : Ty → Prop
  | .bool => True
  | .integer _ _ => True
  | .string => True
  | .path => True
  | .duration _ _ => True
  | .vector element => element.WellFormed
  | .set element => element.WellFormed
  | .map mapped => mapped.WellFormed
  | .variant alternatives =>
      alternatives.keys.Nodup ∧
        (∀ key ∈ alternatives.keys, key ≠ [] ∧ '.' ∉ key) ∧
          alternatives.WellFormed
  | .record fields => fields.names.Pairwise Apart ∧ fields.WellFormed

def Alternatives.WellFormed : Alternatives → Prop
  | .last _ type => type.WellFormed
  | .cons _ type rest => type.WellFormed ∧ rest.WellFormed

def Fields.WellFormed : Fields → Prop
  | .nil => True
  | .required _ type rest => type.WellFormed ∧ rest.WellFormed
  | .optional _ type rest => type.WellFormed ∧ rest.WellFormed

end

/-- What the classes that are saved and loaded bring along. -/
structure Classes where
  /-- The value that the default constructor makes. -/
  initial : ∀ type : Ty, type.Value
  less : ∀ type : Ty, type.Value → type.Value → Bool
  asymmetric : ∀ type first second,
    less type first second = true → less type second first = false

def All {α : Type} (property : α → Prop) (values : List α) : Prop :=
  ∀ value ∈ values, property value

def lessKey (first second : Text) : Bool :=
  first < second

variable (classes : Classes)

mutual

/-- Sets and maps are ordered. -/
def Ty.Valid : (type : Ty) → type.Value → Prop
  | .bool, _ => True
  | .integer _ _, _ => True
  | .string, _ => True
  | .path, _ => True
  | .duration _ _, _ => True
  | .vector element, values => All element.Valid values
  | .set element, values =>
      Ordered (classes.less element) values ∧ All element.Valid values
  | .map mapped, values =>
      Ordered (fun first second => lessKey first.1 second.1) values ∧
        All (fun (_, value) => mapped.Valid value) values
  | .variant alternatives, value => alternatives.Valid value
  | .record fields, value => fields.Valid value

def Alternatives.Valid :
    (alternatives : Alternatives) → alternatives.Value → Prop
  | .last _ type, value => type.Valid value
  | .cons _ type _, .inl value => type.Valid value
  | .cons _ _ rest, .inr value => rest.Valid value

def Fields.Valid : (fields : Fields) → fields.Value → Prop
  | .nil, _ => True
  | .required _ type rest, (value, values) =>
      type.Valid value ∧ rest.Valid values
  | .optional _ type rest, (value, values) =>
      (∀ present, value = some present → type.Valid present) ∧
        rest.Valid values

end

mutual

/-- Nothing is stored as a bool or as an integer of eight bits. -/
def Ty.Storable : (type : Ty) → type.Value → Prop
  | .bool, _ => False
  | .integer _ width, _ => width ≠ .w8
  | .string, _ => True
  | .path, _ => True
  | .duration _ _, _ => True
  | .vector element, values => All element.Storable values
  | .set element, values => All element.Storable values
  | .map mapped, values =>
      All (fun (_, value) => mapped.Storable value) values
  | .variant alternatives, value => alternatives.Storable value
  | .record fields, value => fields.Storable value

def Alternatives.Storable :
    (alternatives : Alternatives) → alternatives.Value → Prop
  | .last _ type, value => type.Storable value
  | .cons _ type _, .inl value => type.Storable value
  | .cons _ _ rest, .inr value => rest.Storable value

def Fields.Storable : (fields : Fields) → fields.Value → Prop
  | .nil, _ => True
  | .required _ type rest, (value, values) =>
      type.Storable value ∧ rest.Storable values
  | .optional _ type rest, (value, values) =>
      (∀ present, value = some present → type.Storable present) ∧
        rest.Storable values

end

end Bacs.Config
