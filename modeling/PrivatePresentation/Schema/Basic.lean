import PrivatePresentation.Hash.ContentDigest

/-!
Schemas. A schema declares typed fields, each of them secret or disclosed, and constraints over them:
a range, a comparison, or a minimum age on a given date. Disclosed fields are the public inputs of a
proof, secret ones are known to the holder alone.
-/

namespace PrivatePresentation

/-- The type of a field. -/
inductive FieldType where
  | integer
  | number
  | boolean
  | string
  | date
deriving DecidableEq, Repr, Inhabited

namespace FieldType

/-- The name of a type. -/
def name : FieldType → String
  | .integer => "integer"
  | .number => "number"
  | .boolean => "boolean"
  | .string => "string"
  | .date => "date"

/-- The type of a name; no name at all means a string. -/
def ofName? (s : String) : Option FieldType :=
  if s = "integer" then some .integer
  else if s = "number" then some .number
  else if s = "boolean" then some .boolean
  else if s = "" ∨ s = "string" then some .string
  else if s = "date" then some .date
  else none

/-- Integers and numbers. -/
def isNumeric : FieldType → Bool
  | .integer | .number => true
  | _ => false

/-- Strings enter a proof as their hash. -/
def isHashed : FieldType → Bool
  | .string => true
  | _ => false

end FieldType

/-- Who gets to see a field. -/
inductive Visibility where
  | secret
  | disclosed
deriving DecidableEq, Repr, Inhabited

/-- A declared field. -/
structure FieldDecl where
  name : String
  type : FieldType
  required : Bool
  visibility : Visibility
  description : String
deriving DecidableEq, Repr, Inhabited

/-- The field is a public input. -/
def FieldDecl.isPublic (f : FieldDecl) : Bool := f.visibility == .disclosed

/-- How two values are compared. -/
inductive Comparator where
  | greaterEqual
  | greaterThan
  | lessEqual
  | lessThan
  | equal
  | notEqual
deriving DecidableEq, Repr, Inhabited

namespace Comparator

/-- The short name of a comparator. -/
def name : Comparator → String
  | .greaterEqual => "ge"
  | .greaterThan => "gt"
  | .lessEqual => "le"
  | .lessThan => "lt"
  | .equal => "eq"
  | .notEqual => "ne"

/-- The long name of a comparator. -/
def longName : Comparator → String
  | .greaterEqual => "greater_equal"
  | .greaterThan => "greater_than"
  | .lessEqual => "less_equal"
  | .lessThan => "less_than"
  | .equal => "equal"
  | .notEqual => "not_equal"

/-- Every comparator. -/
def all : List Comparator :=
  [.greaterEqual, .greaterThan, .lessEqual, .lessThan, .equal, .notEqual]

/-- The comparator of a short or long name, with white space around it. -/
def ofName? (s : String) : Option Comparator :=
  let s := Text.trim s
  all.find? fun c => c.name == s || c.longName == s

/-- The comparators that make sense of strings. -/
def isEquality : Comparator → Bool
  | .equal | .notEqual => true
  | _ => false

end Comparator

/-- A constant that a field is compared with. -/
inductive Literal where
  | integer (value : Int)
  | text (value : String)
deriving DecidableEq, Repr, Inhabited

/-- The right-hand side of a comparison. -/
inductive Operand where
  | field (name : String)
  | literal (value : Literal)
deriving DecidableEq, Repr, Inhabited

/-- Three fields that hold a date. -/
structure DateFields where
  year : String
  month : String
  day : String
deriving DecidableEq, Repr, Inhabited

/-- The names of the three fields, the year first. -/
def DateFields.names (d : DateFields) : List String := [d.year, d.month, d.day]

/-- What a constraint demands. -/
inductive Demand where
  /-- The field lies between two bounds, both included. -/
  | range (field : String) (min max : Int)
  /-- Two values compare as told. -/
  | comparison (left : String) (comparator : Comparator) (right : Operand)
  /-- The holder born on `birth` is at least `minAge` years old on `current`. -/
  | age (birth current : DateFields) (minAge : Int) (upgraded : Bool)
deriving DecidableEq, Repr, Inhabited

/-- A constraint: what it demands, and the words for its failure. -/
structure Constraint where
  demand : Demand
  message : Option String
deriving DecidableEq, Repr, Inhabited

namespace Demand

/-- The name of the kind of constraint. -/
def kind : Demand → String
  | .range .. => "range_check"
  | .comparison .. => "comparison"
  | .age .. => "age_verification"

/-- The fields that a constraint reads, in order. -/
def fields : Demand → List String
  | .range field _ _ => [field]
  | .comparison left _ (.field right) => [left, right]
  | .comparison left _ (.literal _) => [left]
  | .age birth current _ _ => birth.names ++ current.names

end Demand

/-- A schema with its canonical text and the hash of that text. -/
structure Schema where
  id : String
  version : String
  fields : List FieldDecl
  constraints : List Constraint
  canonical : CanonicalText
  hash : ContentDigest
deriving DecidableEq, Repr, Inhabited

namespace Schema

/-- The declared field of a name. -/
def field? (s : Schema) (name : String) : Option FieldDecl := s.fields.find? (·.name == name)

/-- The disclosed fields in the order of their declaration. -/
def publicFields (s : Schema) : List FieldDecl := s.fields.filter (·.isPublic)

/-- The secret fields in the order of their declaration. -/
def secretFields (s : Schema) : List FieldDecl := s.fields.filter (!·.isPublic)

end Schema
end PrivatePresentation
