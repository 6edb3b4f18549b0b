import PrivatePresentation.Json.Writer

/-!
The structure of schema documents. A shape says which types a value may have and what the parts of a
container look like; checking a value against a shape lists every violation with the place it is at.
A container of the wrong type is one violation, whatever it holds.
-/

namespace PrivatePresentation.Structure

/-- The types that structures tell apart. -/
inductive TypeName where
  | array
  | boolean
  | integer
  | object
  | string
deriving DecidableEq, Repr

/-- The name of a type. -/
def TypeName.text : TypeName → String
  | .array => "array"
  | .boolean => "boolean"
  | .integer => "integer"
  | .object => "object"
  | .string => "string"

/-- The value has the type. -/
def TypeName.holds : TypeName → Json → Bool
  | .array, .array _ => true
  | .boolean, .bool _ => true
  | .integer, .number (.integer _ _) => true
  | .integer, .number (.float x) => x.isWhole
  | .object, .object _ => true
  | .string, .string _ => true
  | _, _ => false

/-- What a value has to look like. -/
inductive Shape where
  /-- One of some types. -/
  | types (names : List TypeName)
  /-- One of some texts. -/
  | oneOf (texts : List String)
  /-- An array with items of one shape. -/
  | array (item : Shape)
  /-- An object with shapes for some of its members, and members that must be there. -/
  | object (properties : List (String × Shape)) (required : List String)

/-- A text in quotes, as it stands in a list of names. -/
def quote (s : String) : String := String.ofList (Json.writeString s)

/-- The line for a value of the wrong type. -/
def typeViolation (v : Json) : List TypeName → String
  | [t] => v.compact ++ " is not of type " ++ quote t.text
  | names =>
    v.compact ++ " is not of types " ++ ", ".intercalate (names.map fun t => quote t.text)

/-- A line with its place; the document itself is at a slash. -/
def line (place text : String) : String := (if place.isEmpty then "/" else place) ++ ": " ++ text

/-- The violations of the members that have to be there. -/
def requiredViolations (place : String) (members : Json.Members) : List String → List String
  | [] => []
  | name :: rest =>
    if Json.Members.contains name members then requiredViolations place members rest
    else
      line place (quote name ++ " is a required property") ::
        requiredViolations place members rest

/-- The violations of each item of an array. -/
def itemViolations (check : String → Json → List String) (place : String) :
    Nat → List Json → List String
  | _, [] => []
  | i, item :: rest =>
    check (place ++ "/" ++ toString i) item ++ itemViolations check place (i + 1) rest

mutual
/-- Every violation of a shape, in the order of the properties. -/
def Shape.violations : Shape → String → Json → List String
  | .types names, place, v =>
    if names.any (·.holds v) then [] else [line place (typeViolation v names)]
  | .oneOf texts, place, v =>
    match v with
    | .string s =>
      if texts.contains s then []
      else [line place (v.compact ++ " is not one of " ++ (Json.array (texts.map .string)).compact)]
    | v => [line place (v.compact ++ " is not one of " ++ (Json.array (texts.map .string)).compact)]
  | .array item, place, v =>
    match v with
    | .array items => itemViolations (fun place v => Shape.violations item place v) place 0 items
    | v => [line place (typeViolation v [.array])]
  | .object properties required, place, v =>
    match v with
    | .object members =>
      memberViolations properties place members ++ requiredViolations place members required
    | v => [line place (typeViolation v [.object])]

/-- The violations of the members that have a shape. -/
def memberViolations : List (String × Shape) → String → Json.Members → List String
  | [], _, _ => []
  | (name, shape) :: rest, place, members =>
    (match Json.Members.get? name members with
      | some v => Shape.violations shape (place ++ "/" ++ name) v
      | none => []) ++ memberViolations rest place members
end

/-- A declared field. -/
def fieldShape : Shape :=
  .object [
    ("description", .types [.string]),
    ("name", .types [.string]),
    ("public", .types [.boolean]),
    ("required", .types [.boolean]),
    ("secret", .types [.boolean]),
    ("type", .oneOf ["", "integer", "number", "boolean", "string", "date"])] ["name"]

/-- A constraint. -/
def constraintShape : Shape :=
  .object [
    ("error_message", .types [.string]),
    ("fields", .array (.types [.string])),
    ("operator", .types [.string]),
    ("type", .types [.string]),
    ("value", .types [.array, .boolean, .integer, .string])] []

/-- A whole schema. -/
def schemaShape : Shape :=
  .object [
    ("constraints", .array constraintShape),
    ("fields", .array fieldShape),
    ("schema_id", .types [.string]),
    ("version", .types [.string])] ["fields"]

end PrivatePresentation.Structure
