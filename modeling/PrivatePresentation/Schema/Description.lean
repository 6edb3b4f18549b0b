import PrivatePresentation.Schema.Basic

/-!
Schemas as JSON values, for tools that show them.
-/

namespace PrivatePresentation

/-- A list of texts. -/
def Json.texts (ss : List String) : Json := .array (ss.map .string)

/-- The name of a visibility. -/
def Visibility.name : Visibility → String
  | .secret => "secret"
  | .disclosed => "public"

/-- A declared field. -/
def FieldDecl.toJson (f : FieldDecl) : Json :=
  .ofMembers [("name", .string f.name), ("type", .string f.type.name),
    ("required", .bool f.required), ("visibility", .string f.visibility.name),
    ("description", .string f.description)]

/-- What a field is, without its name. -/
def FieldDecl.summary (f : FieldDecl) : Json :=
  .ofMembers [("type", .string f.type.name), ("public", .bool f.isPublic),
    ("required", .bool f.required)]

/-- A type of fields. -/
def FieldType.toJson (t : FieldType) : Json :=
  .ofMembers [("type", .string t.name), ("numeric", .bool t.isNumeric), ("hashed", .bool t.isHashed)]

/-- A comparator. -/
def Comparator.toJson (c : Comparator) : Json :=
  .ofMembers [("operator", .string c.name), ("equality", .bool c.isEquality)]

/-- The right-hand side of a comparison. -/
def Operand.toJson : Operand → Json
  | .field name => .ofMembers [("field", .string name)]
  | .literal (.integer n) => .ofMembers [("integer", .int n)]
  | .literal (.text s) => .ofMembers [("text", .string s)]

/-- What is particular to a kind of constraint. -/
def Demand.details : Demand → List (String × Json)
  | .range field min max => [("field", .string field), ("min", .int min), ("max", .int max)]
  | .comparison left comparator right =>
    [("left", .string left), ("operator", .string comparator.name), ("right", right.toJson)]
  | .age birth current minAge upgraded =>
    [("birth", .texts birth.names), ("current", .texts current.names), ("min_age", .int minAge),
      ("upgraded_from_legacy", .bool upgraded)]

/-- A constraint. -/
def Constraint.toJson (c : Constraint) : Json :=
  .ofMembers ([("kind", .string c.demand.kind), ("fields", .texts c.demand.fields),
    ("error_message", Json.ofText? c.message)] ++ c.demand.details)

/-- A schema. -/
def Schema.toJson (s : Schema) : Json :=
  .ofMembers [("schema_id", .string s.id), ("version", .string s.version),
    ("fields", .array (s.fields.map (·.toJson))),
    ("constraints", .array (s.constraints.map (·.toJson))),
    ("secret_order", .texts (s.secretFields.map (·.name))),
    ("public_order", .texts (s.publicFields.map (·.name))),
    ("canonical", .string s.canonical.text), ("hash", .string s.hash.text)]

end PrivatePresentation
