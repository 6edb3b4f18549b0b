import PrivatePresentation.Json.Writer
import PrivatePresentation.Json.Reader

/-!
Drafts: the parts of a schema document with their types, before any rule of meaning is checked.
Properties that are not given have their defaults, and unknown ones are passed over.
-/

namespace PrivatePresentation

/-- A field as written. -/
structure FieldDraft where
  name : String
  type : String
  required : Bool
  secret : Option Bool
  isPublic : Bool
  description : String
deriving Repr

/-- A constraint as written. -/
structure ConstraintDraft where
  kind : String
  fields : List String
  operator : String
  value : Option Json
  message : String
deriving Repr

/-- A schema as written. -/
structure SchemaDraft where
  id : String
  version : String
  fields : List FieldDraft
  constraints : List ConstraintDraft
deriving Repr

namespace Draft

/-- What a value is, in the words of a type fault. -/
def found : Json → Json.Found
  | .null => .null
  | .bool b => .bool b
  | .number n => .number n
  | .string s => .string s
  | .array _ => .sequence
  | .object _ => .map

/-- The fault of a value of another type. -/
def mismatch {α : Type} (v : Json) (expected : String) : Except Json.Cause α :=
  .error (.invalidType (found v) expected)

/-- A text. -/
def text : Json → Except Json.Cause String
  | .string s => .ok s
  | v => mismatch v "a string"

/-- A truth value. -/
def flag : Json → Except Json.Cause Bool
  | .bool b => .ok b
  | v => mismatch v "a boolean"

/-- A list of one kind of parts. -/
def list {α : Type} (part : Json → Except Json.Cause α) : Json → Except Json.Cause (List α)
  | .array items => items.mapM part
  | v => mismatch v "a sequence"

/-- A property, or its default. -/
def property {α : Type} (read : Json → Except Json.Cause α) (missing : α) (members : Json.Members)
    (name : String) : Except Json.Cause α :=
  match Json.Members.get? name members with
  | some v => read v
  | none => .ok missing

/-- A property that may be absent or null. -/
def optional {α : Type} (read : Json → Except Json.Cause α) (members : Json.Members)
    (name : String) : Except Json.Cause (Option α) :=
  match Json.Members.get? name members with
  | some .null => .ok none
  | some v => (read v).map some
  | none => .ok none

/-- A field as written. -/
def field : Json → Except Json.Cause FieldDraft
  | .object m => do
    return {
      name := ← property text "" m "name"
      type := ← property text "" m "type"
      required := ← property flag false m "required"
      secret := ← optional flag m "secret"
      isPublic := ← property flag false m "public"
      description := ← property text "" m "description" }
  | v => mismatch v "an object"

/-- A constraint as written. -/
def constraint : Json → Except Json.Cause ConstraintDraft
  | .object m => do
    return {
      kind := ← property text "" m "type"
      fields := ← property (list text) [] m "fields"
      operator := ← property text "" m "operator"
      value := ← optional .ok m "value"
      message := ← property text "" m "error_message" }
  | v => mismatch v "an object"

/-- A schema as written. -/
def schema : Json → Except Json.Cause SchemaDraft
  | .object m => do
    return {
      id := ← property text "" m "schema_id"
      version := ← property text "" m "version"
      fields := ← property (list field) [] m "fields"
      constraints := ← property (list constraint) [] m "constraints" }
  | v => mismatch v "an object"

end Draft
end PrivatePresentation
