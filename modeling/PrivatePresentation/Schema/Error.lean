import PrivatePresentation.Canonical

/-!
Why a document is not a schema.
-/

namespace PrivatePresentation

/-- Why a document is not a schema. -/
inductive SchemaError where
  | invalidJson (text : String)
  | canonicalization (cause : CanonicalError)
  | structural (violations : List String)
  | noFields
  | emptyFieldName (index : Nat)
  | duplicateField (name : String)
  | conflictingVisibility (name : String)
  | missingConstraintType (index : Nat)
  | unknownConstraintType (kind : String)
  | unknownField (kind field : String)
  | arity (kind expected : String) (found : Nat)
  | invalidOperator (kind operator : String)
  | missingValue (kind : String)
  | invalidValue (kind reason : String)
  | unsupportedStringOperation (kind field : String)
  | fieldType (kind field expected : String)
  | wallClockAgeConstraint
  | ageFieldNotPublic (field : String)
deriving Repr

/-- The text of the error. -/
def SchemaError.message : SchemaError → String
  | .invalidJson text => "schema is not valid JSON: " ++ text
  | .canonicalization cause => "schema cannot be canonicalized: " ++ cause.message
  | .structural violations => "schema is structurally invalid:\n" ++ "\n".intercalate violations
  | .noFields => "schema must declare at least one field"
  | .emptyFieldName i => "field #" ++ toString i ++ " has an empty name"
  | .duplicateField name => "duplicate field '" ++ name ++ "' in schema"
  | .conflictingVisibility name => "field '" ++ name ++ "' is marked both public and secret"
  | .missingConstraintType i => "constraint #" ++ toString i ++ " must declare a type"
  | .unknownConstraintType kind => "unknown constraint type '" ++ kind ++ "'"
  | .unknownField kind field =>
    "constraint '" ++ kind ++ "' references unknown field '" ++ field ++ "'"
  | .arity kind expected found =>
    "constraint '" ++ kind ++ "' expects " ++ expected ++ " field(s), got " ++ toString found
  | .invalidOperator kind operator =>
    "constraint '" ++ kind ++ "' has invalid operator '" ++ operator ++ "'"
  | .missingValue kind => "constraint '" ++ kind ++ "' is missing its value"
  | .invalidValue kind reason => "constraint '" ++ kind ++ "' has an invalid value: " ++ reason
  | .unsupportedStringOperation kind field =>
    "constraint '" ++ kind ++ "' cannot order string field '" ++ field ++
      "'; only eq/ne apply to strings"
  | .fieldType kind field expected =>
    "constraint '" ++ kind ++ "' requires field '" ++ field ++ "' to be " ++ expected
  | .wallClockAgeConstraint =>
    "age_verification over [birth_year, birth_month, birth_day] needs the current date as " ++
      "public inputs; list current_year, current_month, current_day in the constraint"
  | .ageFieldNotPublic field =>
    "age_verification current-date field '" ++ field ++ "' must be public"

instance : ToString SchemaError := ⟨SchemaError.message⟩

end PrivatePresentation
