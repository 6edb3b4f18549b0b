import PrivatePresentation.Decimal.Integer
import PrivatePresentation.Json.Reader
import PrivatePresentation.Schema.Basic
import PrivatePresentation.Schema.Draft
import PrivatePresentation.Schema.Error
import PrivatePresentation.Schema.Structure
import PrivatePresentation.Time.Reader

/-!
From documents to schemas. A document is read, brought to canonical form, checked for its structure,
and then for its meaning: first the fields in order, then the constraints in order. The first fault is
the answer, except that all violations of the structure are told at once.
-/

namespace PrivatePresentation.Schema

/-- The fields that an age constraint over birth fields alone takes for the current date. -/
def currentDateFields : List String := ["current_year", "current_month", "current_day"]

/-- The greatest minimum age. -/
def maxMinAge : Int := 150

/-- The declared field of one draft, given the names before it. -/
def checkField (index : Nat) (seen : List String) (d : FieldDraft) : Except SchemaError FieldDecl :=
  if Text.isBlankText d.name then .error (.emptyFieldName index)
  else if d.name ∈ seen then .error (.duplicateField d.name)
  else if d.isPublic && d.secret == some true then .error (.conflictingVisibility d.name)
  else
    .ok {
      name := d.name
      type := (FieldType.ofName? d.type).getD .string
      required := d.required
      visibility := if d.isPublic then .disclosed else .secret
      description := d.description }

/-- The declared fields of drafts, in order. -/
def checkFieldsFrom : Nat → List String → List FieldDraft → Except SchemaError (List FieldDecl)
  | _, _, [] => .ok []
  | index, seen, d :: rest => do
    let field ← checkField index seen d
    let fields ← checkFieldsFrom (index + 1) (d.name :: seen) rest
    return field :: fields

/-- The declared fields of a schema; there is at least one. -/
def checkFields (drafts : List FieldDraft) : Except SchemaError (List FieldDecl) :=
  if drafts.isEmpty then .error .noFields else checkFieldsFrom 0 [] drafts

/-- The declared field of a name. -/
def findField (fields : List FieldDecl) (name : String) : Option FieldDecl :=
  fields.find? (·.name == name)

/-- The first name that no field has. -/
def unknownName? (fields : List FieldDecl) (names : List String) : Option String :=
  names.find? fun name => (findField fields name).isNone

/-- The declared field of a name that is known to be declared. -/
def declared (fields : List FieldDecl) (kind name : String) : Except SchemaError FieldDecl :=
  match findField fields name with
  | some f => .ok f
  | none => .error (.unknownField kind name)

/-- The bounds of a range. -/
def rangeBounds (kind : String) : Option Json → Except SchemaError (Int × Int)
  | none => .error (.missingValue kind)
  | some (.array [low, high]) =>
    match low.signed?, high.signed? with
    | some min, some max =>
      if max < min then .error (.invalidValue kind "range lower bound exceeds upper bound")
      else .ok (min, max)
    | _, _ => .error (.invalidValue kind "range bounds must be whole numbers")
  | some _ => .error (.invalidValue kind "expected a two-element array [min, max]")

/-- A range over one field. -/
def checkRange (fields : List FieldDecl) (kind : String) (d : ConstraintDraft) :
    Except SchemaError Demand :=
  match d.fields with
  | [name] => do
    if Text.trim d.operator ≠ "" ∧ Text.trim d.operator ≠ "between" then
      throw (.invalidOperator kind d.operator)
    let field ← declared fields kind name
    if field.type.isHashed then throw (.unsupportedStringOperation kind name)
    let (min, max) ← rangeBounds kind d.value
    return .range name min max
  | names => .error (.arity kind "exactly 1" names.length)

/-- An integer of 64 bits in a text with white space around it. -/
def integerText? (s : String) : Option Int :=
  Decimal.integerWithin? Json.minSigned Json.maxSigned (Text.trim s)

/-- The constant of a comparison, typed by the field it is compared with. -/
def literalFor (kind : String) (field : FieldDecl) (v : Json) : Except SchemaError Literal :=
  let invalid (reason : String) : Except SchemaError Literal := .error (.invalidValue kind reason)
  match field.type, v with
  | .string, .string s => .ok (.text s)
  | .string, v =>
    invalid ("string field '" ++ field.name ++
      "' must be compared with a string literal, got " ++ v.compact)
  | .boolean, .bool b => .ok (.integer (if b then 1 else 0))
  | .date, .string s =>
    match Timestamp.parseDate s with
    | .ok t => .ok (.integer t.seconds)
    | .error e => invalid e.message
  | _, .number n =>
    match (Json.number n).signed? with
    | some i => .ok (.integer i)
    | none => invalid ("literal " ++ (Json.number n).compact ++ " is not a whole number")
  | _, .string s =>
    match integerText? s with
    | some i => .ok (.integer i)
    | none => invalid ("literal " ++ Text.quoted s ++ " is not numeric")
  | _, v =>
    invalid ("literal " ++ v.compact ++ " cannot be compared with " ++ field.type.name ++
      " field '" ++ field.name ++ "'")

/-- The right-hand side of a comparison: another field of the same sort, or a constant. -/
def checkOperand (fields : List FieldDecl) (kind : String) (left : FieldDecl)
    (d : ConstraintDraft) : Except SchemaError Operand :=
  match d.fields with
  | [_] =>
    match d.value with
    | none => .error (.missingValue kind)
    | some v => do return .literal (← literalFor kind left v)
  | [_, name] => do
    let right ← declared fields kind name
    if left.type.isHashed ≠ right.type.isHashed then
      let other := if left.type.isHashed then right else left
      throw (.fieldType kind other.name "a string when compared with a string")
    return .field name
  | names => .error (.arity kind "1 or 2" names.length)

/-- A comparison of a field with another one or with a constant. -/
def checkComparison (fields : List FieldDecl) (kind : String) (d : ConstraintDraft) :
    Except SchemaError Demand :=
  match Comparator.ofName? d.operator, d.fields with
  | none, _ => .error (.invalidOperator kind d.operator)
  | some _, [] => .error (.arity kind "1 or 2" 0)
  | some comparator, name :: _ => do
    let left ← declared fields kind name
    let right ← checkOperand fields kind left d
    if left.type.isHashed && !comparator.isEquality then
      throw (.unsupportedStringOperation kind name)
    return .comparison name comparator right

/-- The six fields of an age constraint, and whether the current date was left to its usual names. -/
def ageFields (fields : List FieldDecl) (kind : String) :
    List String → Except SchemaError (DateFields × DateFields × Bool)
  | [y, m, d, currentYear, currentMonth, currentDay] =>
    .ok (⟨y, m, d⟩, ⟨currentYear, currentMonth, currentDay⟩, false)
  | [y, m, d] =>
    if currentDateFields.all fun name => (findField fields name).any (·.isPublic) then
        .ok (⟨y, m, d⟩, ⟨"current_year", "current_month", "current_day"⟩, true)
    else .error .wallClockAgeConstraint
  | names => .error (.arity kind "6 (birth y/m/d, current y/m/d)" names.length)

/-- Every field of an age constraint is numeric, and those of the current date are public. -/
def checkAgeFields (fields : List FieldDecl) (kind : String) :
    Bool → List String → Except SchemaError Unit
  | _, [] => .ok ()
  | current, name :: rest => do
    let field ← declared fields kind name
    if !field.type.isNumeric then throw (.fieldType kind name "integer or number")
    if current && !field.isPublic then throw (.ageFieldNotPublic name)
    checkAgeFields fields kind current rest

/-- A minimum age. -/
def minimumAge (kind : String) (value : Option Json) : Except SchemaError Int :=
  let age? :=
    match value with
    | some (.string s) => integerText? s
    | some v => v.signed?
    | none => none
  match value, age? with
  | none, _ => .error (.missingValue kind)
  | some _, some age =>
    if 0 ≤ age ∧ age ≤ maxMinAge then .ok age
    else .error (.invalidValue kind "minimum age must be a whole number in 0..=150")
  | some _, none => .error (.invalidValue kind "minimum age must be a whole number in 0..=150")

/-- A minimum age on the current date. -/
def checkAge (fields : List FieldDecl) (kind : String) (d : ConstraintDraft) :
    Except SchemaError Demand := do
  let operator := Text.trim d.operator
  if operator ≠ "" ∧ operator ≠ "ge" ∧ operator ≠ "greater_equal" then
    throw (.invalidOperator kind d.operator)
  let (birth, current, upgraded) ← ageFields fields kind d.fields
  checkAgeFields fields kind false birth.names
  checkAgeFields fields kind true current.names
  let age ← minimumAge kind d.value
  return .age birth current age upgraded

/-- The constraint of one draft. -/
def checkConstraint (fields : List FieldDecl) (index : Nat) (d : ConstraintDraft) :
    Except SchemaError Constraint := do
  let kind := Text.trim d.kind
  if kind = "" then throw (.missingConstraintType index)
  if d.fields.isEmpty then throw (.arity kind "at least 1" 0)
  if let some name := unknownName? fields d.fields then throw (.unknownField kind name)
  let demand ←
    if kind = "range_check" then checkRange fields kind d
    else if kind = "comparison" then checkComparison fields kind d
    else if kind = "age_verification" then checkAge fields kind d
    else throw (.unknownConstraintType kind)
  return ⟨demand, if d.message = "" then none else some d.message⟩

/-- The constraints of drafts, in order. -/
def checkConstraintsFrom (fields : List FieldDecl) :
    Nat → List ConstraintDraft → Except SchemaError (List Constraint)
  | _, [] => .ok []
  | index, d :: rest => do
    let c ← checkConstraint fields index d
    let cs ← checkConstraintsFrom fields (index + 1) rest
    return c :: cs

/-- The schema of a canonical value and its text. -/
def ofCanonical (v : Json) (canonical : CanonicalText) : Except SchemaError Schema := do
  let violations := Structure.schemaShape.violations "" v
  if !violations.isEmpty then throw (.structural violations)
  let draft ← (Draft.schema v).mapError fun cause => .invalidJson cause.message
  let fields ← checkFields draft.fields
  let constraints ← checkConstraintsFrom fields 0 draft.constraints
  return {
    id := draft.id
    version := draft.version
    fields := fields
    constraints := constraints
    canonical := canonical
    hash := .ofCanonical canonical }

/-- The schema of a JSON value. Its canonical text is read again, so that a schema is a function of
that text. -/
def ofJson (v : Json) : Except SchemaError Schema := do
  let canonical ← (CanonicalText.ofJson v).mapError .canonicalization
  let document := Text.utf8 canonical.text
  let value ← (Json.parseBytes document).mapError fun fault =>
    .invalidJson (fault.locatedMessage document)
  ofCanonical value canonical

/-- The schema of a document. -/
def parseBytes (document : Bytes) : Except SchemaError Schema := do
  let v ← (Json.parseBytes document).mapError fun fault =>
    .invalidJson (fault.locatedMessage document)
  ofJson v

/-- The schema of a text. -/
def parse (text : String) : Except SchemaError Schema := parseBytes (Text.utf8 text)

end PrivatePresentation.Schema
