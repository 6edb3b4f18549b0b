import PrivatePresentation.Decimal.Reader
import PrivatePresentation.Field.Prime
import PrivatePresentation.Schema.Basic
import PrivatePresentation.Time.Reader

/-!
Values as residues. Every input of a circuit is brought to a residue by the type of its field, in the
same way for the holder who proves and for the verifier who checks: numbers lose their fractional
part, negative ones wrap around the order, strings become their hash, dates become seconds.
-/

namespace PrivatePresentation

/-- Why a value is no instance of its field. -/
inductive ConversionError where
  | wrongType (field expected found : String)
  | unparseable (field value : String)
  | nonFinite (field : String)
  | outOfRange (field : String)
  | negativeTimestamp (field : String) (value : Int)
deriving DecidableEq, Repr

/-- The text of the error. -/
def ConversionError.message : ConversionError → String
  | .wrongType field expected found =>
    "field '" ++ field ++ "' expects " ++ expected ++ ", got " ++ found
  | .unparseable field value =>
    "field '" ++ field ++ "' has unparseable value " ++ Text.quoted value
  | .nonFinite field => "field '" ++ field ++ "' is not a finite number"
  | .outOfRange field => "field '" ++ field ++ "' is out of range"
  | .negativeTimestamp field value =>
    "field '" ++ field ++ "' is a timestamp before 1970-01-01: " ++ toString value

instance : ToString ConversionError := ⟨ConversionError.message⟩

namespace Normalize

/-- What a value is, in the words of a type error. -/
def describe : Json → String
  | .null => "null"
  | .bool _ => "a boolean"
  | .number _ => "a number"
  | .string _ => "a string"
  | .array _ => "an array"
  | .object _ => "an object"

/-- The residue of a text: its hash, modulo the order. -/
def hashText (s : String) : Scalar := Scalar.ofNat (Sha256.toNumber (Sha256.hash (Text.utf8 s)))

/-- The largest magnitude of a double that is taken: the double nearest to `1.7e38`. -/
def maxMagnitude : Nat := 169999999999999998061923293023115935744

/-- The least number of 128 bits with a sign. -/
def minWide : Int := -(1 <<< 127 : Nat)

/-- The greatest number of 128 bits with a sign. -/
def maxWide : Int := (1 <<< 127 : Nat) - 1

/-- The number of 128 bits with a sign that is nearest to an integer. -/
def saturated (n : Int) : Int := max minWide (min n maxWide)

/-- A double without its fractional part, in 128 bits with a sign. -/
def truncated (field : String) (x : Binary64) : Except ConversionError Int :=
  if maxMagnitude < x.wholePart then .error (.outOfRange field) else .ok (saturated x.truncate)

/-- The integer that a number stands for. -/
def integerOf (field : String) : Json → Except ConversionError Int
  | .number (.integer n _) => .ok n
  | .number (.float x) => truncated field x
  | .string s =>
    let s := Text.trim s
    if s = "" then .error (.unparseable field "")
    else
      match Decimal.integerWithin? minWide maxWide s with
      | some n => .ok n
      | none =>
        match Decimal.float? s with
        | some (.finite x) => truncated field x
        | some _ => .error (.nonFinite field)
        | none => .error (.unparseable field s)
  | v => .error (.wrongType field "a number" (describe v))

/-- The truth value that a value stands for. -/
def truthOf (field : String) : Json → Except ConversionError Bool
  | .bool b => .ok b
  | .string s =>
    if ["1", "t", "T", "TRUE", "true", "True"].contains s then .ok true
    else if ["0", "f", "F", "FALSE", "false", "False"].contains s then .ok false
    else .error (.unparseable field s)
  | v => .error (.wrongType field "a boolean" (describe v))

/-- The second that a date stands for. -/
def secondOf (field : String) : Json → Except ConversionError Int
  | .number (.integer n _) => if n < 0 then .error (.negativeTimestamp field n) else .ok n
  | .number (.float x) =>
    .error (.wrongType field "an integer timestamp" (describe (.number (.float x))))
  | .string s =>
    match Timestamp.parseDate s with
    | .ok t =>
      if t.seconds < 0 then .error (.negativeTimestamp field t.seconds) else .ok t.seconds
    | .error _ => .error (.unparseable field s)
  | v => .error (.wrongType field "a date" (describe v))

end Normalize

/-- The residue of a value as an instance of a field. -/
def normalize (field : FieldDecl) (v : Json) : Except ConversionError Scalar :=
  match field.type with
  | .integer => (Normalize.integerOf field.name v).map Scalar.ofInt
  | .number => (Normalize.integerOf field.name v).map Scalar.ofInt
  | .boolean => (Normalize.truthOf field.name v).map fun b => if b then 1 else 0
  | .date => (Normalize.secondOf field.name v).map Scalar.ofInt
  | .string =>
    match v with
    | .string s => .ok (Normalize.hashText s)
    | v => .error (.wrongType field.name "a string" (Normalize.describe v))

end PrivatePresentation
