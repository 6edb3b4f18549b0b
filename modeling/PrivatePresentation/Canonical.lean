import PrivatePresentation.Json.Reader
import PrivatePresentation.Json.Writer

/-!
Canonical documents. Whole doubles up to `2 ^ 53` become integers and every other double is refused,
so that the text of a document does not depend on the way its numbers were written. The text itself
is compact, with the members of each object in ascending order of their keys as they are written,
quotes and escapes included.
-/

namespace PrivatePresentation

/-- A document without canonical form. -/
inductive CanonicalError where
  | fractionalNumber (value : Binary64)
deriving Repr

/-- The text of the error. -/
def CanonicalError.message : CanonicalError → String
  | .fractionalNumber x =>
    "fractional numbers are not permitted in canonical documents: " ++ x.plainText

instance : ToString CanonicalError := ⟨CanonicalError.message⟩

namespace Canonical

/-- Largest magnitude below which every whole double is exact. -/
def maxExact : Nat := 1 <<< 53

/-- A double of exact magnitude is an integer of 64 bits without its fractional part. -/
theorem truncate_fits {x : Binary64} (h : x.wholePart ≤ maxExact) :
    Json.minSigned ≤ x.truncate ∧ x.truncate ≤ Json.maxUnsigned := by
  simp only [Json.minSigned, Json.maxUnsigned, Binary64.truncate, maxExact] at h ⊢
  split <;> omega

/-- The canonical form of a number. -/
def coerceNumber : Json.Number → Except CanonicalError Json.Number
  | .integer n fits => .ok (.integer n fits)
  | .float x =>
    if h : x.isWhole ∧ x.wholePart ≤ maxExact then .ok (.integer x.truncate (truncate_fits h.2))
    else .error (.fractionalNumber x)

mutual
/-- The canonical form of a value; the first double without one, in the order of the text, is the
error. -/
def coerce : Json → Except CanonicalError Json
  | .number n => do return .number (← coerceNumber n)
  | .array items => do return .array (← coerceItems items)
  | .object members => do return .object (← coerceMembers members)
  | .null => .ok .null
  | .bool b => .ok (.bool b)
  | .string s => .ok (.string s)

/-- The canonical forms of the items of an array. -/
def coerceItems : List Json → Except CanonicalError (List Json)
  | [] => .ok []
  | item :: rest => do
    let item ← coerce item
    let rest ← coerceItems rest
    return item :: rest

/-- The canonical forms of the members of an object. -/
def coerceMembers : List (String × Json) → Except CanonicalError (List (String × Json))
  | [] => .ok []
  | (key, value) :: rest => do
    let value ← coerce value
    let rest ← coerceMembers rest
    return (key, value) :: rest
end

/-- Puts a written member in front of the first one whose key does not come before its own. -/
def place (member : List Char × List Char) :
    List (List Char × List Char) → List (List Char × List Char)
  | [] => [member]
  | other :: rest =>
    if other.1.lex member.1 then other :: place member rest else member :: other :: rest

/-- Members as written, keys beside values, in ascending order of the written keys. -/
def arrange (written : List (List Char × List Char)) : List (List Char × List Char) :=
  written.foldr place []

/-- Written members with a colon in each and a comma between each two. -/
def joinMembers : List (List Char × List Char) → List Char
  | [] => []
  | [(key, value)] => key ++ ':' :: value
  | (key, value) :: rest => key ++ ':' :: value ++ ',' :: joinMembers rest

/-- Written items with a comma between each two. -/
def joinItems : List (List Char) → List Char
  | [] => []
  | [item] => item
  | item :: rest => item ++ ',' :: joinItems rest

mutual
/-- The text of a value in canonical form. -/
def write : Json → List Char
  | .array items => '[' :: joinItems (writeItems items) ++ [']']
  | .object members => '{' :: joinMembers (arrange (writeMembers members)) ++ ['}']
  | .number n => Json.writeNumber n
  | .string s => Json.writeString s
  | .bool true => ['t', 'r', 'u', 'e']
  | .bool false => ['f', 'a', 'l', 's', 'e']
  | .null => ['n', 'u', 'l', 'l']

/-- The items of an array, each as written. -/
def writeItems : List Json → List (List Char)
  | [] => []
  | item :: rest => write item :: writeItems rest

/-- The members of an object, each as written. -/
def writeMembers : List (String × Json) → List (List Char × List Char)
  | [] => []
  | (key, value) :: rest => (Json.writeString key, write value) :: writeMembers rest
end

end Canonical

/-- The text of a canonical document. -/
structure CanonicalText where
  text : String
deriving DecidableEq, Repr, Inhabited

/-- The canonical text of a value. -/
def CanonicalText.ofJson (v : Json) : Except CanonicalError CanonicalText := do
  return ⟨String.ofList (Canonical.write (← Canonical.coerce v))⟩

end PrivatePresentation
