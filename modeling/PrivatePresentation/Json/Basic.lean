import PrivatePresentation.Decimal.Shortest

/-!
JSON values. A number is an exact integer of 64 bits, signed or unsigned, or a double. The members
of an object are kept in ascending order of their keys, each key once.
-/

namespace PrivatePresentation

/-- Least integer of 64 bits with a sign. -/
def Json.minSigned : Int := -9223372036854775808

/-- Greatest integer of 64 bits with a sign. -/
def Json.maxSigned : Int := 9223372036854775807

/-- Greatest integer of 64 bits without a sign. -/
def Json.maxUnsigned : Int := 18446744073709551615

/-- A number: an integer of 64 bits, with or without a sign, or a double. -/
inductive Json.Number where
  | integer (value : Int) (fits : Json.minSigned ≤ value ∧ value ≤ Json.maxUnsigned)
  | float (value : Binary64)
deriving DecidableEq, Repr

instance : Inhabited Json.Number := ⟨.float default⟩

/-- The number of 64 bits that is nearest to an integer. -/
def Json.Number.ofInt (value : Int) : Json.Number :=
  .integer (max Json.minSigned (min value Json.maxUnsigned)) (by
    simp only [Json.minSigned, Json.maxUnsigned]
    omega)

/-- A JSON value. -/
inductive Json where
  | null
  | bool (value : Bool)
  | number (value : Json.Number)
  | string (value : String)
  | array (items : List Json)
  | object (members : List (String × Json))
deriving Repr, Inhabited

namespace Json

/-- The members of an object in ascending order of keys. -/
abbrev Members := List (String × Json)

namespace Members

/-- Adds a member at its place; a member with the same key is replaced. -/
def insert (key : String) (value : Json) : Members → Members
  | [] => [(key, value)]
  | (k, v) :: rest =>
    if key < k then (key, value) :: (k, v) :: rest
    else if key = k then (key, value) :: rest
    else (k, v) :: insert key value rest

/-- The value of a key. -/
def get? (key : String) : Members → Option Json
  | [] => none
  | (k, v) :: rest => if k = key then some v else get? key rest

/-- The members without a key. -/
def erase (key : String) (members : Members) : Members := members.filter (·.1 != key)

/-- The members with the given ones added in turn; later ones win. -/
def insertAll (members : Members) (added : List (String × Json)) : Members :=
  added.foldl (fun acc m => insert m.1 m.2 acc) members

/-- Members in ascending order from a list in any order; the last value of a key wins. -/
def ofList (members : List (String × Json)) : Members := insertAll [] members

/-- A key is present. -/
def contains (key : String) (members : Members) : Bool := members.any (·.1 == key)

end Members

/-- A value made of an integer of 64 bits. -/
def int (value : Int) : Json := .number (.ofInt value)

/-- A value made of a natural number of 64 bits. -/
def nat (value : Nat) : Json := int value

/-- An object from members in any order. -/
def ofMembers (members : List (String × Json)) : Json := .object (Members.ofList members)

/-- A text, or null. -/
def ofText? : Option String → Json
  | some s => .string s
  | none => .null

/-- The text of a string. -/
def text? : Json → Option String
  | .string s => some s
  | _ => none

/-- The members of an object. -/
def members? : Json → Option Members
  | .object m => some m
  | _ => none

/-- The items of an array. -/
def items? : Json → Option (List Json)
  | .array a => some a
  | _ => none

/-- The integer of a number that fits 64 bits with a sign. -/
def signed? : Json → Option Int
  | .number (.integer n _) => if minSigned ≤ n ∧ n ≤ maxSigned then some n else none
  | _ => none

/-- The integer of a number that fits 64 bits without a sign. -/
def unsigned? : Json → Option Nat
  | .number (.integer n _) => if 0 ≤ n ∧ n ≤ maxUnsigned then some n.toNat else none
  | _ => none

/-- The value of a member of an object. -/
def get? (key : String) : Json → Option Json
  | .object m => Members.get? key m
  | _ => none

mutual
/-- Equality of values, member by member. -/
def beq : Json → Json → Bool
  | .null, .null => true
  | .bool a, .bool b => a == b
  | .number a, .number b => a == b
  | .string a, .string b => a == b
  | .array a, .array b => beqItems a b
  | .object a, .object b => beqMembers a b
  | _, _ => false

/-- Equality of arrays, item by item. -/
def beqItems : List Json → List Json → Bool
  | [], [] => true
  | a :: as, b :: bs => beq a b && beqItems as bs
  | _, _ => false

/-- Equality of members, key by key. -/
def beqMembers : List (String × Json) → List (String × Json) → Bool
  | [], [] => true
  | (k, a) :: as, (l, b) :: bs => k == l && beq a b && beqMembers as bs
  | _, _ => false
end

instance : BEq Json := ⟨beq⟩

end Json
end PrivatePresentation
