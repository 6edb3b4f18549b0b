import PrivatePresentation.Json.Basic

/-!
What stands under a key of a value, when it is of the type that is looked for.
-/

namespace PrivatePresentation.Json

/-- The text under a key, if there is one. -/
def textAt? (v : Json) (key : String) : Option String := (v.get? key).bind text?

/-- The text under a key, else the empty one. -/
def textAt (v : Json) (key : String) : String := (v.textAt? key).getD ""

/-- The items under a key, else none. -/
def itemsAt (v : Json) (key : String) : List Json := ((v.get? key).bind items?).getD []

/-- The members under a key, else none. -/
def membersAt (v : Json) (key : String) : Members := ((v.get? key).bind members?).getD []

/-- The integer that a number or a decimal text stands for. -/
def integer? : Json → Option Int
  | .number (.integer n _) => some n
  | .string s => s.toInt?
  | _ => none

/-- The integer under a key, written as a number or a decimal text. -/
def integerAt? (v : Json) (key : String) : Option Int := (v.get? key).bind integer?

/-- The natural number under a key; of a negative integer, zero. -/
def naturalAt? (v : Json) (key : String) : Option Nat := (v.integerAt? key).map Int.toNat

/-- A value, or null. -/
def orNull : Option Json → Json
  | some v => v
  | none => .null

end PrivatePresentation.Json
