/-!
Integers as texts: an optional sign and at least one ASCII digit.
-/

namespace PrivatePresentation.Decimal

/-- An ASCII digit. -/
def isDigit (c : Char) : Bool := '0' ≤ c && c ≤ '9'

/-- The value of a run of digits. -/
def digitsValue (digits : List Char) : Nat :=
  digits.foldl (fun n c => 10 * n + (c.toNat - 48)) 0

/-- At least one digit and nothing else. -/
def natural? (s : List Char) : Option Nat :=
  if s ≠ [] ∧ s.all isDigit then some (digitsValue s) else none

/-- An optional sign and at least one digit. -/
def integer? : List Char → Option Int
  | '-' :: rest => (natural? rest).map fun n => -(n : Int)
  | '+' :: rest => (natural? rest).map fun n => (n : Int)
  | rest => (natural? rest).map fun n => (n : Int)

/-- An integer within bounds. -/
def integerWithin? (low high : Int) (s : String) : Option Int :=
  match integer? s.toList with
  | some n => if low ≤ n ∧ n ≤ high then some n else none
  | none => none

/-- A natural number below a bound; a plus sign may stand in front. -/
def naturalBelow? (bound : Nat) (s : String) : Option Nat :=
  let digits :=
    match s.toList with
    | '+' :: rest => rest
    | rest => rest
  match natural? digits with
  | some n => if n < bound then some n else none
  | none => none

end PrivatePresentation.Decimal
