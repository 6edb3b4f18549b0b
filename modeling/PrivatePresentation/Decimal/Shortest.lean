import PrivatePresentation.Decimal.Binary64

/-!
The shortest decimal of a double: the fewest significant digits that read back as the same double,
and of those the ones nearest to it. On a grid of a given number of digits only the two neighbours
of the double can be the answer.
-/

namespace PrivatePresentation.Binary64

-- Powers of numbers are the core ones.
attribute [local instance (high)] instPowNat

/-- `digits * 10 ^ exponent`, with at least one digit. -/
structure Decimal where
  digits : Nat
  exponent : Int
deriving DecidableEq, Repr, Inhabited

/-- The double's absolute value on the grid `10 ^ e`, as a quotient. -/
def onGrid (x : Binary64) (e : Int) : Nat × Nat :=
  let (n, d) := x.magnitude
  if 0 ≤ e then (n, d * 10 ^ e.toNat) else (n * 10 ^ (-e).toNat, d)

/-- The decimal reads back as the double. -/
def readsBack (x : Binary64) (c : Decimal) : Bool :=
  ofDecimal x.negative c.digits c.exponent == some x

/-- The decimal on the grid `10 ^ e` that reads back, the nearer one if both neighbours do. -/
def onGrid? (x : Binary64) (e : Int) : Option Decimal :=
  let (n, d) := x.onGrid e
  let low := n / d
  let r := n % d
  let below : Decimal := ⟨low, e⟩
  let above : Decimal := ⟨low + 1, e⟩
  let belowFirst := 2 * r < d || (2 * r == d && low % 2 == 0)
  let (first, second) := if belowFirst then (below, above) else (above, below)
  if first.digits != 0 && x.readsBack first then some first
  else if second.digits != 0 && x.readsBack second then some second
  else none

/-- The exponent of the leading decimal digit of a quotient that is not zero. -/
def leadingExponent (n d : Nat) : Int :=
  let guess : Int := ((Nat.toDigits 10 n).length : Int) - ((Nat.toDigits 10 d).length : Int)
  let reaches : Bool :=
    if 0 ≤ guess then d * 10 ^ guess.toNat ≤ n else d ≤ n * 10 ^ (-guess).toNat
  if reaches then guess else guess - 1

/-- Tries grids of more and more digits. -/
def searchShortest (x : Binary64) (top : Int) : Nat → Nat → Decimal
  | 0, count => ⟨(x.onGrid (top - count)).1 / (x.onGrid (top - count)).2, top - count⟩
  | fuel + 1, count =>
    match x.onGrid? (top - count) with
    | some c => c
    | none => searchShortest x top fuel (count + 1)

/-- Drops trailing zeros of the digits. -/
def Decimal.strip : Nat → Decimal → Decimal
  | 0, c => c
  | fuel + 1, c =>
    if c.digits != 0 && c.digits % 10 == 0 then strip fuel ⟨c.digits / 10, c.exponent + 1⟩ else c

/-- The shortest decimal of a double's absolute value. -/
def shortest (x : Binary64) : Decimal :=
  if x.mantissa = 0 then ⟨0, 0⟩
  else
    let (n, d) := x.magnitude
    (searchShortest x (leadingExponent n d) 18 0).strip 400

/-- The digits of a decimal as text. -/
def Decimal.text (c : Decimal) : String := toString c.digits

/-- Digits with the point at its place and no exponent: `0.001`, `120`, `1.5`. -/
def Decimal.positional (c : Decimal) : String :=
  let digits := c.text
  if 0 ≤ c.exponent then digits ++ String.ofList (List.replicate c.exponent.toNat '0')
  else
    let places := (-c.exponent).toNat
    if places < digits.length then
      String.ofList (digits.toList.take (digits.length - places)) ++ "." ++
        String.ofList (digits.toList.drop (digits.length - places))
    else
      "0." ++ String.ofList (List.replicate (places - digits.length) '0') ++ digits

/-- The text of a double without an exponent, whole numbers without a point. -/
def plainText (x : Binary64) : String :=
  (if x.negative then "-" else "") ++ x.shortest.positional

/-- The text of a double in documents: positional from `0.00001` below `1e16`, else with one digit
before the point and a signed exponent; whole numbers keep `.0`. -/
def documentText (x : Binary64) : String :=
  let c := x.shortest
  let sign := if x.negative then "-" else ""
  let digits := c.text
  let point : Int := digits.length + c.exponent
  if x.mantissa = 0 then sign ++ "0.0"
  else if -5 < point ∧ point ≤ 16 then
    sign ++ c.positional ++ (if 0 ≤ c.exponent then ".0" else "")
  else
    let power := point - 1
    let fraction := String.ofList (digits.toList.drop 1)
    sign ++ String.ofList (digits.toList.take 1) ++
      (if fraction.isEmpty then "" else "." ++ fraction) ++
      "e" ++ (if 0 ≤ power then "+" else "-") ++ toString power.natAbs

end PrivatePresentation.Binary64
