/-!
Double-precision numbers as exact rationals. A finite double is a sign, a mantissa below `2 ^ 53`
and a power of two; rounding from a quotient goes to the nearest such number and a tie to the even
mantissa.
-/

namespace PrivatePresentation

-- Powers of numbers are the core ones.
attribute [local instance (high)] instPowNat

/-- A finite double: `mantissa * 2 ^ exponent`, negated if the sign is set. -/
structure Binary64 where
  negative : Bool
  mantissa : Nat
  exponent : Int
deriving DecidableEq, Repr, Inhabited

namespace Binary64

/-- The exponent of the smallest doubles. -/
def minExponent : Int := -1074

/-- The exponent of the largest doubles. -/
def maxExponent : Int := 971

/-- Zero of either sign. -/
def zero (negative : Bool) : Binary64 := ⟨negative, 0, minExponent⟩

/-- `n / d` rounded to the nearest natural number, a tie to the even one. -/
def roundHalfEven (n d : Nat) : Nat :=
  let q := n / d
  let r := n % d
  if 2 * r < d then q else if d < 2 * r then q + 1 else q + q % 2

/-- `n / d * 2 ^ (-e)` as a quotient of natural numbers. -/
def scaled (n d : Nat) (e : Int) : Nat × Nat :=
  if 0 ≤ e then (n, d <<< e.toNat) else (n <<< (-e).toNat, d)

/-- An exponent at which `n / d` has a mantissa of 53 bits, or the smallest exponent of all. -/
def exponentFor (n d : Nat) : Int :=
  let guess : Int := (Nat.log2 n : Int) - (Nat.log2 d : Int) - 52
  let (a, b) := scaled n d guess
  let tight := if a < b <<< 52 then guess - 1 else guess
  max tight minExponent

/-- The double nearest to `n / d`, or `none` beyond the largest one. -/
def ofQuotient (negative : Bool) (n d : Nat) : Option Binary64 :=
  if n = 0 then some (zero negative)
  else
    let e := exponentFor n d
    let (a, b) := scaled n d e
    let m := roundHalfEven a b
    let (m, e) := if m = 1 <<< 53 then (1 <<< 52, e + 1) else (m, e)
    if maxExponent < e then none
    else if m = 0 then some (zero negative)
    else some ⟨negative, m, e⟩

/-- The double nearest to `digits * 10 ^ exponent`. Exponents far outside the range of doubles are
settled by the number of digits, so that no power of ten is ever larger than the digits need. -/
def ofDecimal (negative : Bool) (digits : Nat) (exponent : Int) : Option Binary64 :=
  if digits = 0 then some (zero negative)
  else
    let magnitude := ((Nat.toDigits 10 digits).length : Int) + exponent
    if 310 < magnitude then none
    else if magnitude < -330 then some (zero negative)
    else if 0 ≤ exponent then ofQuotient negative (digits * 10 ^ exponent.toNat) 1
    else ofQuotient negative digits (10 ^ (-exponent).toNat)

/-- The absolute value as a quotient of natural numbers. -/
def magnitude (x : Binary64) : Nat × Nat :=
  if 0 ≤ x.exponent then (x.mantissa <<< x.exponent.toNat, 1)
  else (x.mantissa, 1 <<< (-x.exponent).toNat)

/-- The integer part of the absolute value. -/
def wholePart (x : Binary64) : Nat := x.magnitude.1 / x.magnitude.2

/-- The number has no fractional part. -/
def isWhole (x : Binary64) : Bool := x.magnitude.1 % x.magnitude.2 == 0

/-- The number without its fractional part, rounded toward zero. -/
def truncate (x : Binary64) : Int := if x.negative then -(x.wholePart : Int) else x.wholePart

end Binary64
end PrivatePresentation
