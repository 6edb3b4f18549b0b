import PrivatePresentation.Decimal.Binary64
import PrivatePresentation.Decimal.Integer
import PrivatePresentation.Text.Blank

/-!
Doubles as texts: an optional sign, digits with a point among, before or after them, and an optional
power of ten; or one of the words for infinity and for no number at all.
-/

namespace PrivatePresentation.Decimal

/-- What the text of a double denotes. -/
inductive FloatText where
  | finite (value : Binary64)
  | infinite
  | notANumber
deriving DecidableEq, Repr

/-- The sign in front of a number. -/
def splitSign : List Char → Bool × List Char
  | '-' :: rest => (true, rest)
  | '+' :: rest => (false, rest)
  | rest => (false, rest)

/-- The power of ten at the end of a number, if it is well-formed. -/
def exponent? : List Char → Option Int
  | [] => some 0
  | e :: rest =>
    if e = 'e' ∨ e = 'E' then
      let (negative, digits) := splitSign rest
      (natural? digits).map fun n => if negative then -(n : Int) else n
    else none

/-- Digits with an optional point and an optional power of ten. -/
def unsignedFloat? (negative : Bool) (s : List Char) : Option FloatText := do
  let whole := s.takeWhile isDigit
  let rest := s.dropWhile isDigit
  let (fraction, rest) :=
    match rest with
    | '.' :: rest => (rest.takeWhile isDigit, rest.dropWhile isDigit)
    | rest => ([], rest)
  if whole.isEmpty && fraction.isEmpty then none
  else
    let exponent ← exponent? rest
    match Binary64.ofDecimal negative (digitsValue (whole ++ fraction))
        (exponent - fraction.length) with
    | some x => some (.finite x)
    | none => some .infinite

/-- The double that a text denotes. -/
def float? (s : String) : Option FloatText :=
  let (negative, rest) := splitSign s.toList
  let word := Text.lowerAscii (String.ofList rest)
  if word = "inf" ∨ word = "infinity" then some .infinite
  else if word = "nan" then some .notANumber
  else unsignedFloat? negative rest

end PrivatePresentation.Decimal
