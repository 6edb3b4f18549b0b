import PrivatePresentation.Text.Bytes

/-!
Form encoding. Letters, digits and `*`, `-`, `.`, `_` stand for themselves, a space becomes a plus
sign, and every other byte a percent sign with two upper-case digits. A query is split at ampersands
into pairs, each split at its first equals sign.
-/

namespace PrivatePresentation.Text.FormEncoded

/-- A byte that stands for itself. -/
def isPlain (b : UInt8) : Bool :=
  (0x30 ≤ b && b ≤ 0x39) || (0x41 ≤ b && b ≤ 0x5A) || (0x61 ≤ b && b ≤ 0x7A) ||
    b == 0x2A || b == 0x2D || b == 0x2E || b == 0x5F

/-- The upper-case digit of a value below sixteen. -/
def upperDigit (n : Nat) : Char :=
  if n < 10 then Char.ofNat (48 + n) else Char.ofNat (55 + n)

/-- A percent sign and the two digits of a byte. -/
def escape (b : UInt8) : List Char := ['%', upperDigit (b.toNat / 16), upperDigit (b.toNat % 16)]

/-- One byte as written. -/
def encodeByte (b : UInt8) : List Char :=
  if isPlain b then [Char.ofNat b.toNat]
  else if b = 0x20 then ['+']
  else escape b

/-- Some bytes as written. -/
def encodeBytes (bytes : Bytes) : List Char := bytes.flatMap encodeByte

/-- A text as written. -/
def encode (s : String) : String := String.ofList (encodeBytes (utf8 s))

/-- The bytes of an escaped text, with a plus sign for a space. An incomplete escape stands for
itself. -/
def decodeBytes : List Char → Bytes
  | [] => []
  | '+' :: rest => 0x20 :: decodeBytes rest
  | '%' :: a :: b :: rest =>
    match Hex.value? a, Hex.value? b with
    | some high, some low => UInt8.ofNat (16 * high + low) :: decodeBytes rest
    | _, _ => utf8 "%" ++ decodeBytes (a :: b :: rest)
  | c :: rest => utf8 (String.singleton c) ++ decodeBytes rest

/-- A text as read; none if its bytes are no text. -/
def decode? (chars : List Char) : Option String := ofUtf8? (decodeBytes chars)

/-- The name and the value of a part of a query. -/
def splitPair (part : List Char) : List Char × List Char :=
  (part.takeWhile (· != '='), (part.dropWhile (· != '=')).drop 1)

/-- The pairs of a query; empty parts are passed over. -/
def parseQuery? (query : List Char) : Option (List (String × String)) :=
  ((query.splitOn '&').filter (!·.isEmpty)).mapM fun part =>
    let (name, value) := splitPair part
    match decode? name, decode? value with
    | some name, some value => some (name, value)
    | _, _ => none

end PrivatePresentation.Text.FormEncoded
