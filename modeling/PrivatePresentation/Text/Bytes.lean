/-!
Texts as bytes. A text is written as its UTF-8 bytes, and a byte string is shown as pairs of
hexadecimal digits. Writing uses lower case; reading takes either case.
-/

namespace PrivatePresentation

/-- A byte string. -/
abbrev Bytes := List UInt8

namespace Text

/-- The UTF-8 bytes of a text. -/
def utf8 (s : String) : Bytes := s.toUTF8.data.toList

/-- The text that the bytes encode, if they are well-formed UTF-8. -/
def ofUtf8? (bytes : Bytes) : Option String := String.fromUTF8? ⟨bytes.toArray⟩

/-- A byte that continues a character, in a narrower range after some leading bytes. -/
def isContinuation (low high b : UInt8) : Bool := low ≤ b && b ≤ high

/-- The number of bytes of the character at the front, if it is well-formed UTF-8. -/
def leadingCharacter? : Bytes → Option Nat
  | [] => none
  | a :: rest =>
    if a < 0x80 then some 1
    else if 0xC2 ≤ a ∧ a ≤ 0xDF then
      match rest with
      | b :: _ => if isContinuation 0x80 0xBF b then some 2 else none
      | _ => none
    else if 0xE0 ≤ a ∧ a ≤ 0xEF then
      match rest with
      | b :: c :: _ =>
        let low := if a = 0xE0 then 0xA0 else 0x80
        let high := if a = 0xED then 0x9F else 0xBF
        if isContinuation low high b && isContinuation 0x80 0xBF c then some 3 else none
      | _ => none
    else if 0xF0 ≤ a ∧ a ≤ 0xF4 then
      match rest with
      | b :: c :: d :: _ =>
        let low := if a = 0xF0 then 0x90 else 0x80
        let high := if a = 0xF4 then 0x8F else 0xBF
        if isContinuation low high b && isContinuation 0x80 0xBF c && isContinuation 0x80 0xBF d
        then some 4 else none
      | _ => none
    else none

/-- The number of bytes before the first one that is not part of a well-formed character. -/
def validLengthFrom : Nat → Nat → Bytes → Nat
  | 0, count, _ => count
  | fuel + 1, count, bytes =>
    match leadingCharacter? bytes with
    | some n => validLengthFrom fuel (count + n) (bytes.drop n)
    | none => count

/-- The number of bytes before the first one that is not part of a well-formed character. -/
def validLength (bytes : Bytes) : Nat := validLengthFrom bytes.length 0 bytes

/-- Number of bytes in the UTF-8 form of a text. -/
def byteLength (s : String) : Nat := s.utf8ByteSize

end Text

namespace Hex

/-- The lower-case digit of a value below sixteen. -/
def digit (n : Nat) : Char :=
  if n < 10 then Char.ofNat (48 + n) else Char.ofNat (87 + n)

/-- The value of a hexadecimal digit of either case. -/
def value? (c : Char) : Option Nat :=
  if '0' ≤ c ∧ c ≤ '9' then some (c.toNat - 48)
  else if 'a' ≤ c ∧ c ≤ 'f' then some (c.toNat - 87)
  else if 'A' ≤ c ∧ c ≤ 'F' then some (c.toNat - 55)
  else none

/-- Two digits for each byte. -/
def encodeChars : Bytes → List Char
  | [] => []
  | b :: rest => digit (b.toNat / 16) :: digit (b.toNat % 16) :: encodeChars rest

/-- Lower-case hexadecimal text of a byte string. -/
def encode (bytes : Bytes) : String := String.ofList (encodeChars bytes)

/-- Reads pairs of digits; an odd digit or any other character is refused. -/
def decodeChars : List Char → Option Bytes
  | [] => some []
  | [_] => none
  | a :: b :: rest => do
    let high ← value? a
    let low ← value? b
    let tail ← decodeChars rest
    return UInt8.ofNat (16 * high + low) :: tail

/-- The byte string that a hexadecimal text shows. -/
def decode? (s : String) : Option Bytes := decodeChars s.toList

end Hex
end PrivatePresentation
