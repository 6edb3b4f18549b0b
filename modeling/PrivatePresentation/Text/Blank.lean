/-!
White space, as the Unicode property `White_Space` defines it, and its removal from the ends of a
text.
-/

namespace PrivatePresentation.Text

/-- The characters with the Unicode property `White_Space`. -/
def isBlank (c : Char) : Bool :=
  let n := c.toNat
  (9 ≤ n && n ≤ 13) || n == 0x20 || n == 0x85 || n == 0xA0 || n == 0x1680 ||
    (0x2000 ≤ n && n ≤ 0x200A) || n == 0x2028 || n == 0x2029 || n == 0x202F || n == 0x205F ||
    n == 0x3000

/-- Drops the white space in front. -/
def trimStartChars (s : List Char) : List Char := s.dropWhile isBlank

/-- Drops the white space at both ends. -/
def trimChars (s : List Char) : List Char :=
  ((s.dropWhile isBlank).reverse.dropWhile isBlank).reverse

/-- The text without white space at its ends. -/
def trim (s : String) : String := String.ofList (trimChars s.toList)

/-- A text of white space only, or none at all. -/
def isBlankText (s : String) : Bool := s.toList.all isBlank

/-- Drops every trailing occurrence of one character. -/
def dropTrailing (c : Char) (s : String) : String :=
  String.ofList (s.toList.reverse.dropWhile (· == c)).reverse

/-- The remainder of a text after a given start, if it starts so. -/
def afterStart? : List Char → List Char → Option (List Char)
  | [], rest => some rest
  | _ :: _, [] => none
  | a :: start, b :: rest => if a = b then afterStart? start rest else none

/-- ASCII letters in lower case; all other characters unchanged. -/
def lowerAscii (s : String) : String := s.map Char.toLower

end PrivatePresentation.Text
