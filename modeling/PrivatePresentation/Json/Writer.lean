import PrivatePresentation.Json.Basic
import PrivatePresentation.Text.Bytes

/-!
JSON text. Two layouts are written: compact, without any space, and indented by two spaces a level.
Escapes are the shortest ones, with lower-case digits; everything else stands for itself.
-/

namespace PrivatePresentation.Json

/-- One character inside a string. -/
def escapeChar (c : Char) : List Char :=
  match c with
  | '"' => ['\\', '"']
  | '\\' => ['\\', '\\']
  | '\x08' => ['\\', 'b']
  | '\x0c' => ['\\', 'f']
  | '\n' => ['\\', 'n']
  | '\r' => ['\\', 'r']
  | '\t' => ['\\', 't']
  | c =>
    if c.toNat < 0x20 then
      ['\\', 'u', '0', '0', Hex.digit (c.toNat / 16), Hex.digit (c.toNat % 16)]
    else [c]

/-- A string between double quotes. -/
def writeString (s : String) : List Char :=
  '"' :: s.toList.flatMap escapeChar ++ ['"']

/-- A number: integers in plain decimal, doubles by their shortest text. -/
def writeNumber : Number → List Char
  | .integer n _ => (toString n).toList
  | .float x => x.documentText.toList

mutual
/-- Compact text of a value. -/
def write : Json → List Char
  | .null => ['n', 'u', 'l', 'l']
  | .bool true => ['t', 'r', 'u', 'e']
  | .bool false => ['f', 'a', 'l', 's', 'e']
  | .number n => writeNumber n
  | .string s => writeString s
  | .array items => '[' :: writeItems items ++ [']']
  | .object members => '{' :: writeMembers members ++ ['}']

/-- The items of an array with a comma between each two. -/
def writeItems : List Json → List Char
  | [] => []
  | [item] => write item
  | item :: rest => write item ++ ',' :: writeItems rest

/-- The members of an object with a comma between each two. -/
def writeMembers : List (String × Json) → List Char
  | [] => []
  | [(key, value)] => writeString key ++ ':' :: write value
  | (key, value) :: rest => writeString key ++ ':' :: write value ++ ',' :: writeMembers rest
end

/-- Compact text of a value. -/
def compact (v : Json) : String := String.ofList v.write

/-- A new line with the indentation of a level. -/
def indent (level : Nat) : List Char := '\n' :: List.replicate (2 * level) ' '

mutual
/-- Indented text of a value at a level. -/
def writeIndented (level : Nat) : Json → List Char
  | .array [] => ['[', ']']
  | .array items => '[' :: writeIndentedItems (level + 1) items ++ indent level ++ [']']
  | .object [] => ['{', '}']
  | .object members => '{' :: writeIndentedMembers (level + 1) members ++ indent level ++ ['}']
  | .null => ['n', 'u', 'l', 'l']
  | .bool true => ['t', 'r', 'u', 'e']
  | .bool false => ['f', 'a', 'l', 's', 'e']
  | .number n => writeNumber n
  | .string s => writeString s

/-- Items on lines of their own. -/
def writeIndentedItems (level : Nat) : List Json → List Char
  | [] => []
  | [item] => indent level ++ writeIndented level item
  | item :: rest => indent level ++ writeIndented level item ++ ',' :: writeIndentedItems level rest

/-- Members on lines of their own, a space after the colon. -/
def writeIndentedMembers (level : Nat) : List (String × Json) → List Char
  | [] => []
  | [(key, value)] => indent level ++ writeString key ++ ':' :: ' ' :: writeIndented level value
  | (key, value) :: rest =>
    indent level ++ writeString key ++ ':' :: ' ' :: writeIndented level value ++
      ',' :: writeIndentedMembers level rest
end

/-- Indented text of a value. -/
def pretty (v : Json) : String := String.ofList (v.writeIndented 0)

end PrivatePresentation.Json
