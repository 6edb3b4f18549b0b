import PrivatePresentation.Decimal.Integer
import PrivatePresentation.Http.Domain
import PrivatePresentation.Text.FormEncoded

/-!
Hosts: the part of an address that names a machine. It is a domain name, four numbers, or eight
groups in brackets; schemes without such a meaning take almost any text.
-/

namespace PrivatePresentation.Http

-- Powers of numbers are the core ones.
attribute [local instance (high)] instPowNat

/-- Why a text is no address. -/
inductive UrlError where
  | relativeWithoutBase
  | emptyHost
  | invalidPort
  | invalidFourNumbers
  | invalidGroups
  | invalidHostCharacter
  | invalidDomainName
deriving DecidableEq, Repr, Inhabited

/-- The text of the error. -/
def UrlError.message : UrlError → String
  | .relativeWithoutBase => "relative URL without a base"
  | .emptyHost => "empty host"
  | .invalidPort => "invalid port number"
  | .invalidFourNumbers => "invalid IPv4 address"
  | .invalidGroups => "invalid IPv6 address"
  | .invalidHostCharacter => "invalid domain character"
  | .invalidDomainName => "invalid international domain name"

namespace Host

/-- The value of digits in a base; none if one of them is no digit of the base. -/
def digitsValue? (base : Nat) (digits : List Char) : Option Nat :=
  digits.foldlM (fun n c =>
    match Hex.value? c with
    | some d => if d < base then some (n * base + d) else none
    | none => none) 0

/-- A number of an address of four numbers: hexadecimal after `0x`, octal after another zero. -/
def number? (digits : List Char) : Option Nat :=
  match digits with
  | [] => none
  | ['0'] => some 0
  | '0' :: 'x' :: rest => digitsValue? 16 rest
  | '0' :: 'X' :: rest => digitsValue? 16 rest
  | '0' :: rest => digitsValue? 8 rest
  | digits => digitsValue? 10 digits

/-- The parts of a name between its dots, without an empty one at the end. -/
def parts (name : List Char) : List (List Char) :=
  let parts := name.splitOn '.'
  if parts.getLast? == some [] then parts.dropLast else parts

/-- A name whose last part is a number is meant as an address of numbers. -/
def endsInNumber (name : List Char) : Bool :=
  match (parts name).getLast? with
  | some last => (last ≠ [] && last.all Decimal.isDigit) || (number? last).isSome
  | none => false

/-- At most four numbers: all but the last are below 256, and the last fills the remaining bytes. -/
def isFourNumbers (name : List Char) : Bool :=
  let parts := parts name
  match parts.mapM number? with
  | none => false
  | some numbers =>
    match numbers.reverse with
    | [] => false
    | last :: others =>
      numbers.length ≤ 4 && others.all (· < 256) && last < 256 ^ (4 - others.length)

/-- Four decimal numbers below 256 without leading zeros. -/
def isQuad (group : List Char) : Bool :=
  let parts := group.splitOn '.'
  parts.length == 4 && parts.all fun part =>
    match Decimal.natural? part with
    | some n => n < 256 && (part.length == 1 || part.head? != some '0')
    | none => false

/-- The number of units of two bytes in groups joined by colons. The last group may be four numbers
if it may end the address. -/
def units? (mayEnd : Bool) (text : List Char) : Option Nat :=
  if text.isEmpty then some 0
  else
    let groups := text.splitOn ':'
    let isGroup (g : List Char) : Bool :=
      1 ≤ g.length && g.length ≤ 4 && g.all fun c => (Hex.value? c).isSome
    if groups.all isGroup then some groups.length
    else
      match groups.reverse with
      | last :: others =>
        if mayEnd && isQuad last && others.all isGroup then some (others.length + 2) else none
      | [] => none

/-- What stands before and after the first double colon. -/
def splitDouble? : List Char → Option (List Char × List Char)
  | ':' :: ':' :: rest => some ([], rest)
  | c :: rest => (splitDouble? rest).map fun (before, after) => (c :: before, after)
  | [] => none

/-- Eight units, or fewer with a double colon in place of the others. -/
def isGroups (text : List Char) : Bool :=
  match splitDouble? text with
  | some (before, after) =>
    match units? false before, units? true after with
    | some m, some n => m + n ≤ 7
    | _, _ => false
  | none => units? true text == some 8

/-- The bytes of a text in which an escape of two digits stands for one byte. -/
def percentDecode : List Char → Bytes
  | [] => []
  | '%' :: a :: b :: rest =>
    match Hex.value? a, Hex.value? b with
    | some high, some low => UInt8.ofNat (16 * high + low) :: percentDecode rest
    | _, _ => 0x25 :: percentDecode (a :: b :: rest)
  | c :: rest => Text.utf8 (String.singleton c) ++ percentDecode rest

/-- Groups in brackets, if the text starts with a bracket. -/
def bracketed? (text : List Char) : Option (Except UrlError Unit) :=
  match text with
  | '[' :: rest =>
    some (if rest.getLast? == some ']' && isGroups rest.dropLast then .ok ()
      else .error .invalidGroups)
  | _ => none

/-- Checks the host of an address whose scheme gives hosts a meaning. -/
def check (text : List Char) : Except UrlError Unit :=
  match bracketed? text with
  | some r => r
  | none =>
    match Domain.normal? (percentDecode text) with
    | none => .error .invalidDomainName
    | some name =>
      if name.isEmpty then .error .emptyHost
      else if endsInNumber name && !isFourNumbers name then .error .invalidFourNumbers
      else .ok ()

/-- Checks the host of an address of any other scheme. -/
def checkOpaque (text : List Char) : Except UrlError Unit :=
  match bracketed? text with
  | some r => r
  | none =>
    if text.any ("\x00\t\n\r #/:<>?@[\\]^|".toList.contains ·) then .error .invalidHostCharacter
    else .ok ()

end Host
end PrivatePresentation.Http
