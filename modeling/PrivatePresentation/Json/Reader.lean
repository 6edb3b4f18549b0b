import PrivatePresentation.Json.Basic
import PrivatePresentation.Text.Bytes
import PrivatePresentation.Text.Quoted

/-!
Reading JSON text. A reader takes the bytes that are left and gives a value with the bytes after it,
or a fault with the number of bytes that were left when it was found. Faults of the text and faults
of a typed document (a number where a text belongs) are of one type, since the first one met ends the
reading.
-/

namespace PrivatePresentation.Json

/-- What a typed document held in place of what it should. -/
inductive Found where
  | null
  | bool (value : Bool)
  | number (value : Number)
  | string (value : String)
  | sequence
  | map
deriving Repr, Inhabited

/-- Why a text is refused. -/
inductive Cause where
  | endInValue
  | endInList
  | endInObject
  | endInString
  | expectedColon
  | expectedListCommaOrEnd
  | expectedObjectCommaOrEnd
  | expectedIdentifier
  | expectedValue
  | invalidEscape
  | invalidNumber
  | numberOutOfRange
  | invalidCodePoint
  | controlCharacter
  | keyMustBeString
  | loneSurrogate
  | trailingComma
  | trailingCharacters
  | endOfEscape
  | tooDeep
  | invalidType (found : Found) (expected : String)
  | invalidValue (found : Found) (expected : String)
  | invalidLength (length : Nat) (expected : String)
  | missingField (name : String)
  | duplicateField (name : String)
  | unknownVariant (name : String) (expected : List String)
  | refused (text : String)
deriving Repr, Inhabited

/-- A step from a document to one of its parts. -/
inductive Step where
  /-- The value of a key. -/
  | key (name : String)
  /-- An item of an array. -/
  | index (position : Nat)
  /-- The place of a key that could not be read. -/
  | unread
deriving DecidableEq, Repr, Inhabited

/-- The first fault of a text: its cause, the bytes not yet read, and the part it lies in. -/
structure Fault where
  cause : Cause
  left : Nat
  path : List Step := []
deriving Repr, Inhabited

/-- The text of a value met in place of another. -/
def Found.message : Found → String
  | .null => "null"
  | .bool b => "boolean `" ++ toString b ++ "`"
  | .number (.integer n _) => "integer `" ++ toString n ++ "`"
  | .number (.float x) => "floating point `" ++ x.documentText ++ "`"
  | .string s => "string " ++ Text.quoted s
  | .sequence => "sequence"
  | .map => "map"

/-- Names in backticks: one alone, two joined by `or`, more after `one of`. -/
def oneOf : List String → String
  | [] => "there are no variants"
  | [a] => "expected `" ++ a ++ "`"
  | [a, b] => "expected `" ++ a ++ "` or `" ++ b ++ "`"
  | names => "expected one of " ++ ", ".intercalate (names.map fun n => "`" ++ n ++ "`")

/-- The text of a cause. -/
def Cause.message : Cause → String
  | .endInValue => "EOF while parsing a value"
  | .endInList => "EOF while parsing a list"
  | .endInObject => "EOF while parsing an object"
  | .endInString => "EOF while parsing a string"
  | .expectedColon => "expected `:`"
  | .expectedListCommaOrEnd => "expected `,` or `]`"
  | .expectedObjectCommaOrEnd => "expected `,` or `\x7d`"
  | .expectedIdentifier => "expected ident"
  | .expectedValue => "expected value"
  | .invalidEscape => "invalid escape"
  | .invalidNumber => "invalid number"
  | .numberOutOfRange => "number out of range"
  | .invalidCodePoint => "invalid unicode code point"
  | .controlCharacter => "control character (\\u0000-\\u001F) found while parsing a string"
  | .keyMustBeString => "key must be a string"
  | .loneSurrogate => "lone leading surrogate in hex escape"
  | .trailingComma => "trailing comma"
  | .trailingCharacters => "trailing characters"
  | .endOfEscape => "unexpected end of hex escape"
  | .tooDeep => "recursion limit exceeded"
  | .invalidType found expected => "invalid type: " ++ found.message ++ ", expected " ++ expected
  | .invalidValue found expected => "invalid value: " ++ found.message ++ ", expected " ++ expected
  | .invalidLength n expected => "invalid length " ++ toString n ++ ", expected " ++ expected
  | .missingField name => "missing field `" ++ name ++ "`"
  | .duplicateField name => "duplicate field `" ++ name ++ "`"
  | .unknownVariant name expected => "unknown variant `" ++ name ++ "`, " ++ oneOf expected
  | .refused text => text

/-- A fault of the text itself, not of a typed document. -/
def Cause.isSyntax : Cause → Bool
  | .invalidType .. | .invalidValue .. | .invalidLength .. | .missingField _ | .duplicateField _
  | .unknownVariant .. | .refused _ => false
  | _ => true

/-- The line and column reached after some bytes: lines from one, columns in bytes. -/
def position (bytes : Bytes) : Nat × Nat :=
  bytes.foldl (fun (place : Nat × Nat) b =>
    if b = 10 then (place.1 + 1, 0) else (place.1, place.2 + 1)) (1, 0)

/-- The text of a fault with its place in the document. -/
def Fault.locatedMessage (fault : Fault) (document : Bytes) : String :=
  let (line, column) := position (document.take (document.length - fault.left))
  fault.cause.message ++ " at line " ++ toString line ++ " column " ++ toString column

/-- One step: a key, a position in brackets, or a question mark for a key that could not be read. -/
def Step.text : Step → String
  | .key name => name
  | .index i => "[" ++ toString i ++ "]"
  | .unread => "?"

/-- The steps after the first one, with a dot in front of each that is not a position. -/
def laterSteps : List Step → String
  | [] => ""
  | .index i :: rest => Step.text (.index i) ++ laterSteps rest
  | step :: rest => "." ++ step.text ++ laterSteps rest

/-- The path to the faulty part; none if no step of it is known. -/
def Fault.pathText? (fault : Fault) : Option String :=
  match fault.path with
  | [] => none
  | first :: rest =>
    if (first :: rest).all (· == .unread) then none else some (first.text ++ laterSteps rest)

/-- A reader of bytes: a value and the bytes after it, or the first fault. -/
abbrev Reader (α : Type) := Bytes → Except Fault (α × Bytes)

/-- A fault found after everything before `rest` was read. -/
def failAt {α : Type} (cause : Cause) (rest : Bytes) : Except Fault α :=
  .error ⟨cause, rest.length, []⟩

/-- A fault at the next byte, which counts as read if there is one. -/
def failOn {α : Type} (cause : Cause) (rest : Bytes) : Except Fault α :=
  .error ⟨cause, rest.length - 1, []⟩

/-- Places a fault within a part. -/
def within {α : Type} (step : Step) : Except Fault α → Except Fault α
  | .ok v => .ok v
  | .error f => .error { f with path := step :: f.path }

/-- Blank, tab, line feed and carriage return. -/
def isSpace (b : UInt8) : Bool := b == 0x20 || b == 0x09 || b == 0x0A || b == 0x0D

/-- Drops the white space between tokens. -/
def skipSpace (bytes : Bytes) : Bytes := bytes.dropWhile isSpace

/-- A decimal digit. -/
def isDigit (b : UInt8) : Bool := 0x30 ≤ b && b ≤ 0x39

/-- The remaining bytes of a word such as `true`, after its first byte. -/
def readWord {α : Type} (value : α) : Bytes → Reader α
  | [], rest => .ok (value, rest)
  | _ :: _, [] => failAt .endInValue []
  | w :: word, b :: rest =>
    if b = w then readWord value word rest else failAt .expectedIdentifier rest

/-- The value of four hexadecimal digits. -/
def hex4? (a b c d : UInt8) : Option Nat := do
  let a ← Hex.value? (Char.ofNat a.toNat)
  let b ← Hex.value? (Char.ofNat b.toNat)
  let c ← Hex.value? (Char.ofNat c.toNat)
  let d ← Hex.value? (Char.ofNat d.toNat)
  return ((a * 16 + b) * 16 + c) * 16 + d

/-- The byte that a one-letter escape stands for. -/
def simpleEscape? (b : UInt8) : Option UInt8 :=
  if b = 0x22 then some 0x22
  else if b = 0x5C then some 0x5C
  else if b = 0x2F then some 0x2F
  else if b = 0x62 then some 0x08
  else if b = 0x66 then some 0x0C
  else if b = 0x6E then some 0x0A
  else if b = 0x72 then some 0x0D
  else if b = 0x74 then some 0x09
  else none

/-- The UTF-8 bytes of a code point, in reverse. -/
def pushCodePoint (n : Nat) (reversed : Bytes) : Bytes :=
  (Text.utf8 (String.singleton (Char.ofNat n))).reverse ++ reversed

/-- The bytes of a string after its opening quote; what was read is kept in reverse. -/
def readStringBytes (reversed : Bytes) : Reader Bytes
  | [] => failAt .endInString []
  | 0x22 :: rest => .ok (reversed.reverse, rest)
  | 0x5C :: [] => failAt .endInString []
  | 0x5C :: 0x75 :: a :: b :: c :: d :: rest =>
    match hex4? a b c d with
    | none => failAt .invalidEscape rest
    | some n =>
      if 0xDC00 ≤ n ∧ n ≤ 0xDFFF then failAt .loneSurrogate rest
      else if n < 0xD800 ∨ 0xDBFF < n then readStringBytes (pushCodePoint n reversed) rest
      else
        match rest with
        | [] => failAt .endInString []
        | 0x5C :: [] => failAt .endInString []
        | 0x5C :: 0x75 :: a :: b :: c :: d :: rest =>
          match hex4? a b c d with
          | none => failAt .invalidEscape rest
          | some m =>
            if m < 0xDC00 ∨ 0xDFFF < m then failAt .loneSurrogate rest
            else
              readStringBytes
                (pushCodePoint ((n - 0xD800) * 0x400 + (m - 0xDC00) + 0x10000) reversed) rest
        | 0x5C :: 0x75 :: _ => failAt .endInString []
        | 0x5C :: _ :: rest => failAt .endOfEscape rest
        | _ :: rest => failAt .endOfEscape rest
  | 0x5C :: 0x75 :: _ => failAt .endInString []
  | 0x5C :: e :: rest =>
    match simpleEscape? e with
    | some b => readStringBytes (b :: reversed) rest
    | none => failAt .invalidEscape rest
  | b :: rest =>
    if b < 0x20 then failAt .controlCharacter rest else readStringBytes (b :: reversed) rest

/-- The text of a string after its opening quote. Bytes that are no text are a fault at the first of
them. -/
def readString : Reader String := fun bytes => do
  let (raw, rest) ← readStringBytes [] bytes
  match Text.ofUtf8? raw with
  | some s => .ok (s, rest)
  | none => .error ⟨.invalidCodePoint, bytes.length - (Text.validLength bytes + 1), []⟩

/-- The leading digits and the bytes after them. -/
def splitDigits (bytes : Bytes) : Bytes × Bytes := (bytes.takeWhile isDigit, bytes.dropWhile isDigit)

/-- The value of a run of digits. -/
def digitsValue (digits : Bytes) : Nat := digits.foldl (fun n b => 10 * n + (b.toNat - 0x30)) 0

/-- The bytes after the digit with which an exponent passes the greatest one that a machine word of 32
bits holds, if it does. -/
def passedAt? (value : Nat) : Bytes → Option Bytes
  | [] => none
  | b :: rest =>
    if isDigit b then
      let next := 10 * value + (b.toNat - 0x30)
      if 2147483647 < next then some rest else passedAt? next rest
    else none

/-- The digits of a number as they were written. -/
structure Literal where
  negative : Bool
  whole : Bytes
  fraction : Bytes := []
  exponent : Int := 0
  plain : Bool := true

/-- The double nearest to a literal. -/
def Literal.float? (l : Literal) : Option Binary64 :=
  Binary64.ofDecimal l.negative (digitsValue (l.whole ++ l.fraction))
    (l.exponent - l.fraction.length)

/-- The number of a literal: an integer if it is written as one and fits 64 bits, else a double.
A negative zero is a double. -/
def Literal.number? (l : Literal) : Option Number :=
  let n := digitsValue l.whole
  if h : l.plain ∧ ¬l.negative ∧ n < 1 <<< 64 then
    some (.integer n (by simp only [minSigned, maxUnsigned]; omega))
  else if h : l.plain ∧ l.negative ∧ 0 < n ∧ n ≤ 1 <<< 63 then
    some (.integer (-(n : Int)) (by simp only [minSigned, maxUnsigned]; omega))
  else l.float?.map .float

/-- Ends a number. -/
def finishNumber (l : Literal) (rest : Bytes) : Except Fault (Number × Bytes) :=
  match l.number? with
  | some n => .ok (n, rest)
  | none => failAt .numberOutOfRange rest

/-- The exponent of a number after its `e`. -/
def readExponent (l : Literal) (bytes : Bytes) : Except Fault (Number × Bytes) :=
  let (down, digits) :=
    match bytes with
    | 0x2B :: rest => (false, rest)
    | 0x2D :: rest => (true, rest)
    | rest => (false, rest)
  match digits with
  | [] => failAt .endInValue []
  | d :: rest =>
    if isDigit d then
      let (power, after) := splitDigits (d :: rest)
      let exponent : Int := if down then -(digitsValue power : Int) else digitsValue power
      match passedAt? 0 (d :: rest) with
      | some left =>
        if !down && digitsValue (l.whole ++ l.fraction) != 0 then failAt .numberOutOfRange left
        else finishNumber { l with plain := false, exponent } after
      | none => finishNumber { l with plain := false, exponent } after
    else failAt .invalidNumber rest

/-- The part of a number after its whole digits. -/
def readFraction (l : Literal) : Bytes → Except Fault (Number × Bytes)
  | 0x2E :: rest =>
    let (digits, rest) := splitDigits rest
    if digits.isEmpty then
      match rest with
      | [] => failAt .endInValue []
      | _ :: _ => failOn .invalidNumber rest
    else
      let l := { l with plain := false, fraction := digits }
      match rest with
      | 0x65 :: rest => readExponent l rest
      | 0x45 :: rest => readExponent l rest
      | rest => finishNumber l rest
  | 0x65 :: rest => readExponent l rest
  | 0x45 :: rest => readExponent l rest
  | rest => finishNumber l rest

/-- A number after its sign: a lone zero or digits without a leading zero, then the rest. -/
def readNumber (negative : Bool) : Reader Number
  | [] => failAt .endInValue []
  | d :: rest =>
    if d = 0x30 then
      match rest with
      | e :: _ =>
        if isDigit e then failOn .invalidNumber rest
        else readFraction ⟨negative, [d], [], 0, true⟩ rest
      | [] => readFraction ⟨negative, [d], [], 0, true⟩ rest
    else if isDigit d then
      let (digits, rest) := splitDigits (d :: rest)
      readFraction ⟨negative, digits, [], 0, true⟩ rest
    else failAt .invalidNumber rest

/-- The place of the next item of an array and whether there is one, else the place after its end. -/
def nextItem (first : Bool) (bytes : Bytes) : Except Fault (Bool × Bytes) :=
  match skipSpace bytes with
  | [] => failAt .endInList []
  | 0x5D :: rest => .ok (false, rest)
  | b :: rest =>
    if first then .ok (true, b :: rest)
    else if b = 0x2C then
      match skipSpace rest with
      | [] => failAt .endInValue []
      | 0x5D :: after => failOn .trailingComma (0x5D :: after)
      | rest => .ok (true, rest)
    else failOn .expectedListCommaOrEnd (b :: rest)

/-- The items of an array after its bracket or after an item. -/
def readItems {α : Type} (item : Nat → Reader α) : Nat → Nat → Bool → Reader (List α)
  | 0, _, _, bytes => failAt .endInList bytes
  | fuel + 1, index, first, bytes => do
    let (more, rest) ← within (.index index) (nextItem first bytes)
    if more then
      let (v, rest) ← within (.index index) (item index rest)
      let (vs, rest) ← readItems item fuel (index + 1) false rest
      return (v :: vs, rest)
    else return ([], rest)

/-- The colon after a key. -/
def readColon (bytes : Bytes) : Except Fault Bytes :=
  match skipSpace bytes with
  | 0x3A :: rest => .ok rest
  | [] => failAt .endInObject []
  | rest => failOn .expectedColon rest

/-- The place of the next key of an object, or its end. -/
def nextKey? (first : Bool) (bytes : Bytes) : Except Fault (Option String × Bytes) :=
  match skipSpace bytes with
  | [] => failAt .endInObject []
  | 0x7D :: rest => .ok (none, rest)
  | b :: rest =>
    if first then
      if b = 0x22 then do
        let (k, rest) ← readString rest
        return (some k, rest)
      else failOn .keyMustBeString (b :: rest)
    else if b = 0x2C then
      match skipSpace rest with
      | [] => failAt .endInValue []
      | 0x22 :: rest => do
        let (k, rest) ← readString rest
        return (some k, rest)
      | 0x7D :: rest => failOn .trailingComma (0x7D :: rest)
      | rest => failOn .keyMustBeString rest
    else failOn .expectedObjectCommaOrEnd (b :: rest)

/-- The members of an object after its brace or after a member, in the order of the text. -/
def readMembers {α : Type} (value : String → Reader α) :
    Nat → Bool → Reader (List (String × α))
  | 0, _, bytes => failAt .endInObject bytes
  | fuel + 1, first, bytes => do
    let (key, rest) ← within .unread (nextKey? first bytes)
    match key with
    | none => return ([], rest)
    | some key =>
      let rest ← within (.key key) (readColon rest)
      let (v, rest) ← within (.key key) (value key rest)
      let (vs, rest) ← readMembers value fuel false rest
      return ((key, v) :: vs, rest)

/-- A value at a given remaining depth of nesting. -/
def readValue : Nat → Reader Json
  | depth, bytes =>
    match skipSpace bytes with
    | [] => failAt .endInValue []
    | b :: rest =>
      if b = 0x6E then readWord .null [0x75, 0x6C, 0x6C] rest
      else if b = 0x74 then readWord (.bool true) [0x72, 0x75, 0x65] rest
      else if b = 0x66 then readWord (.bool false) [0x61, 0x6C, 0x73, 0x65] rest
      else if b = 0x22 then do
        let (s, rest) ← readString rest
        return (.string s, rest)
      else if b = 0x2D then do
        let (n, rest) ← readNumber true rest
        return (.number n, rest)
      else if isDigit b then do
        let (n, rest) ← readNumber false (b :: rest)
        return (.number n, rest)
      else if b = 0x5B then
        match depth with
        | 0 => failOn .tooDeep (b :: rest)
        | depth + 1 => do
          let (items, rest) ← readItems (fun _ => readValue depth) (rest.length + 1) 0 true rest
          return (.array items, rest)
      else if b = 0x7B then
        match depth with
        | 0 => failOn .tooDeep (b :: rest)
        | depth + 1 => do
          let (members, rest) ← readMembers (fun _ => readValue depth) (rest.length + 1) true rest
          return (ofMembers members, rest)
      else failOn .expectedValue (b :: rest)

/-- The deepest nesting of arrays and objects in a document. -/
def maxDepth : Nat := 127

/-- Nothing but white space may follow a document. -/
def readEnd {α : Type} (value : α) (bytes : Bytes) : Except Fault α :=
  match skipSpace bytes with
  | [] => .ok value
  | rest => failOn .trailingCharacters rest

/-- The value of a whole document. -/
def parseBytes (document : Bytes) : Except Fault Json := do
  let (v, rest) ← readValue maxDepth document
  readEnd v rest

/-- The value of a whole text. -/
def parse (document : String) : Except Fault Json := parseBytes (Text.utf8 document)

/-- The value of a whole text, if it is one. -/
def parse? (document : String) : Option Json := (parse document).toOption

end PrivatePresentation.Json
