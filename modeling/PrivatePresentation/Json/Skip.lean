import PrivatePresentation.Json.Reader

/-!
Passing over a value that nobody asks for. Its text is checked for form alone: numbers may be of any
size, escapes need only be hexadecimal, and there is no limit on nesting.
-/

namespace PrivatePresentation.Json

/-- Passes over a string after its opening quote. -/
def skipString : Bytes → Except Fault Bytes
  | [] => failAt .endInString []
  | 0x22 :: rest => .ok rest
  | 0x5C :: [] => failAt .endInString []
  | 0x5C :: 0x75 :: a :: b :: c :: d :: rest =>
    match hex4? a b c d with
    | none => failAt .invalidEscape rest
    | some _ => skipString rest
  | 0x5C :: 0x75 :: _ => failAt .endInString []
  | 0x5C :: e :: rest =>
    match simpleEscape? e with
    | some _ => skipString rest
    | none => failAt .invalidEscape rest
  | b :: rest => if b < 0x20 then failAt .controlCharacter rest else skipString rest

/-- Passes over an exponent after its `e`. -/
def skipExponent (bytes : Bytes) : Except Fault Bytes :=
  let digits :=
    match bytes with
    | 0x2B :: rest => rest
    | 0x2D :: rest => rest
    | rest => rest
  match digits with
  | [] => failAt .invalidNumber []
  | d :: rest =>
    if isDigit d then .ok (rest.dropWhile isDigit) else failAt .invalidNumber rest

/-- Passes over what follows the whole digits of a number. -/
def skipFraction : Bytes → Except Fault Bytes
  | 0x2E :: rest =>
    let (digits, rest) := splitDigits rest
    if digits.isEmpty then failOn .invalidNumber rest
    else
      match rest with
      | 0x65 :: rest => skipExponent rest
      | 0x45 :: rest => skipExponent rest
      | rest => .ok rest
  | 0x65 :: rest => skipExponent rest
  | 0x45 :: rest => skipExponent rest
  | rest => .ok rest

/-- Passes over a number after its sign. -/
def skipNumber : Bytes → Except Fault Bytes
  | [] => failAt .invalidNumber []
  | d :: rest =>
    if d = 0x30 then
      match rest with
      | e :: _ => if isDigit e then failOn .invalidNumber rest else skipFraction rest
      | [] => .ok []
    else if isDigit d then skipFraction (rest.dropWhile isDigit)
    else failAt .invalidNumber rest

/-- Passes over a key and its colon. -/
def skipKey (bytes : Bytes) : Except Fault Bytes := do
  match skipSpace bytes with
  | 0x22 :: rest =>
    let rest ← skipString rest
    readColon rest
  | [] => failAt .endInObject []
  | rest => failOn .keyMustBeString rest

/-- A container that is open: an object or an array. -/
inductive Frame where
  | object
  | array
deriving DecidableEq

/-- After a value: closes the containers that end here, and passes the comma and key in front of the
next value. The frames that stay open are given back. -/
def closeFrames : List Frame → Bytes → Except Fault (List Frame × Bytes)
  | [], bytes => .ok ([], bytes)
  | frame :: frames, bytes =>
    match frame, skipSpace bytes with
    | .array, [] => failAt .endInList []
    | .object, [] => failAt .endInObject []
    | .array, 0x5D :: rest => closeFrames frames rest
    | .object, 0x7D :: rest => closeFrames frames rest
    | .array, 0x2C :: rest => .ok (.array :: frames, rest)
    | .object, 0x2C :: rest => do return (.object :: frames, ← skipKey rest)
    | .array, rest => failOn .expectedListCommaOrEnd rest
    | .object, rest => failOn .expectedObjectCommaOrEnd rest

/-- Passes over a value inside open containers, and over these. -/
def skipFrom : Nat → List Frame → Bytes → Except Fault Bytes
  | 0, _, bytes => failAt .endInValue bytes
  | fuel + 1, frames, bytes => do
    let after (frames : List Frame) (rest : Bytes) : Except Fault Bytes := do
      let (frames, rest) ← closeFrames frames rest
      if frames.isEmpty then return rest else skipFrom fuel frames rest
    match skipSpace bytes with
    | [] => failAt .endInValue []
    | b :: rest =>
      if b = 0x6E then after frames (← readWord () [0x75, 0x6C, 0x6C] rest).2
      else if b = 0x74 then after frames (← readWord () [0x72, 0x75, 0x65] rest).2
      else if b = 0x66 then after frames (← readWord () [0x61, 0x6C, 0x73, 0x65] rest).2
      else if b = 0x22 then after frames (← skipString rest)
      else if b = 0x2D then after frames (← skipNumber rest)
      else if isDigit b then after frames (← skipNumber (b :: rest))
      else if b = 0x5B then
        match skipSpace rest with
        | [] => failAt .endInList []
        | 0x5D :: rest => after frames rest
        | rest => skipFrom fuel (.array :: frames) rest
      else if b = 0x7B then
        match skipSpace rest with
        | [] => failAt .endInObject []
        | 0x7D :: rest => after frames rest
        | rest => do skipFrom fuel (.object :: frames) (← skipKey rest)
      else failOn .expectedValue (b :: rest)

/-- Passes over a value. -/
def skipValue (bytes : Bytes) : Except Fault Bytes := skipFrom (bytes.length + 1) [] bytes

end PrivatePresentation.Json
