import PrivatePresentation.Json.Reader
import PrivatePresentation.Text.Blank

/-!
Identifiers of requests: values of 128 bits, written in five groups of hexadecimal digits joined by
hyphens. Four forms are read: the groups alone, in braces, after `urn:uuid:`, and 32 digits without
hyphens; digits may be of either case.
-/

namespace PrivatePresentation

/-- The identifier of a request: sixteen bytes. -/
structure RequestId where
  bytes : Bytes
deriving DecidableEq, Repr, Inhabited

/-- Why a text is no identifier. -/
inductive IdentityError where
  | character (found : Char) (index : Nat)
  | length (found : Nat)
  | groupCount (found : Nat)
  | groupLength (group expected found : Nat)
deriving Repr

/-- The text of the error. -/
def IdentityError.message : IdentityError → String
  | .character c i =>
    "invalid character: found `" ++ String.singleton c ++ "` at " ++ toString i
  | .length n => "invalid length: found " ++ toString n
  | .groupCount n => "invalid group count: expected 5, found " ++ toString n
  | .groupLength g e n =>
    "invalid group length in group " ++ toString g ++ ": expected " ++ toString e ++
      ", found " ++ toString n

instance : ToString IdentityError := ⟨IdentityError.message⟩

namespace RequestId

/-- Cuts a list into pieces of the given lengths; the last piece is what remains. -/
def cut {α : Type} : List Nat → List α → List (List α)
  | [], rest => [rest]
  | n :: lengths, rest => rest.take n :: cut lengths (rest.drop n)

/-- The text of an identifier. -/
def text (id : RequestId) : String :=
  "-".intercalate ((cut [8, 4, 4, 4] (Hex.encodeChars id.bytes)).map String.ofList)

/-- The sixteen bytes of five hyphenated groups. -/
def hyphenated? (chars : List Char) : Option Bytes :=
  match chars.splitOn '-' with
  | [a, b, c, d, e] =>
    if a.length = 8 ∧ b.length = 4 ∧ c.length = 4 ∧ d.length = 4 ∧ e.length = 12 then
      Hex.decodeChars (a ++ b ++ c ++ d ++ e)
    else none
  | _ => none

/-- The text inside braces. -/
def braced? (chars : List Char) : Option (List Char) :=
  match chars, chars.getLast? with
  | '{' :: rest, some '}' => if rest.isEmpty then none else some rest.dropLast
  | _, _ => none

/-- The text after `urn:uuid:` in either case. -/
def named? (chars : List Char) : Option (List Char) :=
  let start := "urn:uuid:".toList
  if (chars.take start.length).map Char.toLower = start then some (chars.drop start.length)
  else none

/-- The sixteen bytes of a text in one of the four forms. -/
def bytes? (chars : List Char) : Option Bytes :=
  if chars.length = 32 then Hex.decodeChars chars
  else
    match braced? chars, named? chars with
    | some inner, _ => hyphenated? inner
    | none, some inner => hyphenated? inner
    | none, none => hyphenated? chars

/-- The first character that belongs to no form, with its place in bytes. -/
def strayCharacter? : Nat → List Char → Option (Char × Nat)
  | _, [] => none
  | place, c :: rest =>
    if c = '-' ∨ (Hex.value? c).isSome then strayCharacter? (place + c.utf8Size) rest
    else some (c, place)

/-- The first group, of all but the last, whose length is not as expected. -/
def wrongGroup? : Nat → List Nat → List (List Char) → Option (Nat × Nat × Nat)
  | i, n :: lengths, g :: groups =>
    if g.length = n then wrongGroup? (i + 1) lengths groups else some (i, n, g.length)
  | _, _, _ => none

/-- What is wrong with a text that has none of the forms. -/
def diagnose (chars : List Char) : IdentityError :=
  let (inner, start, simple) :=
    match braced? chars, named? chars with
    | some inner, _ => (inner, 1, false)
    | none, some inner => (inner, 9, false)
    | none, none => (chars, 0, true)
  match strayCharacter? start inner with
  | some (c, i) => .character c i
  | none =>
    let groups := inner.splitOn '-'
    if groups.length = 1 ∧ simple then .length chars.length
    else if groups.length ≠ 5 then .groupCount groups.length
    else
      match wrongGroup? 0 [8, 4, 4, 4] groups with
      | some (i, n, found) => .groupLength i n found
      | none => .groupLength 4 12 (chars.length - 24)

/-- Reads an identifier. -/
def parse (s : String) : Except IdentityError RequestId :=
  match bytes? s.toList with
  | some bytes => .ok ⟨bytes⟩
  | none => .error (diagnose s.toList)

/-- Reads an identifier with white space around it. -/
def parseTrimmed (s : String) : Except IdentityError RequestId := parse (Text.trim s)

/-- The characters with a mark in the place of every hyphenated identifier that is not kept; some
characters in front belong to one that has been replaced. -/
def hideFrom (keep : List Char → Bool) (mark : List Char) : Nat → List Char → List Char
  | _, [] => []
  | past + 1, _ :: rest => hideFrom keep mark past rest
  | 0, c :: rest =>
    let here := (c :: rest).take 36
    if here.length = 36 && (hyphenated? here).isSome && !keep here then
      mark ++ hideFrom keep mark 35 rest
    else c :: hideFrom keep mark 0 rest

/-- The text with a mark in the place of every hyphenated identifier that is not kept. -/
def hide (keep : String → Bool) (mark text : String) : String :=
  if text.length < 36 then text
  else String.ofList (hideFrom (fun id => keep (String.ofList id)) mark.toList 0 text.toList)

end RequestId

/-- A value used once to bind a proof to its request. -/
structure Nonce where
  text : String
deriving DecidableEq, Repr, Inhabited

end PrivatePresentation
