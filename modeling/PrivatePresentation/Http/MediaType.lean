import PrivatePresentation.Text.Blank

/-!
Media types: a type, a subtype that may end in a suffix after a plus sign, and parameters after
semicolons. Letters of either case are equal in a type.
-/

namespace PrivatePresentation.Http.MediaType

/-- A character of a token. -/
def isTokenChar (c : Char) : Bool := c.isAlphanum || "!#$%&'*+-.^_`|~".toList.contains c

/-- A character that may stand between quotes. -/
def isQuotedChar (c : Char) : Bool := 0x20 ≤ c.toNat && c.toNat != 0x7F

/-- What follows a value between quotes: blanks, then the end or a semicolon. -/
def afterQuoted? (text : List Char) : Option (List Char) :=
  match text.dropWhile (· == ' ') with
  | [] => some []
  | ';' :: rest => some rest
  | _ => none

/-- What follows the value of a parameter and its semicolon. A value in quotes has at least one
character. -/
def afterValue? (text : List Char) : Option (List Char) :=
  match text with
  | '"' :: first :: rest =>
    if isQuotedChar first then
      match rest.dropWhile (fun c => isQuotedChar c && c != '"') with
      | '"' :: rest => afterQuoted? rest
      | _ => none
    else none
  | text =>
    match text.dropWhile isTokenChar with
    | [] => some []
    | ';' :: rest => if text.head? == some ';' then none else some rest
    | _ => none

/-- Parameters: names and values joined by equals signs, blanks allowed in front of each. -/
def areParameters : Nat → List Char → Bool
  | 0, text => text.isEmpty
  | fuel + 1, text =>
    match text.dropWhile (· == ' ') with
    | [] => true
    | text =>
      let name := text.takeWhile isTokenChar
      match text.drop name.length with
      | '=' :: rest =>
        !name.isEmpty &&
          (match afterValue? rest with
            | some rest => areParameters fuel rest
            | none => false)
      | _ => false

/-- The subtype without its suffix, and the suffix. A plus sign in front is part of the subtype. -/
def splitSuffix (subtype : List Char) : List Char × Option (List Char) :=
  let suffix := (subtype.reverse.takeWhile (· != '+')).reverse
  if suffix.length + 1 < subtype.length then
    (subtype.take (subtype.length - suffix.length - 1), some suffix)
  else (subtype, none)

/-- The type and the subtype of a text, in lower case. -/
def parse? (s : String) : Option (List Char × List Char) :=
  let text := s.toList
  let type := text.takeWhile isTokenChar
  match text.drop type.length with
  | '/' :: rest =>
    let subtype := rest.takeWhile isTokenChar
    let lower := (type.map Char.toLower, subtype.map Char.toLower)
    match rest.drop subtype.length with
    | [] => if type.isEmpty then none else some lower
    | ';' :: parameters =>
      if type.isEmpty || subtype.isEmpty || !areParameters parameters.length parameters then none
      else some lower
    | _ => none
  | _ => none

/-- The media type of JSON documents, or one whose documents are JSON by its suffix. -/
def isJson (s : String) : Bool :=
  match parse? s with
  | some (type, subtype) =>
    let (name, suffix) := splitSuffix subtype
    let json := "json".toList
    type == "application".toList && (name == json || suffix == some json)
  | none => false

end PrivatePresentation.Http.MediaType
