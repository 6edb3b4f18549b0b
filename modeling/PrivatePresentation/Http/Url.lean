import PrivatePresentation.Http.Host
import PrivatePresentation.Text.Blank

/-!
Absolute addresses. An address is a scheme, a colon and what the scheme makes of the rest. Of the
rest only the authority, with its host and port, can be at fault; a path takes any text.
-/

namespace PrivatePresentation.Http

namespace Url

/-- The schemes whose addresses have a host and treat a backslash as a slash. -/
def isSpecial (scheme : String) : Bool :=
  ["http", "https", "ws", "wss", "ftp", "file"].contains scheme

/-- A character of a scheme after its first letter. -/
def isSchemeChar (c : Char) : Bool := c.isAlphanum || c == '+' || c == '-' || c == '.'

/-- The text without controls and spaces at its ends, and without tabs and line ends anywhere. -/
def cleaned (s : String) : List Char :=
  let isEdge (c : Char) : Bool := c.toNat ≤ 0x20
  let trimmed := ((s.toList.dropWhile isEdge).reverse.dropWhile isEdge).reverse
  trimmed.filter fun c => c != '\t' && c != '\n' && c != '\r'

/-- The scheme in lower case and what follows its colon. -/
def splitScheme? (text : List Char) : Option (String × List Char) :=
  match text with
  | first :: _ =>
    match text.dropWhile isSchemeChar with
    | ':' :: rest =>
      if first.isAlpha then
        some (String.ofList ((text.takeWhile isSchemeChar).map Char.toLower), rest)
      else none
    | _ => none
  | [] => none

/-- A character that ends an authority. -/
def endsAuthority (special : Bool) (c : Char) : Bool :=
  c == '/' || c == '?' || c == '#' || (special && c == '\\')

/-- What stands before the last `@` of an authority, and the rest from there. -/
def splitUser (special : Bool) (text : List Char) : Option (List Char) × List Char :=
  let authority := text.takeWhile fun c => !endsAuthority special c
  if authority.contains '@' then
    let host := (authority.reverse.takeWhile (· != '@')).reverse
    let user := authority.take (authority.length - host.length - 1)
    (some user, text.drop (user.length + 1))
  else (none, text)

/-- The length of the host in front: it ends at a colon outside brackets. -/
def hostLength (special : Bool) : Bool → List Char → Nat
  | _, [] => 0
  | inside, c :: rest =>
    if (c == ':' && !inside) || endsAuthority special c then 0
    else 1 + hostLength special (c == '[' || (inside && c != ']')) rest

/-- Checks a port, up to where the authority ends: digits of a number below 65536. -/
def checkPort : Nat → List Char → Except UrlError Unit
  | _, [] => .ok ()
  | port, c :: rest =>
    if c.isDigit then
      let port := 10 * port + (c.toNat - 48)
      if 65535 < port then .error .invalidPort else checkPort port rest
    else if endsAuthority true c then .ok ()
    else .error .invalidPort

/-- User data that is written: a name, or a password after the first colon. -/
def hasUser (user : List Char) : Bool := user != [] && user != [':']

/-- Checks an authority and its end. -/
def checkAuthority (special : Bool) (text : List Char) : Except UrlError Unit := do
  let (user, text) := splitUser special text
  if user == some [] then
    if (text.head?.map (endsAuthority special)).getD false then throw .emptyHost
  let host := text.take (hostLength special false text)
  let rest := text.drop host.length
  if special && host.isEmpty then throw .emptyHost
  if special then Host.check host else Host.checkOpaque host
  match rest with
  | ':' :: port =>
    if host.isEmpty then throw .emptyHost
    checkPort 0 port
  | _ => pure ()
  if host.isEmpty && hasUser (user.getD []) then throw .emptyHost

/-- The letter of a drive and a colon or bar, which stand for no host. -/
def isDrive (text : List Char) : Bool :=
  match text with
  | [letter, mark] => letter.isAlpha && (mark == ':' || mark == '|')
  | _ => false

/-- Checks what follows the scheme of files: a host may stand after two slashes. -/
def checkFile (text : List Char) : Except UrlError Unit :=
  match text with
  | a :: b :: rest =>
    if (a == '/' || a == '\\') && (b == '/' || b == '\\') then
      let host := rest.takeWhile fun c => !endsAuthority true c
      if host.isEmpty || isDrive host then .ok () else Host.check host
    else .ok ()
  | _ => .ok ()

/-- The scheme of an absolute address. -/
def scheme (s : String) : Except UrlError String := do
  match splitScheme? (cleaned s) with
  | none => throw .relativeWithoutBase
  | some (scheme, rest) =>
    if scheme == "file" then checkFile rest
    else if isSpecial scheme then
      checkAuthority true (rest.dropWhile fun c => c == '/' || c == '\\')
    else
      match rest with
      | '/' :: '/' :: rest => checkAuthority false rest
      | _ => pure ()
    return scheme

/-- The port that is meant without saying, at the end of a host. -/
def usualPort (scheme : String) : List Char :=
  if scheme == "http" || scheme == "ws" then ":80".toList
  else if scheme == "https" || scheme == "wss" then ":443".toList
  else if scheme == "ftp" then ":21".toList
  else []

/-- The address as it is shown: of those whose scheme has hosts, the scheme and the host are in lower
case, the usual port is left out, and the path begins with a slash. -/
def shown (s : String) : String :=
  match splitScheme? (cleaned s) with
  | none => s
  | some (scheme, rest) =>
    if !isSpecial scheme || scheme == "file" then s
    else
      let rest := rest.dropWhile fun c => c == '/' || c == '\\'
      let (user, rest) := splitUser true rest
      let user := match user with
        | some user => if hasUser user then user ++ ['@'] else []
        | none => []
      let host := (rest.takeWhile fun c => !endsAuthority true c).map Char.toLower
      let path := rest.drop host.length
      let host := if (usualPort scheme).isSuffixOf host then
          host.take (host.length - (usualPort scheme).length) else host
      let path := match path with
        | '/' :: path => path
        | '\\' :: path => path
        | path => path
      scheme ++ "://" ++ String.ofList (user ++ host ++ '/' :: path)

end Url
end PrivatePresentation.Http
