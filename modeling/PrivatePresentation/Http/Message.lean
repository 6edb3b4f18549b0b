import PrivatePresentation.Json.Writer
import PrivatePresentation.Http.Host

/-!
Requests and responses. A target is split at its slashes, and each part is read with its escapes only
where it is used.
-/

namespace PrivatePresentation.Http

/-- A request: method, target, and a body of some type. -/
structure Request where
  method : String
  target : String
  contentType : Option String := none
  body : String := ""
deriving Repr, Inhabited

/-- What a response carries. -/
inductive Content where
  | none
  | text (s : String)
  | json (v : Json)
  | octets (bytes : Bytes)
deriving Inhabited

/-- A response: status, content and the type of the content. -/
structure Response where
  status : Nat
  contentType : Option String := .none
  content : Content := .none
deriving Inhabited

/-- The bytes of what a response carries. -/
def Content.bytes : Content → Bytes
  | .none => []
  | .text s => Text.utf8 s
  | .json v => Text.utf8 v.compact
  | .octets bytes => bytes

/-- A status as it is shown, with its meaning where it is one of those that a verifier gives. -/
def statusText (status : Nat) : String :=
  let known := [(200, "OK"), (201, "Created"), (400, "Bad Request"), (401, "Unauthorized"),
    (404, "Not Found"), (405, "Method Not Allowed"), (408, "Request Timeout"), (410, "Gone"),
    (422, "Unprocessable Entity"), (500, "Internal Server Error")]
  match known.lookup status with
  | some meaning => toString status ++ " " ++ meaning
  | none => toString status

namespace Response

/-- The request was carried out. -/
def isSuccess (r : Response) : Bool := 200 ≤ r.status && r.status ≤ 299

/-- A response without content. -/
def bare (status : Nat) : Response := { status }

/-- A response that carries a text. -/
def text (status : Nat) (s : String) : Response :=
  ⟨status, some "text/plain; charset=utf-8", .text s⟩

/-- A response that carries a value. -/
def json (status : Nat) (v : Json) : Response := ⟨status, some "application/json", .json v⟩

/-- A response that carries bytes. -/
def octets (status : Nat) (bytes : Bytes) : Response :=
  ⟨status, some "application/octet-stream", .octets bytes⟩

/-- The response to somebody who asks only what it would be like. -/
def withoutContent (r : Response) : Response := { r with content := .none }

end Response

namespace Target

/-- The path of a target: what stands before a question mark or a hash sign. -/
def path (target : String) : List Char :=
  target.toList.takeWhile fun c => c != '?' && c != '#'

/-- The parts of a path after its first slash; none if it does not start with one. -/
def parts? (target : String) : Option (List String) :=
  match path target with
  | '/' :: rest => some ((rest.splitOn '/').map String.ofList)
  | _ => none

/-- A part of a path with its escapes read; none if its bytes are no text. -/
def decode? (part : String) : Option String := Text.ofUtf8? (Host.percentDecode part.toList)

end Target
end PrivatePresentation.Http
