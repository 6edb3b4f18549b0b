import PrivatePresentation.Http.Message
import PrivatePresentation.Json.Reader

/-!
Responses as JSON values, for tools that show them.
-/

namespace PrivatePresentation.Http

/-- What a response carries: of bytes their number, of a value the value, and any other text as it is
to be shown. -/
def Response.contentJson (r : Response) (shown : String → String) : Json :=
  match r.content with
  | .none => .string ""
  | .json v => v
  | .octets bytes => .ofMembers [("bytes", .nat bytes.length)]
  | .text s =>
    if r.contentType = some "application/json" then (Json.parse? s).getD .null
    else .string (shown s)

/-- A response; a text is changed to how it is to be shown. -/
def Response.toJson (r : Response) (shown : String → String) : Json :=
  .ofMembers [("status", .nat r.status), ("content_type", Json.ofText? r.contentType),
    ("body", r.contentJson shown)]

end PrivatePresentation.Http
