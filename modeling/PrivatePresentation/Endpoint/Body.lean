import PrivatePresentation.Endpoint.Failure
import PrivatePresentation.Http.MediaType
import PrivatePresentation.Http.Url
import PrivatePresentation.Presentation.Request
import PrivatePresentation.Presentation.Submission

/-!
Bodies: what the requests to a verifier carry. A body is read as a record, then held against the
rules that its fields obey together.
-/

namespace PrivatePresentation

/-- An address for deliveries: it is absolute and of the web. -/
def checkDeliveryUrl (field value : String) : Except String Unit :=
  match Http.Url.scheme value with
  | .error e => .error (field ++ " is not a valid URL: " ++ e.message)
  | .ok scheme =>
    if scheme = "http" ∨ scheme = "https" then .ok ()
    else .error (field ++ " must use http or https, not " ++ scheme)

namespace SchemaArgument

/-- A schema is given as a text or as an object. -/
def check : Json → Except String Unit
  | .null | .string _ | .object _ => .ok ()
  | _ => .error "schema_json must be a JSON string or object"

/-- The text of a given schema. -/
def text? : Json → Option String
  | .string s => some s
  | .object m => some (Json.object m).compact
  | _ => none

/-- The field that holds a schema. -/
def field : Json.Field := ⟨"schema_json", .any, true, some .null⟩

end SchemaArgument

namespace PublicInputsArgument

/-- The field that holds pinned inputs. -/
def field : Json.Field := ⟨"public_inputs", .map, true, some .null⟩

end PublicInputsArgument

/-- A field with an optional number of seconds. -/
def Json.Field.seconds (name : String) : Json.Field := ⟨name, .unsigned, true, some .null⟩

/-- A field with an optional text. -/
def Json.Field.optionalText (name : String) : Json.Field := ⟨name, .text, true, some .null⟩

/-- What is sent to make a request. -/
structure CreateBody where
  schema : Json := .null
  publicInputs : Json.Members := []
  lifetime : Option Nat := none
  callbackUrl : Option String := none
  callbackSecret : Option String := none
deriving Inhabited

namespace CreateBody

/-- The longest lifetime of a request, in seconds. -/
def maxLifetime : Nat := 86400

/-- The fields of the written form. -/
def record : Json.Record where
  name := "CreatePresentationRequest"
  fields := [SchemaArgument.field, PublicInputsArgument.field, .seconds "expires_in",
    .optionalText "callback_url", .optionalText "callback_secret"]

/-- The body with given fields. -/
def ofValues? : List Json → Option CreateBody
  | [schema, inputs, lifetime, url, secret] =>
    some ⟨schema, inputs.members?.getD [], lifetime.unsigned?, url.text?, secret.text?⟩
  | _ => none

/-- Reads the written form. -/
def parse (document : Bytes) : Except Json.Fault CreateBody := do
  match ofValues? (← record.parse document) with
  | some b => return b
  | none => throw .unmatched

/-- The rules of the fields, in the order in which they are held. -/
def check (b : CreateBody) : Except String Unit := do
  SchemaArgument.check b.schema
  if maxLifetime < b.lifetime.getD 0 then
    throw ("expires_in must be at most " ++ toString maxLifetime ++ " seconds")
  match b.callbackUrl, b.callbackSecret with
  | some url, _ => checkDeliveryUrl "callback_url" url
  | none, some _ => throw "callback_secret requires callback_url"
  | none, none => return ()

/-- What is ordered. -/
def order (b : CreateBody) : PresentationOrder where
  schemaText := SchemaArgument.text? b.schema
  publicInputs := b.publicInputs
  lifetime := b.lifetime
  callback := b.callbackUrl.map fun url => ⟨url, b.callbackSecret⟩

end CreateBody

/-- What is sent to make a request and wait for its verdict. -/
structure AwaitBody where
  schema : Json := .null
  publicInputs : Json.Members := []
  timeout : Option Nat := none
deriving Inhabited

namespace AwaitBody

/-- The longest wait, in seconds. -/
def maxTimeout : Nat := 3600

/-- The fields of the written form. -/
def record : Json.Record where
  name := "VerifyBlockingRequest"
  fields := [SchemaArgument.field, PublicInputsArgument.field, .seconds "timeout_secs"]

/-- The body with given fields. -/
def ofValues? : List Json → Option AwaitBody
  | [schema, inputs, timeout] => some ⟨schema, inputs.members?.getD [], timeout.unsigned?⟩
  | _ => none

/-- Reads the written form. -/
def parse (document : Bytes) : Except Json.Fault AwaitBody := do
  match ofValues? (← record.parse document) with
  | some b => return b
  | none => throw .unmatched

/-- The rules of the fields, in the order in which they are held. -/
def check (b : AwaitBody) : Except String Unit := do
  SchemaArgument.check b.schema
  match b.timeout with
  | some t =>
    if t = 0 ∨ maxTimeout < t then
      throw ("timeout_secs must be between 1 and " ++ toString maxTimeout)
  | none => return ()

/-- What is ordered. -/
def order (b : AwaitBody) : PresentationOrder where
  schemaText := SchemaArgument.text? b.schema
  publicInputs := b.publicInputs

end AwaitBody

namespace Body

/-- The message for a body that cannot be read: where it lies, what it is, and its place. -/
def faultMessage (document : Bytes) (f : Json.Fault) : String :=
  (if f.cause.isSyntax then "Failed to parse the request body as JSON: "
    else "Failed to deserialize the JSON body into the target type: ") ++
    (match f.pathText? with
      | some path => path ++ ": "
      | none => "") ++ f.locatedMessage document

/-- Reads the body of a request. -/
def read {α : Type} (parse : Bytes → Except Json.Fault α) (r : Http.Request) :
    Except Failure α :=
  if (r.contentType.map Http.MediaType.isJson).getD false then
    (parse (Text.utf8 r.body)).mapError fun f => .badRequest (faultMessage (Text.utf8 r.body) f)
  else .error (.badRequest "Expected request with `Content-Type: application/json`")

/-- Reads the body of a request and holds it against the rules of its fields. -/
def readChecked {α : Type} (parse : Bytes → Except Json.Fault α) (check : α → Except String Unit)
    (r : Http.Request) : Except Failure α := do
  let body ← read parse r
  (check body).mapError .invalid
  return body

end Body
end PrivatePresentation
