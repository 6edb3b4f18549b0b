import PrivatePresentation.Json.Writer

/-!
The description of the interface: every operation with its parameter, its body and its answers, and
every shape that a body may have, as one document for tools.
-/

namespace PrivatePresentation.Manual

/-- A shape of a value. -/
inductive Shape where
  | text
  | flag
  | object
  | anything
  | named (name : String)
  | optionalText
  | optionalObject
  | optionalSeconds
deriving DecidableEq, Repr

/-- An answer of an operation, with the media type and the shape of what it carries. -/
structure Outcome where
  status : Nat
  description : String
  content : Option (String × Shape) := none
deriving Repr

/-- Something that can be asked of a verifier. -/
structure Operation where
  method : String
  path : String
  name : String
  summary : String
  tag : String
  /-- What the part of the path in braces is called, and what it is. -/
  parameter : Option (String × String) := none
  body : Option String := none
  outcomes : List Outcome
deriving Repr

/-- A member of an object. -/
structure Property where
  name : String
  shape : Shape
  required : Bool := true
  description : String := ""
deriving Repr

/-- An object that a body may hold. -/
structure Component where
  name : String
  description : String := ""
  properties : List Property
deriving Repr

/-- A group of operations. -/
structure Tag where
  name : String
  description : String
deriving Repr

/-- A body of JSON of a shape with a name. -/
def json (name : String) : Option (String × Shape) := some ("application/json", .named name)

/-- An error in the common form. -/
def failure (status : Nat) (description : String) : Outcome :=
  ⟨status, description, json "ErrorBody"⟩

/-- The part of a path that names a request. -/
def requestName : Option (String × String) := some ("id", "Request id")

/-- The part of a path that names a schema. -/
def schemaName : Option (String × String) := some ("hash", "Schema hash, `sha256:<hex>`")

/-- The operations on requests. -/
def requestOperations : List Operation := [
  { method := "post", path := "/v1/presentations/create", name := "create_presentation"
    summary := "POST /v1/presentations/create: Create a single-use presentation request."
    tag := "presentations", body := some "CreatePresentationRequest"
    outcomes := [⟨201, "Request created", json "CreatePresentationResponse"⟩,
      failure 400 "Malformed body", failure 422 "Invalid schema or inputs"] },
  { method := "post", path := "/v1/presentations/verify", name := "verify_presentation"
    summary := "POST /v1/presentations/verify: Submit a proof for a pending request."
    tag := "presentations", body := some "SubmitPresentationRequest"
    outcomes := [⟨200, "Proof accepted", json "VerifyOk"⟩, failure 400 "Malformed submission",
      ⟨401, "Proof rejected", json "VerifyFailure"⟩] },
  { method := "post", path := "/v1/presentations/verify-blocking", name := "verify_blocking"
    summary := "POST /v1/presentations/verify-blocking: Create a request and wait for its verdict."
    tag := "presentations", body := some "VerifyBlockingRequest"
    outcomes := [⟨200, "Request settled", json "VerifyBlockingResponse"⟩,
      ⟨408, "No verdict before the timeout", json "VerifyBlockingResponse"⟩] },
  { method := "get", path := "/v1/presentations/\x7bid\x7d", name := "show_presentation"
    summary := "GET /v1/presentations/\x7bid\x7d: Plain-text summary with the wallet deeplink."
    tag := "presentations", parameter := requestName
    outcomes := [⟨200, "Summary", some ("text/plain", .text)⟩, failure 404 "Unknown request",
      failure 410 "Expired"] },
  { method := "get", path := "/v1/presentations/\x7bid\x7d/descriptor", name := "get_descriptor"
    summary := "GET /v1/presentations/\x7bid\x7d/descriptor: Wallet descriptor."
    tag := "presentations", parameter := requestName
    outcomes := [⟨200, "Descriptor JSON", none⟩, failure 404 "Unknown request",
      failure 410 "Expired"] },
  { method := "get", path := "/v1/presentations/\x7bid\x7d/status", name := "get_status"
    summary := "GET /v1/presentations/\x7bid\x7d/status: Request liveness."
    tag := "presentations", parameter := requestName
    outcomes := [⟨200, "Request state", json "StatusResponse"⟩] },
  { method := "get", path := "/v1/presentations/\x7bid\x7d/result", name := "get_result"
    summary := "GET /v1/presentations/\x7bid\x7d/result: Verdict, or the pending state."
    tag := "presentations", parameter := requestName
    outcomes := [⟨200, "Verdict view", none⟩] }]

/-- The operations on keys and schemas. -/
def artifactOperations : List Operation := [
  { method := "get", path := "/v1/artifacts/\x7bhash\x7d/vk", name := "get_verifying_key"
    summary := "GET /v1/artifacts/\x7bhash\x7d/vk: Compressed verifying key."
    tag := "artifacts", parameter := schemaName
    outcomes := [⟨200, "Verifying key bytes", some ("application/octet-stream", .text)⟩,
      failure 404 "No keys for this schema"] },
  { method := "get", path := "/v1/artifacts/\x7bhash\x7d/pk", name := "get_proving_key"
    summary := "GET /v1/artifacts/\x7bhash\x7d/pk: Compressed proving key."
    tag := "artifacts", parameter := schemaName
    outcomes := [⟨200, "Proving key bytes", some ("application/octet-stream", .text)⟩,
      failure 404 "No keys for this schema"] },
  { method := "get", path := "/v1/schemas/\x7bhash\x7d", name := "get_schema"
    summary := "GET /v1/schemas/\x7bhash\x7d: Canonical schema JSON."
    tag := "artifacts", parameter := schemaName
    outcomes := [⟨200, "Canonical schema", some ("application/json", .text)⟩,
      failure 404 "Unknown schema"] }]

/-- Every operation. -/
def operations : List Operation := requestOperations ++ artifactOperations

/-- Every object that a body may hold. -/
def components : List Component := [
  ⟨"ErrorBody", "Structured JSON error response body.", [⟨"error", .named "ErrorDetail", true, ""⟩]⟩,
  ⟨"ErrorDetail", "Inner error detail.", [
    ⟨"code", .text, true, "Machine-readable error code (e.g., \"NOT_FOUND\", \"VALIDATION_ERROR\")."⟩,
    ⟨"message", .text, true, "Human-readable error message."⟩,
    ⟨"details", .anything, false, "Additional context for validation errors."⟩]⟩,
  ⟨"VerifyFailure", "Body of a rejected submission.", [
    ⟨"ok", .flag, true, ""⟩,
    ⟨"reason", .text, true, "Machine reason, e.g. `nonce_mismatch`."⟩,
    ⟨"error", .text, true, ""⟩]⟩,
  ⟨"CreatePresentationRequest", "Create a presentation request.", [
    ⟨"schema_json", .optionalObject, false,
      "Schema as a JSON string or object. Defaults to the built-in age schema."⟩,
    ⟨"public_inputs", .optionalObject, false,
      "Extra public inputs. `aud`, `nonce` and `current_*` are always server-set."⟩,
    ⟨"expires_in", .optionalSeconds, false, "Lifetime in seconds."⟩,
    ⟨"callback_url", .optionalText, false, ""⟩,
    ⟨"callback_secret", .optionalText, false, ""⟩]⟩,
  ⟨"CreatePresentationResponse", "", [
    ⟨"request", .object, true, ""⟩,
    ⟨"request_url", .text, true, "Human-readable page for the request."⟩,
    ⟨"descriptor_url", .text, true, "JSON descriptor for wallets."⟩,
    ⟨"deeplink", .text, true, ""⟩]⟩,
  ⟨"SubmitPresentationRequest", "A wallet's proof submission.", [
    ⟨"request_id", .text, true, ""⟩,
    ⟨"zkp_blob_b64", .text, true, "Base64 proof envelope."⟩,
    ⟨"public_inputs", .object, false, ""⟩,
    ⟨"challenge", .optionalText, false, ""⟩]⟩,
  ⟨"VerifyOk", "", [
    ⟨"ok", .flag, true, ""⟩,
    ⟨"verified_at", .text, true, "RFC 3339."⟩]⟩,
  ⟨"VerifyBlockingRequest", "Create a request and wait for its verdict.", [
    ⟨"schema_json", .optionalObject, false, ""⟩,
    ⟨"public_inputs", .optionalObject, false, ""⟩,
    ⟨"timeout_secs", .optionalSeconds, false, "Defaults to the configured wait timeout."⟩]⟩,
  ⟨"VerifyBlockingResponse", "", [
    ⟨"request_id", .text, true, ""⟩,
    ⟨"ok", .flag, true, ""⟩,
    ⟨"state", .text, true, "`verified`, `failed`, `expired`, or `pending` on timeout."⟩,
    ⟨"reason", .optionalText, false, ""⟩]⟩,
  ⟨"StatusResponse", "", [
    ⟨"state", .text, true, "`pending`, `expired` or `unknown_or_consumed`."⟩]⟩]

/-- The groups of operations. -/
def tags : List Tag := [
  ⟨"presentations", "Presentation requests and proof submission"⟩,
  ⟨"artifacts", "Proving keys, verifying keys and schemas"⟩]

/-- The name of the interface. -/
def title : String := "zkattest API"

/-- What the interface is for. -/
def purpose : String :=
  "Schema-driven zero-knowledge presentations: request creation, wallet descriptors, Groth16 proof " ++
    "verification and artifact distribution."

/-- The version of the form of the description. -/
def form : String := "3.1.0"

/-- A member with a description, left out if there is none. -/
def described (description : String) : List (String × Json) :=
  if description.isEmpty then [] else [("description", .string description)]

/-- The members that describe a shape. -/
def Shape.members : Shape → List (String × Json)
  | .text => [("type", .string "string")]
  | .flag => [("type", .string "boolean")]
  | .object => [("type", .string "object")]
  | .anything => []
  | .named name => [("$ref", .string ("#/components/schemas/" ++ name))]
  | .optionalText => [("type", .array [.string "string", .string "null"])]
  | .optionalObject => [("type", .array [.string "object", .string "null"])]
  | .optionalSeconds =>
    [("type", .array [.string "integer", .string "null"]), ("format", .string "int64"),
      ("minimum", .nat 0)]

/-- A media type with the shape of its values. -/
def contentMembers : Option (String × Shape) → List (String × Json)
  | some (media, shape) =>
    [("content", .ofMembers [(media, .ofMembers [("schema", .ofMembers shape.members)])])]
  | none => []

/-- The description of an answer, by its status. -/
def Outcome.member (o : Outcome) : String × Json :=
  (toString o.status,
    .ofMembers (("description", .string o.description) :: contentMembers o.content))

/-- The description of an operation. -/
def Operation.toJson (o : Operation) : Json :=
  .ofMembers ([
    ("tags", .array [.string o.tag]),
    ("summary", .string o.summary),
    ("operationId", .string o.name),
    ("responses", .ofMembers (o.outcomes.map Outcome.member))] ++
    (match o.parameter with
      | some (name, description) =>
        [("parameters", .array [.ofMembers [("name", .string name), ("in", .string "path"),
          ("description", .string description), ("required", .bool true),
          ("schema", .ofMembers Shape.text.members)]])]
      | none => []) ++
    (match o.body with
      | some name =>
        [("requestBody", .ofMembers (("required", .bool true) :: contentMembers (json name)))]
      | none => []))

/-- The description of a component. -/
def Component.toJson (c : Component) : Json :=
  let required := (c.properties.filter (·.required)).map fun p => Json.string p.name
  .ofMembers ([("type", .string "object"),
    ("properties", .ofMembers (c.properties.map fun p =>
      (p.name, .ofMembers (described p.description ++ p.shape.members))))] ++
    described c.description ++ (if required.isEmpty then [] else [("required", .array required)]))

/-- The whole description. -/
def document : Json :=
  .ofMembers [
    ("openapi", .string form),
    ("info", .ofMembers [("title", .string title), ("description", .string purpose),
      ("version", .string "0.1.0")]),
    ("paths", .ofMembers (operations.map fun o => (o.path, .ofMembers [(o.method, o.toJson)]))),
    ("components", .ofMembers [("schemas", .ofMembers (components.map fun c => (c.name, c.toJson)))]),
    ("tags", .array (tags.map fun t =>
      .ofMembers [("name", .string t.name), ("description", .string t.description)]))]

/-- The parts of the description that tell what there is: operations by path with their statuses,
groups, and names of objects. -/
def outline : Json :=
  let byPath := operations.mergeSort fun a b => decide (a.path ≤ b.path)
  .ofMembers [
    ("openapi", .string form),
    ("info", .string title),
    ("paths", .array (byPath.map fun o =>
      .array [.string o.method, .string o.path,
        .array (o.outcomes.map fun x => .string (toString x.status))])),
    ("tags", .array (tags.map fun t => .string t.name)),
    ("schemas", .array (((components.map (·.name)).mergeSort fun a b => decide (a ≤ b)).map
      Json.string))]

end PrivatePresentation.Manual
