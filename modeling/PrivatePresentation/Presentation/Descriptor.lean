import PrivatePresentation.Presentation.Request
import PrivatePresentation.Text.FormEncoded

/-!
Descriptors: what a wallet is shown of a request. It learns where the schema and the keys are, which
values it has to repeat, and where to send the proof. A deeplink carries the address of a descriptor.
-/

namespace PrivatePresentation

/-- How a verifier presents itself. -/
structure ProtocolConfig where
  audience : String
  publicBaseUrl : String
  responseUri : String
  requestLifetime : Nat
  verdictRetention : Nat
deriving DecidableEq, Repr, Inhabited

namespace ProtocolConfig

/-- The audience when none is set. -/
def defaultAudience : String := "http://localhost"

/-- The base address when none is set. -/
def defaultBaseUrl : String := "http://localhost:8080"

/-- Where proofs are sent to under a base address. -/
def verifyPath : String := "/v1/presentations/verify"

/-- Everything that follows from a base address; a slash at its end is dropped. -/
def withBaseUrl (url : String) : ProtocolConfig :=
  let base := Text.dropTrailing '/' url
  { audience := defaultAudience
    publicBaseUrl := base
    responseUri := base ++ verifyPath
    requestLifetime := 300
    verdictRetention := 900 }

/-- The settings when none are given. -/
def standard : ProtocolConfig := withBaseUrl defaultBaseUrl

end ProtocolConfig

/-- What a wallet is shown of a request. -/
structure PresentationDescriptor where
  requestId : RequestId
  audience : String
  expiresAt : Int
  challenge : String
  nonce : String
  schemaHash : ContentDigest
  schemaUri : String
  verifyingKeyUrl : String
  provingKeyUrl : String
  submitUrl : String
  publicInputs : Json.Members
deriving Repr, Inhabited

namespace PresentationDescriptor

/-- The descriptor of a request. -/
def ofRequest (r : PresentationRequest) (config : ProtocolConfig) : PresentationDescriptor :=
  let base := Text.dropTrailing '/' config.publicBaseUrl
  let hash := r.schemaHash.text
  { requestId := r.id
    audience := r.audience.getD config.audience
    expiresAt := r.expiresAt.seconds
    challenge := r.challenge.getD ""
    nonce := r.nonce.getD ""
    schemaHash := r.schemaHash
    schemaUri := base ++ "/v1/schemas/" ++ hash
    verifyingKeyUrl := base ++ "/v1/artifacts/" ++ hash ++ "/vk"
    provingKeyUrl := base ++ "/v1/artifacts/" ++ hash ++ "/pk"
    submitUrl := r.responseUri
    publicInputs := r.publicInputs }

/-- The written form. -/
def toJson (d : PresentationDescriptor) : Json :=
  .ofMembers [
    ("request_id", .string d.requestId.text),
    ("audience", .string d.audience),
    ("expires_at", .int d.expiresAt),
    ("challenge", .string d.challenge),
    ("nonce", .string d.nonce),
    ("schema", .ofMembers [
      ("hash", .string d.schemaHash.text), ("uri", .string d.schemaUri)]),
    ("artifacts", .ofMembers [
      ("vk_url", .string d.verifyingKeyUrl), ("pk_url", .string d.provingKeyUrl)]),
    ("submit_url", .string d.submitUrl),
    ("public_inputs", .object d.publicInputs)]

/-- The descriptor with a written form. -/
def ofJson? (v : Json) : Option PresentationDescriptor := do
  let text? (v : Json) (key : String) : Option String := (v.get? key).bind Json.text?
  let schema ← v.get? "schema"
  let artifacts ← v.get? "artifacts"
  return {
    requestId := ← (RequestId.parse (← text? v "request_id")).toOption
    audience := ← text? v "audience"
    expiresAt := ← (← v.get? "expires_at").signed?
    challenge := ← text? v "challenge"
    nonce := ← text? v "nonce"
    schemaHash := ← (ContentDigest.parse (← text? schema "hash")).toOption
    schemaUri := ← text? schema "uri"
    verifyingKeyUrl := ← text? artifacts "vk_url"
    provingKeyUrl := ← text? artifacts "pk_url"
    submitUrl := ← text? v "submit_url"
    publicInputs := ← (← v.get? "public_inputs").members? }

end PresentationDescriptor

/-- The address of a request. -/
def requestUrl (config : ProtocolConfig) (id : RequestId) : String :=
  Text.dropTrailing '/' config.publicBaseUrl ++ "/v1/presentations/" ++ id.text

/-- The address of the descriptor of a request. -/
def descriptorUrl (config : ProtocolConfig) (id : RequestId) : String :=
  requestUrl config id ++ "/descriptor"

namespace Deeplink

/-- What every deeplink begins with: the action, a question mark and the name of the parameter. -/
def start : String := "zkwallet://present?request_uri="

/-- The deeplink that carries an address. -/
def ofUrl (url : String) : String := start ++ Text.FormEncoded.encode url

end Deeplink
end PrivatePresentation
