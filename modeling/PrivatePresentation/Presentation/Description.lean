import PrivatePresentation.Presentation.Descriptor
import PrivatePresentation.Time.Description

/-!
Requests and settings as JSON values, for tools that show them.
-/

namespace PrivatePresentation

/-- The members that describe settings. -/
def ProtocolConfig.details (c : ProtocolConfig) : List (String × Json) :=
  [("audience", .string c.audience), ("public_base_url", .string c.publicBaseUrl),
    ("response_uri", .string c.responseUri), ("ttl", .nat c.requestLifetime),
    ("retention", .nat c.verdictRetention)]

/-- The members that tell where a request is found. -/
def ProtocolConfig.addresses (c : ProtocolConfig) (id : RequestId) : List (String × Json) :=
  let url := descriptorUrl c id
  [("request_url", .string (requestUrl c id)), ("descriptor_url", .string url),
    ("deeplink", .string (Deeplink.ofUrl url))]

/-- The members that describe a request. -/
def PresentationRequest.details (r : PresentationRequest) (c : ProtocolConfig) :
    List (String × Json) :=
  [("audience", Json.ofText? r.audience), ("nonce", Json.ofText? r.nonce),
    ("challenge", Json.ofText? r.challenge), ("expires_at", .ofMembers r.expiresAt.details),
    ("wire", r.toJson), ("descriptor", (PresentationDescriptor.ofRequest r c).toJson)]

end PrivatePresentation
