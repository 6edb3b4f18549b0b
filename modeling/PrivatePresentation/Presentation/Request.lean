import PrivatePresentation.Hash.ContentDigest
import PrivatePresentation.Identity
import PrivatePresentation.Json.Record
import PrivatePresentation.Schema.Basic
import PrivatePresentation.Time.Reader

/-!
Presentation requests. A verifier asks for a proof about one schema, pins the values that the proof
has to be about, and names the instant after which it is too late. Where the verdict is sent is the
verifier's own affair and is not part of the written form.
-/

namespace PrivatePresentation

/-- Where a verdict is sent, and the secret that signs it. -/
structure Callback where
  url : String
  secret : Option String
deriving DecidableEq, Repr, Inhabited

namespace Callback

/-- The written form; an absent secret is left out. -/
def toJson (c : Callback) : Json :=
  .ofMembers ([("url", .string c.url)] ++
    (match c.secret with
      | some secret => [("secret", .string secret)]
      | none => []))

/-- The fields of the written form. -/
def record : Json.Record where
  name := "Callback"
  fields := [⟨"url", .text, false, none⟩, ⟨"secret", .text, true, some .null⟩]

end Callback

/-- A request for a presentation, to be used once. -/
structure PresentationRequest where
  id : RequestId
  schemaText : String
  schemaHash : ContentDigest
  publicInputs : Json.Members
  responseUri : String
  expiresAt : Timestamp
  callback : Option Callback
deriving Repr, Inhabited

/-- The text of a value: a string without white space around it, anything else in compact form. -/
def Json.plainText : Json → String
  | .string s => Text.trim s
  | v => v.compact

namespace Pinned

/-- The input that names who asks. -/
def audience : String := "aud"

/-- The input that is used once. -/
def nonce : String := "nonce"

/-- The input that an asker may add to be repeated. -/
def challenge : String := "challenge"

/-- The inputs of today's date. -/
def today : DateFields := ⟨"current_year", "current_month", "current_day"⟩

end Pinned

namespace PresentationRequest

/-- The pinned audience, if it is a text. -/
def audience (r : PresentationRequest) : Option String :=
  (Json.Members.get? Pinned.audience r.publicInputs).bind Json.text?

/-- The pinned nonce, if it is a text. -/
def nonce (r : PresentationRequest) : Option String :=
  (Json.Members.get? Pinned.nonce r.publicInputs).bind Json.text?

/-- The text of the pinned challenge, if there is one. -/
def challenge (r : PresentationRequest) : Option String :=
  match Json.Members.get? Pinned.challenge r.publicInputs with
  | none | some .null => none
  | some v => some v.plainText

/-- It is too late; the last instant is still in time. -/
def isExpired (r : PresentationRequest) (now : Timestamp) : Bool := now.isAfter r.expiresAt

/-- The written form. -/
def toJson (r : PresentationRequest) : Json :=
  .ofMembers [
    ("request_id", .string r.id.text),
    ("schema_json", .string r.schemaText),
    ("schema_hash", .string r.schemaHash.text),
    ("public_inputs", .object r.publicInputs),
    ("response_uri", .string r.responseUri),
    ("expires_at", .int r.expiresAt.seconds)]

end PresentationRequest

/-- An identifier as a field of a record. -/
def Json.FieldKind.requestId : Json.FieldKind :=
  .checkedText "a formatted UUID string" fun s =>
    match RequestId.parse s with
    | .ok _ => none
    | .error e => some ("UUID parsing failed: " ++ e.message)

/-- A digest as a field of a record. -/
def Json.FieldKind.digest : Json.FieldKind :=
  .checkedText "a string" fun s =>
    match ContentDigest.parse s with
    | .ok _ => none
    | .error e => some e.message

/-- An instant in text form as a field of a record. -/
def Json.FieldKind.instant : Json.FieldKind :=
  .checkedText "an RFC 3339 formatted date and time string" fun s =>
    match Timestamp.parseStored s with
    | .ok _ => none
    | .error e => some e.message

/-- An instant in seconds as a field of a record. -/
def Json.FieldKind.second : Json.FieldKind :=
  .checkedInteger fun n =>
    match Timestamp.ofSeconds n with
    | .ok _ => none
    | .error e => some e.message

/-- The fault of values that no record holds. -/
def Json.Fault.unmatched : Json.Fault := ⟨.expectedValue, 0, []⟩

/-- Reads the written form of a callback. -/
def Callback.parse (document : Bytes) : Except Json.Fault Callback := do
  match ← record.parse document with
  | [.string url, secret] => return ⟨url, secret.text?⟩
  | _ => throw .unmatched

namespace PresentationRequest

/-- The fields of the written form. -/
def record : Json.Record where
  name := "PresentationRequest"
  fields := [
    ⟨"request_id", .requestId, false, none⟩,
    ⟨"schema_json", .text, false, none⟩,
    ⟨"schema_hash", .digest, false, none⟩,
    ⟨"public_inputs", .map, false, none⟩,
    ⟨"response_uri", .text, false, none⟩,
    ⟨"expires_at", .second, false, none⟩]

/-- The request with given fields. -/
def ofValues? : List Json → Option PresentationRequest
  | [.string id, .string schemaText, .string hash, .object inputs, .string uri,
      .number (.integer seconds _)] => do
    let id ← (RequestId.parse id).toOption
    let hash ← (ContentDigest.parse hash).toOption
    let expiresAt ← (Timestamp.ofSeconds seconds).toOption
    return ⟨id, schemaText, hash, inputs, uri, expiresAt, none⟩
  | _ => none

/-- Reads the written form. -/
def parse (document : Bytes) : Except Json.Fault PresentationRequest := do
  match ofValues? (← record.parse document) with
  | some r => return r
  | none => throw .unmatched

end PresentationRequest

/-- What is asked for when a request is made. Without a schema it is the one for coming of age. -/
structure PresentationOrder where
  schemaText : Option String := none
  publicInputs : Json.Members := []
  lifetime : Option Nat := none
  callback : Option Callback := none
deriving Repr, Inhabited

end PrivatePresentation
