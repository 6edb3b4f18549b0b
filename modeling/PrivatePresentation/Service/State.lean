import PrivatePresentation.Presentation.Descriptor
import PrivatePresentation.Presentation.Refusal
import PrivatePresentation.Schema.Builtin
import PrivatePresentation.Service.Counters
import PrivatePresentation.Service.Waiters

/-!
The state of a verifier: keys by schema, pending requests, verdicts, waiters, what has been handed
over for delivery, and counters. Keys are made once for each schema.
-/

namespace PrivatePresentation

/-- The keys of a schema, with the circuit that they were made for. -/
structure SchemaKeys where
  schema : Schema
  circuit : Circuit
  keys : ProvingKey
  constraints : Nat
deriving Inhabited

namespace SchemaKeys

/-- The hash of the schema. -/
def hash (k : SchemaKeys) : ContentDigest := k.schema.hash

/-- The fingerprint of the layout that the keys were made for. -/
def fingerprint (k : SchemaKeys) : ContentDigest := k.circuit.fingerprint

/-- The bytes of the proving key, as wallets fetch them. -/
def provingKeyBytes (k : SchemaKeys) : Bytes := k.keys.encode

/-- The bytes of the verifying key, as anyone may fetch them. -/
def verifyingKeyBytes (k : SchemaKeys) : Bytes := k.keys.verifying.encode

end SchemaKeys

/-- A verdict handed over for delivery, with the request that it settles. -/
structure Delivery where
  request : PresentationRequest
  verdict : Verdict
deriving Inhabited

/-- The state of a verifier. -/
structure Service where
  config : ProtocolConfig := .standard
  keys : Store ContentDigest SchemaKeys := ∅
  requests : Store RequestId PresentationRequest := ∅
  verdicts : Store RequestId Verdict := ∅
  waiters : Waiters := {}
  outbox : List Delivery := []
  counters : Counters := ∅
deriving Inhabited

/-- What is drawn at random for a new request; the secrets of a setup are used only if there is one. -/
structure Fresh where
  id : RequestId
  nonce : Nonce
  trapdoor : Groth16.Trapdoor
deriving Inhabited

namespace Service

/-- Counts an event. -/
def counted (s : Service) (e : Event) : Service := { s with counters := s.counters.increment e }

/-- Keeps a request until it is settled. -/
def save (s : Service) (r : PresentationRequest) : Service :=
  { s with requests := s.requests.insert r.id r }

/-- Keeps a verdict. -/
def record (s : Service) (v : Verdict) : Service :=
  { s with verdicts := s.verdicts.insert v.requestId v }

/-- Wakes everybody who waits for a verdict. -/
def notify (s : Service) (v : Verdict) : Service :=
  { s with waiters := (s.waiters.notify v.requestId v).2 }

/-- Hands a verdict over for delivery. -/
def deliver (s : Service) (r : PresentationRequest) (v : Verdict) : Service :=
  { s with outbox := s.outbox ++ [⟨r, v⟩] }

/-- Forgets the keys of a schema. -/
def evict (s : Service) (hash : ContentDigest) : Service :=
  { s with keys := s.keys.erase hash }

/-- The keys of a schema, made now. -/
def makeKeys (ps : ProofSystem) (schema : Schema) (t : Groth16.Trapdoor) :
    Except ProtocolError SchemaKeys := do
  let circuit ← (Circuit.compile schema).mapError .compilation
  let constraints ← circuit.constraintCount.mapError fun e => .setup (.setupFailed e.message)
  let keys ← (ps.setupCircuit circuit t).mapError .setup
  return ⟨schema, circuit, keys, constraints⟩

/-- The keys of a schema, made unless they are there. -/
def ensureKeys (ps : ProofSystem) (s : Service) (schema : Schema) (t : Groth16.Trapdoor) :
    Except ProtocolError SchemaKeys × Service :=
  match s.keys.get? schema.hash with
  | some keys => (.ok keys, s)
  | none =>
    match makeKeys ps schema t with
    | .error e => (.error e, s)
    | .ok keys =>
      (.ok keys, { s with keys := s.keys.insert schema.hash keys }.counted .setup)

/-- The schema of an order. -/
def orderedSchema (order : PresentationOrder) : Except ProtocolError Schema :=
  match order.schemaText with
  | some text => (Schema.parse text).mapError .schema
  | none => (Schema.parse Schema.ageOver18Text).mapError .schema

/-- Pins a date under three names. -/
def pinDate (names : DateFields) (date : CalendarDate) (inputs : Json.Members) : Json.Members :=
  inputs.insertAll [(names.year, .int date.year), (names.month, .nat date.month),
    (names.day, .nat date.day)]

/-- Pins a date under the names that a constraint reads today's date from. -/
def pinConstraint (date : CalendarDate) (inputs : Json.Members) (c : Constraint) : Json.Members :=
  match c.demand with
  | .age _ current _ _ => pinDate current date inputs
  | _ => inputs

/-- The pinned inputs of a request: what was ordered, over it the audience, the nonce and today's
date, and over these the dates of the constraints. -/
def pinnedInputs (config : ProtocolConfig) (schema : Schema) (ordered : Json.Members)
    (nonce : Nonce) (today : CalendarDate) : Json.Members :=
  let own := ordered.insertAll
    [(Pinned.audience, .string config.audience), (Pinned.nonce, .string nonce.text)]
  schema.constraints.foldl (pinConstraint today) (pinDate Pinned.today today own)

/-- The pinned values of public fields are instances of their fields. -/
def checkPinned (inputs : Json.Members) : List FieldDecl → Except ProtocolError Unit
  | [] => .ok ()
  | f :: rest =>
    match Json.Members.get? f.name inputs with
    | none => checkPinned inputs rest
    | some v =>
      match normalize f v with
      | .ok _ => checkPinned inputs rest
      | .error e => .error (.publicInput f.name e)

/-- The request of an order, not yet kept. -/
def prepare (config : ProtocolConfig) (schema : Schema) (keys : SchemaKeys)
    (order : PresentationOrder) (now : Timestamp) (fresh : Fresh) :
    Except ProtocolError PresentationRequest := do
  let inputs := pinnedInputs config schema order.publicInputs fresh.nonce now.date
  checkPinned inputs keys.circuit.layout.publicFields
  return {
    id := fresh.id
    schemaText := schema.canonical.text
    schemaHash := keys.hash
    publicInputs := inputs
    responseUri := config.responseUri
    expiresAt := now.plusSeconds (order.lifetime.getD config.requestLifetime)
    callback := order.callback }

/-- The request of an order, not yet kept, with the keys that it needs. -/
def prepareWithKeys (ps : ProofSystem) (s : Service) (order : PresentationOrder) (now : Timestamp)
    (fresh : Fresh) : Except ProtocolError PresentationRequest × Service :=
  match orderedSchema order with
  | .error e => (.error e, s)
  | .ok schema =>
    match ensureKeys ps s schema fresh.trapdoor with
    | (.error e, s) => (.error e, s)
    | (.ok keys, s) => (prepare s.config schema keys order now fresh, s)

/-- A request that is pending and in time. -/
def pending (s : Service) (id : RequestId) (now : Timestamp) :
    Except LookupError PresentationRequest :=
  match s.requests.get? id with
  | none => .error .notFound
  | some r => if r.isExpired now then .error .expired else .ok r

/-- The descriptor of a request that is pending and in time. -/
def descriptor (s : Service) (id : RequestId) (now : Timestamp) :
    Except LookupError PresentationDescriptor := do
  return .ofRequest (← s.pending id now) s.config

/-- The verdicts that are not older than some seconds, and how many are. -/
def purgeVerdicts (verdicts : Store RequestId Verdict) (now : Timestamp) (maxAge : Nat) :
    Nat × Store RequestId Verdict :=
  let (old, kept) := verdicts.drain fun v => decide ((maxAge : Int) < now.secondsSince v.recordedAt)
  (old.length, kept)

/-- Forgets the verdicts that are older than they are kept, and tells how many. -/
def purge (s : Service) (now : Timestamp) : Nat × Service :=
  let (count, verdicts) := purgeVerdicts s.verdicts now s.config.verdictRetention
  (count, { s with verdicts := verdicts })

/-- What a developer is shown of the state: the settings, and how much is kept. -/
def summary (s : Service) : String :=
  "PresentationService \x7b config: ProtocolConfig \x7b audience: " ++ Text.quoted s.config.audience ++
    ", public_base_url: " ++ Text.quoted s.config.publicBaseUrl ++
    ", response_uri: " ++ Text.quoted s.config.responseUri ++
    ", request_ttl_secs: " ++ toString s.config.requestLifetime ++
    ", verdict_retention_secs: " ++ toString s.config.verdictRetention ++
    " \x7d, cached_keys: " ++ toString s.keys.size ++
    ", pending_requests: " ++ toString s.requests.size ++
    ", verdicts: " ++ toString s.verdicts.size ++ " \x7d"

end Service
end PrivatePresentation
