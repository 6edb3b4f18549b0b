import PrivatePresentation.Endpoint.Body
import PrivatePresentation.Endpoint.Manual
import PrivatePresentation.Endpoint.Route
import PrivatePresentation.Endpoint.Settings
import PrivatePresentation.Presentation.Description
import PrivatePresentation.Service.Task

/-!
Answers to requests. Most are given at once; who asks to wait for a verdict is answered when it comes
or when the time is over. Every answer is counted once it is given.
-/

namespace PrivatePresentation

/-- The state of an answer. -/
inductive Reply where
  | given (response : Http.Response)
  /-- The verdict on a request is awaited for some seconds. -/
  | awaited (id : RequestId) (task : Task) (timeout : Nat)
deriving Inhabited

namespace Handler

/-- What a handler works with: how proofs are checked, the settings, the instant, and what is drawn
at random. -/
structure Context where
  proofs : ProofSystem
  settings : VerifierSettings
  now : Timestamp
  fresh : Fresh
  /-- The counters are published. -/
  publishes : Bool := true

/-- The answer of a handler that may fail. -/
def settle (r : Except Failure Http.Response) : Http.Response :=
  match r with
  | .ok response => response
  | .error f => f.response

/-- What is told of a request that was made. -/
def createdBody (config : ProtocolConfig) (r : PresentationRequest) : Json :=
  .ofMembers (("request", r.toJson) :: config.addresses r.id)

/-- The page of a request. -/
def page (config : ProtocolConfig) (r : PresentationRequest) : String :=
  let url := descriptorUrl config r.id
  "Presentation request " ++ r.id.text ++
    "\n\nSchema:   " ++ r.schemaHash.text ++
    "\nAudience: " ++ r.audience.getD "" ++
    "\nExpires:  " ++ r.expiresAt.isoText ++
    "\n\nOpen in your wallet:\n  " ++ Deeplink.ofUrl url ++
    "\n\nDescriptor:\n  " ++ url ++ "\n"

/-- What is told of a wait: the state that the request is in. -/
def awaitedBody (id : RequestId) (ok : Bool) (state : String) (reason : Option String) : Json :=
  .ofMembers ([("request_id", .string id.text), ("ok", .bool ok), ("state", .string state)] ++
    Json.optionalMember "reason" (reason.map .string))

/-- The answer to a wait that has ended. -/
def awaitedResponse (id : RequestId) : WaitOutcome → Http.Response
  | .completed v => .json 200 (awaitedBody id v.ok v.state.name v.reason)
  | .timedOut => .json 408 (awaitedBody id false "pending" none)

/-- Makes the request of an order. -/
def order (c : Context) (s : Service) (o : PresentationOrder) :
    Except Failure PresentationRequest × Service :=
  let (t, s) := s.perform c.proofs (.create o c.now c.fresh)
  match t.answer? with
  | some (.created r) => (.ok r, s)
  | some (.refused e) => (.error (.ofProtocol e), s)
  | _ => (.error (.internal "unfinished"), s)

/-- Makes a request. -/
def create (c : Context) (s : Service) (r : Http.Request) : Http.Response × Service :=
  match Body.readChecked CreateBody.parse CreateBody.check r with
  | .error f => (f.response, s)
  | .ok body =>
    let (made, s) := order c s body.order
    (settle (made.map fun request => .json 201 (createdBody s.config request)), s)

/-- Takes a submission. -/
def verify (c : Context) (s : Service) (r : Http.Request) : Http.Response × Service :=
  match Body.read (Submission.parseAs "SubmitPresentationRequest") r with
  | .error f => (f.response, s)
  | .ok submission =>
    let (t, s) := s.perform c.proofs (.submit submission c.now)
    match t.answer? with
    | some (.rejected e) => ((Failure.ofVerification e).response, s)
    | _ =>
      (.json 200 (.ofMembers [("ok", .bool true), ("verified_at", .string c.now.isoText)]), s)

/-- Makes a request and begins to wait for its verdict. -/
def await (c : Context) (s : Service) (r : Http.Request) : Reply × Service :=
  match Body.readChecked AwaitBody.parse AwaitBody.check r with
  | .error f => (.given f.response, s)
  | .ok body =>
    match order c s body.order with
    | (.error f, s) => (.given f.response, s)
    | (.ok request, s) =>
      let (t, s) := s.perform c.proofs (.wait request.id)
      (.awaited request.id t (body.timeout.getD c.settings.waitTimeout), s)

/-- The keys of a schema named by its hash; a hash that cannot be read names none. -/
def keysOf (s : Service) (hash what : String) : Except Failure SchemaKeys :=
  match (ContentDigest.parse hash).toOption.bind s.keys.get? with
  | some keys => .ok keys
  | none => .error (.notFound (what ++ " not found"))

/-- The request of a name, pending and in time. -/
def pending (c : Context) (s : Service) (id : RequestId) : Except Failure PresentationRequest :=
  (s.pending id c.now).mapError Failure.ofLookup

/-- The state of a request, or its result. -/
def poll (c : Context) (s : Service) (t : Task) : Http.Response × Service :=
  let (t, s) := s.perform c.proofs t
  let body := match t.answer? with
    | some (.status status) => Json.ofMembers [("state", .string status.name)]
    | some (.result view) => view.toJson
    | _ => .null
  (.json 200 body, s)

/-- The answer to who asks for something by a name whose escapes have been read. -/
def fetch (c : Context) (s : Service) (route : Route) : Http.Response × Service :=
  let id? (name : String) := (RequestId.parseTrimmed name).toOption
  let known (name : String) : Except Failure PresentationRequest :=
    match id? name with
    | some id => pending c s id
    | none => .error .unknownRequest
  match route with
  | .page name => (settle ((known name).map fun r => .text 200 (page s.config r)), s)
  | .descriptor name =>
    (settle ((known name).map fun r =>
      .json 200 (PresentationDescriptor.ofRequest r s.config).toJson), s)
  | .status name =>
    poll c s (match id? name with
      | some id => .status id c.now false
      | none => .done (.status .unknownOrConsumed))
  | .result name =>
    poll c s (match id? name with
      | some id => .result id c.now
      | none => .done (.result ⟨.unknown, none, none, none⟩))
  | .verifyingKey hash =>
    (settle ((keysOf s hash "vk").map fun k => .octets 200 k.verifyingKeyBytes), s)
  | .provingKey hash =>
    (settle ((keysOf s hash "pk").map fun k => .octets 200 k.provingKeyBytes), s)
  | .schema hash =>
    (settle ((keysOf s hash "schema").map fun k =>
      ⟨200, some "application/json", .text k.schema.canonical.text⟩), s)
  | .metrics =>
    (⟨200, some "text/plain; version=0.0.4",
      .text (if c.publishes then Counters.page s.counters else "")⟩, s)
  | .manual => (.json 200 Manual.document, s)
  | .liveness => (.text 200 "ok", s)
  | .readiness => (.text 200 "ready", s)
  | .create | .verify | .await => (.bare 405, s)

/-- The route with the escapes of its name read; else what the name is called. -/
def decodeName (route : Route) : Except String Route :=
  let read (called : String) (make : String → Route) (name : String) : Except String Route :=
    match Http.Target.decode? name with
    | some name => .ok (make name)
    | none => .error called
  match route with
  | .page id => read "id" .page id
  | .descriptor id => read "id" .descriptor id
  | .status id => read "id" .status id
  | .result id => read "id" .result id
  | .verifyingKey hash => read "hash" .verifyingKey hash
  | .provingKey hash => read "hash" .provingKey hash
  | .schema hash => read "hash" .schema hash
  | route => .ok route

end Handler

namespace Service

/-- Counts an answer, and a second time as an error from status 400 on. -/
def countAnswer (s : Service) (method : String) (status : Nat) : Service :=
  let s := s.counted (.httpRequest method status)
  if 400 ≤ status then s.counted (.httpError method status) else s

/-- Answers a request, or begins to. -/
def answer (c : Handler.Context) (s : Service) (r : Http.Request) : Reply × Service :=
  match Route.ofTarget? r.target with
  | none => (.given (.bare 404), s)
  | some route =>
    if !route.answersTo r.method then (.given (.bare 405), s)
    else
      match route with
      | .create => (Handler.create c s r).map .given id
      | .verify => (Handler.verify c s r).map .given id
      | .await => Handler.await c s r
      | route =>
        match Handler.decodeName route with
        | .error called => (.given (.text 400 ("Invalid URL: Invalid UTF-8 in `" ++ called ++ "`")), s)
        | .ok route =>
          let (response, s) := Handler.fetch c s route
          (.given (if r.method == "HEAD" then response.withoutContent else response), s)

/-- Answers who has waited: by the verdict if it has come, else that there is none yet. -/
def finish (ps : ProofSystem) (s : Service) (id : RequestId) (t : Task) :
    Http.Response × Service :=
  let (t, s) := s.perform ps t
  let (t, s) := s.perform ps t.timeOut
  match t.answer? with
  | some (.waited outcome) => (Handler.awaitedResponse id outcome, s)
  | _ => (Handler.awaitedResponse id .timedOut, s)

end Service
end PrivatePresentation
