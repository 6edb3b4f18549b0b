import PrivatePresentation.Http.Message

/-!
Routes: what can be asked of a verifier. Every route has one path; a part of the path may name a
request or a schema and is kept as it was written.
-/

namespace PrivatePresentation

/-- What can be asked of a verifier. -/
inductive Route where
  /-- The verifier is running. -/
  | liveness
  /-- The verifier is ready. -/
  | readiness
  /-- The page of counters. -/
  | metrics
  /-- The description of the interface. -/
  | manual
  /-- Make a request. -/
  | create
  /-- Submit a proof. -/
  | verify
  /-- Make a request and wait for its verdict. -/
  | await
  /-- The page of a request. -/
  | page (id : String)
  | descriptor (id : String)
  | status (id : String)
  | result (id : String)
  | verifyingKey (hash : String)
  | provingKey (hash : String)
  | schema (hash : String)
deriving DecidableEq, Repr, Inhabited

namespace Route

/-- The route of the parts of a path. A part that names something is not empty. -/
def ofParts? : List String → Option Route
  | ["health", "liveness"] => some .liveness
  | ["health", "readiness"] => some .readiness
  | ["metrics"] => some .metrics
  | ["openapi.json"] => some .manual
  | ["v1", "presentations", "create"] => some .create
  | ["v1", "presentations", "verify"] => some .verify
  | ["v1", "presentations", "verify-blocking"] => some .await
  | ["v1", "presentations", id] => named? .page id
  | ["v1", "presentations", id, "descriptor"] => named? .descriptor id
  | ["v1", "presentations", id, "status"] => named? .status id
  | ["v1", "presentations", id, "result"] => named? .result id
  | ["v1", "artifacts", hash, "vk"] => named? .verifyingKey hash
  | ["v1", "artifacts", hash, "pk"] => named? .provingKey hash
  | ["v1", "schemas", hash] => named? .schema hash
  | _ => none
where
  /-- The route of a name. -/
  named? (route : String → Route) (name : String) : Option Route :=
    if name.isEmpty then none else some (route name)

/-- The route of a target. -/
def ofTarget? (target : String) : Option Route := (Http.Target.parts? target).bind ofParts?

/-- The route changes something and is asked for by `POST`. -/
def isPosted : Route → Bool
  | .create | .verify | .await => true
  | _ => false

/-- A method that a route answers to. What can be fetched can also be asked about. -/
def answersTo (r : Route) (method : String) : Bool :=
  if r.isPosted then method == "POST" else method == "GET" || method == "HEAD"

/-- Answers are counted, except those of probes. -/
def isCounted : Option Route → Bool
  | some .liveness | some .readiness => false
  | _ => true

end Route
end PrivatePresentation
