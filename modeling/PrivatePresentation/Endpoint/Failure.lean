import PrivatePresentation.Http.Message
import PrivatePresentation.Presentation.Refusal

/-!
Failures: requests that are answered with an error. A failure has a status, a code for machines and a
message. What went wrong inside the verifier is never told; a submission that is turned down is
answered in a form of its own, with the reason for machines.
-/

namespace PrivatePresentation

/-- Why a request is answered with an error. -/
inductive Failure where
  | notFound (what : String)
  | gone (what : String)
  | invalid (detail : String)
  /-- The schema is refused, with a line for each violation of its form. -/
  | invalidSchema (detail : String) (violations : Option (List String))
  | badRequest (detail : String)
  | rejected (cause : VerificationError)
  | internal (detail : String)
deriving Repr

namespace Failure

/-- The text of the failure, for the verifier's own eyes. -/
def message : Failure → String
  | .notFound what => "not found: " ++ what
  | .gone what => "gone: " ++ what
  | .invalid detail => "validation error: " ++ detail
  | .invalidSchema detail _ => "validation error: " ++ detail
  | .badRequest detail => "bad request: " ++ detail
  | .rejected cause => cause.message
  | .internal detail => "internal error: " ++ detail

/-- The status and the code for machines. -/
def statusAndCode : Failure → Nat × String
  | .notFound _ => (404, "NOT_FOUND")
  | .gone _ => (410, "GONE")
  | .invalid _ => (422, "VALIDATION_ERROR")
  | .invalidSchema _ _ => (422, "VALIDATION_ERROR")
  | .badRequest _ => (400, "BAD_REQUEST")
  | .rejected _ => (401, "VERIFICATION_FAILED")
  | .internal _ => (500, "INTERNAL_ERROR")

/-- The message that is told. -/
def told : Failure → String
  | .internal _ => "An internal error occurred"
  | f => f.message

/-- The body of the answer. -/
def body : Failure → Json
  | .rejected cause =>
    .ofMembers [("ok", .bool false), ("reason", .string cause.reason),
      ("error", .string cause.message)]
  | f =>
    let details := match f with
      | .invalidSchema _ (some violations) => [("details", Json.array (violations.map .string))]
      | _ => []
    .ofMembers [("error", .ofMembers
      ([("code", .string f.statusAndCode.2), ("message", .string f.told)] ++ details))]

/-- The answer. -/
def response (f : Failure) : Http.Response := .json f.statusAndCode.1 f.body

/-- A schema that is refused. -/
def ofSchema (e : SchemaError) : Failure :=
  .invalidSchema e.message
    (match e with
      | .structural violations => some violations
      | _ => none)

/-- A verifier that has lost the means to check the form of a schema. -/
def ofValidator (detail : String) : Failure :=
  .internal ("structural validator unavailable: " ++ detail)

/-- A request that is not made. -/
def ofProtocol (e : ProtocolError) : Failure :=
  match e with
  | .schema cause => ofSchema cause
  | .compilation _ | .publicInput _ _ => .invalid e.message
  | .setup _ | .serialization _ | .pipeline _ => .internal e.message

/-- A submission that is turned down. -/
def ofVerification : VerificationError → Failure
  | .malformedSubmission detail => .badRequest detail
  | e => .rejected e

/-- A request that nobody knows. -/
def unknownRequest : Failure := .notFound "unknown request"

/-- A request that is not shown. -/
def ofLookup : LookupError → Failure
  | .notFound => unknownRequest
  | .expired => .gone "expired"

end Failure
end PrivatePresentation
