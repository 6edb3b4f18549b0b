import PrivatePresentation.Groth16.Codec
import PrivatePresentation.Presentation.Submission
import PrivatePresentation.Service.State

/-!
The check of a submission against its request. What the request pins is taken from the request, and
the key from the verifier's own store: the copies that a submission carries decide nothing.
-/

namespace PrivatePresentation.Service

/-- The values that the public inputs are computed from: the submitted ones under the pinned ones. -/
def overlaid (r : PresentationRequest) (sub : Submission) : Json.Members :=
  sub.publicInputs.insertAll r.publicInputs

/-- The submission repeats a pinned text. -/
def repeats (sub : Submission) (key : String) (expected : Option String) : Bool :=
  match expected, Json.Members.get? key sub.publicInputs with
  | some expected, some got => expected == got.plainText
  | _, _ => false

/-- The challenge, if one is pinned, is answered. -/
def answersChallenge (r : PresentationRequest) (sub : Submission) : Bool :=
  match r.challenge with
  | none => true
  | some expected => sub.challenge.map Text.trim == some expected

/-- The circuit of the request's own schema, if it has the layout that the keys were made for. -/
def recompile? (r : PresentationRequest) (keys : SchemaKeys) : Option Circuit := do
  let schema ← (Schema.parse r.schemaText).toOption
  let circuit ← (Circuit.compile schema).toOption
  if circuit.fingerprint = keys.fingerprint then some circuit else none

/-- Whether the submission answers the request; the keys are those kept for its schema. -/
def check (ps : ProofSystem) (keys? : Option SchemaKeys) (r : PresentationRequest)
    (sub : Submission) (now : Timestamp) : Except VerificationError Unit := do
  if r.isExpired now then throw .expired
  if !repeats sub Pinned.audience r.audience then throw .audienceMismatch
  if !repeats sub Pinned.nonce r.nonce then throw .nonceMismatch
  if !answersChallenge r sub then throw .challengeMismatch
  let blob ← (Artifact.decodeText sub.blob).mapError fun e => .badBlob e.message
  match keys? with
  | none => throw .keyUnavailable
  | some keys =>
    match recompile? r keys with
    | none => throw .layoutDivergence
    | some circuit =>
      let expected ← (circuit.publicInputsFrom (overlaid r sub)).mapError
        fun e => .publicInputsInvalid e.message
      if expected ≠ blob.publicWitness then throw .publicWitnessMismatch
      match ps.verify keys.keys.verifying blob.proof expected with
      | .ok true => return ()
      | _ => throw .verifyFailed

/-- The verdict on a checked request. -/
def verdictOf (r : PresentationRequest) (now : Timestamp) : Except VerificationError Unit → Verdict
  | .ok () => .settling r .verified none now
  | .error e =>
    .settling r (if e = .expired then .expired else .failed) (some e.reason) now

/-- The count of a verdict. -/
def eventOf (v : Verdict) : Event := .verification v.state.name (v.reason.getD "ok")

/-- What is wrong with the form of a submission. -/
def malformed? (sub : Submission) : Option VerificationError :=
  if (Text.trim sub.requestId).isEmpty then some (.malformedSubmission "request_id is required")
  else if (Text.trim sub.blob).isEmpty then some (.malformedSubmission "zkp_blob_b64 is required")
  else none

end PrivatePresentation.Service
