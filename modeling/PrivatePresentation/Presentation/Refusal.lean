import PrivatePresentation.Proving.Pipeline
import PrivatePresentation.Schema.Error

/-!
Refusals: why a request is not made, why a submission is turned down, and why a request is not shown.
-/

namespace PrivatePresentation

/-- Why a request is not made, or a submission not built. -/
inductive ProtocolError where
  | schema (cause : SchemaError)
  | compilation (cause : CompilationError)
  | setup (cause : ProofError)
  | serialization (cause : CodecError)
  | pipeline (cause : PipelineError)
  | publicInput (field : String) (cause : ConversionError)
deriving Repr

/-- The text of the error. -/
def ProtocolError.message : ProtocolError → String
  | .schema cause => cause.message
  | .compilation cause => "schema cannot be compiled: " ++ cause.message
  | .setup cause => "key setup failed: " ++ cause.message
  | .serialization cause => "key serialization failed: " ++ cause.message
  | .pipeline cause => "proving failed: " ++ cause.message
  | .publicInput field cause => "public input " ++ field ++ " is invalid: " ++ cause.message

instance : ToString ProtocolError := ⟨ProtocolError.message⟩

/-- Why a submission is turned down. -/
inductive VerificationError where
  | malformedSubmission (detail : String)
  | notFound
  | expired
  | audienceMismatch
  | nonceMismatch
  | challengeMismatch
  | badBlob (detail : String)
  | keyUnavailable
  | publicInputsInvalid (detail : String)
  | publicWitnessMismatch
  | layoutDivergence
  | verifyFailed
deriving DecidableEq, Repr, Inhabited

namespace VerificationError

/-- The text of the error. -/
def message : VerificationError → String
  | .malformedSubmission detail => "malformed submission: " ++ detail
  | .notFound => "request not found or already used"
  | .expired => "request expired"
  | .audienceMismatch => "audience mismatch"
  | .nonceMismatch => "nonce mismatch"
  | .challengeMismatch => "challenge mismatch"
  | .badBlob detail => "invalid proof blob: " ++ detail
  | .keyUnavailable => "verifying key unavailable for schema"
  | .publicInputsInvalid detail => "invalid public inputs: " ++ detail
  | .publicWitnessMismatch => "public witness does not match the request"
  | .layoutDivergence => "circuit layout diverged from cached keys"
  | .verifyFailed => "proof verification failed"

instance : ToString VerificationError := ⟨message⟩

/-- The reason for machines, which never changes. -/
def reason : VerificationError → String
  | .malformedSubmission _ => "malformed_submission"
  | .notFound => "request_not_found"
  | .expired => "request_expired"
  | .audienceMismatch => "aud_mismatch"
  | .nonceMismatch => "nonce_mismatch"
  | .challengeMismatch => "challenge_mismatch"
  | .badBlob _ => "bad_blob"
  | .keyUnavailable => "key_unavailable"
  | .publicInputsInvalid _ => "public_inputs_invalid"
  | .publicWitnessMismatch => "public_witness_mismatch"
  | .layoutDivergence => "layout_divergence"
  | .verifyFailed => "verify_failed"

end VerificationError

/-- Why a request is not shown. -/
inductive LookupError where
  | notFound
  | expired
deriving DecidableEq, Repr

/-- The text of the error. -/
def LookupError.message : LookupError → String
  | .notFound => "request not found"
  | .expired => "request expired"

instance : ToString LookupError := ⟨LookupError.message⟩

end PrivatePresentation
