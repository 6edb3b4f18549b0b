import PrivatePresentation.Presentation.Descriptor
import PrivatePresentation.Presentation.Refusal
import PrivatePresentation.Presentation.Submission

/-!
The holder's side: from a descriptor and private values to a submission.
-/

namespace PrivatePresentation.Wallet

/-- The holder's values with the pinned ones over them. -/
def mergeInputs (pinned holder : Json.Members) : Json.Members := holder.insertAll pinned

/-- The inputs that name a field of a schema. -/
def declaredInputs (s : Schema) (inputs : Json.Members) : Json.Members :=
  inputs.filter fun m => (s.field? m.1).isSome

/-- A proof for some values, in text form. -/
def proveBlob (ps : ProofSystem) (s : Schema) (keys : ProvingKey) (values : Json.Members)
    (b : Groth16.Blinding) : Except ProtocolError String := do
  let compiled ← (Pipeline.compile s).mapError .pipeline
  let witnessed ← ((compiled.withKeys keys).assign values).mapError .pipeline
  let result ← (witnessed.prove ps b).mapError .pipeline
  (Artifact.writeText result).mapError .serialization

/-- The submission for a descriptor. Every pinned value is repeated, declared or not; an empty
challenge is none. -/
def buildSubmission (ps : ProofSystem) (d : PresentationDescriptor) (s : Schema)
    (keys : ProvingKey) (holder : Json.Members) (b : Groth16.Blinding) :
    Except ProtocolError Submission := do
  let values := declaredInputs s (mergeInputs d.publicInputs holder)
  let blob ← proveBlob ps s keys values b
  return {
    requestId := d.requestId.text
    blob := blob
    publicInputs := d.publicInputs
    challenge := if d.challenge.isEmpty then none else some d.challenge }

end PrivatePresentation.Wallet
