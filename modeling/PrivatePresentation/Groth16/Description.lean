import PrivatePresentation.Circuit.Description
import PrivatePresentation.Groth16.Codec

/-!
Proofs and keys as JSON values, for tools that show them. Byte strings are hexadecimal texts.
-/

namespace PrivatePresentation

/-- A byte string. -/
def Json.hex (bytes : Bytes) : Json := .string (Hex.encode bytes)

/-- A verifying key. -/
def VerifyingKey.toJson (k : VerifyingKey) : Json :=
  .ofMembers [("vk_inputs", .nat k.inputs.length), ("alpha", .hex (G1.encode k.alpha)),
    ("beta", .hex (G2.encode k.beta)), ("gamma", .hex (G2.encode k.gamma)),
    ("delta", .hex (G2.encode k.delta)), ("encoded", .hex k.encode)]

/-- The numbers of points of a proving key, and its verifying key. -/
def ProvingKey.details (k : ProvingKey) : List (String × Json) :=
  [("a", .nat k.aQuery.length), ("b1", .nat k.bQuery.length), ("b2", .nat k.bTwistQuery.length),
    ("h", .nat k.hQuery.length), ("l", .nat k.lQuery.length), ("vk", .hex k.verifying.encode)]

/-- A proof with its key and public inputs. -/
def ProofResult.toJson (r : ProofResult) : Json :=
  .ofMembers [("a", .hex (G1.encode r.proof.a)), ("b", .hex (G2.encode r.proof.b)),
    ("c", .hex (G1.encode r.proof.c)), ("vk", .hex r.verifyingKey.encode),
    ("vk_inputs", .nat r.verifyingKey.inputs.length), ("public_witness", .scalars r.publicWitness),
    ("tx_hash", Json.ofText? r.transaction), ("encoded", .hex (Artifact.encode r))]

end PrivatePresentation
