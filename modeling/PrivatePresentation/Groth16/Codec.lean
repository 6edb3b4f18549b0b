import PrivatePresentation.Curve.Codec
import PrivatePresentation.Groth16.Keys
import PrivatePresentation.Text.Base64
import PrivatePresentation.Text.Blank

/-!
Bytes of proofs and keys. A proof travels in an envelope of three sections, each with its length in
front: the proof, the verifying key, and the public inputs. Nothing may follow the envelope, nor the
contents of a section.
-/

namespace PrivatePresentation

/-- A part of an artifact. -/
inductive Section where
  | proof
  | verifyingKey
  | publicWitness
  | provingKey
deriving DecidableEq, Repr

/-- The name of a part. -/
def Section.name : Section → String
  | .proof => "proof"
  | .verifyingKey => "verifying key"
  | .publicWitness => "public witness"
  | .provingKey => "proving key"

/-- What is wrong with an envelope. -/
inductive EnvelopeError where
  | unexpectedLength
  | notAllRead
  | tooLong
deriving DecidableEq, Repr

/-- The text of the error. -/
def EnvelopeError.message : EnvelopeError → String
  | .unexpectedLength => "Unexpected length of input"
  | .notAllRead => "Not all bytes read"
  | .tooLong => "invalid data"

/-- Why bytes are no artifact. -/
inductive CodecError where
  | envelope (cause : EnvelopeError)
  | encoding (part : Section) (cause : EncodingError)
  | trailing (part : Section) (count : Nat)
  | base64 (cause : Base64.Refusal)
deriving DecidableEq, Repr

/-- The text of the error. -/
def CodecError.message : CodecError → String
  | .envelope cause => "malformed envelope: " ++ cause.message
  | .encoding part cause => "invalid " ++ part.name ++ ": " ++ cause.message
  | .trailing part count => part.name ++ " has " ++ toString count ++ " trailing bytes"
  | .base64 cause => "invalid base64: " ++ cause.message

instance : ToString CodecError := ⟨CodecError.message⟩

/-- A proof with the key and the public inputs that it was made for. -/
structure ProofResult where
  proof : Proof
  verifyingKey : VerifyingKey
  publicWitness : List Scalar
  transaction : Option String
deriving DecidableEq, Inhabited

namespace Proof

/-- The bytes of a proof. -/
def encode (p : Proof) : Bytes := G1.encode p.a ++ G2.encode p.b ++ G1.encode p.c

/-- A proof off the front of some bytes. -/
def decode : Decoder Proof := fun bytes => do
  let (a, rest) ← G1.decode bytes
  let (b, rest) ← G2.decode rest
  let (c, rest) ← G1.decode rest
  return (⟨a, b, c⟩, rest)

end Proof

namespace VerifyingKey

/-- The bytes of a verifying key. -/
def encode (k : VerifyingKey) : Bytes :=
  G1.encode k.alpha ++ G2.encode k.beta ++ G2.encode k.gamma ++ G2.encode k.delta ++
    encodeList G1.encode k.inputs

/-- A verifying key off the front of some bytes. -/
def decode : Decoder VerifyingKey := fun bytes => do
  let (alpha, rest) ← G1.decode bytes
  let (beta, rest) ← G2.decode rest
  let (gamma, rest) ← G2.decode rest
  let (delta, rest) ← G2.decode rest
  let (inputs, rest) ← decodeList G1.decode (fun _ => true) rest
  return (⟨alpha, beta, gamma, delta, inputs⟩, rest)

end VerifyingKey

namespace ProvingKey

/-- The bytes of a proving key. -/
def encode (k : ProvingKey) : Bytes :=
  k.verifying.encode ++ G1.encode k.beta ++ G1.encode k.delta ++
    encodeList G1.encode k.aQuery ++ encodeList G1.encode k.bQuery ++
    encodeList G2.encode k.bTwistQuery ++ encodeList G1.encode k.hQuery ++
    encodeList G1.encode k.lQuery

/-- A proving key off the front of some bytes. -/
def decode : Decoder ProvingKey := fun bytes => do
  let (verifying, rest) ← VerifyingKey.decode bytes
  let (beta, rest) ← G1.decode rest
  let (delta, rest) ← G1.decode rest
  let (a, rest) ← decodeList G1.decode (fun _ => true) rest
  let (b, rest) ← decodeList G1.decode (fun _ => true) rest
  let (twist, rest) ← decodeList G2.decodeUnchecked G2.isInGroup rest
  let (h, rest) ← decodeList G1.decode (fun _ => true) rest
  let (l, rest) ← decodeList G1.decode (fun _ => true) rest
  return (⟨verifying, beta, delta, a, b, twist, h, l⟩, rest)

end ProvingKey

namespace Artifact

/-- A value that takes up all the bytes. -/
def decodeAll {α : Type} (part : Section) (item : Decoder α) (bytes : Bytes) :
    Except CodecError α :=
  match item bytes with
  | .error e => .error (.encoding part e)
  | .ok (v, []) => .ok v
  | .ok (_, b :: rest) => .error (.trailing part (b :: rest).length)

/-- A byte string with its length in four bytes in front. -/
def encodeSection (bytes : Bytes) : Bytes := LittleEndian.encode 4 bytes.length ++ bytes

/-- A byte string with its length in front. -/
def decodeSection (bytes : Bytes) : Except EnvelopeError (Bytes × Bytes) :=
  if bytes.length < 4 then .error .unexpectedLength
  else
    let length := LittleEndian.decode (bytes.take 4)
    let rest := bytes.drop 4
    if rest.length < length then .error .unexpectedLength
    else .ok (rest.take length, rest.drop length)

/-- The three sections of an envelope. -/
def openEnvelope (bytes : Bytes) : Except EnvelopeError (Bytes × Bytes × Bytes) := do
  let (proof, rest) ← decodeSection bytes
  let (key, rest) ← decodeSection rest
  let (witness, rest) ← decodeSection rest
  if rest.isEmpty then return (proof, key, witness) else throw .notAllRead

/-- The bytes of public inputs. -/
def encodeWitness (inputs : List Scalar) : Bytes := encodeList Scalar.encode inputs

/-- Public inputs off the front of some bytes. -/
def decodeWitness : Decoder (List Scalar) := decodeList Scalar.decode (fun _ => true)

/-- The envelope of a proof. -/
def encode (r : ProofResult) : Bytes :=
  encodeSection r.proof.encode ++ encodeSection r.verifyingKey.encode ++
    encodeSection (encodeWitness r.publicWitness)

/-- The proof in an envelope. -/
def decode (bytes : Bytes) : Except CodecError ProofResult := do
  let (proof, key, witness) ← (openEnvelope bytes).mapError .envelope
  let proof ← decodeAll .proof Proof.decode proof
  let key ← decodeAll .verifyingKey VerifyingKey.decode key
  let witness ← decodeAll .publicWitness decodeWitness witness
  return ⟨proof, key, witness, none⟩

/-- The sections of an envelope are short enough for their lengths to be written; that of the proof
always is. -/
def Fits (r : ProofResult) : Prop :=
  r.verifyingKey.encode.length < 1 <<< 32 ∧ (encodeWitness r.publicWitness).length < 1 <<< 32

instance (r : ProofResult) : Decidable (Fits r) := inferInstanceAs (Decidable (_ ∧ _))

/-- The envelope of a proof, unless a section is too long for it. -/
def write (r : ProofResult) : Except CodecError Bytes :=
  if Fits r then .ok (encode r) else .error (.envelope .tooLong)

/-- The envelope of a proof as text. -/
def encodeText (r : ProofResult) : String := Base64.encode (encode r)

/-- The envelope of a proof as text, unless a section is too long for it. -/
def writeText (r : ProofResult) : Except CodecError String := do
  return Base64.encode (← write r)

/-- The proof in a text with white space around it. -/
def decodeText (s : String) : Except CodecError ProofResult := do
  decode (← (Base64.decode (Text.trim s)).mapError .base64)

/-- A verifying key that takes up all the bytes. -/
def decodeVerifyingKey (bytes : Bytes) : Except CodecError VerifyingKey :=
  decodeAll .verifyingKey VerifyingKey.decode bytes

/-- A proving key that takes up all the bytes. -/
def decodeProvingKey (bytes : Bytes) : Except CodecError ProvingKey :=
  decodeAll .provingKey ProvingKey.decode bytes

end Artifact
end PrivatePresentation
