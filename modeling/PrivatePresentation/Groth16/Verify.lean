import PrivatePresentation.Curve.Pairing
import PrivatePresentation.Groth16.Keys
import PrivatePresentation.Groth16.Multiexp

/-!
Verification: one equation of pairings over the proof, the key and the public inputs.
-/

namespace PrivatePresentation

/-- Why a proof cannot be checked. -/
inductive VerifyError where
  | inputCount (expected found : Nat)
  | malformedKey
deriving DecidableEq, Repr

/-- The text of the error. -/
def VerifyError.message : VerifyError → String
  | .inputCount expected found =>
    "verifying key expects " ++ toString expected ++ " public inputs, got " ++ toString found
  | .malformedKey => "verification error: malformed verifying key"

instance : ToString VerifyError := ⟨VerifyError.message⟩

namespace Groth16

/-- The point that the public inputs stand for under a key. -/
def inputPoint (first : G1) (rest : List G1) (inputs : List Scalar) : G1 :=
  ((Multiexp.sum inputs rest).addPoint first).toPoint

/-- The equation of a proof. -/
def equation (vk : VerifyingKey) (first : G1) (rest : List G1) (inputs : List Scalar)
    (p : Proof) : Bool :=
  Pairing.productIsOne [
    (p.a, p.b),
    (Point.neg vk.alpha, vk.beta),
    (Point.neg (inputPoint first rest inputs), vk.gamma),
    (Point.neg p.c, vk.delta)]

/-- The proof is valid for public inputs, as many as the key has points for them. -/
def verify (vk : VerifyingKey) (p : Proof) (inputs : List Scalar) : Except VerifyError Bool :=
  if inputs.length ≠ vk.inputs.length - 1 then
    .error (.inputCount (vk.inputs.length - 1) inputs.length)
  else
    match vk.inputs with
    | [] => .error .malformedKey
    | first :: rest => .ok (equation vk first rest inputs p)

end Groth16
end PrivatePresentation
