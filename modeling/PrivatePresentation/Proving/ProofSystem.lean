import PrivatePresentation.Circuit.Assignment
import PrivatePresentation.Groth16.Prove
import PrivatePresentation.Groth16.Verify

/-!
Proof systems. What makes keys, makes proofs and checks proofs is a parameter of everything built on
it, so that laws about presentations can name what they take for granted of it. A proof is made only
for a circuit whose values have been assigned and satisfy every rule.
-/

namespace PrivatePresentation

/-- Why there are no keys or there is no proof. -/
inductive ProofError where
  | setupFailed (reason : String)
  | missingAssignment
  | unsatisfied (label : String)
  | generationFailed (reason : String)
deriving DecidableEq, Repr

/-- The text of the error. -/
def ProofError.message : ProofError → String
  | .setupFailed reason => "setup failed: " ++ reason
  | .missingAssignment => "circuit has unassigned inputs"
  | .unsatisfied label => "constraint not satisfied: " ++ label
  | .generationFailed reason => "prover error: " ++ reason

instance : ToString ProofError := ⟨ProofError.message⟩

/-- What makes keys, makes proofs and checks proofs; whatever is random comes as an argument. -/
structure ProofSystem where
  setup : ConstraintSystem → Groth16.Trapdoor → Except ProofError ProvingKey
  prove : ProvingKey → ConstraintSystem → Valuation → Groth16.Blinding → Except ProofError Proof
  verify : VerifyingKey → Proof → List Scalar → Except VerifyError Bool

namespace ProofSystem

/-- Proofs of three points over the pairing-friendly curve. -/
def groth16 : ProofSystem where
  setup s t := .ok (Groth16.setup s t)
  prove pk s v b := .ok (Groth16.prove pk s v b)
  verify := Groth16.verify

/-- The keys of a circuit, whatever its values. -/
def setupCircuit (ps : ProofSystem) (c : Circuit) (t : Groth16.Trapdoor) :
    Except ProofError ProvingKey := do
  let s ← c.system.mapError fun e => .setupFailed e.message
  ps.setup s t

/-- The label of the first rule that is violated. -/
def blame (i : CircuitInstance) : Except ProofError String := do
  let label? ← i.unsatisfiedRule.mapError fun e => .generationFailed e.message
  return label?.getD "input domain"

/-- A proof for the assigned values of a circuit. -/
def proveInstance (ps : ProofSystem) (pk : ProvingKey) (i : CircuitInstance)
    (b : Groth16.Blinding) : Except ProofError Proof :=
  match i.values with
  | none => .error .missingAssignment
  | some a => do
    let satisfied ← i.isSatisfied.mapError fun e => .generationFailed e.message
    if !satisfied then throw (.unsatisfied (← blame i))
    let f ← (i.circuit.fragmentOf i.circuit.plan).mapError fun e => .generationFailed e.message
    ps.prove pk (i.circuit.systemOf f) (Circuit.valuation a f) b

end ProofSystem
end PrivatePresentation
