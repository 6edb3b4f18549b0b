import PrivatePresentation.Groth16.Codec
import PrivatePresentation.Proving.ProofSystem

/-!
From a schema to a proof in four steps: the schema is compiled, keys are made or taken over, values
are assigned, and the proof is made. Each step has a type of its own, so none can be left out.
-/

namespace PrivatePresentation

/-- Why there is no proof. -/
inductive PipelineError where
  | compilation (cause : CompilationError)
  | synthesis (cause : SynthesisError)
  | assignment (cause : AssignmentError)
  | proof (cause : ProofError)
deriving Repr

/-- The text of the error. -/
def PipelineError.message : PipelineError → String
  | .compilation cause => cause.message
  | .synthesis cause => "circuit synthesis failed: " ++ cause.message
  | .assignment cause => cause.message
  | .proof cause => cause.message

instance : ToString PipelineError := ⟨PipelineError.message⟩

namespace Pipeline

/-- A compiled schema with the number of its constraints. -/
structure Compiled where
  circuit : Circuit
  constraints : Nat

/-- A compiled schema with keys for it. -/
structure KeyedUp where
  circuit : Circuit
  keys : ProvingKey

/-- A circuit with values, and keys for it. -/
structure Witnessed where
  assigned : CircuitInstance
  keys : ProvingKey

/-- Compiles a schema. -/
def compile (s : Schema) : Except PipelineError Compiled := do
  let circuit ← (Circuit.compile s).mapError .compilation
  let constraints ← circuit.constraintCount.mapError .synthesis
  return ⟨circuit, constraints⟩

/-- Makes fresh keys. -/
def Compiled.setup (ps : ProofSystem) (p : Compiled) (t : Groth16.Trapdoor) :
    Except PipelineError KeyedUp := do
  return ⟨p.circuit, ← (ps.setupCircuit p.circuit t).mapError .proof⟩

/-- Takes over keys that were made for the same schema. -/
def Compiled.withKeys (p : Compiled) (keys : ProvingKey) : KeyedUp := ⟨p.circuit, keys⟩

/-- Assigns values. -/
def KeyedUp.assign (p : KeyedUp) (values : Json.Members) : Except PipelineError Witnessed := do
  let a ← (p.circuit.assign values).mapError .assignment
  return ⟨⟨p.circuit, some a⟩, p.keys⟩

/-- Makes the proof. -/
def Witnessed.prove (ps : ProofSystem) (p : Witnessed) (b : Groth16.Blinding) :
    Except PipelineError ProofResult := do
  match p.assigned.publicInputs with
  | none => throw (.proof .missingAssignment)
  | some inputs =>
    let proof ← (ps.proveInstance p.keys p.assigned b).mapError .proof
    return ⟨proof, p.keys.verifying, inputs, none⟩

end Pipeline
end PrivatePresentation
