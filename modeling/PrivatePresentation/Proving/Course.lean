import PrivatePresentation.Groth16.Description
import PrivatePresentation.Proving.Pipeline

/-!
The course of a pipeline: a description of each stage that it comes to, up to the error that ends it.
-/

namespace PrivatePresentation.Pipeline

/-- A pipeline that is described on its way. -/
abbrev Course := ExceptT PipelineError (StateM (Array Json))

namespace Course

/-- Adds a description. -/
def tell (v : Json) : Course Unit := modify (·.push v)

/-- Comes to a stage that is described by some members. -/
def reach (name : String) (members : List (String × Json) := []) : Course Unit :=
  tell (.ofMembers (("stage", .string name) :: members))

/-- A step that may fail. -/
def take {α : Type} (r : Except PipelineError α) : Course α := ExceptT.mk (pure r)

/-- From a schema to keys. With the result of proving before any value is assigned, if that is asked
for. -/
def keys (ps : ProofSystem) (s : Schema) (t : Groth16.Trapdoor)
    (blank : Option (Except ProofError Proof → Json)) : Course KeyedUp := do
  reach "uncompiled"
  let compiled ← take (compile s)
  reach "compiled" [("constraints", .nat compiled.constraints), ("assigned", .bool false)]
  let keyed ← take (compiled.setup ps t)
  reach "keyed_up" [("vk_inputs", .nat keyed.keys.verifying.inputs.length)]
  match blank with
  | some describe =>
    tell (describe (ps.proveInstance keyed.keys ⟨compiled.circuit, none⟩ default))
  | none => pure ()
  return keyed

/-- From keys to a proof, which is written and read again. -/
def proof (ps : ProofSystem) (keyed : KeyedUp) (values : Json.Members) (b : Groth16.Blinding) :
    Course ProofResult := do
  let witnessed ← take (keyed.assign values)
  reach "witnessed"
  let r ← take (witnessed.prove ps b)
  reach "proved" [("public_witness", .scalars r.publicWitness),
    ("tx_hash", Json.ofText? r.transaction)]
  let same := match Artifact.decodeText (Artifact.encodeText r) with
    | .ok back => decide (back = r)
    | .error _ => false
  tell (.ofMembers [("roundtrip", .bool same)])
  return r

end Course
end PrivatePresentation.Pipeline
