import PrivatePresentation.Circuit.Compile

/-!
Assignments. A circuit is assigned all its values at once or none; an optional field that is left out
is zero. An assigned circuit can be checked, as a whole or rule by rule.
-/

namespace PrivatePresentation

/-- Why inputs do not fit a circuit. -/
inductive AssignmentError where
  | unknownField (name : String)
  | missingRequired (name : String)
  | conversion (cause : ConversionError)
deriving DecidableEq, Repr

/-- The text of the error. -/
def AssignmentError.message : AssignmentError → String
  | .unknownField name => "unknown field '" ++ name ++ "'"
  | .missingRequired name => "missing required field '" ++ name ++ "'"
  | .conversion cause => cause.message

instance : ToString AssignmentError := ⟨AssignmentError.message⟩

/-- The values of all fields of a circuit, by slot. -/
structure Assignment where
  inputs : List Scalar
  secrets : List Scalar
deriving DecidableEq, Repr, Inhabited

namespace Circuit

/-- The residues of given values, in the order of the values; each has to be of a declared field. -/
def convert (c : Circuit) : Json.Members → Except AssignmentError (List (String × Scalar))
  | [] => .ok []
  | (name, v) :: rest => do
    match c.layout.fields.find? (·.name == name) with
    | none => throw (.unknownField name)
    | some field =>
      let x ← (normalize field v).mapError .conversion
      let xs ← convert c rest
      return (name, x) :: xs

/-- The first required field without a value. -/
def missing? (given : List (String × Scalar)) (fields : List FieldDecl) : Option FieldDecl :=
  fields.find? fun f => f.required && !given.any (·.1 == f.name)

/-- The value of a field, zero if none is given. -/
def valueOf (given : List (String × Scalar)) (f : FieldDecl) : Scalar :=
  match given.find? (·.1 == f.name) with
  | some (_, x) => x
  | none => 0

/-- The values of all fields. -/
def assign (c : Circuit) (values : Json.Members) : Except AssignmentError Assignment := do
  let given ← c.convert values
  match missing? given c.layout.fields with
  | some f => throw (.missingRequired f.name)
  | none =>
    return ⟨c.layout.publicFields.map (valueOf given), c.layout.secretFields.map (valueOf given)⟩

/-- The value of one public field among given ones. -/
def publicInput (values : Json.Members) (f : FieldDecl) : Except AssignmentError Scalar :=
  match Json.Members.get? f.name values with
  | some v => (normalize f v).mapError .conversion
  | none => if f.required then .error (.missingRequired f.name) else .ok 0

/-- The values of the public fields alone; other keys do not matter. -/
def publicInputsFrom (c : Circuit) (values : Json.Members) : Except AssignmentError (List Scalar) :=
  c.layout.publicFields.mapM (publicInput values)

/-- The values of witnesses found by following hints in order. -/
def follow (inputs : Array Scalar) : List Hint → Array Scalar → Array Scalar
  | [], witnesses => witnesses
  | h :: rest, witnesses =>
    follow inputs rest (witnesses.push (h.eval (Valuation.get ⟨inputs, witnesses⟩)))

/-- The values of all variables for an assignment. -/
def valuation (a : Assignment) (f : Fragment) : Valuation :=
  ⟨a.inputs.toArray, follow a.inputs.toArray f.hints a.secrets.toArray⟩

end Circuit

/-- A circuit with the values of its fields, if they have been assigned. -/
structure CircuitInstance where
  circuit : Circuit
  values : Option Assignment
deriving DecidableEq, Repr, Inhabited

namespace CircuitInstance

/-- The circuit without values. -/
def blank (i : CircuitInstance) : CircuitInstance := { i with values := none }

/-- Takes new values; if they do not fit, the old ones stay. -/
def assign (i : CircuitInstance) (values : Json.Members) :
    CircuitInstance × Except AssignmentError Unit :=
  match i.circuit.assign values with
  | .ok a => ({ i with values := some a }, .ok ())
  | .error e => (i, .error e)

/-- Every slot has a value. -/
def isAssigned (i : CircuitInstance) : Bool := i.values.isSome

/-- The public inputs, once there are values; a circuit without public fields has all of them. -/
def publicInputs (i : CircuitInstance) : Option (List Scalar) :=
  match i.values with
  | some a => some a.inputs
  | none => if i.circuit.layout.publicFields.isEmpty then some [] else none

/-- Some rules hold of the assigned values. -/
def satisfies (i : CircuitInstance) (rules : List PlannedRule) : Except SynthesisError Bool :=
  match i.values with
  | none => .error .assignmentMissing
  | some a => do
    let f ← i.circuit.fragmentOf rules
    return (i.circuit.systemOf f).holds (Circuit.valuation a f).get

/-- Every rule holds of the assigned values. -/
def isSatisfied (i : CircuitInstance) : Except SynthesisError Bool := i.satisfies i.circuit.plan

/-- The first rule of a list that fails by itself. -/
def firstViolation (i : CircuitInstance) : List PlannedRule → Except SynthesisError (Option String)
  | [] => .ok none
  | r :: rest => do
    if ← i.satisfies [r] then firstViolation i rest else return some r.label

/-- The label of the first rule that the assigned values violate. -/
def unsatisfiedRule (i : CircuitInstance) : Except SynthesisError (Option String) :=
  i.firstViolation i.circuit.plan

end CircuitInstance
end PrivatePresentation
