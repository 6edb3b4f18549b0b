import PrivatePresentation.Circuit.Gadget
import PrivatePresentation.Circuit.Normalize

/-!
Circuits. A schema is compiled to a layout, which gives each field a slot among the public inputs or
among the secret ones, each in the order of declaration, and to a plan of rules over slots and
constants. Bounds and literals of a plan are never negative.
-/

namespace PrivatePresentation

/-- Why a schema has no circuit. -/
inductive CompilationError where
  | negativeBound (field : String) (bound : Int)
  | negativeLiteral (field : String) (value : Int)
  | unknownField (name : String)
  | fingerprint (cause : CanonicalError)
deriving Repr

/-- The text of the error. -/
def CompilationError.message : CompilationError → String
  | .negativeBound field bound =>
    "range_check on '" ++ field ++ "' has negative bound " ++ toString bound ++
      "; only non-negative bounds are supported"
  | .negativeLiteral field value =>
    "comparison on '" ++ field ++ "' has negative literal " ++ toString value ++
      "; only non-negative literals are supported"
  | .unknownField name => "constraint references undeclared field '" ++ name ++ "'"
  | .fingerprint cause => "layout fingerprint failed: " ++ cause.message

instance : ToString CompilationError := ⟨CompilationError.message⟩

/-- The place of a field among the inputs of a circuit. -/
inductive Slot where
  | input (index : Nat)
  | secret (index : Nat)
deriving DecidableEq, Repr, Inhabited

/-- The variable of a slot. The first witnesses are the secret fields. -/
def Slot.variable : Slot → Variable
  | .input i => .input i
  | .secret i => .witness i

/-- The slots of the declared fields. -/
structure Layout where
  fields : List FieldDecl
deriving DecidableEq, Repr, Inhabited

namespace Layout

/-- The public fields in the order of declaration. -/
def publicFields (l : Layout) : List FieldDecl := l.fields.filter (·.isPublic)

/-- The secret fields in the order of declaration. -/
def secretFields (l : Layout) : List FieldDecl := l.fields.filter (!·.isPublic)

/-- The slot of each declared field, in the order of declaration. -/
def slotsFrom : Nat → Nat → List FieldDecl → List (FieldDecl × Slot)
  | _, _, [] => []
  | i, j, f :: rest =>
    if f.isPublic then (f, .input i) :: slotsFrom (i + 1) j rest
    else (f, .secret j) :: slotsFrom i (j + 1) rest

/-- The slot of each declared field, in the order of declaration. -/
def slots (l : Layout) : List (FieldDecl × Slot) := slotsFrom 0 0 l.fields

/-- The slot of a name. -/
def slot? (l : Layout) (name : String) : Option Slot :=
  (l.slots.find? fun entry => entry.1.name == name).map (·.2)

/-- The field at a slot. -/
def field? (l : Layout) : Slot → Option FieldDecl
  | .input i => l.publicFields[i]?
  | .secret i => l.secretFields[i]?

/-- Names and types of fields, as they enter the fingerprint. -/
def describe (fields : List FieldDecl) : Json :=
  .array (fields.map fun f =>
    .object [("name", .string f.name), ("type", .string f.type.name)])

/-- The document that the fingerprint is taken of. -/
def document (l : Layout) : Json :=
  .object [("public", describe l.publicFields), ("secret", describe l.secretFields)]

/-- The digest of the slots and the types of their fields. -/
def fingerprint (l : Layout) : Except CanonicalError ContentDigest := do
  return .ofCanonical (← CanonicalText.ofJson l.document)

/-- The slot of a name that is known to be declared. -/
def require (l : Layout) (name : String) : Except CompilationError Slot :=
  match l.slot? name with
  | some s => .ok s
  | none => .error (.unknownField name)

end Layout

/-- The right-hand side of a comparison. -/
inductive Term where
  | slot (slot : Slot)
  | constant (value : Scalar)
deriving DecidableEq, Repr, Inhabited

/-- The slots of a date. -/
structure DateSlots where
  year : Slot
  month : Slot
  day : Slot
deriving DecidableEq, Repr, Inhabited

/-- A constraint over slots and constants. -/
inductive Rule where
  | range (slot : Slot) (min max : Scalar)
  | compare (left : Slot) (comparator : Comparator) (right : Term)
  | age (birth current : DateSlots) (minAge : Scalar)
deriving DecidableEq, Repr, Inhabited

/-- A rule with the label that names it when it fails. -/
structure PlannedRule where
  label : String
  rule : Rule
deriving DecidableEq, Repr, Inhabited

/-- A compiled schema. -/
structure Circuit where
  layout : Layout
  fingerprint : ContentDigest
  plan : List PlannedRule
deriving DecidableEq, Repr, Inhabited

namespace Circuit

/-- The label of a constraint: its own words, or its kind and fields. -/
def label (c : Constraint) : String :=
  match c.message with
  | some message => message
  | none => c.demand.kind ++ "(" ++ ", ".intercalate c.demand.fields ++ ")"

/-- The slots of a date. -/
def dateSlots (l : Layout) (d : DateFields) : Except CompilationError DateSlots := do
  return ⟨← l.require d.year, ← l.require d.month, ← l.require d.day⟩

/-- The right-hand side of a comparison with a field. -/
def compileOperand (l : Layout) (left : String) : Operand → Except CompilationError Term
  | .field name => do return .slot (← l.require name)
  | .literal (.text s) => .ok (.constant (Normalize.hashText s))
  | .literal (.integer n) =>
    if n < 0 then .error (.negativeLiteral left n) else .ok (.constant (.ofNat n.toNat))

/-- The rule of a constraint. -/
def compileDemand (l : Layout) : Demand → Except CompilationError Rule
  | .range field min max => do
    let slot ← l.require field
    if min < 0 then throw (.negativeBound field min)
    if max < 0 then throw (.negativeBound field max)
    return .range slot (.ofNat min.toNat) (.ofNat max.toNat)
  | .comparison left comparator right => do
    let slot ← l.require left
    return .compare slot comparator (← compileOperand l left right)
  | .age birth current minAge _ => do
    let birth ← dateSlots l birth
    let current ← dateSlots l current
    return .age birth current (.ofNat minAge.natAbs)

/-- The plan of constraints, in order. -/
def compilePlan (l : Layout) : List Constraint → Except CompilationError (List PlannedRule)
  | [] => .ok []
  | c :: rest => do
    let rule ← compileDemand l c.demand
    let plan ← compilePlan l rest
    return ⟨label c, rule⟩ :: plan

/-- The circuit of a schema. -/
def compile (s : Schema) : Except CompilationError Circuit := do
  let layout : Layout := ⟨s.fields⟩
  let fingerprint ← layout.fingerprint.mapError .fingerprint
  let plan ← compilePlan layout s.constraints
  return ⟨layout, fingerprint, plan⟩

/-- The value in a slot. -/
def wire (s : Slot) : Wire := .linear (.var s.variable)

/-- The value of a term. -/
def termWire : Term → Wire
  | .slot s => wire s
  | .constant c => .constant c

/-- The gadgets of a comparison. -/
def emitComparison (comparator : Comparator) (a b : Wire) : Emit Unit := do
  if !comparator.isEquality then
    Gadget.inDomain a
    Gadget.inDomain b
  match comparator with
  | .greaterEqual => Gadget.atMost b a
  | .greaterThan => Gadget.atMost (b.add (.constant 1)) a
  | .lessEqual => Gadget.atMost a b
  | .lessThan => Gadget.atMost (a.add (.constant 1)) b
  | .equal => Gadget.equal a b
  | .notEqual => Gadget.notEqual a b

/-- The gadgets of a minimum age. Whoever is born in the last year that is early enough must be born
not after the current month, and in that month not after the current day. -/
def emitAge (birth current : DateSlots) (minAge : Scalar) : Emit Unit := do
  let birthYear := wire birth.year
  let birthMonth := wire birth.month
  let birthDay := wire birth.day
  let twelve := Wire.constant 12
  let thirtyOne := Wire.constant 31
  Gadget.inDomain birthYear
  let lastYear := (wire current.year).sub (.constant minAge)
  Gadget.atMost birthYear lastYear
  let sameYear ← Gadget.isEqual birthYear lastYear
  let monthBound ← Gadget.select sameYear (wire current.month) twelve
  Gadget.atMost birthMonth monthBound
  let sameMonth ← Gadget.isEqual birthMonth (wire current.month)
  let dayInMonth ← Gadget.select sameMonth (wire current.day) thirtyOne
  let dayBound ← Gadget.select sameYear dayInMonth thirtyOne
  Gadget.atMost birthDay dayBound
  Gadget.atMost (.constant 1) birthMonth
  Gadget.atMost birthMonth twelve
  Gadget.atMost (.constant 1) birthDay
  Gadget.atMost birthDay thirtyOne

/-- The gadgets of a rule. -/
def emitRule : Rule → Emit Unit
  | .range slot min max => do
    Gadget.atMost (.constant min) (wire slot)
    Gadget.atMost (wire slot) (.constant max)
  | .compare left comparator right => emitComparison comparator (wire left) (termWire right)
  | .age birth current minAge => emitAge birth current minAge

/-- The gadgets of some rules, one after the other. -/
def emitRules : List PlannedRule → Emit Unit
  | [] => return ()
  | r :: rest => do
    emitRule r.rule
    emitRules rest

/-- What the rules of a circuit emit; the first new witness follows the secret fields. -/
def fragmentOf (c : Circuit) (rules : List PlannedRule) : Except SynthesisError Fragment :=
  (emitRules rules c.layout.secretFields.length).map (·.2)

/-- The constraint system of a fragment. -/
def systemOf (c : Circuit) (f : Fragment) : ConstraintSystem where
  inputs := c.layout.publicFields.length
  witnesses := c.layout.secretFields.length + f.hints.length
  rows := f.rows

/-- The constraint system of a circuit. -/
def system (c : Circuit) : Except SynthesisError ConstraintSystem := do
  return c.systemOf (← c.fragmentOf c.plan)

/-- The number of constraints. -/
def constraintCount (c : Circuit) : Except SynthesisError Nat := do
  return (← c.system).rows.length

end Circuit
end PrivatePresentation
