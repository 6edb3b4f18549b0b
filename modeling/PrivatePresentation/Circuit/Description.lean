import PrivatePresentation.Circuit.Compile
import PrivatePresentation.Schema.Description

/-!
Circuits as JSON values, for tools that show them. Residues are decimal texts.
-/

namespace PrivatePresentation

/-- A list of residues. -/
def Json.scalars (xs : List Scalar) : Json := .texts (xs.map Scalar.text)

/-- The name of a slot. -/
def Slot.text : Slot → String
  | .input i => "public:" ++ toString i
  | .secret i => "secret:" ++ toString i

/-- The name of the slot or the constant. -/
def Term.text : Term → String
  | .slot s => s.text
  | .constant c => c.text

/-- The names of the slots, the year first. -/
def DateSlots.toJson (d : DateSlots) : Json := .texts [d.year.text, d.month.text, d.day.text]

/-- A rule. -/
def Rule.toJson : Rule → Json
  | .range s min max =>
    .ofMembers [("range", .string s.text), ("min", .string min.text), ("max", .string max.text)]
  | .compare left c right =>
    .ofMembers [("left", .string left.text), ("operator", .string c.name),
      ("right", .string right.text)]
  | .age birth current minAge =>
    .ofMembers [("birth", birth.toJson), ("current", current.toJson),
      ("min_age", .string minAge.text)]

/-- A rule with its label. -/
def PlannedRule.toJson (r : PlannedRule) : Json :=
  .ofMembers [("label", .string r.label), ("rule", r.rule.toJson)]

/-- The slot of a field, with the type of the field; null for a name that no field has. -/
def Layout.slotJson (l : Layout) (name : String) : Json :=
  match l.slot? name with
  | none => .null
  | some s =>
    .ofMembers [("slot", .string s.text), ("type", Json.ofText? ((l.field? s).map (·.type.name)))]

/-- The members that describe a circuit. -/
def Circuit.details (c : Circuit) : List (String × Json) :=
  [("fingerprint", .string c.fingerprint.text), ("plan", .array (c.plan.map (·.toJson))),
    ("public", .texts (c.layout.publicFields.map (·.name))),
    ("secret", .texts (c.layout.secretFields.map (·.name)))]

end PrivatePresentation
