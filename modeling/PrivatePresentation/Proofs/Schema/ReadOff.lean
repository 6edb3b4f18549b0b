import PrivatePresentation.Proofs.Schema.Draft

/-!
What is read off a value that has the structure of a schema, told without regard to how it is read.
Each declared property is what its value says, or has its default where there is none; nothing else that
the value holds has a say.
-/

namespace PrivatePresentation

namespace Json

/-- What is read of a property: the value that is given, or the default. -/
inductive Reads {α : Type} (r : Json → α → Prop) (missing : α) : Option Json → α → Prop where
  | given {v : Json} {a : α} (h : r v a) : Reads r missing (some v) a
  | absent : Reads r missing none missing

/-- The value is a text. -/
inductive IsText : Json → String → Prop where
  | string (s : String) : IsText (.string s) s

/-- The value is a truth value. -/
inductive IsFlag : Json → Bool → Prop where
  | bool (b : Bool) : IsFlag (.bool b) b

/-- The value is an array, item by item. -/
inductive IsList {α : Type} (r : Json → α → Prop) : Json → List α → Prop where
  | array {items : List Json} {as : List α} (hitems : List.Forall₂ r items as) :
      IsList r (.array items) as

end Json

open Json (Reads IsText IsFlag IsList)

/-- The field that is read off a value. -/
structure FieldDraft.ReadOff (v : Json) (d : FieldDraft) : Prop where
  name : Reads IsText "" (v.get? "name") d.name
  type : Reads IsText "" (v.get? "type") d.type
  required : Reads IsFlag false (v.get? "required") d.required
  secret : v.get? "secret" = d.secret.map .bool
  isPublic : Reads IsFlag false (v.get? "public") d.isPublic
  description : Reads IsText "" (v.get? "description") d.description

/-- The constraint that is read off a value. -/
structure ConstraintDraft.ReadOff (v : Json) (d : ConstraintDraft) : Prop where
  kind : Reads IsText "" (v.get? "type") d.kind
  fields : Reads (IsList IsText) [] (v.get? "fields") d.fields
  operator : Reads IsText "" (v.get? "operator") d.operator
  value : v.get? "value" = d.value
  message : Reads IsText "" (v.get? "error_message") d.message

/-- The schema that is read off a value. -/
structure SchemaDraft.ReadOff (v : Json) (d : SchemaDraft) : Prop where
  id : Reads IsText "" (v.get? "schema_id") d.id
  version : Reads IsText "" (v.get? "version") d.version
  fields : Reads (IsList FieldDraft.ReadOff) [] (v.get? "fields") d.fields
  constraints : Reads (IsList ConstraintDraft.ReadOff) [] (v.get? "constraints") d.constraints

section Unique

open Relator (RightUnique)

variable {α : Type} {r : Json → α → Prop}

theorem Json.Reads.unique {missing a b : α} {o : Option Json} (hr : RightUnique r)
    (ha : Reads r missing o a) (hb : Reads r missing o b) : a = b := by
  cases ha with
  | given ha =>
      cases hb with
      | given hb => exact hr ha hb
  | absent =>
      cases hb with
      | absent => rfl

theorem Json.IsText.unique : RightUnique IsText := by
  intro v s t hs ht
  cases hs
  cases ht
  rfl

theorem Json.IsFlag.unique : RightUnique IsFlag := by
  intro v b c hb hc
  cases hb
  cases hc
  rfl

theorem Json.IsList.unique (hr : RightUnique r) : RightUnique (IsList r) := by
  intro v as bs has hbs
  cases has with
  | array has =>
      cases hbs with
      | array hbs => exact hr.forall₂ has hbs

theorem FieldDraft.ReadOff.unique : RightUnique FieldDraft.ReadOff := by
  intro v d d' hd hd'
  have hbool : Function.Injective (Option.map Json.bool) :=
    Option.map_injective fun _ _ => Json.bool.inj
  obtain ⟨name, type, required, secret, isPublic, description⟩ := d
  obtain rfl := hd.name.unique IsText.unique hd'.name
  obtain rfl := hd.type.unique IsText.unique hd'.type
  obtain rfl := hd.required.unique IsFlag.unique hd'.required
  obtain rfl := hbool (hd.secret.symm.trans hd'.secret)
  obtain rfl := hd.isPublic.unique IsFlag.unique hd'.isPublic
  obtain rfl := hd.description.unique IsText.unique hd'.description
  rfl

theorem ConstraintDraft.ReadOff.unique : RightUnique ConstraintDraft.ReadOff := by
  intro v d d' hd hd'
  obtain ⟨kind, fields, operator, value, message⟩ := d
  obtain rfl := hd.kind.unique IsText.unique hd'.kind
  obtain rfl := hd.fields.unique (IsList.unique IsText.unique) hd'.fields
  obtain rfl := hd.operator.unique IsText.unique hd'.operator
  obtain rfl := hd.value.symm.trans hd'.value
  obtain rfl := hd.message.unique IsText.unique hd'.message
  rfl

/-- No two schemas are read off one value, whatever else is in it. -/
theorem SchemaDraft.ReadOff.unique : RightUnique SchemaDraft.ReadOff := by
  intro v d d' hd hd'
  obtain ⟨id, version, fields, constraints⟩ := d
  obtain rfl := hd.id.unique IsText.unique hd'.id
  obtain rfl := hd.version.unique IsText.unique hd'.version
  obtain rfl := hd.fields.unique (IsList.unique FieldDraft.ReadOff.unique) hd'.fields
  obtain rfl := hd.constraints.unique (IsList.unique ConstraintDraft.ReadOff.unique) hd'.constraints
  rfl

end Unique

section Admitted

open Structure (Shape fieldShape constraintShape schemaShape)

variable {v : Json} {key : String}

theorem reads_list {α : Type} {item : Shape} {r : Json → α → Prop} {f : Json → α}
    (hitem : ∀ w, item.Admits w → r w (f w))
    (hv : ∀ w, v.get? key = some w → (Shape.array item).Admits w) :
    Reads (IsList r) [] (v.get? key) ((v.itemsAt key).map f) := by
  unfold Json.itemsAt
  cases h : v.get? key with
  | none => exact .absent
  | some w =>
      cases hv w h with
      | array hitems =>
          refine .given (.array (List.forall₂_map_right_iff.2 (List.forall₂_same.2 ?_)))
          exact fun u hu => hitem u (hitems u hu)

end Admitted

end PrivatePresentation
