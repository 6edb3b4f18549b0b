import PrivatePresentation.Json.Access
import PrivatePresentation.Proofs.Outcome
import PrivatePresentation.Proofs.Schema.Structure
import PrivatePresentation.Schema.Draft

/-!
Drafts of documents.  Once a value has the structure of a schema, nothing can go wrong in giving its
parts their types: each property is what stands under its key, or the default.
-/

namespace PrivatePresentation

/-- The truth value of a value that is one. -/
def Json.flag? : Json → Option Bool
  | .bool b => some b
  | _ => none

/-- The truth value under a key, if there is one. -/
def Json.flagAt? (v : Json) (key : String) : Option Bool := (v.get? key).bind flag?

/-- The field that a value describes. -/
def FieldDraft.of (v : Json) : FieldDraft where
  name := v.textAt "name"
  type := v.textAt "type"
  required := (v.flagAt? "required").getD false
  secret := v.flagAt? "secret"
  isPublic := (v.flagAt? "public").getD false
  description := v.textAt "description"

/-- The constraint that a value describes. -/
def ConstraintDraft.of (v : Json) : ConstraintDraft where
  kind := v.textAt "type"
  fields := (v.itemsAt "fields").map fun name => name.text?.getD ""
  operator := v.textAt "operator"
  value := v.get? "value"
  message := v.textAt "error_message"

/-- The schema that a value describes. -/
def SchemaDraft.of (v : Json) : SchemaDraft where
  id := v.textAt "schema_id"
  version := v.textAt "version"
  fields := (v.itemsAt "fields").map FieldDraft.of
  constraints := (v.itemsAt "constraints").map ConstraintDraft.of

namespace Draft

open Json (Members)
open Structure (Shape TypeName fieldShape constraintShape schemaShape)

variable {α : Type} {read : Json → Except Json.Cause α} {m : Members} {name : String} {v : Json}

theorem property_eq {missing : α} (f : Option Json → α) (hnone : f none = missing)
    (hsome : ∀ v, Members.get? name m = some v → read v = .ok (f (some v))) :
    property read missing m name = .ok (f (Members.get? name m)) := by
  unfold property
  cases hv : Members.get? name m with
  | none => rw [← hnone]
  | some v => exact hsome v hv

theorem optional_eq (f : Json → Option α)
    (hsome : ∀ v, Members.get? name m = some v → v ≠ .null ∧ ∃ a, read v = .ok a ∧ f v = some a) :
    optional read m name = .ok ((Members.get? name m).bind f) := by
  unfold optional
  cases hv : Members.get? name m with
  | none => rfl
  | some v =>
      obtain ⟨hnull, a, ha, hf⟩ := hsome v hv
      cases v with
      | null => exact absurd rfl hnull
      | _ => simp only [ha, hf, Except.map, Option.bind_some]

/-- A value of one type alone is of that type. -/
theorem holds_of_admits {t : TypeName} (hv : (Shape.types [t]).Admits v) : t.holds v = true := by
  cases hv with
  | types hv =>
      obtain ⟨t, ht, hv⟩ := hv
      obtain rfl := List.mem_singleton.1 ht
      exact hv

theorem of_text (hv : (Shape.types [.string]).Admits v) : ∃ s, v = .string s := by
  have hv := holds_of_admits hv
  cases v with
  | string s => exact ⟨s, rfl⟩
  | _ => cases hv

theorem text_eq (v : Json) (hv : (Shape.types [.string]).Admits v) :
    text v = .ok (v.text?.getD "") := by
  obtain ⟨s, rfl⟩ := of_text hv
  rfl

theorem of_oneOf {texts : List String} (hv : (Shape.oneOf texts).Admits v) : ∃ s, v = .string s := by
  cases hv with
  | oneOf _ => exact ⟨_, rfl⟩

theorem of_flag (hv : (Shape.types [.boolean]).Admits v) : ∃ b, v = .bool b := by
  have hv := holds_of_admits hv
  cases v with
  | bool b => exact ⟨b, rfl⟩
  | _ => cases hv

theorem ne_null {names : List TypeName} (hv : (Shape.types names).Admits v) : v ≠ .null := by
  rintro rfl
  cases hv with
  | types hv =>
      obtain ⟨t, -, hv⟩ := hv
      cases t with
      | _ => cases hv

theorem list_eq {item : Shape} {part : Json → Except Json.Cause α} {f : Json → α}
    (hpart : ∀ v, item.Admits v → part v = .ok (f v)) (hv : (Shape.array item).Admits v) :
    ∃ items, v = .array items ∧ list part v = .ok (items.map f) := by
  cases hv with
  | array hitems => exact ⟨_, rfl, Outcome.mapM_eq_ok fun u hu => hpart u (hitems u hu)⟩

theorem property_text (hv : ∀ v, Members.get? name m = some v → ∃ s, v = .string s) :
    property text "" m name = .ok ((Json.object m).textAt name) := by
  refine property_eq (fun v => (v.bind Json.text?).getD "") rfl fun v hmem => ?_
  obtain ⟨s, rfl⟩ := hv v hmem
  rfl

theorem property_flag (hv : ∀ v, Members.get? name m = some v → ∃ b, v = .bool b) :
    property flag false m name = .ok (((Json.object m).flagAt? name).getD false) := by
  refine property_eq (fun v => (v.bind Json.flag?).getD false) rfl fun v hmem => ?_
  obtain ⟨b, rfl⟩ := hv v hmem
  rfl

theorem optional_flag (hv : ∀ v, Members.get? name m = some v → ∃ b, v = .bool b) :
    optional flag m name = .ok ((Json.object m).flagAt? name) := by
  refine optional_eq Json.flag? fun v hmem => ?_
  obtain ⟨b, rfl⟩ := hv v hmem
  exact ⟨Json.noConfusion, b, rfl, rfl⟩

theorem property_list {item : Shape} {part : Json → Except Json.Cause α} {f : Json → α}
    (hpart : ∀ v, item.Admits v → part v = .ok (f v))
    (hv : ∀ v, Members.get? name m = some v → (Shape.array item).Admits v) :
    property (list part) [] m name = .ok (((Json.object m).itemsAt name).map f) := by
  refine property_eq (fun v => ((v.bind Json.items?).getD []).map f) rfl fun v hmem => ?_
  obtain ⟨items, rfl, hitems⟩ := list_eq hpart (hv v hmem)
  exact hitems

/-- A value with the structure of a field is read as the field that it describes. -/
theorem field_eq (hv : fieldShape.Admits v) : field v = .ok (.of v) := by
  unfold fieldShape at hv
  cases hv with
  | object hmembers _ =>
      simp only [List.forall_mem_cons] at hmembers
      obtain ⟨hdescription, hname, hpublic, hrequired, hsecret, htype, -⟩ := hmembers
      rw [field, property_text fun v hv => of_text (hname v hv),
        property_text fun v hv => of_oneOf (htype v hv),
        property_flag fun v hv => of_flag (hrequired v hv),
        optional_flag fun v hv => of_flag (hsecret v hv),
        property_flag fun v hv => of_flag (hpublic v hv),
        property_text fun v hv => of_text (hdescription v hv)]
      rfl

/-- A value with the structure of a constraint is read as the constraint that it describes. -/
theorem constraint_eq (hv : constraintShape.Admits v) : constraint v = .ok (.of v) := by
  unfold constraintShape at hv
  cases hv with
  | object hmembers _ =>
      simp only [List.forall_mem_cons] at hmembers
      obtain ⟨hmessage, hfields, hoperator, hkind, hvalue, -⟩ := hmembers
      rename_i m _
      have hgiven : optional .ok m "value" = .ok ((Json.object m).get? "value") := by
        refine (optional_eq some fun v hv => ?_).trans (congrArg Except.ok (Option.bind_fun_some _))
        exact ⟨ne_null (hvalue v hv), v, rfl, rfl⟩
      rw [constraint, property_text fun v hv => of_text (hkind v hv),
        property_list text_eq hfields,
        property_text fun v hv => of_text (hoperator v hv), hgiven,
        property_text fun v hv => of_text (hmessage v hv)]
      rfl

/-- A value with the structure of a schema is read as the schema that it describes. -/
theorem schema_eq (hv : schemaShape.Admits v) : schema v = .ok (.of v) := by
  unfold schemaShape at hv
  cases hv with
  | object hmembers _ =>
      simp only [List.forall_mem_cons] at hmembers
      obtain ⟨hconstraints, hfields, hid, hversion, -⟩ := hmembers
      rw [schema, property_text fun v hv => of_text (hid v hv),
        property_text fun v hv => of_text (hversion v hv),
        property_list (fun v => field_eq) hfields,
        property_list (fun v => constraint_eq) hconstraints]
      rfl

end Draft
end PrivatePresentation
