import PrivatePresentation.Schema.Structure

/-!
What the structure of a document comes to.  No violation is found exactly if every part of the value has
the type that its place asks for, and whatever has to be there is there.
-/

namespace PrivatePresentation.Structure

open Json (Members)

/-- A value that looks as a shape says. -/
inductive Shape.Admits : Shape → Json → Prop where
  | types {names : List TypeName} {v : Json} (hv : ∃ t ∈ names, t.holds v = true) :
      Admits (.types names) v
  | oneOf {texts : List String} {s : String} (hs : s ∈ texts) : Admits (.oneOf texts) (.string s)
  | array {item : Shape} {items : List Json} (hitems : ∀ v ∈ items, Admits item v) :
      Admits (.array item) (.array items)
  | object {properties : List (String × Shape)} {required : List String} {members : Members}
      (hmembers : ∀ e ∈ properties, ∀ v, Members.get? e.1 members = some v → Admits e.2 v)
      (hrequired : ∀ name ∈ required, ∃ v, Members.get? name members = some v) :
      Admits (.object properties required) (.object members)

/-- What holds of a shape once it holds of its parts holds of every shape. -/
@[induction_eliminator]
theorem Shape.induction {motive : Shape → Prop} (types : ∀ names, motive (.types names))
    (oneOf : ∀ texts, motive (.oneOf texts)) (array : ∀ item, motive item → motive (.array item))
    (object : ∀ properties required, (∀ e ∈ properties, motive e.2) →
      motive (.object properties required)) (shape : Shape) : motive shape :=
  @Shape.rec motive (fun properties => ∀ e ∈ properties, motive e.2) (fun e => motive e.2)
    types oneOf array object (fun _ he => absurd he List.not_mem_nil)
    (fun _ _ hhead hrest => List.forall_mem_cons.2 ⟨hhead, hrest⟩) (fun _ _ h => h) shape

theorem contains_iff {name : String} {members : Members} :
    Members.contains name members = true ↔ ∃ v, Members.get? name members = some v := by
  induction members with
  | nil =>
      constructor
      · intro h
        cases h
      · rintro ⟨v, h⟩
        cases h
  | cons e rest ih =>
      obtain ⟨k, v⟩ := e
      by_cases hk : k = name
      · simp [Members.contains, Members.get?, hk]
      · simpa [Members.contains, Members.get?, hk] using ih

theorem requiredViolations_eq_nil {place : String} {members : Members} {required : List String} :
    requiredViolations place members required = [] ↔
      ∀ name ∈ required, ∃ v, Members.get? name members = some v := by
  induction required with
  | nil => simp [requiredViolations]
  | cons name rest ih =>
      rw [requiredViolations, List.forall_mem_cons, ← contains_iff, ← ih]
      split <;> simp [*]

theorem itemViolations_eq_nil {check : String → Json → List String} {p : Json → Prop}
    (hcheck : ∀ place v, check place v = [] ↔ p v) {place : String} {i : Nat} {items : List Json} :
    itemViolations check place i items = [] ↔ ∀ v ∈ items, p v := by
  induction items generalizing i with
  | nil => simp [itemViolations]
  | cons v rest ih => rw [itemViolations, List.append_eq_nil_iff, hcheck, ih, List.forall_mem_cons]

theorem memberViolations_eq_nil {properties : List (String × Shape)} {place : String}
    {members : Members}
    (hshapes : ∀ e ∈ properties, ∀ place v, e.2.violations place v = [] ↔ e.2.Admits v) :
    memberViolations properties place members = [] ↔
      ∀ e ∈ properties, ∀ v, Members.get? e.1 members = some v → e.2.Admits v := by
  induction properties with
  | nil => simp [memberViolations]
  | cons e rest ih =>
      obtain ⟨name, shape⟩ := e
      rw [List.forall_mem_cons] at hshapes
      rw [memberViolations, List.append_eq_nil_iff, ih hshapes.2, List.forall_mem_cons]
      refine and_congr ?_ Iff.rfl
      cases hv : Members.get? name members with
      | none => simp
      | some v => simp [hshapes.1 (place ++ "/" ++ name) v]

/-- No violation is found in a value exactly if it looks as the shape says. -/
theorem Shape.violations_eq_nil {shape : Shape} {place : String} {v : Json} :
    shape.violations place v = [] ↔ shape.Admits v := by
  induction shape generalizing place v with
  | types names =>
      unfold violations
      constructor
      · intro h
        split at h
        · rename_i hany
          exact .types (List.any_eq_true.1 hany)
        · cases h
      · intro h
        cases h with
        | types hv => exact if_pos (List.any_eq_true.2 hv)
  | oneOf texts =>
      unfold violations
      constructor
      · intro h
        split at h
        · split at h
          · rename_i hs
            exact .oneOf (List.contains_iff_mem.1 hs)
          · cases h
        · cases h
      · intro h
        cases h with
        | oneOf hs => exact if_pos (List.contains_iff_mem.2 hs)
  | array item ih =>
      have hitems := fun items => @itemViolations_eq_nil _ _ (fun place v => @ih place v) place 0 items
      unfold violations
      constructor
      · intro h
        split at h
        · exact .array ((hitems _).1 h)
        · cases h
      · intro h
        cases h with
        | array hparts => exact (hitems _).2 hparts
  | object properties required ih =>
      have hmembers := fun members => @memberViolations_eq_nil properties place members
        fun e he place v => @ih e he place v
      unfold violations
      constructor
      · intro h
        split at h
        · rw [List.append_eq_nil_iff] at h
          exact .object ((hmembers _).1 h.1) (requiredViolations_eq_nil.1 h.2)
        · cases h
      · intro h
        cases h with
        | object hparts hrequired =>
            exact List.append_eq_nil_iff.2
              ⟨(hmembers _).2 hparts, requiredViolations_eq_nil.2 hrequired⟩

/-- Some violation is found exactly if the value does not look as the shape says. -/
theorem Shape.violated_iff {shape : Shape} {place : String} {v : Json} :
    (!(shape.violations place v).isEmpty) = true ↔ ¬shape.Admits v := by
  rw [Bool.not_eq_true', Bool.eq_false_iff, ne_eq, List.isEmpty_iff, Shape.violations_eq_nil]

end PrivatePresentation.Structure
