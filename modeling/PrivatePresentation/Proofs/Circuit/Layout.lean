import Mathlib
import PrivatePresentation.Circuit.Assignment
import PrivatePresentation.Schema.Parser

/-!
The slot of a name holds the declared field of that name.
-/

namespace PrivatePresentation

/-- The value in a slot; zero where there is none. -/
def Assignment.value (a : Assignment) : Slot → Scalar
  | .input i => a.inputs.getD i 0
  | .secret i => a.secrets.getD i 0

namespace Layout

/-- The layout has the slot. -/
def HasSlot (l : Layout) : Slot → Prop
  | .input i => i < l.publicFields.length
  | .secret i => i < l.secretFields.length

/-- The assignment has a value for each slot, and no more. -/
structure Fits (l : Layout) (a : Assignment) : Prop where
  inputs : a.inputs.length = l.publicFields.length
  secrets : a.secrets.length = l.secretFields.length

theorem hasSlot_of_field? {l : Layout} {s : Slot} {f : FieldDecl} (hf : l.field? s = some f) :
    l.HasSlot s := by
  cases s with
  | input i => exact (List.getElem?_eq_some_iff.1 hf).1
  | secret i => exact (List.getElem?_eq_some_iff.1 hf).1

theorem map_fst_slotsFrom (i j : Nat) (fields : List FieldDecl) :
    (slotsFrom i j fields).map (·.1) = fields := by
  induction fields generalizing i j with
  | nil => rfl
  | cons f rest ih =>
      rw [slotsFrom]
      split <;> rw [List.map_cons, ih]

/-- The slot of a field among some fields, with the first slots for the fields before them. -/
def IsSlotFrom (i j : Nat) (fields : List FieldDecl) (f : FieldDecl) : Slot → Prop
  | .input n => i ≤ n ∧ (fields.filter (·.isPublic))[n - i]? = some f
  | .secret n => j ≤ n ∧ (fields.filter (!·.isPublic))[n - j]? = some f

theorem isSlotFrom_cons {i j : Nat} {rest : List FieldDecl} {g f : FieldDecl} {s : Slot}
    (hs : if g.isPublic then IsSlotFrom (i + 1) j rest f s else IsSlotFrom i (j + 1) rest f s) :
    IsSlotFrom i j (g :: rest) f s := by
  have hsucc {k n : Nat} {l : List FieldDecl} (hle : k + 1 ≤ n) (hget : l[n - (k + 1)]? = some f) :
      k ≤ n ∧ (g :: l)[n - k]? = some f := by
    have hn : n - k = n - (k + 1) + 1 := by omega
    exact ⟨by omega, by rw [hn, List.getElem?_cons_succ, hget]⟩
  split at hs
  · rename_i hpublic
    cases s with
    | input n =>
        rw [IsSlotFrom, List.filter_cons_of_pos hpublic]
        exact hsucc hs.1 hs.2
    | secret n =>
        rw [IsSlotFrom, List.filter_cons_of_neg (by rw [hpublic]; decide)]
        exact hs
  · rename_i hsecret
    cases s with
    | input n =>
        rw [IsSlotFrom, List.filter_cons_of_neg hsecret]
        exact hs
    | secret n =>
        rw [IsSlotFrom, List.filter_cons_of_pos (by rw [eq_false_of_ne_true hsecret]; rfl)]
        exact hsucc hs.1 hs.2

/-- Each slot counts the fields of its own visibility that are declared before. -/
theorem isSlotFrom_of_mem {i j : Nat} {fields : List FieldDecl} {f : FieldDecl} {s : Slot}
    (hmem : (f, s) ∈ slotsFrom i j fields) : IsSlotFrom i j fields f s := by
  induction fields generalizing i j with
  | nil => exact absurd hmem List.not_mem_nil
  | cons g rest ih =>
      rw [slotsFrom] at hmem
      split at hmem
      · rename_i hpublic
        rcases List.mem_cons.1 hmem with heq | hmem
        · obtain ⟨rfl, rfl⟩ := Prod.mk.inj heq
          rw [IsSlotFrom, List.filter_cons_of_pos hpublic, Nat.sub_self]
          exact ⟨Nat.le_refl i, rfl⟩
        · exact isSlotFrom_cons (by rw [if_pos hpublic]; exact ih hmem)
      · rename_i hsecret
        rcases List.mem_cons.1 hmem with heq | hmem
        · obtain ⟨rfl, rfl⟩ := Prod.mk.inj heq
          rw [IsSlotFrom, List.filter_cons_of_pos (by rw [eq_false_of_ne_true hsecret]; rfl),
            Nat.sub_self]
          exact ⟨Nat.le_refl j, rfl⟩
        · exact isSlotFrom_cons (by rw [if_neg hsecret]; exact ih hmem)

theorem field?_of_mem_slots {l : Layout} {f : FieldDecl} {s : Slot} (hmem : (f, s) ∈ l.slots) :
    l.field? s = some f := by
  have hslot := isSlotFrom_of_mem hmem
  cases s with
  | input n => exact hslot.2
  | secret n => exact hslot.2

theorem findField_of_slot? {l : Layout} {name : String} {s : Slot} (hs : l.slot? name = some s) :
    ∃ f, Schema.findField l.fields name = some f ∧ l.field? s = some f := by
  obtain ⟨⟨f, s'⟩, hfind, rfl⟩ := Option.map_eq_some_iff.1 hs
  refine ⟨f, ?_, field?_of_mem_slots (List.mem_of_find?_eq_some hfind)⟩
  have hfields : l.slots.map (·.1) = l.fields := map_fst_slotsFrom 0 0 l.fields
  rw [Schema.findField, ← hfields, List.find?_map]
  exact congrArg (Option.map (·.1)) hfind

/-- Of fields with different names, each is the one that is found under its name. -/
theorem findField_of_mem {fields : List FieldDecl} (hnodup : (fields.map (·.name)).Nodup)
    {f : FieldDecl} (hf : f ∈ fields) : Schema.findField fields f.name = some f := by
  induction fields with
  | nil => exact absurd hf List.not_mem_nil
  | cons g rest ih =>
      obtain ⟨hnew, hrest⟩ := List.nodup_cons.1 hnodup
      rcases List.mem_cons.1 hf with rfl | hf
      · exact List.find?_cons_of_pos (beq_self_eq_true _)
      · have hne : g.name ≠ f.name := fun heq => hnew (List.mem_map.2 ⟨f, hf, heq.symm⟩)
        rw [Schema.findField, List.find?_cons_of_neg (by simpa using hne)]
        exact ih hrest hf

theorem exists_field? {l : Layout} {s : Slot} (hs : l.HasSlot s) : ∃ f, l.field? s = some f := by
  cases s with
  | input i => exact ⟨_, List.getElem?_eq_getElem hs⟩
  | secret i => exact ⟨_, List.getElem?_eq_getElem hs⟩

theorem mem_of_field? {l : Layout} {s : Slot} {f : FieldDecl} (hf : l.field? s = some f) :
    f ∈ l.fields := by
  cases s with
  | input i => exact (List.mem_filter.1 (List.mem_of_getElem? hf)).1
  | secret i => exact (List.mem_filter.1 (List.mem_of_getElem? hf)).1

/-- A field is in one slot only. -/
theorem field?_inj {l : Layout} (hnodup : (l.fields.map (·.name)).Nodup) {s s' : Slot} {f : FieldDecl}
    (hs : l.field? s = some f) (hs' : l.field? s' = some f) : s = s' := by
  have hdistinct : l.fields.Nodup := List.Nodup.of_map _ hnodup
  cases s with
  | input i =>
      have hi := (List.getElem?_eq_some_iff.1 hs).1
      cases s' with
      | input j => rw [(List.getElem?_inj hi (hdistinct.filter _)).1 (hs.trans hs'.symm)]
      | secret j =>
          have hpublic := (List.mem_filter.1 (List.mem_of_getElem? hs)).2
          have hsecret := (List.mem_filter.1 (List.mem_of_getElem? hs')).2
          exact absurd hpublic (by simpa using hsecret)
  | secret i =>
      have hi := (List.getElem?_eq_some_iff.1 hs).1
      cases s' with
      | input j =>
          have hpublic := (List.mem_filter.1 (List.mem_of_getElem? hs')).2
          have hsecret := (List.mem_filter.1 (List.mem_of_getElem? hs)).2
          exact absurd hpublic (by simpa using hsecret)
      | secret j => rw [(List.getElem?_inj hi (hdistinct.filter _)).1 (hs.trans hs'.symm)]

/-- The name of the field in a slot is the name of the slot. -/
theorem slot?_of_field? {l : Layout} (hnodup : (l.fields.map (·.name)).Nodup) {s : Slot}
    {f : FieldDecl} (hf : l.field? s = some f) : l.slot? f.name = some s := by
  have hfields : l.slots.map (·.1) = l.fields := map_fst_slotsFrom 0 0 l.fields
  have hfind : Schema.findField l.fields f.name = some f := findField_of_mem hnodup (mem_of_field? hf)
  rw [Schema.findField, ← hfields, List.find?_map] at hfind
  obtain ⟨⟨g, s'⟩, hslot, rfl⟩ := Option.map_eq_some_iff.1 hfind
  have hfield := field?_of_mem_slots (List.mem_of_find?_eq_some hslot)
  rw [field?_inj hnodup hf hfield, slot?]
  exact Option.map_eq_some_iff.2 ⟨(g, s'), hslot, rfl⟩

/-- The public fields have the first slots, in the order of their declaration. -/
theorem slot?_of_publicFields {l : Layout} (hnodup : (l.fields.map (·.name)).Nodup) {i : Nat}
    {f : FieldDecl} (hf : l.publicFields[i]? = some f) : l.slot? f.name = some (.input i) :=
  slot?_of_field? hnodup hf

end Layout
end PrivatePresentation
