import PrivatePresentation.Proofs.Circuit.Meaning
import PrivatePresentation.Proofs.Circuit.Plan

/-!
Assigned values.  The slot of each field has the residue of what the field stands for among the given
values.
-/

namespace PrivatePresentation.Circuit

variable {c : Circuit} {values : Json.Members} {given : List (String × Scalar)} {a : Assignment}

/-- The slot of each declared field has the residue of what the field stands for. -/
def Represents (l : Layout) (meaning? : String → Option Meaning) (value : Slot → Scalar) : Prop :=
  ∀ name s f, l.require name = .ok s → Schema.findField l.fields name = some f →
    ∃ m : Meaning, meaning? name = some m ∧ value s = m.residue ∧ m.Suits f

/-- A name is given a residue exactly if it has a value, and then it is the one of that value. -/
theorem convert_spec (hgiven : c.convert values = .ok given) (name : String) :
    match Json.Members.get? name values with
    | none => given.find? (·.1 == name) = none
    | some v => ∃ f x, Schema.findField c.layout.fields name = some f ∧ normalize f v = .ok x ∧
        given.find? (·.1 == name) = some (name, x) := by
  induction values generalizing given with
  | nil =>
      obtain rfl := Except.ok.inj hgiven
      rfl
  | cons entry rest ih =>
      obtain ⟨key, v⟩ := entry
      unfold convert at hgiven
      split at hgiven
      · exact nomatch hgiven
      · rename_i f hf
        obtain ⟨x, hx, hgiven⟩ := Outcome.of_bind hgiven
        obtain ⟨others, hothers, hgiven⟩ := Outcome.of_bind hgiven
        obtain rfl := Except.ok.inj hgiven
        rw [Json.Members.get?]
        by_cases hkey : key = name
        · rw [if_pos hkey, List.find?_cons_of_pos (by simpa using hkey)]
          rw [← hkey]
          exact ⟨f, x, hf, Outcome.of_mapError hx, rfl⟩
        · rw [if_neg hkey, List.find?_cons_of_neg (by simpa using hkey)]
          exact ih hothers

theorem assign_spec (ha : c.assign values = .ok a) :
    ∃ given, c.convert values = .ok given ∧ missing? given c.layout.fields = none ∧
      a = ⟨c.layout.publicFields.map (valueOf given), c.layout.secretFields.map (valueOf given)⟩ := by
  unfold assign at ha
  obtain ⟨given, hgiven, ha⟩ := Outcome.of_bind ha
  split at ha
  · exact nomatch ha
  · rename_i hmissing
    exact ⟨given, hgiven, hmissing, (Except.ok.inj ha).symm⟩

theorem fits_of_assign (ha : c.assign values = .ok a) : c.layout.Fits a := by
  obtain ⟨given, -, -, rfl⟩ := assign_spec ha
  exact ⟨List.length_map _, List.length_map _⟩

/-- The value of a declared field is the residue of what it stands for. -/
theorem valueOf_spec (hgiven : c.convert values = .ok given) {f : FieldDecl}
    (hf : Schema.findField c.layout.fields f.name = some f) :
    ∃ m : Meaning, Meaning.ofField? f values = some m ∧ valueOf given f = m.residue ∧ m.Suits f := by
  have hspec := convert_spec hgiven f.name
  unfold Meaning.ofField? valueOf
  cases hv : Json.Members.get? f.name values with
  | none =>
      rw [hv] at hspec
      rw [hspec]
      exact ⟨.integer 0, rfl, rfl, by simp [Meaning.Suits]⟩
  | some v =>
      rw [hv] at hspec
      obtain ⟨g, x, hg, hx, hfind⟩ := hspec
      obtain rfl := Option.some.inj (hf.symm.trans hg)
      rw [Meaning.normalize_eq] at hx
      obtain ⟨m, hm, rfl⟩ := Outcome.of_map hx
      rw [hfind]
      exact ⟨m, congrArg Except.toOption hm, rfl, Meaning.suits_of_ofValue hm⟩

/-- The assigned slots have the residues of what the given values stand for. -/
theorem represents_of_assign {s : Schema} (hc : compile s = .ok c) (ha : c.assign values = .ok a) :
    Represents c.layout (s.meaning? values) a.value := by
  obtain ⟨given, hgiven, -, rfl⟩ := assign_spec ha
  intro name slot f hslot hf
  obtain ⟨g, hg, hfield⟩ := Layout.findField_of_slot? (Layout.slot?_of_require hslot)
  obtain rfl := Option.some.inj (hf.symm.trans hg)
  have hname : f.name = name := by simpa using List.find?_some hf
  obtain ⟨m, hm, hvalue, hsuits⟩ := valueOf_spec hgiven (by rw [hname]; exact hf)
  have hmeaning : s.meaning? values name = some m := by
    rw [(compile_spec hc).1] at hf
    rw [Schema.meaning?, Schema.field?]
    exact Option.bind_eq_some_iff.2 ⟨f, hf, hm⟩
  refine ⟨m, hmeaning, ?_, hsuits⟩
  rw [← hvalue]
  cases slot with
  | input i =>
      have hget : c.layout.publicFields[i]? = some f := hfield
      simp [Assignment.value, List.getElem?_map, hget]
  | secret i =>
      have hget : c.layout.secretFields[i]? = some f := hfield
      simp [Assignment.value, List.getElem?_map, hget]

end PrivatePresentation.Circuit

namespace PrivatePresentation.CircuitInstance

theorem assign_spec {before after : CircuitInstance} {values : Json.Members}
    (ha : before.assign values = (after, .ok ())) :
    ∃ a, before.circuit.assign values = .ok a ∧ after = { before with values := some a } := by
  unfold assign at ha
  split at ha
  · rename_i a hassign
    exact ⟨a, hassign, (Prod.mk.inj ha).1.symm⟩
  · exact nomatch (Prod.mk.inj ha).2

end PrivatePresentation.CircuitInstance
