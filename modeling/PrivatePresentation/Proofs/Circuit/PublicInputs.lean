import PrivatePresentation.Presentation.Wallet
import PrivatePresentation.Proofs.Circuit.Assignment
import PrivatePresentation.Proofs.Json.Members

/-!
Public inputs.  Whoever proves fills all slots from the values that are given, in the order of their
keys; whoever verifies goes through the public fields alone.  Both come to the same list, and the
second one looks at nothing but the public fields.
-/

namespace PrivatePresentation

namespace Circuit

variable {c : Circuit} {values values' : Json.Members} {given : List (String × Scalar)}
variable {a : Assignment} {f : FieldDecl}

/-- The public inputs do not depend on anything but the values of public fields. -/
theorem publicInputsFrom_congr
    (h : ∀ f ∈ c.layout.publicFields,
      Json.Members.get? f.name values = Json.Members.get? f.name values') :
    c.publicInputsFrom values = c.publicInputsFrom values' := by
  apply Outcome.mapM_congr
  intro f hf
  rw [publicInput, publicInput, h f hf]

/-- What a public field comes to by itself is what its slot has been given. -/
theorem publicInput_eq_valueOf (hgiven : c.convert values = .ok given)
    (hmissing : missing? given c.layout.fields = none) (hf : f ∈ c.layout.fields)
    (hfind : Schema.findField c.layout.fields f.name = some f) :
    publicInput values f = .ok (valueOf given f) := by
  have hspec := convert_spec hgiven f.name
  rw [publicInput, valueOf]
  cases hv : Json.Members.get? f.name values with
  | none =>
      rw [hv] at hspec
      have hpresent := List.find?_eq_none.1 hmissing f hf
      have hnone : given.any (·.1 == f.name) = false := by
        rw [List.any_eq_false]
        exact List.find?_eq_none.1 hspec
      have hoptional : f.required = false := by
        simpa [hnone] using hpresent
      simp only [hspec, hoptional, Bool.false_eq_true, if_false]
  | some v =>
      rw [hv] at hspec
      obtain ⟨g, x, hg, hx, hslot⟩ := hspec
      obtain rfl := Option.some.inj (hfind.symm.trans hg)
      simp only [hslot, hx]
      rfl

/-- The public part of an assignment is what its values come to on the public fields alone. -/
theorem publicInputsFrom_of_assign (hnodup : (c.layout.fields.map (·.name)).Nodup)
    (ha : c.assign values = .ok a) : c.publicInputsFrom values = .ok a.inputs := by
  obtain ⟨given, hgiven, hmissing, rfl⟩ := assign_spec ha
  apply Outcome.mapM_eq_ok
  intro f hf
  have hmem := (List.mem_filter.1 hf).1
  exact publicInput_eq_valueOf hgiven hmissing hmem (Layout.findField_of_mem hnodup hmem)

end Circuit

namespace Wallet

variable {s : Schema} {pinned holder submitted : Json.Members} {f : FieldDecl}

/-- A declared field has the same value before and after what is not declared has been left out. -/
theorem get?_declaredInputs (hnodup : (s.fields.map (·.name)).Nodup) (hf : f ∈ s.fields)
    (inputs : Json.Members) :
    Json.Members.get? f.name (declaredInputs s inputs) = Json.Members.get? f.name inputs := by
  have hfind : s.field? f.name = some f := Layout.findField_of_mem hnodup hf
  rw [declaredInputs, Json.Members.get?_filter fun name => (s.field? name).isSome, hfind,
    Option.isSome_some, if_pos rfl]

/-- The holder and the verifier put the pinned values over what they have, which is the same where
nothing is pinned. -/
theorem get?_mergeInputs_eq
    (hagree : pinned.contains f.name = false →
      Json.Members.get? f.name submitted = Json.Members.get? f.name holder) :
    Json.Members.get? f.name (mergeInputs pinned holder) =
      Json.Members.get? f.name (submitted.insertAll pinned) := by
  rw [mergeInputs]
  by_cases hpinned : pinned.contains f.name = true
  · exact Json.Members.get?_insertAll_of_contains hpinned _ _
  · rw [Bool.not_eq_true] at hpinned
    rw [Json.Members.get?_insertAll_of_not_contains hpinned,
      Json.Members.get?_insertAll_of_not_contains hpinned, hagree hpinned]

end Wallet

namespace CircuitInstance

/-- Prover and verifier compute the same public inputs: if the values that the holder has merged fit
the circuit, the verifier gets the public inputs of the assigned circuit, each in the slot of its
field, and whatever stands under other keys makes no difference. -/
theorem publicInputs_eq_overlay {document : Bytes} {s : Schema} {before after : CircuitInstance}
    {pinned holder submitted : Json.Members} (hs : Schema.parseBytes document = .ok s)
    (hc : Circuit.compile s = .ok before.circuit)
    (hagree : ∀ f ∈ s.publicFields, pinned.contains f.name = false →
      Json.Members.get? f.name submitted = Json.Members.get? f.name holder)
    (hassign : before.assign (Wallet.declaredInputs s (Wallet.mergeInputs pinned holder)) =
      (after, .ok ())) :
    (∃ inputs, before.circuit.publicInputsFrom (submitted.insertAll pinned) = .ok inputs ∧
      after.publicInputs = some inputs ∧
      ∀ i f, s.publicFields[i]? = some f →
        before.circuit.layout.slot? f.name = some (.input i) ∧
          ∃ x, inputs[i]? = some x ∧
            Circuit.publicInput (Wallet.mergeInputs pinned holder) f = .ok x) ∧
    ∀ values values' : Json.Members,
      (∀ f ∈ s.publicFields,
        Json.Members.get? f.name values = Json.Members.get? f.name values') →
      before.circuit.publicInputsFrom values = before.circuit.publicInputsFrom values' := by
  have hnodup := (Schema.parseBytes_wellFormed hs).nodup
  obtain ⟨a, ha, rfl⟩ := assign_spec hassign
  have hlayout := (Circuit.compile_spec hc).1
  have hpublic : before.circuit.layout.publicFields = s.publicFields := by
    rw [hlayout]
    rfl
  have hnames : (before.circuit.layout.fields.map (·.name)).Nodup := by
    rw [hlayout]
    exact hnodup
  have hmerged : ∀ f ∈ s.publicFields,
      Json.Members.get? f.name (Wallet.declaredInputs s (Wallet.mergeInputs pinned holder)) =
        Json.Members.get? f.name (Wallet.mergeInputs pinned holder) := fun f hf =>
    Wallet.get?_declaredInputs hnodup (List.mem_filter.1 hf).1 _
  have hown := Circuit.publicInputsFrom_of_assign hnames ha
  constructor
  · refine ⟨a.inputs, ?_, rfl, ?_⟩
    · rw [← hown]
      apply Circuit.publicInputsFrom_congr
      intro f hf
      rw [hpublic] at hf
      rw [hmerged f hf, Wallet.get?_mergeInputs_eq (hagree f hf)]
    · intro i f hf
      refine ⟨Layout.slot?_of_publicFields hnames (hpublic ▸ hf), ?_⟩
      rw [Circuit.publicInputsFrom, hpublic] at hown
      obtain ⟨x, hx, hinput⟩ := Outcome.getElem?_of_mapM hown hf
      refine ⟨x, hx, ?_⟩
      rw [← hinput, Circuit.publicInput, Circuit.publicInput,
        hmerged f (List.mem_of_getElem? hf)]
  · intro values values' h
    apply Circuit.publicInputsFrom_congr
    rwa [hpublic]

/-- The text of a schema with a threshold that is pinned and two optional public fields. -/
def thresholdText : String :=
  "\x7b\"fields\":[\x7b\"name\":\"score\",\"type\":\"integer\",\"required\":true\x7d," ++
  "\x7b\"name\":\"threshold\",\"type\":\"integer\",\"public\":true,\"required\":true\x7d," ++
  "\x7b\"name\":\"bonus\",\"type\":\"integer\",\"public\":true\x7d," ++
  "\x7b\"name\":\"region\",\"public\":true\x7d]\x7d"

/-- A pinned threshold. -/
def thresholdPinned : Json.Members := [("aud", .string "here"), ("threshold", .int 700)]

/-- The values of a holder who would rather have a lower threshold. -/
def thresholdHolder : Json.Members :=
  [("bonus", .int 5), ("score", .int 720), ("threshold", .int 600)]

/-- What is submitted with a threshold that is lower still. -/
def thresholdSubmitted : Json.Members :=
  [("aud", .string "there"), ("bonus", .int 5), ("threshold", .int 500)]

/-- Neither the holder nor whoever submits can lower the pinned threshold; of the optional values one
is supplied and one is left out. -/
theorem publicInputs_eq_overlay_threshold :
    ∃ (s : Schema) (before after : CircuitInstance) (inputs : List Scalar),
      Schema.parse thresholdText = .ok s ∧ Circuit.compile s = .ok before.circuit ∧
      before.assign (Wallet.declaredInputs s (Wallet.mergeInputs thresholdPinned thresholdHolder)) =
        (after, .ok ()) ∧
      before.circuit.publicInputsFrom (thresholdSubmitted.insertAll thresholdPinned) = .ok inputs ∧
      after.publicInputs = some inputs ∧ inputs = [700, 5, 0] := by
  have hrun : Circuit.compilesWith thresholdText (fun s c =>
      let assigned := (CircuitInstance.mk c none).assign
        (Wallet.declaredInputs s (Wallet.mergeInputs thresholdPinned thresholdHolder))
      decide (s.publicFields.map (·.name) = ["threshold", "bonus", "region"] ∧
        assigned.2 = .ok () ∧ assigned.1.publicInputs = some [700, 5, 0])) = true := by
    decide +kernel
  obtain ⟨s, c, hs, hc, hfacts⟩ := Circuit.exists_of_compilesWith hrun
  obtain ⟨hnames, hassigns, hvalues⟩ := of_decide_eq_true hfacts
  have hassign : (CircuitInstance.mk c none).assign _ = (_, .ok ()) := Prod.ext rfl hassigns
  have hagree : ∀ f ∈ s.publicFields, thresholdPinned.contains f.name = false →
      Json.Members.get? f.name thresholdSubmitted = Json.Members.get? f.name thresholdHolder := by
    intro f hf hfree
    have hname : f.name ∈ ["threshold", "bonus", "region"] := hnames ▸ List.mem_map_of_mem hf
    simp only [List.mem_cons, List.not_mem_nil, or_false] at hname
    rcases hname with hname | hname | hname
    · rw [hname] at hfree
      exact nomatch hfree
    · rw [hname]
      rfl
    · rw [hname]
      rfl
  obtain ⟨⟨inputs, hfrom, hown, -⟩, -⟩ := publicInputs_eq_overlay hs hc hagree hassign
  exact ⟨s, ⟨c, none⟩, _, inputs, hs, hc, hassign, hfrom, hown,
    Option.some.inj (hown.symm.trans hvalues)⟩

end CircuitInstance
end PrivatePresentation
