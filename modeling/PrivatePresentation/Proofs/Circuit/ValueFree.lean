import PrivatePresentation.Proofs.Circuit.Cost
import PrivatePresentation.Proofs.Circuit.Satisfaction
import PrivatePresentation.Proofs.Circuit.Synthesis
import PrivatePresentation.Proofs.Schema.Acceptance

/-!
Systems do not depend on values.  Keys are made of a system that nothing has been assigned to, and have
to fit the one that is proved.  Whatever has been assigned to a circuit, and whatever it is synthesized
for, its system is the same.
-/

namespace PrivatePresentation

variable {purpose : Purpose} {a : Assignment} {l : Layout}

namespace Circuit

end Circuit

namespace CircuitInstance

variable {i : CircuitInstance} {f : Fragment}

/-- The length of the values is that of the fields, whether there are any or not. -/
theorem length_slotValues (hfits : ∀ a ∈ i.values, i.circuit.layout.Fits a) :
    i.slotValues.1.length = i.circuit.layout.publicFields.length ∧
      i.slotValues.2.length = i.circuit.layout.secretFields.length := by
  unfold slotValues
  split
  · rename_i a ha
    rw [List.length_map, List.length_map]
    exact ⟨(hfits a ha).inputs, (hfits a ha).secrets⟩
  · rw [List.length_replicate, List.length_replicate]
    exact ⟨rfl, rfl⟩

end CircuitInstance

namespace Circuit

/-- The rules of an accepted schema are emitted, each hint after what it reads. -/
theorem exists_emission {c : Circuit} (hplan : ∀ r ∈ c.plan, r.rule.Admissible c.layout) :
    ∃ f, emitRules c.plan c.layout.secretFields.length = .ok ((), f) ∧
      OrderedFrom c.layout.secretFields.length f.hints := by
  obtain ⟨⟨⟩, f, hrun, hbrings⟩ := emitRules_demands hplan (Nat.le_refl c.layout.secretFields.length)
    fun (v : Variable → Scalar) (hv : v .one = 1) => hv
  exact ⟨f, hrun, hbrings.ordered⟩

end Circuit
end PrivatePresentation
