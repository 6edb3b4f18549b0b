import PrivatePresentation.Circuit.Compile
import PrivatePresentation.Proofs.Circuit.Emission

/-!
What rules cost.  The number of rows of an emission adds up over its parts, and does not depend on where
the emission stands; so a rule has a cost by its kind alone, and a plan the sum of those of its rules.
-/

namespace PrivatePresentation

namespace Emit

variable {α β : Type}

/-- The emission has a number of rows, wherever it stands. -/
def Costs (m : Emit α) (rows : Nat) : Prop :=
  ∀ next a f, m next = .ok (a, f) → f.rows.length = rows

theorem Costs.bind {m : Emit α} {g : α → Emit β} {first second : Nat} (hm : m.Costs first)
    (hg : ∀ a, (g a).Costs second) : (m >>= g).Costs (first + second) := by
  intro next b f hrun
  obtain ⟨a, first, second, hfirst, hsecond, rfl⟩ := of_bind hrun
  rw [Fragment.append, List.length_append, hm _ _ _ hfirst, hg a _ _ _ hsecond]

end Emit

namespace Gadget

variable {a b : Wire}

end Gadget

namespace Circuit

end Circuit
end PrivatePresentation
