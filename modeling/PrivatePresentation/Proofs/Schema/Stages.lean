import PrivatePresentation.Schema.Parser

/-!
The stages of reading a schema, told apart by their errors.  Once a document has the structure of a
schema, whatever goes wrong is a fault of what it means.
-/

namespace PrivatePresentation

/-- The error is of what a document means: not of its text, its canonical form or its structure. -/
def SchemaError.OfMeaning : SchemaError → Prop
  | .invalidJson _ => False
  | .canonicalization _ => False
  | .structural _ => False
  | _ => True

namespace Schema

/-- Nothing goes wrong but what the document means. -/
def FailsInMeaning {α : Type} (m : Except SchemaError α) : Prop := ∀ e, m = .error e → e.OfMeaning

namespace FailsInMeaning

variable {α β : Type} {m : Except SchemaError α} {e : SchemaError}

theorem ok (a : α) : FailsInMeaning (.ok a) := fun _ h => nomatch h

theorem error (he : e.OfMeaning) : FailsInMeaning (.error e : Except SchemaError α) := by
  intro e' h
  obtain rfl := Except.error.inj h
  exact he

theorem bind {g : α → Except SchemaError β} (hm : FailsInMeaning m)
    (hg : ∀ a, FailsInMeaning (g a)) : FailsInMeaning (m >>= g) := by
  cases m with
  | error e' => exact error (hm e' rfl)
  | ok a => exact hg a

theorem guard {p : Prop} [Decidable p] (he : e.OfMeaning) (hm : FailsInMeaning m) :
    FailsInMeaning (if p then .error e else m) := by
  split
  · exact error he
  · exact hm

end FailsInMeaning

open FailsInMeaning

variable {fields : List FieldDecl} {kind : String} {d : ConstraintDraft}

end Schema
end PrivatePresentation
