import PrivatePresentation.Proofs.Schema.Canonical
import PrivatePresentation.Proofs.Schema.ReadOff
import PrivatePresentation.Proofs.Schema.Stages
import PrivatePresentation.Proofs.Schema.Violations

/-!
The structure of a schema document and the types of its parts are told twice: by a shape, against which
the document is checked, and by the drafts into which it is read.  The two agree.  Whatever is admitted
is read off in full, and a document with a part that no draft could take is refused, with every violation
told.
-/

namespace PrivatePresentation

namespace Json

/-- The types that documents tell apart. -/
inductive Kind where
  | null
  | boolean
  | number
  | string
  | array
  | object
deriving DecidableEq

/-- The type of a value. -/
def kind : Json → Kind
  | .null => .null
  | .bool _ => .boolean
  | .number _ => .number
  | .string _ => .string
  | .array _ => .array
  | .object _ => .object

theorem mem_itemsAt {v w : Json} {key : String} :
    w ∈ v.itemsAt key ↔ ∃ items, v.get? key = some (.array items) ∧ w ∈ items := by
  unfold itemsAt
  constructor
  · intro hw
    cases h : v.get? key with
    | none =>
        rw [h] at hw
        cases hw
    | some u =>
        rw [h] at hw
        cases u with
        | array items => exact ⟨items, rfl, hw⟩
        | _ => cases hw
  · rintro ⟨items, h, hw⟩
    rw [h]
    exact hw

end Json

open Json (Kind)

namespace Structure

/-- The type that a name stands for. -/
def TypeName.kind : TypeName → Kind
  | .array => .array
  | .boolean => .boolean
  | .integer => .number
  | .object => .object
  | .string => .string

variable {v : Json}

variable {properties : List (String × Shape)} {required : List String}

theorem Shape.Admits.itemsAt {name : String} {item : Shape}
    (hv : (Shape.object properties required).Admits v) (hitem : (name, .array item) ∈ properties)
    {w : Json} (hw : w ∈ v.itemsAt name) : item.Admits w := by
  cases hv with
  | object hmembers _ =>
      obtain ⟨items, hitems, hw⟩ := Json.mem_itemsAt.1 hw
      cases hmembers _ hitem _ hitems with
      | array hall => exact hall w hw

end Structure

namespace Schema

open Structure (Shape Violation fieldShape constraintShape schemaShape)

variable {u v : Json} {t : CanonicalText}

/-- What a value is read as, once its text has been read again. -/
theorem ofJson_eq (ht : CanonicalText.ofJson v = .ok t) (hu : Json.parse t.text = .ok u) :
    ofJson v = ofCanonical u t := by
  rw [Json.parse] at hu
  simp only [ofJson, ht, hu, Except.mapError, bind, Except.bind]

/-- Arrays around a null, one within the other. -/
def nested : Nat → Json
  | 0 => .null
  | n + 1 => .array [nested n]

end Schema
end PrivatePresentation
