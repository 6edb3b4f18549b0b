import Mathlib.Data.List.Nodup
import PrivatePresentation.Proofs.Schema.Structure

/-!
The violations of a shape, one by one.  A violation is a flaw of some part of the value, told by the way
to that part; which ones a value has is said without regard to how they are looked for.  The lines that
are found tell each of them once.
-/

namespace PrivatePresentation.Structure

open Json (Members)

/-- A step from a container to one of its parts. -/
inductive Step where
  | member (name : String)
  | item (position : Nat)

/-- The text of a step. -/
def Step.text : Step → String
  | .member name => name
  | .item i => toString i

/-- What is wrong with a value. -/
inductive Flaw where
  /-- It has none of some types. -/
  | ofNoType (v : Json) (names : List TypeName)
  /-- It is none of some texts. -/
  | ofNoText (v : Json) (texts : List String)
  /-- It has no member of a name. -/
  | missing (name : String)

/-- The text of a flaw. -/
def Flaw.text : Flaw → String
  | .ofNoType v names => typeViolation v names
  | .ofNoText v texts => v.compact ++ " is not one of " ++ (Json.array (texts.map .string)).compact
  | .missing name => quote name ++ " is a required property"

/-- A flaw, and the way to the part that has it. -/
structure Violation where
  path : List Step
  flaw : Flaw

namespace Violation

/-- A violation of a part, seen from the container. -/
def under (step : Step) (x : Violation) : Violation := ⟨step :: x.path, x.flaw⟩

/-- The place that a way leads to. -/
def placeFrom (place : String) : List Step → String
  | [] => place
  | step :: rest => placeFrom (place ++ "/" ++ step.text) rest

/-- The line that tells a violation of the value at a place. -/
def lineFrom (place : String) (x : Violation) : String := line (placeFrom place x.path) x.flaw.text

/-- The line that tells a violation of a document. -/
def line (x : Violation) : String := x.lineFrom ""

theorem under_injective (step : Step) : Function.Injective (under step) := by
  rintro ⟨path, flaw⟩ ⟨path', flaw'⟩ h
  obtain ⟨hpath, rfl⟩ := Violation.mk.inj h
  obtain ⟨-, rfl⟩ := List.cons.inj hpath
  rfl

end Violation

/-- The lines, at any place, tell each of some violations once and nothing else. -/
def Tells (lines : String → List String) (p : Violation → Prop) : Prop :=
  ∃ xs : List Violation, xs.Nodup ∧ (∀ x, x ∈ xs ↔ p x) ∧
    ∀ place, lines place = xs.map (·.lineFrom place)

namespace Tells

variable {lines lines' : String → List String} {p q : Violation → Prop}

theorem none (hp : ∀ x, ¬p x) : Tells (fun _ => []) p :=
  ⟨[], List.nodup_nil, fun x => ⟨fun h => absurd h List.not_mem_nil, fun h => absurd h (hp x)⟩,
    fun _ => rfl⟩

theorem one (flaw : Flaw) (hp : ∀ x, p x ↔ x = ⟨[], flaw⟩) :
    Tells (fun place => [line place flaw.text]) p :=
  ⟨[⟨[], flaw⟩], List.nodup_singleton _, fun x => List.mem_singleton.trans (hp x).symm, fun _ => rfl⟩

theorem append (h : Tells lines p) (h' : Tells lines' q) (hpq : ∀ x, p x → ¬q x) :
    Tells (fun place => lines place ++ lines' place) fun x => p x ∨ q x := by
  obtain ⟨xs, hnodup, hmem, hlines⟩ := h
  obtain ⟨ys, hnodup', hmem', hlines'⟩ := h'
  refine ⟨xs ++ ys, ?_, fun x => ?_, fun place => ?_⟩
  · refine hnodup.append hnodup' fun x hx hy => ?_
    exact hpq x ((hmem x).1 hx) ((hmem' x).1 hy)
  · rw [List.mem_append, hmem, hmem']
  · simp only [hlines, hlines', List.map_append]

theorem under (step : Step) (h : Tells lines p) :
    Tells (fun place => lines (place ++ "/" ++ step.text)) fun x => ∃ y, p y ∧ x = y.under step := by
  obtain ⟨xs, hnodup, hmem, hlines⟩ := h
  refine ⟨xs.map (·.under step), hnodup.map (Violation.under_injective step), fun x => ?_,
    fun place => ?_⟩
  · rw [List.mem_map]
    exact exists_congr fun y => and_congr (hmem y) eq_comm
  · simp only [hlines, List.map_map]
    rfl

theorem congr (h : Tells lines p) (hpq : ∀ x, p x ↔ q x) : Tells lines q := by
  obtain ⟨xs, hnodup, hmem, hlines⟩ := h
  exact ⟨xs, hnodup, fun x => (hmem x).trans (hpq x), hlines⟩

end Tells

section Shapes

variable {names : List TypeName} {texts : List String} {item : Shape}
  {properties : List (String × Shape)} {required : List String} {v : Json}

end Shapes

end PrivatePresentation.Structure
