import PrivatePresentation.Proofs.Json.NormalForm
import PrivatePresentation.Schema.Parser

/-!
A schema is a function of its canonical text: that text is read as the same schema, whatever document
the schema has been read from.
-/

namespace PrivatePresentation

namespace Schema

variable {document : Bytes} {s : Schema}

theorem of_ofCanonical {v : Json} {canonical : CanonicalText} (hs : ofCanonical v canonical = .ok s) :
    s.canonical = canonical ∧ s.hash = .ofCanonical canonical := by
  unfold ofCanonical at hs
  obtain ⟨-, hs⟩ := Outcome.of_guard hs
  obtain ⟨draft, -, hs⟩ := Outcome.of_bind hs
  obtain ⟨fs, -, hs⟩ := Outcome.of_bind hs
  obtain ⟨cs, -, hs⟩ := Outcome.of_bind hs
  obtain rfl := Except.ok.inj hs
  exact ⟨rfl, rfl⟩

/-- A document is read as the schema of its canonical form. -/
theorem parseBytes_eq {v u : Json} (hv : Json.parseBytes document = .ok v)
    (hu : Canonical.coerce v = .ok u) :
    parseBytes document = ofCanonical u ⟨String.ofList (Canonical.write u)⟩ := by
  have hread := (Json.isDocument_of_parseBytes hv).parseBytes_writtenBytes hu
  simp only [parseBytes, hv, ofJson, CanonicalText.ofJson_eq hu, Except.mapError, bind, Except.bind,
    CanonicalText.utf8_write, hread]

/-- A schema that has been read is that of the canonical form of the document. -/
theorem of_parseBytes (hs : parseBytes document = .ok s) : ∃ v u,
    Json.parseBytes document = .ok v ∧ Canonical.coerce v = .ok u ∧
      ofCanonical u ⟨String.ofList (Canonical.write u)⟩ = .ok s := by
  have hsteps := hs
  unfold parseBytes ofJson at hsteps
  obtain ⟨v, hv, hsteps⟩ := Outcome.of_bind hsteps
  obtain ⟨canonical, hcanonical, -⟩ := Outcome.of_bind hsteps
  obtain ⟨u, hu, -⟩ := CanonicalText.of_ofJson (Outcome.of_mapError hcanonical)
  rw [parseBytes_eq (Outcome.of_mapError hv) hu] at hs
  exact ⟨v, u, Outcome.of_mapError hv, hu, hs⟩

/-- A schema is read back from its canonical text. -/
theorem parse_canonical (hs : parseBytes document = .ok s) : parse s.canonical.text = .ok s := by
  obtain ⟨v, u, hv, hu, hs⟩ := of_parseBytes hs
  have hdocument := Json.isDocument_of_parseBytes hv
  have hread := hdocument.parseBytes_writtenBytes hu
  rw [(of_ofCanonical hs).1, parse, CanonicalText.utf8_write,
    parseBytes_eq hread (hdocument.coerce_coerce hu), hs]

end Schema

/-- Canonical text is a normal form.  It is read as the canonical form of the value, whose text it is,
so that two documents have one text exactly if they have one canonical form; and a schema is read back
from its text, of which it has the hash. -/
theorem CanonicalText.isNormalForm :
    (∀ v t, v.IsDocument → ofJson v = .ok t →
      ∃ u, Canonical.coerce v = .ok u ∧ Canonical.FormOf v u ∧ t.Holds u) ∧
    (∀ v v' t t', v.IsDocument → v'.IsDocument → ofJson v = .ok t → ofJson v' = .ok t' →
      (t = t' ↔ Canonical.coerce v = Canonical.coerce v')) ∧
    ∀ document s, Schema.parseBytes document = .ok s →
      Schema.parse s.canonical.text = .ok s ∧ s.hash = .ofCanonical s.canonical := by
  refine ⟨fun v t => exists_holds, fun v v' t t' => eq_iff_coerce_eq, fun document s hs => ?_⟩
  obtain ⟨v, u, -, -, hcanonical⟩ := Schema.of_parseBytes hs
  obtain ⟨htext, hhash⟩ := Schema.of_ofCanonical hcanonical
  exact ⟨Schema.parse_canonical hs, htext ▸ hhash⟩

/-- An age of eighteen as a double, in a list. -/
def eighteen : Json := .array [.number (.float ⟨false, 9, 1⟩)]

/-- The text of a schema with doubles for the months of a year. -/
def wholeMonthText : String :=
  "\x7b\"fields\":[\x7b\"name\":\"month\",\"type\":\"integer\"\x7d],\"constraints\":" ++
  "[\x7b\"type\":\"range_check\",\"fields\":[\"month\"],\"value\":[1.0,1.2e1]\x7d]\x7d"

/-- A double and an integer have one text, and so have schemas with either. -/
theorem isNormalForm_eighteen :
    (∃ u, Canonical.coerce eighteen = .ok u ∧ Canonical.FormOf eighteen u ∧
      (CanonicalText.mk "[18]").Holds u) ∧
    Canonical.coerce eighteen = Canonical.coerce (.array [.int 18]) ∧
    ∃ s, Schema.parse wholeMonthText = .ok s ∧ Schema.parse s.canonical.text = .ok s ∧
      s.hash = .ofCanonical s.canonical := by
  have hscalars : ∀ n : Json.Number, (Json.array [.number n]).IsDocument := by
    intro n
    constructor
    · exact .array fun v hv => List.mem_singleton.1 hv ▸ .number trivial
    · exact .array fun v hv => List.mem_singleton.1 hv ▸ .number _ n
  have hdouble : CanonicalText.ofJson eighteen = .ok ⟨"[18]"⟩ :=
    Outcome.of_toOption (by decide +kernel)
  have hinteger : CanonicalText.ofJson (.array [.int 18]) = .ok ⟨"[18]"⟩ :=
    Outcome.of_toOption (by decide +kernel)
  have hparses : (Schema.parse wholeMonthText).toOption.isSome = true := by decide +kernel
  obtain ⟨s, hs⟩ := Option.isSome_iff_exists.1 hparses
  have hs : Schema.parse wholeMonthText = .ok s := Outcome.of_toOption hs
  obtain ⟨hholds, hiff, hschema⟩ := CanonicalText.isNormalForm
  refine ⟨hholds _ _ (hscalars _) hdouble, ?_, s, hs, hschema _ s hs⟩
  exact (hiff _ _ _ _ (hscalars _) (hscalars _) hdouble hinteger).1 rfl

end PrivatePresentation
