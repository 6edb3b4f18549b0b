import PrivatePresentation.Proofs.Circuit.Compilation
import PrivatePresentation.Proofs.Json.NormalForm

/-!
What fingerprints tell apart.  The text that is hashed gives away the names and types of the fields in
the order of their slots, whatever characters the names are made of, and nothing else of the schema
enters it.
-/

namespace PrivatePresentation

open Json (Ordered Shallow)

theorem FieldType.ofName?_name (t : FieldType) : ofName? t.name = some t := by
  cases t <;> decide

theorem FieldType.name_injective : Function.Injective FieldType.name := by
  intro t u h
  rw [← Option.some_inj, ← ofName?_name t, h, ofName?_name u]

/-- The name and the type of a field. -/
def FieldDecl.signature (f : FieldDecl) : String × FieldType := (f.name, f.type)

namespace Layout

variable {l l' : Layout}

/-- A name and a type as they stand in the document of a layout. -/
def entry (e : String × FieldType) : Json :=
  .object [("name", .string e.1), ("type", .string e.2.name)]

theorem entry_injective : Function.Injective entry := by
  rintro ⟨name, type⟩ ⟨name', type'⟩ h
  simp only [entry, Json.object.injEq, List.cons.injEq, Prod.mk.injEq, Json.string.injEq, true_and,
    and_true] at h
  exact Prod.ext h.1 (FieldType.name_injective h.2)

theorem describe_eq (fields : List FieldDecl) :
    describe fields = .array ((fields.map FieldDecl.signature).map entry) := by
  rw [describe, List.map_map]
  rfl

theorem describe_eq_iff {fields fields' : List FieldDecl} :
    describe fields = describe fields' ↔
      fields.map FieldDecl.signature = fields'.map FieldDecl.signature := by
  rw [describe_eq, describe_eq, Json.array.injEq, entry_injective.list_map.eq_iff]

theorem document_eq_iff : l.document = l'.document ↔
    l.publicFields.map FieldDecl.signature = l'.publicFields.map FieldDecl.signature ∧
      l.secretFields.map FieldDecl.signature = l'.secretFields.map FieldDecl.signature := by
  rw [document, document, ← describe_eq_iff, ← describe_eq_iff]
  simp only [Json.object.injEq, List.cons.injEq, Prod.mk.injEq, true_and, and_true]

theorem describe_shallow (fields : List FieldDecl) (d : Nat) : Shallow (d + 2) (describe fields) := by
  refine .array fun v hv => ?_
  obtain ⟨f, -, rfl⟩ := List.mem_map.1 hv
  refine .object fun e he => ?_
  rcases List.mem_pair.1 he with rfl | rfl
  · exact .string d f.name
  · exact .string d f.type.name

theorem isDocument_document (l : Layout) : l.document.IsDocument where
  ordered := document_ordered l
  shallow := by
    refine Shallow.object (d := 126) fun e he => ?_
    rcases List.mem_pair.1 he with rfl | rfl
    · exact describe_shallow l.publicFields 124
    · exact describe_shallow l.secretFields 124

/-- Two layouts have one text exactly if they have one document: the text is read back. -/
theorem text_eq_iff : l.text = l'.text ↔ l.document = l'.document := by
  rw [CanonicalText.eq_iff_coerce_eq l.isDocument_document l'.isDocument_document l.ofJson_document
    l'.ofJson_document, Canonical.coerce_eq_self (document_ordered l),
    Canonical.coerce_eq_self (document_ordered l'), Except.ok.injEq]

end Layout

namespace Circuit

variable {s s' : Schema} {c c' : Circuit}

theorem fingerprint_of_compile (hc : compile s = .ok c) :
    c.fingerprint = .ofCanonical c.layout.text := by
  rw [compile, Layout.fingerprint_eq] at hc
  obtain ⟨fingerprint, hfingerprint, hc⟩ := Outcome.of_bind hc
  obtain ⟨plan, -, hc⟩ := Outcome.of_bind hc
  obtain rfl := Except.ok.inj hc
  exact (Except.ok.inj hfingerprint).symm

/-- Two schemas that are compiled have one fingerprint exactly if their public fields have the same names
and types in the same order, and so have their secret ones, unless the hashes of the texts of their
layouts collide. -/
theorem fingerprint_eq_iff (hc : compile s = .ok c) (hc' : compile s' = .ok c')
    (hcollide : ∀ t t', CanonicalText.ofJson c.layout.document = .ok t →
      CanonicalText.ofJson c'.layout.document = .ok t' →
        Sha256.hash (Text.utf8 t.text) = Sha256.hash (Text.utf8 t'.text) → t = t') :
    c.fingerprint = c'.fingerprint ↔
      s.publicFields.map FieldDecl.signature = s'.publicFields.map FieldDecl.signature ∧
        s.secretFields.map FieldDecl.signature = s'.secretFields.map FieldDecl.signature := by
  have hlayout := (compile_spec hc).1
  have hlayout' := (compile_spec hc').1
  have hsame : c.fingerprint = c'.fingerprint ↔ c.layout.text = c'.layout.text := by
    rw [fingerprint_of_compile hc, fingerprint_of_compile hc']
    constructor
    · intro h
      exact hcollide _ _ c.layout.ofJson_document c'.layout.ofJson_document
        (ContentDigest.mk.inj h)
    · intro h
      rw [h]
  rw [hsame, Layout.text_eq_iff, Layout.document_eq_iff, hlayout, hlayout']
  rfl

/-- The text of a schema with a public date between two secret ones. -/
def threeDatesText : String :=
  "\x7b\"fields\":[\x7b\"name\":\"a\",\"type\":\"date\"\x7d,\x7b\"name\":\"n\",\"type\":\"date\",\"public\":true\x7d," ++
  "\x7b\"name\":\"b\",\"type\":\"date\"\x7d]\x7d"

/-- The text of a schema with the same dates, and much else. -/
def sameDatesText : String :=
  "\x7b\"schema_id\":\"again\",\"version\":\"2\",\"fields\":[\x7b\"name\":\"n\",\"type\":\"date\",\"public\":true\x7d," ++
  "\x7b\"name\":\"a\",\"type\":\"date\",\"required\":true,\"description\":\"first\"\x7d," ++
  "\x7b\"name\":\"b\",\"type\":\"date\"\x7d],\"constraints\":[\x7b\"type\":\"comparison\",\"operator\":\"le\"," ++
  "\"fields\":[\"a\",\"b\"]\x7d]\x7d"

/-- The text of a schema with one secret date, whose name looks like two fields. -/
def twoDatesText : String :=
  "\x7b\"fields\":[\x7b\"name\":\"n\",\"type\":\"date\",\"public\":true\x7d," ++
  "\x7b\"name\":\"a\\\",\\\"type\\\":\\\"date\\\"\x7d,\x7b\\\"name\\\":\\\"b\",\"type\":\"date\"\x7d]\x7d"

/-- The text of the layout of three dates. -/
def threeDates : CanonicalText :=
  ⟨"\x7b\"public\":[\x7b\"name\":\"n\",\"type\":\"date\"\x7d]," ++
  "\"secret\":[\x7b\"name\":\"a\",\"type\":\"date\"\x7d,\x7b\"name\":\"b\",\"type\":\"date\"\x7d]\x7d"⟩

/-- The text of the layout of two dates. -/
def twoDates : CanonicalText :=
  ⟨"\x7b\"public\":[\x7b\"name\":\"n\",\"type\":\"date\"\x7d]," ++
  "\"secret\":[\x7b\"name\":\"a\\\",\\\"type\\\":\\\"date\\\"\x7d,\x7b\\\"name\\\":\\\"b\",\"type\":\"date\"\x7d]\x7d"⟩

theorem fingerprint_eq_iff_dates :
    ∃ (s s' s'' : Schema) (c c' c'' : Circuit), Schema.parse threeDatesText = .ok s ∧
      Schema.parse sameDatesText = .ok s' ∧ Schema.parse twoDatesText = .ok s'' ∧
      compile s = .ok c ∧ compile s' = .ok c' ∧ compile s'' = .ok c'' ∧
      c.fingerprint = c'.fingerprint ∧ c.fingerprint ≠ c''.fingerprint := by
  have hrun (text : String) (layout : CanonicalText) (secrets : List (String × FieldType))
      (h : compilesWith text (fun s c =>
        decide ((CanonicalText.ofJson c.layout.document).toOption = some layout ∧
          s.publicFields.map FieldDecl.signature = [("n", .date)] ∧
          s.secretFields.map FieldDecl.signature = secrets)) = true) :
      ∃ s c, Schema.parse text = .ok s ∧ compile s = .ok c ∧
        CanonicalText.ofJson c.layout.document = .ok layout ∧
        s.publicFields.map FieldDecl.signature = [("n", .date)] ∧
        s.secretFields.map FieldDecl.signature = secrets := by
    obtain ⟨s, c, hs, hc, hfacts⟩ := exists_of_compilesWith h
    obtain ⟨htext, hfields⟩ := of_decide_eq_true hfacts
    exact ⟨s, c, hs, hc, Outcome.of_toOption htext, hfields⟩
  obtain ⟨s, c, hs, hc, htext, hpublic, hsecret⟩ :=
    hrun threeDatesText threeDates [("a", .date), ("b", .date)] (by decide +kernel)
  obtain ⟨s', c', hs', hc', htext', hpublic', hsecret'⟩ :=
    hrun sameDatesText threeDates [("a", .date), ("b", .date)] (by decide +kernel)
  obtain ⟨s'', c'', hs'', hc'', htext'', hpublic'', hsecret''⟩ :=
    hrun twoDatesText twoDates [("a\",\"type\":\"date\"\x7d,\x7b\"name\":\"b", .date)]
      (by decide +kernel)
  have hsame : c.fingerprint = c'.fingerprint := by
    refine (fingerprint_eq_iff hc hc' fun t t' ht ht' _ => ?_).2
      ⟨hpublic.trans hpublic'.symm, hsecret.trans hsecret'.symm⟩
    exact (Except.ok.inj (htext.symm.trans ht)).symm.trans (Except.ok.inj (htext'.symm.trans ht'))
  have hother : c.fingerprint ≠ c''.fingerprint := by
    have hhash : Sha256.hash (Text.utf8 threeDates.text) ≠ Sha256.hash (Text.utf8 twoDates.text) := by
      decide +kernel
    intro heq
    have hfields := (fingerprint_eq_iff hc hc'' fun t t' ht ht' hcollide => by
      rw [← Except.ok.inj (htext.symm.trans ht), ← Except.ok.inj (htext''.symm.trans ht')] at hcollide
      exact absurd hcollide hhash).1 heq
    rw [hsecret, hsecret''] at hfields
    exact absurd hfields.2 (by decide)
  exact ⟨s, s', s'', c, c', c'', hs, hs', hs'', hc, hc', hc'', hsame, hother⟩

end Circuit
end PrivatePresentation
