import PrivatePresentation.Proofs.Schema.Canonical
import PrivatePresentation.Proofs.Schema.Draft
import PrivatePresentation.Proofs.Schema.Rules

/-!
Which documents are schemas.  Reading one succeeds exactly if the canonical form of the document has the
structure of a schema and its fields and constraints keep to their rules; nothing else is ever a fault,
and what is read lists fields and constraints as the document does.
-/

namespace PrivatePresentation

/-- The field that a draft declares. -/
def FieldDraft.decl (d : FieldDraft) : FieldDecl where
  name := d.name
  type := (FieldType.ofName? d.type).getD .string
  required := d.required
  visibility := if d.isPublic then .disclosed else .secret
  description := d.description

/-- A field that is marked as public and as secret. -/
def FieldDraft.Conflicting (d : FieldDraft) : Prop := d.isPublic = true ∧ d.secret = some true

/-- The fields that a draft declares. -/
def SchemaDraft.decls (d : SchemaDraft) : List FieldDecl := d.fields.map FieldDraft.decl

/-- A draft that keeps to the rules. -/
structure SchemaDraft.Lawful (d : SchemaDraft) : Prop where
  nonempty : d.fields ≠ []
  named : ∀ f ∈ d.fields, Text.trim f.name ≠ ""
  distinct : (d.fields.map (·.name)).Nodup
  visible : ∀ f ∈ d.fields, ¬f.Conflicting
  constraints : ∀ c ∈ d.constraints, ∃ c', c.Yields d.decls c'

/-- The schema lists what the draft does, in its order. -/
structure SchemaDraft.Lists (d : SchemaDraft) (s : Schema) : Prop where
  id : s.id = d.id
  version : s.version = d.version
  fields : s.fields = d.decls
  constraints : List.Forall₂ (ConstraintDraft.Yields d.decls) d.constraints s.constraints

namespace Schema

open Structure (Shape schemaShape)

variable {index : Nat} {seen : List String}

theorem checkField_eq_ok {d : FieldDraft} {f : FieldDecl} :
    checkField index seen d = .ok f ↔
      Text.trim d.name ≠ "" ∧ d.name ∉ seen ∧ ¬d.Conflicting ∧ f = d.decl := by
  have hconflict : (d.isPublic && d.secret == some true) = true ↔ d.Conflicting := by
    rw [Bool.and_eq_true, beq_iff_eq]
    rfl
  rw [checkField]
  constructor
  · intro h
    obtain ⟨hblank, h⟩ := Outcome.of_guard h
    obtain ⟨hseen, h⟩ := Outcome.of_guard h
    obtain ⟨hvisible, h⟩ := Outcome.of_guard h
    obtain rfl := Except.ok.inj h
    exact ⟨mt Text.trim_eq_empty.1 hblank, hseen, mt hconflict.2 hvisible, rfl⟩
  · rintro ⟨hname, hseen, hvisible, rfl⟩
    refine Outcome.guard_eq_ok (mt Text.trim_eq_empty.2 hname) ?_
    refine Outcome.guard_eq_ok hseen ?_
    exact Outcome.guard_eq_ok (mt hconflict.1 hvisible) rfl

theorem checkFieldsFrom_eq_ok {drafts : List FieldDraft} {fs : List FieldDecl} :
    checkFieldsFrom index seen drafts = .ok fs ↔
      (∀ d ∈ drafts, Text.trim d.name ≠ "" ∧ d.name ∉ seen ∧ ¬d.Conflicting) ∧
        (drafts.map (·.name)).Nodup ∧ fs = drafts.map FieldDraft.decl := by
  induction drafts generalizing index seen fs with
  | nil =>
      constructor
      · intro h
        obtain rfl := Except.ok.inj h
        exact ⟨fun d hd => absurd hd List.not_mem_nil, List.nodup_nil, rfl⟩
      · rintro ⟨-, -, rfl⟩
        rfl
  | cons d rest ih =>
      rw [checkFieldsFrom, List.forall_mem_cons, List.map_cons, List.nodup_cons, List.map_cons]
      -- The names of the rest are new if none of them has been seen before and none is that of the head.
      constructor
      · intro h
        obtain ⟨f, hf, h⟩ := Outcome.of_bind h
        obtain ⟨others, hothers, h⟩ := Outcome.of_bind h
        obtain rfl := Except.ok.inj h
        obtain ⟨hname, hseen, hvisible, rfl⟩ := checkField_eq_ok.1 hf
        obtain ⟨hrest, hnodup, rfl⟩ := ih.1 hothers
        refine ⟨⟨⟨hname, hseen, hvisible⟩, fun d' hd' => ?_⟩, ⟨fun hmem => ?_, hnodup⟩, rfl⟩
        · obtain ⟨hname', hnew, hvisible'⟩ := hrest d' hd'
          exact ⟨hname', fun hold => hnew (List.mem_cons_of_mem _ hold), hvisible'⟩
        · obtain ⟨d', hd', heq⟩ := List.mem_map.1 hmem
          exact (hrest d' hd').2.1 (heq ▸ List.mem_cons_self)
      · rintro ⟨⟨⟨hname, hseen, hvisible⟩, hrest⟩, ⟨hnew, hnodup⟩, rfl⟩
        refine Outcome.bind_eq_ok (checkField_eq_ok.2 ⟨hname, hseen, hvisible, rfl⟩) ?_
        refine Outcome.bind_eq_ok (ih.2 ⟨fun d' hd' => ?_, hnodup, rfl⟩) rfl
        obtain ⟨hname', hseen', hvisible'⟩ := hrest d' hd'
        refine ⟨hname', fun hmem => ?_, hvisible'⟩
        rcases List.mem_cons.1 hmem with heq | hold
        · exact hnew (heq ▸ List.mem_map_of_mem hd')
        · exact hseen' hold

theorem checkFields_eq_ok {drafts : List FieldDraft} {fs : List FieldDecl} :
    checkFields drafts = .ok fs ↔ drafts ≠ [] ∧
      (∀ d ∈ drafts, Text.trim d.name ≠ "" ∧ ¬d.Conflicting) ∧ (drafts.map (·.name)).Nodup ∧
        fs = drafts.map FieldDraft.decl := by
  rw [checkFields]
  constructor
  · intro h
    obtain ⟨hnonempty, h⟩ := Outcome.of_guard h
    obtain ⟨hfields, hnodup, hfs⟩ := checkFieldsFrom_eq_ok.1 h
    refine ⟨mt List.isEmpty_iff.2 hnonempty, fun d hd => ?_, hnodup, hfs⟩
    exact ⟨(hfields d hd).1, (hfields d hd).2.2⟩
  · rintro ⟨hnonempty, hfields, hnodup, hfs⟩
    refine Outcome.guard_eq_ok (mt List.isEmpty_iff.1 hnonempty) ?_
    refine checkFieldsFrom_eq_ok.2 ⟨fun d hd => ?_, hnodup, hfs⟩
    exact ⟨(hfields d hd).1, List.not_mem_nil, (hfields d hd).2⟩

theorem ofCanonical_eq_ok {u : Json} {t : CanonicalText} {s : Schema} :
    ofCanonical u t = .ok s ↔ schemaShape.Admits u ∧ (SchemaDraft.of u).Lawful ∧
      (SchemaDraft.of u).Lists s ∧ s.canonical = t ∧ s.hash = .ofCanonical t := by
  have hviolations : ¬(!(schemaShape.violations "" u).isEmpty) = true ↔ schemaShape.Admits u := by
    rw [Shape.violated_iff, not_not]
  constructor
  · intro h
    unfold ofCanonical at h
    obtain ⟨hshape, h⟩ := Outcome.of_guard h
    have hshape := hviolations.1 hshape
    obtain ⟨draft, hdraft, h⟩ := Outcome.of_bind h
    obtain rfl := Except.ok.inj ((Draft.schema_eq hshape).symm.trans (Outcome.of_mapError hdraft))
    obtain ⟨fs, hfs, h⟩ := Outcome.of_bind h
    obtain ⟨hnonempty, hfields, hdistinct, rfl⟩ := checkFields_eq_ok.1 hfs
    obtain ⟨cs, hcs, h⟩ := Outcome.of_bind h
    have hcs := checkConstraintsFrom_eq_ok.1 hcs
    obtain rfl := Except.ok.inj h
    have hlawful : (SchemaDraft.of u).Lawful := by
      refine ⟨hnonempty, fun f hf => ?_, hdistinct, fun f hf => ?_, Outcome.exists_forall₂.1 ⟨cs, hcs⟩⟩
      · exact (hfields f hf).1
      · exact (hfields f hf).2
    exact ⟨hshape, hlawful, ⟨rfl, rfl, rfl, hcs⟩, rfl, rfl⟩
  · rintro ⟨hshape, hlawful, hlists, rfl, hhash⟩
    obtain ⟨id, version, fs, cs, canonical, hash⟩ := s
    obtain ⟨rfl, rfl, rfl, hcs⟩ := hlists
    change hash = .ofCanonical canonical at hhash
    subst hhash
    have hfields : checkFields (SchemaDraft.of u).fields = .ok (SchemaDraft.of u).decls :=
      checkFields_eq_ok.2 ⟨hlawful.nonempty,
        fun f hf => ⟨hlawful.named f hf, hlawful.visible f hf⟩, hlawful.distinct, rfl⟩
    rw [ofCanonical]
    refine Outcome.guard_eq_ok (hviolations.2 hshape) ?_
    refine Outcome.bind_eq_ok (congrArg (Except.mapError _) (Draft.schema_eq hshape)) ?_
    refine Outcome.bind_eq_ok hfields ?_
    exact Outcome.bind_eq_ok (checkConstraintsFrom_eq_ok.2 hcs) rfl

end Schema
end PrivatePresentation
