import PrivatePresentation.Proofs.Circuit.PublicInputs

/-!
Assignment is all or nothing.  Given values are taken exactly if each of them is of a declared field
and no required field is left out; then every slot has what its own field is given, and nothing is left
of what had been assigned before.  Otherwise the first fault is told, in the order of the keys and then
in that of the fields, and nothing has changed.
-/

namespace PrivatePresentation

/-- What is wrong with a value under a name. -/
inductive Schema.Fault (s : Schema) : String → Json → AssignmentError → Prop where
  | unknown {key : String} {v : Json} (hkey : s.field? key = none) : Fault s key v (.unknownField key)
  | conversion {key : String} {v : Json} {f : FieldDecl} {cause : ConversionError}
      (hkey : s.field? key = some f) (hv : normalize f v = .error cause) :
      Fault s key v (.conversion cause)

/-- The field has to be given a value, and is not. -/
def FieldDecl.Lacks (f : FieldDecl) (values : Json.Members) : Prop :=
  f.required = true ∧ Json.Members.get? f.name values = none

/-- The residue that given values give a field; zero if the field may be left out and is. -/
def FieldDecl.Gets (f : FieldDecl) (values : Json.Members) (x : Scalar) : Prop :=
  match Json.Members.get? f.name values with
  | some v => normalize f v = .ok x
  | none => f.required = false ∧ x = 0

/-- Every value is one of a declared field, and no field lacks one. -/
structure Schema.Takes (s : Schema) (values : Json.Members) : Prop where
  declared : ∀ m ∈ values, ∃ f, s.field? m.1 = some f ∧ ∃ x, normalize f m.2 = .ok x
  complete : ∀ f ∈ s.fields, f.required = true → ∃ v, Json.Members.get? f.name values = some v

/-- The fault of given values: that of the smallest key with one, or else the first field that lacks a
value. -/
inductive Schema.FirstFault (s : Schema) (values : Json.Members) : AssignmentError → Prop where
  | value {key : String} {v : Json} {e : AssignmentError} (hmem : (key, v) ∈ values)
      (hfault : s.Fault key v e) (hbefore : ∀ m ∈ values, m.1 < key → ∀ e', ¬s.Fault m.1 m.2 e') :
      FirstFault s values e
  | missing {before after : List FieldDecl} {f : FieldDecl}
      (hvalues : ∀ m ∈ values, ∀ e', ¬s.Fault m.1 m.2 e') (hfields : s.fields = before ++ f :: after)
      (hlacks : f.Lacks values) (hbefore : ∀ g ∈ before, ¬g.Lacks values) :
      FirstFault s values (.missingRequired f.name)

namespace Circuit

variable {s : Schema} {c : Circuit} {values : Json.Members} {given : List (String × Scalar)}
variable {f : FieldDecl} {e : AssignmentError}

/-- The residue of one given value under its name. -/
def convertMember (c : Circuit) (m : String × Json) : Except AssignmentError (String × Scalar) :=
  match c.layout.fields.find? (·.name == m.1) with
  | none => .error (.unknownField m.1)
  | some f => ((normalize f m.2).mapError .conversion).map fun x => (m.1, x)

theorem convert_eq_mapM (c : Circuit) (values : Json.Members) :
    c.convert values = values.mapM c.convertMember := by
  induction values with
  | nil => rfl
  | cons m rest ih =>
      obtain ⟨key, v⟩ := m
      rw [convert, List.mapM_cons, convertMember, ih]
      dsimp only
      cases c.layout.fields.find? (·.name == key) with
      | none => rfl
      | some f =>
          dsimp only
          cases normalize f v with
          | error cause => rfl
          | ok x => rfl

theorem convertMember_error_iff (hc : compile s = .ok c) {m : String × Json} :
    c.convertMember m = .error e ↔ s.Fault m.1 m.2 e := by
  rw [convertMember, (compile_spec hc).1]
  constructor
  · intro h
    split at h
    · rename_i hnone
      obtain rfl := Except.error.inj h
      exact .unknown hnone
    · rename_i f hf
      cases hv : normalize f m.2 with
      | error cause =>
          rw [hv] at h
          obtain rfl := Except.error.inj h
          exact .conversion hf hv
      | ok x =>
          rw [hv] at h
          cases h
  · intro h
    cases h with
    | unknown hkey =>
        rw [Schema.field?] at hkey
        rw [hkey]
    | conversion hkey hv =>
        rw [Schema.field?] at hkey
        simp only [hkey, hv]
        rfl

theorem exists_convertMember_iff (hc : compile s = .ok c) {m : String × Json} :
    (∃ p, c.convertMember m = .ok p) ↔ ∀ e, ¬s.Fault m.1 m.2 e := by
  constructor
  · rintro ⟨p, hp⟩ e he
    cases hp.symm.trans ((convertMember_error_iff hc).2 he)
  · intro hnone
    cases hp : c.convertMember m with
    | ok p => exact ⟨p, rfl⟩
    | error e => exact absurd ((convertMember_error_iff hc).1 hp) (hnone e)

theorem exists_convert_iff (hc : compile s = .ok c) :
    (∃ given, c.convert values = .ok given) ↔ ∀ m ∈ values, ∀ e, ¬s.Fault m.1 m.2 e := by
  rw [convert_eq_mapM, Outcome.exists_mapM_iff]
  exact forall₂_congr fun m _ => exists_convertMember_iff hc

/-- Members in order fail for the smallest key that has a fault. -/
theorem convert_error_iff (hc : compile s = .ok c) (hvalues : values.Ascending) :
    c.convert values = .error e ↔ ∃ key v, (key, v) ∈ values ∧ s.Fault key v e ∧
      ∀ m ∈ values, m.1 < key → ∀ e', ¬s.Fault m.1 m.2 e' := by
  rw [convert_eq_mapM, Outcome.mapM_error_iff]
  constructor
  · rintro ⟨front, ⟨key, v⟩, back, rfl, hfault, hfront⟩
    refine ⟨key, v, List.mem_append_right _ List.mem_cons_self,
      (convertMember_error_iff hc).1 hfault, fun m hm hlt => ?_⟩
    exact (exists_convertMember_iff hc).1 (hfront m ((hvalues.mem_front_iff hm).2 hlt))
  · rintro ⟨key, v, hmem, hfault, hsmaller⟩
    obtain ⟨front, back, rfl⟩ := List.append_of_mem hmem
    refine ⟨front, (key, v), back, rfl, (convertMember_error_iff hc).2 hfault, fun m hm => ?_⟩
    have hm' := List.mem_append_left ((key, v) :: back) hm
    exact (exists_convertMember_iff hc).2 (hsmaller m hm' ((hvalues.mem_front_iff hm').1 hm))

/-- A field is missed exactly if it lacks a value. -/
theorem missing_iff (hgiven : c.convert values = .ok given) (f : FieldDecl) :
    (f.required && !given.any (·.1 == f.name)) = true ↔ f.Lacks values := by
  have hspec := convert_spec hgiven f.name
  rw [FieldDecl.Lacks, Bool.and_eq_true]
  refine and_congr_right fun _ => ?_
  cases hv : Json.Members.get? f.name values with
  | none =>
      rw [hv] at hspec
      have hnone : given.any (·.1 == f.name) = false :=
        List.any_eq_false.2 (List.find?_eq_none.1 hspec)
      rw [hnone]
      exact iff_of_true rfl rfl
  | some v =>
      rw [hv] at hspec
      obtain ⟨-, x, -, -, hfind⟩ := hspec
      have hany : given.any (·.1 == f.name) = true :=
        List.any_eq_true.2 ⟨_, List.mem_of_find?_eq_some hfind, beq_self_eq_true _⟩
      rw [hany]
      exact iff_of_false Bool.false_ne_true (Option.some_ne_none v)

theorem missing?_eq_none_iff (hgiven : c.convert values = .ok given) :
    missing? given c.layout.fields = none ↔ ∀ f ∈ c.layout.fields, ¬f.Lacks values := by
  rw [missing?, List.find?_eq_none]
  exact forall₂_congr fun f _ => not_congr (missing_iff hgiven f)

theorem missing?_eq_some_iff (hgiven : c.convert values = .ok given) :
    missing? given c.layout.fields = some f ↔ f.Lacks values ∧ ∃ before after,
      c.layout.fields = before ++ f :: after ∧ ∀ g ∈ before, ¬g.Lacks values := by
  rw [missing?, List.find?_eq_some_iff_append, missing_iff hgiven]
  simp only [Bool.not_eq_true', ← Bool.not_eq_true, missing_iff hgiven]

/-- Values are taken exactly if none of them has a fault and no field lacks one. -/
theorem takes_iff : s.Takes values ↔
    (∀ m ∈ values, ∀ e, ¬s.Fault m.1 m.2 e) ∧ ∀ f ∈ s.fields, ¬f.Lacks values := by
  constructor
  · rintro ⟨hdeclared, hcomplete⟩
    refine ⟨fun m hm e he => ?_, fun f hf hlacks => ?_⟩
    · obtain ⟨f, hf, x, hx⟩ := hdeclared m hm
      cases he with
      | unknown hkey => cases hkey.symm.trans hf
      | conversion hkey hv =>
          obtain rfl := Option.some.inj (hf.symm.trans hkey)
          cases hx.symm.trans hv
    · obtain ⟨v, hv⟩ := hcomplete f hf hlacks.1
      cases hlacks.2.symm.trans hv
  · rintro ⟨hfaultless, hcomplete⟩
    refine ⟨fun m hm => ?_, fun f hf hrequired => ?_⟩
    · cases hkey : s.field? m.1 with
      | none => exact absurd (.unknown hkey) (hfaultless m hm _)
      | some f =>
          cases hv : normalize f m.2 with
          | error cause => exact absurd (.conversion hkey hv) (hfaultless m hm _)
          | ok x => exact ⟨f, rfl, x, hv⟩
    · exact Option.ne_none_iff_exists'.1 fun hnone => hcomplete f hf ⟨hrequired, hnone⟩

theorem assign_eq (hgiven : c.convert values = .ok given) :
    c.assign values =
      match missing? given c.layout.fields with
      | some f => .error (.missingRequired f.name)
      | none => .ok
        ⟨c.layout.publicFields.map (valueOf given), c.layout.secretFields.map (valueOf given)⟩ := by
  rw [assign, hgiven]
  rfl

theorem exists_assign_iff (hc : compile s = .ok c) :
    (∃ a, c.assign values = .ok a) ↔ s.Takes values := by
  have hfields : c.layout.fields = s.fields := by rw [(compile_spec hc).1]
  rw [takes_iff, ← exists_convert_iff hc, ← hfields]
  constructor
  · rintro ⟨a, ha⟩
    obtain ⟨given, hgiven, hmissing, -⟩ := assign_spec ha
    exact ⟨⟨given, hgiven⟩, (missing?_eq_none_iff hgiven).1 hmissing⟩
  · rintro ⟨⟨given, hgiven⟩, hcomplete⟩
    rw [assign_eq hgiven, (missing?_eq_none_iff hgiven).2 hcomplete]
    exact ⟨_, rfl⟩

theorem assign_error_iff (hc : compile s = .ok c) (hvalues : values.Ascending) :
    c.assign values = .error e ↔ s.FirstFault values e := by
  have hfields : c.layout.fields = s.fields := by rw [(compile_spec hc).1]
  constructor
  · intro h
    unfold assign at h
    rcases Outcome.error_of_bind h with h | ⟨given, hgiven, h⟩
    · obtain ⟨key, v, hmem, hfault, hbefore⟩ := (convert_error_iff hc hvalues).1 h
      exact .value hmem hfault hbefore
    · split at h
      · rename_i f hmissing
        obtain rfl := Except.error.inj h
        obtain ⟨hlacks, before, after, hsplit, hbefore⟩ := (missing?_eq_some_iff hgiven).1 hmissing
        rw [hfields] at hsplit
        exact .missing ((exists_convert_iff hc).1 ⟨given, hgiven⟩) hsplit hlacks hbefore
      · cases h
  · intro h
    cases h with
    | value hmem hfault hbefore =>
        rw [assign, (convert_error_iff hc hvalues).2 ⟨_, _, hmem, hfault, hbefore⟩]
        rfl
    | missing hfaultless hsplit hlacks hbefore =>
        obtain ⟨given, hgiven⟩ := (exists_convert_iff hc).2 hfaultless
        rw [← hfields] at hsplit
        rw [assign_eq hgiven,
          (missing?_eq_some_iff hgiven).2 ⟨hlacks, _, _, hsplit, hbefore⟩]

theorem publicInput_eq_ok_iff {x : Scalar} : publicInput values f = .ok x ↔ f.Gets values x := by
  rw [publicInput, FieldDecl.Gets]
  cases Json.Members.get? f.name values with
  | some v =>
      constructor
      · exact Outcome.of_mapError
      · intro hx
        change normalize f v = .ok x at hx
        simp only [hx, Except.mapError]
  | none =>
      constructor
      · intro hx
        obtain ⟨hrequired, hx⟩ := Outcome.of_guard hx
        exact ⟨eq_false_of_ne_true hrequired, (Except.ok.inj hx).symm⟩
      · rintro ⟨hrequired, rfl⟩
        simp only [hrequired, Bool.false_eq_true, if_false]

/-- What is assigned to a slot is what its field gets. -/
theorem gets_of_assign {a : Assignment} {slot : Slot} (hnodup : (c.layout.fields.map (·.name)).Nodup)
    (ha : c.assign values = .ok a) (hf : c.layout.field? slot = some f) :
    f.Gets values (a.value slot) := by
  obtain ⟨given, hgiven, hmissing, rfl⟩ := assign_spec ha
  have hmem := Layout.mem_of_field? hf
  rw [← publicInput_eq_ok_iff,
    publicInput_eq_valueOf hgiven hmissing hmem (Layout.findField_of_mem hnodup hmem)]
  cases slot with
  | input i =>
      have hget : c.layout.publicFields[i]? = some f := hf
      simp [Assignment.value, List.getElem?_map, hget]
  | secret i =>
      have hget : c.layout.secretFields[i]? = some f := hf
      simp [Assignment.value, List.getElem?_map, hget]

end Circuit

namespace CircuitInstance

variable {i : CircuitInstance} {values : Json.Members} {a : Assignment} {e : AssignmentError}

theorem assign_of_ok (ha : i.circuit.assign values = .ok a) :
    i.assign values = ({ i with values := some a }, .ok ()) := by
  rw [assign, ha]

theorem assign_of_error (he : i.circuit.assign values = .error e) : i.assign values = (i, .error e) := by
  rw [assign, he]

/-- Assignment is all or nothing, whatever has been assigned before.  It succeeds exactly if the values
are taken; every slot, of which there are as many as fields, then has what its own field gets, as it would
in a blank circuit.  It fails with the first fault of the values alone, and leaves all as it was. -/
theorem assign_allOrNothing {document : Bytes} {s : Schema} (hs : Schema.parseBytes document = .ok s)
    (hc : Circuit.compile s = .ok i.circuit) (hvalues : values.Ascending) :
    ((i.assign values).2 = .ok () ↔ s.Takes values) ∧
    (s.Takes values → i.assign values = i.blank.assign values ∧
      ∃ a, (i.assign values).1 = { i with values := some a } ∧ i.circuit.layout.Fits a ∧
        ∀ slot, i.circuit.layout.HasSlot slot → ∃ f ∈ s.fields,
          i.circuit.layout.field? slot = some f ∧ i.circuit.layout.slot? f.name = some slot ∧
            f.Gets values (a.value slot)) ∧
    (∀ e, (i.assign values).2 = .error e ↔ s.FirstFault values e) ∧
    ∀ e, s.FirstFault values e → (i.assign values).1 = i := by
  have hfields : i.circuit.layout.fields = s.fields := by rw [(Circuit.compile_spec hc).1]
  have hnodup : (i.circuit.layout.fields.map (·.name)).Nodup := by
    rw [hfields]
    exact (Schema.parseBytes_wellFormed hs).nodup
  have htaken : (i.assign values).2 = .ok () ↔ ∃ a, i.circuit.assign values = .ok a := by
    cases ha : i.circuit.assign values with
    | ok a => exact iff_of_true (by rw [assign_of_ok ha]) ⟨a, rfl⟩
    | error e =>
        rw [assign_of_error ha]
        exact iff_of_false (fun h => nomatch h) fun ⟨a, h⟩ => nomatch h
  have hfault (e : AssignmentError) :
      (i.assign values).2 = .error e ↔ i.circuit.assign values = .error e := by
    cases ha : i.circuit.assign values with
    | ok a =>
        rw [assign_of_ok ha]
        exact iff_of_false (fun h => nomatch h) fun h => nomatch h
    | error e' =>
        rw [assign_of_error ha, Except.error.injEq, Except.error.injEq]
  refine ⟨htaken.trans (Circuit.exists_assign_iff hc), fun htakes => ?_, fun e => ?_, fun e he => ?_⟩
  · obtain ⟨a, ha⟩ := (Circuit.exists_assign_iff hc).2 htakes
    have hblank : i.blank.circuit.assign values = .ok a := ha
    refine ⟨?_, a, ?_, Circuit.fits_of_assign ha, fun slot hslot => ?_⟩
    · rw [assign_of_ok ha, assign_of_ok hblank]
      rfl
    · rw [assign_of_ok ha]
    · obtain ⟨f, hf⟩ := Layout.exists_field? hslot
      exact ⟨f, hfields ▸ Layout.mem_of_field? hf, hf, Layout.slot?_of_field? hnodup hf,
        Circuit.gets_of_assign hnodup ha hf⟩
  · exact (hfault e).trans (Circuit.assign_error_iff hc hvalues)
  · rw [assign_of_error ((Circuit.assign_error_iff hc hvalues).2 he)]

/-- Values with three faults, of which that of the region comes first. -/
def faultyValues : Json.Members :=
  [("region", .int 7), ("score", .string "high"), ("zone", .string "north")]

/-- Values without a score. -/
def scorelessValues : Json.Members := [("bonus", .int 5)]

/-- A circuit that has been assigned keeps its values until all of the new ones fit. -/
theorem assign_allOrNothing_threshold :
    ∃ (s : Schema) (i : CircuitInstance), Schema.parse thresholdText = .ok s ∧
      Circuit.compile s = .ok i.circuit ∧ i.values = some ⟨[0, 9, 9], [9]⟩ ∧
      s.FirstFault faultyValues (.conversion (.wrongType "region" "a string" "a number")) ∧
      (i.assign faultyValues).1 = i ∧
      s.FirstFault scorelessValues (.missingRequired "score") ∧ (i.assign scorelessValues).1 = i ∧
      s.Takes thresholdHolder ∧ i.assign thresholdHolder = i.blank.assign thresholdHolder := by
  have hrun : Circuit.compilesWith thresholdText (fun _ c =>
      let i : CircuitInstance := ⟨c, some ⟨[0, 9, 9], [9]⟩⟩
      decide ((i.assign faultyValues).2 =
          .error (.conversion (.wrongType "region" "a string" "a number")) ∧
        (i.assign scorelessValues).2 = .error (.missingRequired "score") ∧
        (i.assign thresholdHolder).2 = .ok ())) = true := by
    decide +kernel
  obtain ⟨s, c, hs, hc, hfacts⟩ := Circuit.exists_of_compilesWith hrun
  obtain ⟨hfaulty, hscoreless, htaken⟩ := of_decide_eq_true hfacts
  let i : CircuitInstance := ⟨c, some ⟨[0, 9, 9], [9]⟩⟩
  have hc : Circuit.compile s = .ok i.circuit := hc
  have hfaultyOrder : faultyValues.Ascending := by decide +kernel
  have hscorelessOrder : scorelessValues.Ascending := by decide +kernel
  have hholderOrder : thresholdHolder.Ascending := by decide +kernel
  obtain ⟨-, -, hfirst, hkept⟩ := assign_allOrNothing hs hc hfaultyOrder
  obtain ⟨-, -, hfirst', hkept'⟩ := assign_allOrNothing hs hc hscorelessOrder
  obtain ⟨htakes, hassigned, -⟩ := assign_allOrNothing hs hc hholderOrder
  have hfaulty := (hfirst _).1 hfaulty
  have hscoreless := (hfirst' _).1 hscoreless
  have htakes := htakes.1 htaken
  exact ⟨s, i, hs, hc, rfl, hfaulty, hkept _ hfaulty, hscoreless, hkept' _ hscoreless, htakes,
    (hassigned htakes).1⟩

end CircuitInstance
end PrivatePresentation
