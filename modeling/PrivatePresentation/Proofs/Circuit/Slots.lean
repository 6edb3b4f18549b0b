import PrivatePresentation.Proofs.Circuit.Assignment
import PrivatePresentation.Proofs.Circuit.Compilation
import PrivatePresentation.Proofs.Circuit.ValueFree
import PrivatePresentation.Proofs.Service.Store

/-!
Slots follow the declaration of the fields.  A table that is filled in one field after the other holds
the slots of the layout; each declared name has one slot, each slot one name, and whatever a plan reads
is among them.  The slots of public fields know nothing of the secret ones, nor the other way round.
-/

namespace PrivatePresentation

/-- A layout that is filled in field by field: the fields of either visibility, the slot of each name,
and the slots in the order of declaration. -/
structure SlotTable where
  publicFields : List FieldDecl := []
  secretFields : List FieldDecl := []
  slots : Store String Slot := ∅
  declared : List Slot := []

namespace SlotTable

/-- The slot that the next field gets. -/
def next (t : SlotTable) (f : FieldDecl) : Slot :=
  if f.isPublic then .input t.publicFields.length else .secret t.secretFields.length

/-- The table with one more field. -/
def add (t : SlotTable) (f : FieldDecl) : SlotTable where
  publicFields := if f.isPublic then t.publicFields ++ [f] else t.publicFields
  secretFields := if f.isPublic then t.secretFields else t.secretFields ++ [f]
  slots := t.slots.insert f.name (t.next f)
  declared := t.declared ++ [t.next f]

/-- The table of some fields. -/
def ofFields (fields : List FieldDecl) : SlotTable := fields.foldl add {}

theorem ofFields_concat (fields : List FieldDecl) (f : FieldDecl) :
    ofFields (fields ++ [f]) = (ofFields fields).add f := by
  rw [ofFields, List.foldl_append]
  rfl

end SlotTable

namespace Layout

variable {l : Layout} {name : String} {slot : Slot} {f : FieldDecl}

/-- The slots in the order of declaration. -/
def declared (l : Layout) : List Slot := l.slots.map (·.2)

/-- The slot of a field that is declared after some others: of its own visibility, it is the next. -/
def slotAfter (before : List FieldDecl) (f : FieldDecl) : Slot :=
  if f.isPublic then .input (before.countP (·.isPublic)) else .secret (before.countP (!·.isPublic))

theorem slotsFrom_append (i j : Nat) (fields rest : List FieldDecl) :
    slotsFrom i j (fields ++ rest) = slotsFrom i j fields ++
      slotsFrom (i + fields.countP (·.isPublic)) (j + fields.countP (!·.isPublic)) rest := by
  induction fields generalizing i j with
  | nil => rfl
  | cons f fields ih =>
      rw [List.cons_append, slotsFrom, slotsFrom]
      split
      · rename_i hpublic
        rw [ih, List.countP_cons_of_pos hpublic, List.countP_cons_of_neg (by simp [hpublic]),
          List.cons_append, Nat.add_right_comm i 1]
        rfl
      · rename_i hsecret
        rw [ih, List.countP_cons_of_neg hsecret, List.countP_cons_of_pos (by simp [hsecret]),
          List.cons_append, Nat.add_right_comm j 1]
        rfl

theorem slotsFrom_singleton (i j : Nat) (f : FieldDecl) :
    slotsFrom i j [f] = [(f, if f.isPublic then .input i else .secret j)] := by
  rw [slotsFrom]
  split <;> rfl

theorem slots_concat (fields : List FieldDecl) (f : FieldDecl) :
    slots ⟨fields ++ [f]⟩ = slots ⟨fields⟩ ++ [(f, slotAfter fields f)] := by
  rw [slots, slotsFrom_append, slotsFrom_singleton, Nat.zero_add, Nat.zero_add]
  rfl

theorem getElem?_slots {n : Nat} (hf : l.fields[n]? = some f) :
    l.slots[n]? = some (f, slotAfter (l.fields.take n) f) := by
  obtain ⟨hn, hget⟩ := List.getElem?_eq_some_iff.1 hf
  have hsplit : l.fields = (l.fields.take n ++ [f]) ++ l.fields.drop (n + 1) := by
    rw [← hget, List.take_append_getElem hn, List.take_append_drop]
  have hlength : (slots ⟨l.fields.take n⟩).length = n := by
    rw [← List.length_map (f := (·.1)), slots, map_fst_slotsFrom, List.length_take]
    omega
  have hslots := (congrArg (slotsFrom 0 0) hsplit).trans (slotsFrom_append 0 0 _ _)
  rw [slots, hslots, ← slots, slots_concat, List.append_assoc,
    List.getElem?_append_right (by omega), hlength, Nat.sub_self]
  rfl

/-- A name without a field has no slot. -/
theorem slot?_eq_none (hname : name ∉ l.fields.map (·.name)) : l.slot? name = none := by
  cases hslot : l.slot? name with
  | none => rfl
  | some slot =>
      obtain ⟨f, hfind, -⟩ := findField_of_slot? hslot
      have hf : f.name = name := by simpa using List.find?_some hfind
      exact absurd (List.mem_map.2 ⟨f, List.mem_of_find?_eq_some hfind, hf⟩) hname

theorem slot?_concat (fields : List FieldDecl) (hnew : f.name ∉ fields.map (·.name)) (name : String) :
    slot? ⟨fields ++ [f]⟩ name =
      if name = f.name then some (slotAfter fields f) else slot? ⟨fields⟩ name := by
  rw [slot?, slots_concat, List.find?_append]
  split
  · rename_i heq
    obtain rfl := heq
    have hnone := Option.map_eq_none_iff.1 (@slot?_eq_none ⟨fields⟩ f.name hnew)
    rw [hnone, Option.none_or, List.find?_cons_of_pos (by simp)]
    rfl
  · rename_i hne
    have hlast : [(f, slotAfter fields f)].find? (fun e => e.1.name == name) = none := by
      simpa using Ne.symm hne
    rw [hlast, Option.or_none]
    rfl

/-- The slot of a name is that of the field with the name. -/
theorem slot?_eq_some_iff (hnodup : (l.fields.map (·.name)).Nodup) :
    l.slot? name = some slot ↔ ∃ f, l.field? slot = some f ∧ f.name = name := by
  constructor
  · intro hslot
    obtain ⟨f, hfind, hf⟩ := findField_of_slot? hslot
    exact ⟨f, hf, by simpa using List.find?_some hfind⟩
  · rintro ⟨f, hf, rfl⟩
    exact slot?_of_field? hnodup hf

theorem exists_slot?_iff (hnodup : (l.fields.map (·.name)).Nodup) :
    (∃ slot, l.slot? name = some slot) ↔ name ∈ l.fields.map (·.name) := by
  constructor
  · rintro ⟨slot, hslot⟩
    obtain ⟨f, hf, rfl⟩ := (slot?_eq_some_iff hnodup).1 hslot
    exact List.mem_map_of_mem (mem_of_field? hf)
  · intro hname
    obtain ⟨f, hf, rfl⟩ := List.mem_map.1 hname
    obtain ⟨n, hn⟩ := List.getElem?_of_mem hf
    have hmem := List.mem_of_getElem? (getElem?_slots hn)
    exact ⟨_, slot?_of_field? hnodup (field?_of_mem_slots hmem)⟩

theorem mem_declared_iff (hnodup : (l.fields.map (·.name)).Nodup) :
    slot ∈ l.declared ↔ l.HasSlot slot := by
  constructor
  · intro hmem
    obtain ⟨e, he, rfl⟩ := List.mem_map.1 hmem
    exact hasSlot_of_field? (field?_of_mem_slots he)
  · intro hslot
    obtain ⟨f, hf⟩ := exists_field? hslot
    obtain ⟨n, hn⟩ := List.getElem?_of_mem (mem_of_field? hf)
    have hmem := List.mem_of_getElem? (getElem?_slots hn)
    rw [field?_inj hnodup hf (field?_of_mem_slots hmem)]
    exact List.mem_map_of_mem hmem

/-- No slot is declared twice: it would be that of two fields. -/
theorem declared_nodup (hnodup : (l.fields.map (·.name)).Nodup) : l.declared.Nodup := by
  have hfields : l.slots.map (·.1) = l.fields := map_fst_slotsFrom 0 0 l.fields
  have hslots : l.slots.Nodup := by
    refine List.Nodup.of_map (·.1) ?_
    rw [hfields]
    exact List.Nodup.of_map _ hnodup
  refine hslots.map_on fun e he e' he' heq => ?_
  have hfield := field?_of_mem_slots he
  rw [heq, field?_of_mem_slots he'] at hfield
  exact Prod.ext (Option.some.inj hfield).symm heq

theorem slot?_input_iff (hnodup : (l.fields.map (·.name)).Nodup) {k : Nat} :
    l.slot? name = some (.input k) ↔ (l.publicFields.map (·.name))[k]? = some name := by
  rw [slot?_eq_some_iff hnodup, List.getElem?_map, Option.map_eq_some_iff]
  rfl

theorem slot?_secret_iff (hnodup : (l.fields.map (·.name)).Nodup) {k : Nat} :
    l.slot? name = some (.secret k) ↔ (l.secretFields.map (·.name))[k]? = some name := by
  rw [slot?_eq_some_iff hnodup, List.getElem?_map, Option.map_eq_some_iff]
  rfl

end Layout

namespace SlotTable

/-- The table holds the slots of a layout. -/
structure Shows (t : SlotTable) (l : Layout) : Prop where
  publicFields : t.publicFields = l.publicFields
  secretFields : t.secretFields = l.secretFields
  slots : ∀ name, t.slots.get? name = l.slot? name
  declared : t.declared = l.declared

/-- One more field with a new name goes to the same slot in a table and in the layout that it shows. -/
theorem Shows.add {t : SlotTable} {fields : List FieldDecl} (ht : t.Shows ⟨fields⟩) {f : FieldDecl}
    (hnew : f.name ∉ fields.map (·.name)) : (t.add f).Shows ⟨fields ++ [f]⟩ := by
  have hnext : t.next f = Layout.slotAfter fields f := by
    rw [next, ht.publicFields, ht.secretFields, Layout.slotAfter, List.countP_eq_length_filter,
      List.countP_eq_length_filter]
    rfl
  constructor
  · rw [SlotTable.add, ht.publicFields, Layout.publicFields, Layout.publicFields, List.filter_append]
    cases hpublic : f.isPublic with
    | true => simp [hpublic]
    | false => simp [hpublic]
  · rw [SlotTable.add, ht.secretFields, Layout.secretFields, Layout.secretFields, List.filter_append]
    cases hpublic : f.isPublic with
    | true => simp [hpublic]
    | false => simp [hpublic]
  · intro name
    rw [SlotTable.add, Store.get?_insert, Layout.slot?_concat fields hnew, hnext, ht.slots]
  · rw [SlotTable.add, ht.declared, hnext, Layout.declared, Layout.declared, Layout.slots_concat,
      List.map_append]
    rfl

/-- Filled in field by field, a table holds the slots of the layout.  A name that came again would have
its last slot in the table and its first one in the layout. -/
theorem ofFields_shows {fields : List FieldDecl} (hnodup : (fields.map (·.name)).Nodup) :
    (ofFields fields).Shows ⟨fields⟩ := by
  induction fields using List.reverseRecOn with
  | nil => exact ⟨rfl, rfl, fun _ => rfl, rfl⟩
  | append_singleton fields f ih =>
      rw [List.map_append, List.map_singleton, ← List.concat_eq_append, List.nodup_concat] at hnodup
      rw [ofFields_concat]
      exact (ih hnodup.2).add hnodup.1

end SlotTable

/-- The layout gives the fields of a schema their slots, in the order of their declaration. -/
structure Schema.LaidOut (s : Schema) (l : Layout) : Prop where
  inputs : ∀ k, l.field? (.input k) = s.publicFields[k]?
  secrets : ∀ k, l.field? (.secret k) = s.secretFields[k]?
  /-- The field in the slot of a name has the name. -/
  slot_iff : ∀ name slot, l.slot? name = some slot ↔ ∃ f, l.field? slot = some f ∧ f.name = name
  /-- Just the declared names have slots. -/
  declared_iff : ∀ name, (∃ slot, l.slot? name = some slot) ↔ name ∈ s.fields.map (·.name)
  /-- A slot has one name. -/
  injective : ∀ name name' slot, l.slot? name = some slot → l.slot? name' = some slot → name = name'
  surjective : ∀ slot, l.HasSlot slot → ∃ name, l.slot? name = some slot
  /-- A field follows those of its visibility that are declared before it. -/
  follows : ∀ n f, s.fields[n]? = some f →
    l.slot? f.name = some (Layout.slotAfter (s.fields.take n) f) ∧
      l.declared[n]? = some (Layout.slotAfter (s.fields.take n) f)
  /-- Every slot is declared once. -/
  declared_nodup : l.declared.Nodup
  mem_declared_iff : ∀ slot, slot ∈ l.declared ↔ l.HasSlot slot
  /-- Filling in a table field by field comes to the same slots. -/
  table : (SlotTable.ofFields s.fields).Shows l

theorem Schema.WellFormed.laidOut {s : Schema} (hs : s.WellFormed) : s.LaidOut ⟨s.fields⟩ where
  inputs _ := rfl
  secrets _ := rfl
  slot_iff _ _ := Layout.slot?_eq_some_iff hs.nodup
  declared_iff _ := Layout.exists_slot?_iff hs.nodup
  injective name name' slot h h' := by
    obtain ⟨f, hf, rfl⟩ := (Layout.slot?_eq_some_iff hs.nodup).1 h
    obtain ⟨f', hf', rfl⟩ := (Layout.slot?_eq_some_iff hs.nodup).1 h'
    rw [Option.some.inj (hf.symm.trans hf')]
  surjective slot hslot := by
    obtain ⟨f, hf⟩ := Layout.exists_field? hslot
    exact ⟨f.name, Layout.slot?_of_field? hs.nodup hf⟩
  follows n f hf := by
    have hslot := Layout.getElem?_slots (l := ⟨s.fields⟩) hf
    have hfield := Layout.field?_of_mem_slots (List.mem_of_getElem? hslot)
    refine ⟨Layout.slot?_of_field? hs.nodup hfield, ?_⟩
    rw [Layout.declared, List.getElem?_map, hslot]
    rfl
  declared_nodup := Layout.declared_nodup hs.nodup
  mem_declared_iff _ := Layout.mem_declared_iff hs.nodup
  table := SlotTable.ofFields_shows hs.nodup

/-- The slots that a term reads. -/
def Term.slots : Term → List Slot
  | .slot s => [s]
  | .constant _ => []

/-- The slots of a date, the year first. -/
def DateSlots.slots (d : DateSlots) : List Slot := [d.year, d.month, d.day]

/-- The slots that a rule reads. -/
def Rule.slots : Rule → List Slot
  | .range s _ _ => [s]
  | .compare left _ right => left :: right.slots
  | .age birth current _ => birth.slots ++ current.slots

theorem Rule.Admissible.hasSlot {l : Layout} {r : Rule} (hr : r.Admissible l) :
    ∀ slot ∈ r.slots, l.HasSlot slot := by
  cases r with
  | range s min max => exact fun slot hslot => List.mem_singleton.1 hslot ▸ hr.1
  | compare left c right =>
      cases right with
      | slot s => exact List.forall_mem_cons.2 ⟨hr.1, fun slot hslot => List.mem_singleton.1 hslot ▸ hr.2⟩
      | constant k => exact fun slot hslot => List.mem_singleton.1 hslot ▸ hr.1
  | age birth current minAge =>
      obtain ⟨⟨hyear, hmonth, hday⟩, hyear', hmonth', hday'⟩ := hr
      simp only [slots, DateSlots.slots, List.forall_mem_append, List.forall_mem_cons]
      exact ⟨⟨hyear, hmonth, hday, fun _ h => absurd h List.not_mem_nil⟩, hyear', hmonth', hday',
        fun _ h => absurd h List.not_mem_nil⟩

/-- What is allocated for a slot: the value of its variable, if there is any. -/
def CircuitInstance.allocated? (i : CircuitInstance) : Slot → Option (Option Scalar)
  | .input k => i.slotValues.1[k]?
  | .secret k => i.slotValues.2[k]?

/-- The system has the variable. -/
def ConstraintSystem.HasVariable (sys : ConstraintSystem) : Variable → Prop
  | .one => True
  | .input i => i < sys.inputs
  | .witness i => i < sys.witnesses

theorem CircuitInstance.exists_allocated? {i : CircuitInstance} {slot : Slot}
    (hslot : i.circuit.layout.HasSlot slot) (hfits : ∀ a ∈ i.values, i.circuit.layout.Fits a) :
    ∃ v, i.allocated? slot = some v := by
  obtain ⟨hinputs, hsecrets⟩ := length_slotValues hfits
  cases slot with
  | input k => exact ⟨_, List.getElem?_eq_getElem (hinputs ▸ hslot)⟩
  | secret k => exact ⟨_, List.getElem?_eq_getElem (hsecrets ▸ hslot)⟩

namespace Circuit

theorem hasVariable_systemOf {c : Circuit} {slot : Slot} (hslot : c.layout.HasSlot slot)
    (f : Fragment) : (c.systemOf f).HasVariable slot.variable := by
  cases slot with
  | input k => exact hslot
  | secret k => exact Nat.lt_add_right _ hslot

/-- Whatever the rules of a circuit read is there: the field of the slot, what is allocated for it in any
instance of the circuit, and its variable in the system. -/
structure ReadsWithin (c : Circuit) : Prop where
  fields : ∀ r ∈ c.plan, ∀ slot ∈ r.rule.slots, ∃ f, c.layout.field? slot = some f
  allocated : ∀ r ∈ c.plan, ∀ slot ∈ r.rule.slots, ∀ i : CircuitInstance, i.circuit = c →
    (∀ a ∈ i.values, c.layout.Fits a) → ∃ v, i.allocated? slot = some v
  /-- The values that an instance is assigned fit it. -/
  fits : ∀ values a, c.assign values = .ok a → c.layout.Fits a
  inSystem : ∃ sys, c.system = .ok sys ∧ ∀ r ∈ c.plan, ∀ slot ∈ r.rule.slots,
    sys.HasVariable slot.variable

theorem readsWithin {s : Schema} {c : Circuit} (hs : s.WellFormed) (hc : compile s = .ok c) :
    c.ReadsWithin := by
  have hplan := plan_admissible hs hc
  have hslots (r : PlannedRule) (hr : r ∈ c.plan) := (hplan r hr).hasSlot
  obtain ⟨f, hrun, -⟩ := exists_emission hplan
  constructor
  · exact fun r hr slot hslot => Layout.exists_field? (hslots r hr slot hslot)
  · rintro r hr slot hslot i rfl hfits
    exact CircuitInstance.exists_allocated? (hslots r hr slot hslot) hfits
  · exact fun values a ha => fits_of_assign ha
  · refine ⟨c.systemOf f, ?_, fun r hr slot hslot => ?_⟩
    · rw [system, fragmentOf, hrun]
      rfl
    · exact hasVariable_systemOf (hslots r hr slot hslot) f

/-- The slots of an accepted schema are a bijection of its names that follows their declaration, and its
plan reads no others.  The slots of the public fields are those of any schema with the same public
fields, however its secret ones are declared, and likewise for the secret fields. -/
theorem slots_followDeclaration {document : Bytes} {s : Schema}
    (hs : Schema.parseBytes document = .ok s) :
    s.LaidOut ⟨s.fields⟩ ∧
    (∀ c, compile s = .ok c → s.LaidOut c.layout ∧ c.ReadsWithin) ∧
    ∀ document' s', Schema.parseBytes document' = .ok s' →
      (s'.publicFields.map (·.name) = s.publicFields.map (·.name) → ∀ name k,
        Layout.slot? ⟨s'.fields⟩ name = some (.input k) ↔
          Layout.slot? ⟨s.fields⟩ name = some (.input k)) ∧
      (s'.secretFields.map (·.name) = s.secretFields.map (·.name) → ∀ name k,
        Layout.slot? ⟨s'.fields⟩ name = some (.secret k) ↔
          Layout.slot? ⟨s.fields⟩ name = some (.secret k)) := by
  have hwell := Schema.parseBytes_wellFormed hs
  refine ⟨hwell.laidOut, fun c hc => ?_, fun document' s' hs' => ?_⟩
  · rw [(compile_spec hc).1]
    exact ⟨hwell.laidOut, readsWithin hwell hc⟩
  · have hwell' := Schema.parseBytes_wellFormed hs'
    constructor
    · intro hpublic name k
      rw [Layout.slot?_input_iff hwell'.nodup, Layout.slot?_input_iff hwell.nodup]
      exact Iff.of_eq (congrArg (fun names => names[k]? = some name) hpublic)
    · intro hsecret name k
      rw [Layout.slot?_secret_iff hwell'.nodup, Layout.slot?_secret_iff hwell.nodup]
      exact Iff.of_eq (congrArg (fun names => names[k]? = some name) hsecret)

/-- The text of a schema whose public fields stand between secret ones. -/
def interleavedText : String :=
  "\x7b\"fields\":[\x7b\"name\":\"score\",\"type\":\"integer\"\x7d," ++
  "\x7b\"name\":\"limit\",\"type\":\"integer\",\"public\":true\x7d," ++
  "\x7b\"name\":\"country\"\x7d," ++
  "\x7b\"name\":\"floor\",\"type\":\"integer\",\"public\":true\x7d],\"constraints\":[" ++
  "\x7b\"type\":\"comparison\",\"fields\":[\"score\",\"floor\"],\"operator\":\"ge\"\x7d," ++
  "\x7b\"type\":\"comparison\",\"fields\":[\"country\"],\"operator\":\"eq\",\"value\":\"NL\"\x7d]\x7d"

/-- The text of a schema with the same public fields among other secret ones. -/
def rearrangedText : String :=
  "\x7b\"fields\":[\x7b\"name\":\"limit\",\"type\":\"integer\",\"public\":true\x7d," ++
  "\x7b\"name\":\"nick\"\x7d,\x7b\"name\":\"age\"\x7d," ++
  "\x7b\"name\":\"floor\",\"type\":\"integer\",\"public\":true\x7d," ++
  "\x7b\"name\":\"score\",\"type\":\"integer\"\x7d]\x7d"

theorem slots_followDeclaration_interleaved :
    ∃ (s s' : Schema) (c : Circuit), Schema.parse interleavedText = .ok s ∧
      Schema.parse rearrangedText = .ok s' ∧ compile s = .ok c ∧
      s.LaidOut c.layout ∧ c.ReadsWithin ∧ c.plan.flatMap (·.rule.slots) =
        [.secret 0, .input 1, .secret 1] ∧
      Layout.slot? ⟨s'.fields⟩ "floor" = some (.input 1) := by
  have hrun : compilesWith interleavedText (fun s c =>
      decide (c.plan.flatMap (·.rule.slots) = [.secret 0, .input 1, .secret 1] ∧
        Layout.slot? ⟨s.fields⟩ "floor" = some (.input 1) ∧
        s.publicFields.map (·.name) = ["limit", "floor"])) = true := by
    decide +kernel
  have hother : (Schema.parse rearrangedText).toOption.map (·.publicFields.map (·.name)) =
      some ["limit", "floor"] := by
    decide +kernel
  obtain ⟨s, c, hs, hc, hfacts⟩ := exists_of_compilesWith hrun
  obtain ⟨hslots, hfloor, hpublic⟩ := of_decide_eq_true hfacts
  obtain ⟨s', hs', hpublic'⟩ := Option.map_eq_some_iff.1 hother
  have hs' : Schema.parse rearrangedText = .ok s' := Outcome.of_toOption hs'
  obtain ⟨-, hcompiled, hothers⟩ := slots_followDeclaration hs
  obtain ⟨hlaid, hreads⟩ := hcompiled c hc
  have hkept := (hothers _ s' hs').1 (hpublic'.trans hpublic.symm)
  exact ⟨s, s', c, hs, hs', hc, hlaid, hreads, hslots, (hkept "floor" 1).2 hfloor⟩

end Circuit
end PrivatePresentation
