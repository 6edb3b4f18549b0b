import PrivatePresentation.Proofs.Circuit.Plan

/-!
Soundness and completeness of circuits.  The rows of a circuit can be satisfied by some choice of the
further witnesses exactly if the rules hold of the values in the slots, and if they do, the hints find
such a choice.
-/

namespace PrivatePresentation

/-- The values of all variables, from those in the slots and those of the further witnesses. -/
def Assignment.extended (a : Assignment) (further : List Scalar) : Valuation :=
  ⟨a.inputs.toArray, (a.secrets ++ further).toArray⟩

theorem Layout.slotValue_extended {l : Layout} {a : Assignment} (ha : l.Fits a)
    (further : List Scalar) {s : Slot} (hs : l.HasSlot s) :
    Circuit.slotValue (a.extended further).get s = a.value s := by
  cases s with
  | input i => simp [Circuit.slotValue, Slot.variable, Valuation.get, Assignment.extended,
      Assignment.value]
  | secret i =>
      have hi : i < a.secrets.length := by
        rw [ha.secrets]
        exact hs
      simp [Circuit.slotValue, Slot.variable, Valuation.get, Assignment.extended,
        Assignment.value, List.getElem?_append_left hi]

/-- A rule reads nothing but its slots. -/
theorem Rule.holds_congr {l : Layout} {r : Rule} {v w : Slot → Scalar} (hr : r.Admissible l)
    (hvw : ∀ s, l.HasSlot s → v s = w s) : r.Holds v ↔ r.Holds w := by
  cases r with
  | range s min max => rw [Holds, Holds, hvw s hr.1]
  | compare left c right =>
      have hright : right.value v = right.value w := by
        cases right with
        | slot s => exact hvw s hr.2
        | constant k => rfl
      rw [Holds, Holds, hvw left hr.1, hright]
  | age birth current minAge =>
      obtain ⟨⟨hyear, hmonth, hday⟩, hyear', hmonth', hday'⟩ := hr
      simp only [Holds, DateSlots.values, hvw _ hyear, hvw _ hmonth, hvw _ hday, hvw _ hyear',
        hvw _ hmonth', hvw _ hday']

namespace Circuit

/-- Following hints that read only what stands before them adds one witness for each, of the value
that its hint has in the end. -/
theorem follow_spec (inputs : List Scalar) {hints : List Hint} {witnesses : List Scalar}
    (hordered : OrderedFrom witnesses.length hints) :
    ∃ further : List Scalar, further.length = hints.length ∧
      follow inputs.toArray hints witnesses.toArray = (witnesses ++ further).toArray ∧
      HonestFrom (Valuation.get ⟨inputs.toArray, (witnesses ++ further).toArray⟩)
        witnesses.length hints := by
  induction hints generalizing witnesses with
  | nil => exact ⟨[], rfl, by simp [follow], trivial⟩
  | cons h rest ih =>
      let x := h.eval (Valuation.get ⟨inputs.toArray, witnesses.toArray⟩)
      have hlength : (witnesses ++ [x]).length = witnesses.length + 1 := by simp
      have hrest : OrderedFrom (witnesses ++ [x]).length rest := by
        rw [hlength]
        exact hordered.2
      obtain ⟨further, hcount, hfollow, hhonest⟩ := ih hrest
      have hall : witnesses ++ [x] ++ further = witnesses ++ x :: further := by simp
      rw [hall] at hfollow hhonest
      refine ⟨x :: further, by simp [hcount], ?_, ?_, ?_⟩
      · rw [follow, List.push_toArray]
        exact hfollow
      · have hvalue : Valuation.get ⟨inputs.toArray, (witnesses ++ x :: further).toArray⟩
            (.witness witnesses.length) = x := by simp [Valuation.get]
        rw [hvalue]
        refine Hint.eval_congr hordered.1 fun y hy => ?_
        cases y with
        | one => rfl
        | input i => rfl
        | witness i =>
            have hi : i < witnesses.length := hy
            simp [Valuation.get, List.getElem?_append_left hi]
      · rwa [hlength] at hhonest

section Fragments

variable {c : Circuit} {rules : List PlannedRule} {a : Assignment}

/-- The fragment of some rules is satisfied by some further witnesses, and then by those that its hints
find, exactly if the rules hold. -/
theorem fragmentOf_spec (hadmissible : ∀ r ∈ rules, r.rule.Admissible c.layout)
    (ha : c.layout.Fits a) :
    ∃ f, c.fragmentOf rules = .ok f ∧
      (∀ further, f.Satisfied (a.extended further).get → ∀ r ∈ rules, r.rule.Holds a.value) ∧
      ∃ further, further.length = f.hints.length ∧ valuation a f = a.extended further ∧
        ((∀ r ∈ rules, r.rule.Holds a.value) → f.Satisfied (a.extended further).get) := by
  have hdemands := emitRules_demands hadmissible (Nat.le_refl c.layout.secretFields.length)
    fun (v : Variable → Scalar) (hv : v .one = 1) => hv
  obtain ⟨⟨⟩, f, hrun, hbrings⟩ := hdemands
  have hrules (further : List Scalar) :
      (∀ r ∈ rules, r.rule.Holds (slotValue (a.extended further).get)) ↔
        ∀ r ∈ rules, r.rule.Holds a.value := by
    refine forall_congr' fun r => imp_congr_right fun hr => ?_
    exact Rule.holds_congr (hadmissible r hr) fun s hs => Layout.slotValue_extended ha further hs
  have hordered := hbrings.ordered
  rw [← ha.secrets] at hordered
  obtain ⟨further, hcount, hfollow, hhonest⟩ := follow_spec a.inputs hordered
  rw [ha.secrets] at hhonest
  refine ⟨f, by rw [fragmentOf, hrun]; rfl, ?_, further, hcount, ?_, ?_⟩
  · intro further hsat
    exact (hrules further).1 (hbrings.sound _ rfl hsat).1
  · rw [valuation, hfollow]
    rfl
  · intro hholds
    exact (hbrings.complete _ rfl hhonest).2 ((hrules further).2 hholds)

theorem holds_systemOf {f : Fragment} {v : Variable → Scalar} :
    (c.systemOf f).holds v = true ↔ f.Satisfied v := by
  rw [ConstraintSystem.holds, List.all_eq_true]
  rfl

/-- An assigned circuit tells of any of its rules whether they hold. -/
theorem satisfies_spec {i : CircuitInstance} (hvalues : i.values = some a)
    (hadmissible : ∀ r ∈ rules, r.rule.Admissible i.circuit.layout)
    (ha : i.circuit.layout.Fits a) :
    ∃ answer, i.satisfies rules = .ok answer ∧
      (answer = true ↔ ∀ r ∈ rules, r.rule.Holds a.value) := by
  obtain ⟨f, hf, hsound, further, -, hvaluation, hcomplete⟩ := fragmentOf_spec hadmissible ha
  refine ⟨(i.circuit.systemOf f).holds (valuation a f).get, ?_, ?_⟩
  · rw [CircuitInstance.satisfies, hvalues, hf]
    rfl
  · rw [holds_systemOf, hvaluation]
    exact ⟨hsound further, hcomplete⟩

end Fragments

/-- The system of a compiled schema is sound and complete: whatever residues are in the slots, there
are further witnesses that satisfy every row exactly if every rule holds of the representatives. -/
theorem satisfiable_iff {document : Bytes} {s : Schema} {c : Circuit} {a : Assignment}
    (hs : Schema.parseBytes document = .ok s) (hc : compile s = .ok c) (ha : c.layout.Fits a) :
    ∃ system, c.system = .ok system ∧
      ((∃ further : List Scalar, a.secrets.length + further.length = system.witnesses ∧
          system.holds (a.extended further).get = true) ↔
        ∀ r ∈ c.plan, r.rule.Holds a.value) := by
  have hadmissible := plan_admissible (Schema.parseBytes_wellFormed hs) hc
  obtain ⟨f, hf, hsound, further, hcount, -, hcomplete⟩ := fragmentOf_spec hadmissible ha
  refine ⟨c.systemOf f, by rw [system, hf]; rfl, ?_, ?_⟩
  · rintro ⟨further, -, hholds⟩
    exact hsound further (holds_systemOf.1 hholds)
  · intro hrules
    refine ⟨further, ?_, holds_systemOf.2 (hcomplete hrules)⟩
    rw [ha.secrets, hcount]
    rfl

/-- The text of a schema with one month. -/
def monthText : String :=
  "\x7b\"fields\":[\x7b\"name\":\"month\",\"type\":\"integer\"\x7d],\"constraints\":" ++
  "[\x7b\"type\":\"range_check\",\"fields\":[\"month\"],\"value\":[1,12]\x7d]\x7d"

/-- A residue that is far from every month is in the slot of the month. -/
theorem satisfiable_iff_month :
    ∃ s c, Schema.parse monthText = .ok s ∧ compile s = .ok c ∧
      ∃ system, c.system = .ok system ∧
        ((∃ further : List Scalar, 1 + further.length = system.witnesses ∧
            system.holds (Assignment.extended ⟨[], [-1]⟩ further).get = true) ↔
          ∀ r ∈ c.plan, r.rule.Holds (Assignment.value ⟨[], [-1]⟩)) := by
  have hrun : compilesWith monthText (fun _ c =>
      c.layout.publicFields.length == 0 && c.layout.secretFields.length == 1) = true := by
    decide +kernel
  obtain ⟨s, c, hs, hc, hcounts⟩ := exists_of_compilesWith hrun
  rw [Bool.and_eq_true, beq_iff_eq, beq_iff_eq] at hcounts
  have hfits : c.layout.Fits ⟨[], [-1]⟩ := ⟨hcounts.1.symm, hcounts.2.symm⟩
  exact ⟨s, c, hs, hc, satisfiable_iff hs hc hfits⟩

end Circuit
end PrivatePresentation
