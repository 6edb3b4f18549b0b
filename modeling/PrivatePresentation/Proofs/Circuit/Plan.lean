import PrivatePresentation.Proofs.Circuit.Rule
import PrivatePresentation.Proofs.Schema.WellFormed

/-!
The plan of an accepted schema.  Each constraint has one rule, in order, and the rule can be laid on
the slots.
-/

namespace PrivatePresentation

namespace Layout

variable {l : Layout} {name : String} {s : Slot}

theorem slot?_of_require (hs : l.require name = .ok s) : l.slot? name = some s := by
  unfold require at hs
  split at hs
  · rename_i t ht
    obtain rfl := Except.ok.inj hs
    exact ht
  · exact nomatch hs

theorem hasSlot_of_require (hs : l.require name = .ok s) : l.HasSlot s := by
  obtain ⟨f, -, hf⟩ := findField_of_slot? (slot?_of_require hs)
  exact hasSlot_of_field? hf

end Layout

namespace Circuit

variable {l : Layout}

theorem dateSlots_spec {d : DateFields} {slots : DateSlots} (hd : dateSlots l d = .ok slots) :
    l.require d.year = .ok slots.year ∧ l.require d.month = .ok slots.month ∧
      l.require d.day = .ok slots.day := by
  unfold dateSlots at hd
  obtain ⟨year, hyear, hd⟩ := Outcome.of_bind hd
  obtain ⟨month, hmonth, hd⟩ := Outcome.of_bind hd
  obtain ⟨day, hday, hd⟩ := Outcome.of_bind hd
  obtain rfl := Except.ok.inj hd
  exact ⟨hyear, hmonth, hday⟩

/-- An integer of 64 bits without a sign bit is the representative of its residue, and can be
ordered. -/
theorem val_ofNat_toNat {n : Int} (hn : Json.FitsSigned n) : (Scalar.ofNat n.toNat).val = n.toNat := by
  have horder := Scalar.two_pow_lt_order
  have hmax := hn.2
  rw [Json.maxSigned] at hmax
  exact Scalar.val_ofNat_of_lt (by omega)

theorem inDomain_ofNat_toNat {n : Int} (hn : Json.FitsSigned n) :
    (Scalar.ofNat n.toNat).InDomain := by
  have hmax := hn.2
  rw [Json.maxSigned] at hmax
  rw [Scalar.InDomain, val_ofNat_toNat hn, Gadget.width]
  omega

theorem compileOperand_admissible {f : FieldDecl} {left : String} {right : Operand} {t : Term}
    {s : Slot} {c : Comparator} (hs : l.HasSlot s)
    (hequality : f.type.isHashed = true → c.isEquality = true) (hright : right.Suits l.fields f)
    (ht : compileOperand l left right = .ok t) : Rule.Admissible l (.compare s c t) := by
  unfold compileOperand at ht
  split at ht
  · obtain ⟨slot, hslot, ht⟩ := Outcome.of_bind ht
    obtain rfl := Except.ok.inj ht
    exact ⟨hs, Layout.hasSlot_of_require hslot⟩
  · obtain rfl := Except.ok.inj ht
    refine ⟨hs, fun hc => ?_⟩
    rw [hequality hright] at hc
    exact nomatch hc
  · obtain ⟨-, ht⟩ := Outcome.of_guard ht
    obtain rfl := Except.ok.inj ht
    exact ⟨hs, fun _ => inDomain_ofNat_toNat hright.2⟩

theorem compileDemand_admissible {d : Demand} {r : Rule} (hd : d.WellFormed l.fields)
    (hr : compileDemand l d = .ok r) : r.Admissible l := by
  cases d with
  | range name min max =>
      obtain ⟨-, hle, hmin, hmax⟩ := hd
      obtain ⟨slot, hslot, hr⟩ := Outcome.of_bind hr
      obtain ⟨-, hr⟩ := Outcome.of_guard hr
      obtain ⟨-, hr⟩ := Outcome.of_guard hr
      obtain rfl := Except.ok.inj hr
      refine ⟨Layout.hasSlot_of_require hslot, ?_, inDomain_ofNat_toNat hmax⟩
      rw [val_ofNat_toNat hmin, val_ofNat_toNat hmax]
      exact Int.toNat_le_toNat hle
  | comparison left c right =>
      obtain ⟨f, -, hequality, hright⟩ := hd
      obtain ⟨slot, hslot, hr⟩ := Outcome.of_bind hr
      obtain ⟨t, ht, hr⟩ := Outcome.of_bind hr
      obtain rfl := Except.ok.inj hr
      exact compileOperand_admissible (Layout.hasSlot_of_require hslot) hequality hright ht
  | age birth current minAge upgraded =>
      obtain ⟨birthSlots, hbirth, hr⟩ := Outcome.of_bind hr
      obtain ⟨currentSlots, hcurrent, hr⟩ := Outcome.of_bind hr
      obtain rfl := Except.ok.inj hr
      obtain ⟨hyear, hmonth, hday⟩ := dateSlots_spec hbirth
      obtain ⟨hyear', hmonth', hday'⟩ := dateSlots_spec hcurrent
      exact ⟨⟨Layout.hasSlot_of_require hyear, Layout.hasSlot_of_require hmonth,
        Layout.hasSlot_of_require hday⟩, Layout.hasSlot_of_require hyear',
        Layout.hasSlot_of_require hmonth', Layout.hasSlot_of_require hday'⟩

theorem compilePlan_eq_mapM (l : Layout) (constraints : List Constraint) :
    compilePlan l constraints = constraints.mapM fun d =>
      (compileDemand l d.demand).map fun rule => (⟨label d, rule⟩ : PlannedRule) := by
  induction constraints with
  | nil => rfl
  | cons d rest ih =>
      rw [compilePlan, List.mapM_cons, ih]
      cases compileDemand l d.demand with
      | error e => rfl
      | ok rule => rfl

/-- The rules of a plan are those of the constraints, in order. -/
theorem compilePlan_spec {constraints : List Constraint} {plan : List PlannedRule}
    (hplan : compilePlan l constraints = .ok plan) :
    List.Forall₂ (fun c r => r.label = label c ∧ compileDemand l c.demand = .ok r.rule)
      constraints plan := by
  rw [compilePlan_eq_mapM, Outcome.mapM_eq_ok_iff] at hplan
  refine hplan.imp fun c r hr => ?_
  obtain ⟨rule, hrule, rfl⟩ := Outcome.of_map hr
  exact ⟨rfl, hrule⟩

theorem compile_spec {s : Schema} {c : Circuit} (hc : compile s = .ok c) :
    c.layout = ⟨s.fields⟩ ∧
      List.Forall₂ (fun d r => r.label = label d ∧ compileDemand c.layout d.demand = .ok r.rule)
        s.constraints c.plan := by
  unfold compile at hc
  obtain ⟨fingerprint, -, hc⟩ := Outcome.of_bind hc
  obtain ⟨plan, hplan, hc⟩ := Outcome.of_bind hc
  obtain rfl := Except.ok.inj hc
  exact ⟨rfl, compilePlan_spec hplan⟩

/-- What holds of each constraint just if it does of its rule holds of all constraints just if it does
of the whole plan. -/
theorem forall_plan_iff {s : Schema} {c : Circuit} (hc : compile s = .ok c) {p : Constraint → Prop}
    {q : PlannedRule → Prop}
    (hpq : ∀ d ∈ s.constraints, ∀ r, compileDemand c.layout d.demand = .ok r.rule → (p d ↔ q r)) :
    (∀ r ∈ c.plan, q r) ↔ ∀ d ∈ s.constraints, p d := by
  have hplan := (compile_spec hc).2
  generalize s.constraints = constraints at hplan hpq ⊢
  generalize c.plan = plan at hplan ⊢
  induction hplan with
  | nil => simp only [List.not_mem_nil, false_implies, implies_true]
  | cons hhead _ ih =>
      rw [List.forall_mem_cons] at hpq
      rw [List.forall_mem_cons, List.forall_mem_cons]
      exact and_congr (hpq.1 _ hhead.2).symm (ih hpq.2)

/-- Every rule of a compiled schema can be laid on its slots. -/
theorem plan_admissible {s : Schema} {c : Circuit} (hs : s.WellFormed) (hc : compile s = .ok c) :
    ∀ r ∈ c.plan, r.rule.Admissible c.layout := by
  refine (forall_plan_iff hc (p := fun _ => True) fun d hd r hr => ?_).2 fun _ _ => trivial
  refine iff_of_true trivial (compileDemand_admissible ?_ hr)
  rw [(compile_spec hc).1]
  exact hs.demands d hd

/-- A text is a schema that compiles, and the two have some property; on closed texts this can be
evaluated. -/
def compilesWith (text : String) (p : Schema → Circuit → Bool) : Bool :=
  match Schema.parse text with
  | .ok s =>
    match compile s with
    | .ok c => p s c
    | .error _ => false
  | .error _ => false

theorem exists_of_compilesWith {text : String} {p : Schema → Circuit → Bool}
    (h : compilesWith text p = true) :
    ∃ s c, Schema.parse text = .ok s ∧ compile s = .ok c ∧ p s c = true := by
  unfold compilesWith at h
  split at h
  · rename_i s hs
    split at h
    · rename_i c hc
      exact ⟨s, c, hs, hc, h⟩
    · exact nomatch h
  · exact nomatch h

end Circuit
end PrivatePresentation
