import PrivatePresentation.Proofs.Circuit.Gadget
import PrivatePresentation.Proofs.Circuit.Layout

/-!
What a rule demands of the values in the slots, told of their representatives, and the proof that what
a rule emits demands just that.
-/

namespace PrivatePresentation

open scoped Fin.CommRing

/-- How two residues compare; only those in the domain have an order. -/
def Comparator.Holds (c : Comparator) (a b : Scalar) : Prop :=
  match c with
  | .greaterEqual => a.InDomain ∧ b.InDomain ∧ b.val ≤ a.val
  | .greaterThan => a.InDomain ∧ b.InDomain ∧ b.val < a.val
  | .lessEqual => a.InDomain ∧ b.InDomain ∧ a.val ≤ b.val
  | .lessThan => a.InDomain ∧ b.InDomain ∧ a.val < b.val
  | .equal => a = b
  | .notEqual => a ≠ b

/-- The value of a term. -/
def Term.value (value : Slot → Scalar) : Term → Scalar
  | .slot s => value s
  | .constant c => c

/-- A date in residues. -/
structure DateValues where
  year : Scalar
  month : Scalar
  day : Scalar

/-- The date in some slots. -/
def DateSlots.values (d : DateSlots) (value : Slot → Scalar) : DateValues :=
  ⟨value d.year, value d.month, value d.day⟩

/-- The last year of birth that is early enough.  It is a difference of residues, so it wraps around if
the current year is too small. -/
def DateValues.lastYear (current : DateValues) (minAge : Scalar) : Scalar := current.year - minAge

/-- Whoever is born on a date has come of age on the current one. -/
def DateValues.OfAge (birth current : DateValues) (minAge : Scalar) : Prop :=
  birth.year.InDomain ∧
    birth.year.val ≤ (current.lastYear minAge).val ∧
    (current.lastYear minAge).val < birth.year.val + 2 ^ Gadget.width ∧
    1 ≤ birth.month.val ∧ birth.month.val ≤ 12 ∧
    1 ≤ birth.day.val ∧ birth.day.val ≤ 31 ∧
    (birth.year.val = (current.lastYear minAge).val →
      birth.month.val ≤ current.month.val ∧
        current.month.val < birth.month.val + 2 ^ Gadget.width ∧
      (birth.month.val = current.month.val →
        birth.day.val ≤ current.day.val ∧
          current.day.val < birth.day.val + 2 ^ Gadget.width))

/-- The rule holds of the values in the slots. -/
def Rule.Holds (value : Slot → Scalar) : Rule → Prop
  | .range s min max => min.val ≤ (value s).val ∧ (value s).val ≤ max.val
  | .compare left c right => c.Holds (value left) (right.value value)
  | .age birth current minAge => (birth.values value).OfAge (current.values value) minAge

/-- What compilation guarantees of a rule: its slots exist, its bounds are ordered, and a constant that
is to be ordered can be. -/
def Rule.Admissible (l : Layout) : Rule → Prop
  | .range s min max => l.HasSlot s ∧ min.val ≤ max.val ∧ max.InDomain
  | .compare left c right =>
    l.HasSlot left ∧
      match right with
      | .slot s => l.HasSlot s
      | .constant k => c.isEquality = false → k.InDomain
  | .age birth current _ =>
    (l.HasSlot birth.year ∧ l.HasSlot birth.month ∧ l.HasSlot birth.day) ∧
      l.HasSlot current.year ∧ l.HasSlot current.month ∧ l.HasSlot current.day

namespace Scalar

/-- A difference is in the domain exactly if it does not wrap around and is small, or wraps around by
much less than the order. -/
theorem inDomain_sub_iff (a b : Scalar) :
    (b - a).InDomain ↔
      (a.val ≤ b.val ∧ b.val < a.val + 2 ^ Gadget.width) ∨
        b.val + scalarOrder < a.val + 2 ^ Gadget.width := by
  have ha := a.isLt
  have hb := b.isLt
  rw [InDomain, val_sub]
  split <;> omega

/-- Among values in the domain nothing wraps around. -/
theorem inDomain_sub_iff_le {a b : Scalar} (ha : a.InDomain) (hb : b.InDomain) :
    (b - a).InDomain ↔ a.val ≤ b.val := by
  have horder := two_pow_lt_order
  rw [inDomain_sub_iff]
  simp only [InDomain, Gadget.width] at ha hb ⊢
  omega

theorem inDomain_sub_succ_iff {a b : Scalar} (ha : a.InDomain) (hb : b.InDomain) :
    (b - (a + 1)).InDomain ↔ a.val < b.val := by
  have horder := two_pow_lt_order
  have hsucc : (a + 1).val = a.val + 1 := by
    simp only [InDomain, Gadget.width] at ha
    have hone : (1 : Scalar).val = 1 := by decide +kernel
    rw [val_add, hone]
    exact Nat.mod_eq_of_lt (by omega)
  rw [inDomain_sub_iff, hsucc]
  simp only [InDomain, Gadget.width] at ha hb ⊢
  omega

/-- Two differences in the domain hold a value between two bounds. -/
theorem between_iff {v min max : Scalar} (hle : min.val ≤ max.val) (hmax : max.InDomain) :
    ((v - min).InDomain ∧ (max - v).InDomain) ↔
      min.val ≤ v.val ∧ v.val ≤ max.val := by
  have horder := two_pow_lt_order
  have hv := v.isLt
  rw [inDomain_sub_iff, inDomain_sub_iff]
  simp only [InDomain, Gadget.width] at hmax ⊢
  omega

/-- A bound on a small value from above by any residue. -/
theorem inDomain_sub_iff_of_small {a : Scalar} (b : Scalar) (ha : a.InDomain) :
    (b - a).InDomain ↔ a.val ≤ b.val ∧ b.val < a.val + 2 ^ Gadget.width := by
  have horder := two_pow_lt_order
  rw [inDomain_sub_iff]
  simp only [InDomain, Gadget.width] at ha ⊢
  omega

end Scalar

namespace DateValues

/-- The choice of a bound on the month of birth. -/
def monthBound (birth current : DateValues) (minAge : Scalar) : Scalar :=
  if birth.year = current.lastYear minAge then current.month else 12

/-- The choice of a bound on the day of birth. -/
def dayBound (birth current : DateValues) (minAge : Scalar) : Scalar :=
  if birth.year = current.lastYear minAge then
    if birth.month = current.month then current.day else 31
  else 31

/-- The differences that are emitted for a minimum age, in order. -/
def Differences (birth current : DateValues) (minAge : Scalar) : Prop :=
  birth.year.InDomain ∧ (current.lastYear minAge - birth.year).InDomain ∧
    (birth.monthBound current minAge - birth.month).InDomain ∧
    (birth.dayBound current minAge - birth.day).InDomain ∧
    (birth.month - 1).InDomain ∧ (12 - birth.month).InDomain ∧
    (birth.day - 1).InDomain ∧ (31 - birth.day).InDomain

/-- In the last year of birth the month is bounded by the current one, in any earlier year only by
twelve, which bounds it anyway; likewise for the day. -/
theorem differences_iff (birth current : DateValues) (minAge : Scalar) :
    birth.Differences current minAge ↔ birth.OfAge current minAge := by
  have htwelve : (12 : Scalar).val = 12 := by decide +kernel
  have hlast : (31 : Scalar).val = 31 := by decide +kernel
  have hone : (1 : Scalar).val = 1 := by decide +kernel
  have hmonth := @Scalar.between_iff birth.month 1 12
    (by omega) (by simp only [Scalar.InDomain, Gadget.width]; omega)
  have hday := @Scalar.between_iff birth.day 1 31
    (by omega) (by simp only [Scalar.InDomain, Gadget.width]; omega)
  have hyear (hdomain : birth.year.InDomain) :=
    Scalar.inDomain_sub_iff_of_small (current.lastYear minAge) hdomain
  have hyears : birth.year = current.lastYear minAge ↔
      birth.year.val = (current.lastYear minAge).val := Fin.ext_iff
  have hmonths : birth.month = current.month ↔ birth.month.val = current.month.val := Fin.ext_iff
  -- Months and days are small once their own bounds hold, so no further difference wraps around.
  have hbounded (small bound : Scalar) (hsmall : small.val ≤ 31) :
      (bound - small).InDomain ↔
        small.val ≤ bound.val ∧ bound.val < small.val + 2 ^ Gadget.width :=
    Scalar.inDomain_sub_iff_of_small bound (by simp only [Scalar.InDomain, Gadget.width]; omega)
  rw [htwelve, hone] at hmonth
  rw [hlast, hone] at hday
  simp only [Differences, OfAge, monthBound, dayBound, hyears, hmonths]
  constructor
  · rintro ⟨hdomain, hle, hmb, hdb, hm₁, hm₂, hd₁, hd₂⟩
    obtain ⟨hmin, hmax⟩ := hmonth.1 ⟨hm₁, hm₂⟩
    obtain ⟨hdmin, hdmax⟩ := hday.1 ⟨hd₁, hd₂⟩
    obtain ⟨hle, hlt⟩ := (hyear hdomain).1 hle
    refine ⟨hdomain, hle, hlt, hmin, hmax, hdmin, hdmax, fun hlastYear => ?_⟩
    rw [if_pos hlastYear, hbounded _ _ (by omega)] at hmb
    refine ⟨hmb.1, hmb.2, fun hlastMonth => ?_⟩
    rwa [if_pos hlastYear, if_pos hlastMonth, hbounded _ _ (by omega)] at hdb
  · rintro ⟨hdomain, hle, hlt, hmin, hmax, hdmin, hdmax, hlastYear⟩
    obtain ⟨hm₁, hm₂⟩ := hmonth.2 ⟨hmin, hmax⟩
    obtain ⟨hd₁, hd₂⟩ := hday.2 ⟨hdmin, hdmax⟩
    refine ⟨hdomain, (hyear hdomain).2 ⟨hle, hlt⟩, ?_, ?_, hm₁, hm₂, hd₁, hd₂⟩
    · split
      · rename_i heq
        exact (hbounded _ _ (by omega)).2 ⟨(hlastYear heq).1, (hlastYear heq).2.1⟩
      · exact hm₂
    · split
      · rename_i heq
        split
        · rename_i heq'
          exact (hbounded _ _ (by omega)).2 ((hlastYear heq).2.2 heq')
        · exact hd₂
      · exact hd₂

end DateValues

namespace Circuit

variable {l : Layout} {next : Nat} {given : (Variable → Scalar) → Prop}

/-- The value that some values of variables put into a slot. -/
def slotValue (v : Variable → Scalar) (s : Slot) : Scalar := v s.variable

theorem eval_wire (v : Variable → Scalar) (s : Slot) : (wire s).eval v = slotValue v s :=
  Combination.eval_var v s.variable

theorem eval_termWire (v : Variable → Scalar) (t : Term) :
    (termWire t).eval v = t.value (slotValue v) := by
  cases t with
  | slot s => exact eval_wire v s
  | constant c => rfl

theorem below_wire {s : Slot} (hs : l.HasSlot s) (hnext : l.secretFields.length ≤ next) :
    Below next (wire s) := by
  apply Combination.below_var
  cases s with
  | input i => trivial
  | secret i => exact Nat.lt_of_lt_of_le hs hnext

/-- An order between two wires in the domain, told by one difference. -/
theorem ordering_demands (holds : Scalar → Scalar → Prop) {a b low high : Wire} (ha : Below next a)
    (hb : Below next b) (hlow : ∀ n, next ≤ n → Below n low) (hhigh : ∀ n, next ≤ n → Below n high)
    (hlinear : low.IsLinear ∨ high.IsLinear) (hone : ∀ v, given v → v .one = 1)
    (hconstant : ∀ c, a = .constant c ∨ b = .constant c → c.InDomain)
    (hholds : ∀ v, given v → (a.eval v).InDomain → (b.eval v).InDomain →
      ((high.eval v - low.eval v).InDomain ↔ holds (a.eval v) (b.eval v))) :
    (Gadget.inDomain a >>= fun _ => Gadget.inDomain b >>= fun _ => Gadget.atMost low high).Demands
      next given fun v =>
        (a.eval v).InDomain ∧ (b.eval v).InDomain ∧ holds (a.eval v) (b.eval v) := by
  have hfirst := Gadget.inDomain_demands ha hone fun c hc => hconstant c (Or.inl hc)
  have hrest (n : Nat) (hn : next ≤ n) :
      (Gadget.inDomain b >>= fun _ => Gadget.atMost low high).Demands n given fun v =>
        (b.eval v).InDomain ∧
          (high.eval v - low.eval v).InDomain := by
    have hsecond := Gadget.inDomain_demands (Bounded.mono hn hb) hone
      fun c hc => hconstant c (Or.inr hc)
    refine hsecond.bind fun n' hn' => ?_
    have hle := Nat.le_trans hn hn'
    exact Gadget.atMost_demands (hlow n' hle) (hhigh n' hle) hlinear hone
  refine (Emit.Demands.bind hfirst hrest).congr fun v hv => ?_
  constructor
  · rintro ⟨hda, hdb, hdiff⟩
    exact ⟨hda, hdb, (hholds v hv hda hdb).1 hdiff⟩
  · rintro ⟨hda, hdb, hrel⟩
    exact ⟨hda, hdb, (hholds v hv hda hdb).2 hrel⟩

theorem emitComparison_demands (c : Comparator) {a b : Wire} (ha : Below next a)
    (hb : Below next b) (hlinear : a.IsLinear) (hone : ∀ v, given v → v .one = 1)
    (hconstant : c.isEquality = false → ∀ k, b = .constant k → k.InDomain) :
    (emitComparison c a b).Demands next given fun v => c.Holds (a.eval v) (b.eval v) := by
  have hnotConstant (k : Scalar) : a ≠ .constant k := by
    rintro rfl
    exact hlinear
  have hconstants (hc : c.isEquality = false) (k : Scalar) (hk : a = .constant k ∨ b = .constant k) :
      k.InDomain := hk.elim (fun h => absurd h (hnotConstant k)) (hconstant hc k)
  have hmono {w : Wire} (hw : Below next w) (n : Nat) (hn : next ≤ n) : Below n w :=
    Bounded.mono hn hw
  have hsucc {w : Wire} (hw : Below next w) : Below next (w.add (.constant 1)) :=
    Wire.below_add hw trivial
  have heval {v : Variable → Scalar} (hv : given v) (w : Wire) :
      (w.add (.constant 1)).eval v = w.eval v + 1 := Wire.eval_add (hone v hv) w (.constant 1)
  cases c with
  | equal => exact Gadget.equal_demands hone
  | notEqual => exact Gadget.notEqual_demands ha hb hone
  | greaterEqual =>
      apply ordering_demands (fun x y => y.val ≤ x.val) ha hb (hmono hb) (hmono ha)
        (Or.inr hlinear) hone (hconstants rfl)
      intro v _ hda hdb
      exact Scalar.inDomain_sub_iff_le hdb hda
  | lessEqual =>
      apply ordering_demands (fun x y => x.val ≤ y.val) ha hb (hmono ha) (hmono hb)
        (Or.inl hlinear) hone (hconstants rfl)
      intro v _ hda hdb
      exact Scalar.inDomain_sub_iff_le hda hdb
  | greaterThan =>
      apply ordering_demands (fun x y => y.val < x.val) ha hb (hmono (hsucc hb)) (hmono ha)
        (Or.inr hlinear) hone (hconstants rfl)
      intro v hv hda hdb
      rw [heval hv]
      exact Scalar.inDomain_sub_succ_iff hdb hda
  | lessThan =>
      apply ordering_demands (fun x y => x.val < y.val) ha hb (hmono (hsucc ha)) (hmono hb)
        (Or.inl (Wire.isLinear_add_left hlinear _)) hone (hconstants rfl)
      intro v hv hda hdb
      rw [heval hv]
      exact Scalar.inDomain_sub_succ_iff hda hdb

section KnownValues

variable {a b : Wire} {x y : (Variable → Scalar) → Scalar}

/-- A difference between wires whose values are known. -/
theorem difference_demands (ha : Below next a) (hb : Below next b)
    (hlinear : a.IsLinear ∨ b.IsLinear) (hone : ∀ v, given v → v .one = 1)
    (hx : ∀ v, given v → a.eval v = x v) (hy : ∀ v, given v → b.eval v = y v) :
    (Gadget.atMost a b).Demands next given fun v => (y v - x v).InDomain :=
  (Gadget.atMost_demands ha hb hlinear hone).congr fun v hv => by rw [hx v hv, hy v hv]

theorem sameness_yields (ha : Below next a) (hb : Below next b) (hone : ∀ v, given v → v .one = 1)
    (hx : ∀ v, given v → a.eval v = x v) (hy : ∀ v, given v → b.eval v = y v) :
    (Gadget.isEqual a b).Meets next given (fun _ => True)
      fun v same => same.eval v = if x v = y v then 1 else 0 := by
  refine (Gadget.isEqual_yields ha hb hone).weaken (fun _ _ => Iff.rfl) ?_
  intro v same hv hsame
  rw [hsame, hx v hv, hy v hv]

/-- A choice between wires whose values are known, by a condition whose meaning is known. -/
theorem choice_yields {condition : Combination} {p : (Variable → Scalar) → Prop}
    [∀ v, Decidable (p v)] (hcondition : Below next condition) (ha : Below next a)
    (hb : Below next b) (hone : ∀ v, given v → v .one = 1)
    (hp : ∀ v, given v → condition.eval v = if p v then 1 else 0)
    (hx : ∀ v, given v → a.eval v = x v) (hy : ∀ v, given v → b.eval v = y v) :
    (Gadget.select condition a b).Meets next given (fun _ => True)
      fun v w => w.eval v = if p v then x v else y v := by
  have hselect := Gadget.select_yields hcondition ha hb hone fun v hv => by
    rw [hp v hv]
    split
    · exact Or.inr rfl
    · exact Or.inl rfl
  refine hselect.weaken (fun _ _ => Iff.rfl) ?_
  intro v w hv hw
  rw [hw, hp v hv, hx v hv, hy v hv]
  split <;> simp

end KnownValues

/-- A slot is bounded by a constant from below. -/
theorem lowBound_demands {s : Slot} (k : Scalar) (hs : l.HasSlot s)
    (hnext : l.secretFields.length ≤ next) (hone : ∀ v, given v → v .one = 1) :
    (Gadget.atMost (.constant k) (wire s)).Demands next given
      fun v => (slotValue v s - k).InDomain :=
  difference_demands trivial (below_wire hs hnext) (Or.inr trivial) hone (fun _ _ => rfl)
    fun v _ => eval_wire v s

/-- A slot is bounded by a constant from above. -/
theorem highBound_demands {s : Slot} (k : Scalar) (hs : l.HasSlot s)
    (hnext : l.secretFields.length ≤ next) (hone : ∀ v, given v → v .one = 1) :
    (Gadget.atMost (wire s) (.constant k)).Demands next given
      fun v => (k - slotValue v s).InDomain :=
  difference_demands (below_wire hs hnext) trivial (Or.inl trivial) hone
    (fun v _ => eval_wire v s) fun _ _ => rfl

/-- The gadgets of a minimum age demand its differences: each choice has been made when the bound that
it makes is used. -/
theorem emitAge_differences {birth current : DateSlots} (minAge : Scalar)
    (hadmissible : Rule.Admissible l (.age birth current minAge))
    (hnext : l.secretFields.length ≤ next) (hone : ∀ v, given v → v .one = 1) :
    (emitAge birth current minAge).Demands next given fun v =>
      (birth.values (slotValue v)).Differences (current.values (slotValue v)) minAge := by
  obtain ⟨⟨hyear, hmonth, hday⟩, hyear', hmonth', hday'⟩ := hadmissible
  have hwire {s : Slot} (hs : l.HasSlot s) {n : Nat} (hn : next ≤ n) : Below n (wire s) :=
    below_wire hs (Nat.le_trans hnext hn)
  have hconstant (n : Nat) (k : Scalar) : Below n (Wire.constant k) := trivial
  have hlast {n : Nat} (hn : next ≤ n) : Below n ((wire current.year).sub (.constant minAge)) :=
    Wire.below_sub (hwire hyear' hn) trivial
  have hlastEval (v : Variable → Scalar) (hv : given v) :
      ((wire current.year).sub (.constant minAge)).eval v =
        (current.values (slotValue v)).lastYear minAge := by
    rw [Wire.eval_sub (hone v hv), eval_wire]
    rfl
  refine Emit.Demands.bind ?_ fun n₁ h₁ => ?_
  · refine (Gadget.inDomain_demands (hwire hyear Nat.le.refl) hone fun c hc => nomatch hc).congr ?_
    intro v _
    rw [eval_wire]
    rfl
  refine Emit.Demands.bind ?_ fun n₂ h₂ => ?_
  · exact difference_demands (hwire hyear h₁) (hlast h₁) (Or.inl trivial) hone
      (fun v _ => eval_wire v birth.year) hlastEval
  replace h₂ := Nat.le_trans h₁ h₂
  apply Emit.Meets.bind_value
    (sameness_yields (hwire hyear h₂) (hlast h₂) hone (fun v _ => eval_wire v birth.year) hlastEval)
  intro sameYear n₃ h₃ hsameYear
  replace h₃ := Nat.le_trans h₂ h₃
  apply Emit.Meets.bind_value
    (choice_yields hsameYear (hwire hmonth' h₃) (hconstant n₃ 12) (fun v hv => hone v hv.1)
      (fun v hv => hv.2) (fun v _ => eval_wire v current.month) (fun v _ => rfl))
  intro monthBound n₄ h₄ hmonthBound
  replace hsameYear := Bounded.mono h₄ hsameYear
  replace h₄ := Nat.le_trans h₃ h₄
  refine Emit.Demands.bind ?_ fun n₅ h₅ => ?_
  · exact difference_demands (hwire hmonth h₄) hmonthBound (Or.inl trivial)
      (fun v hv => hone v hv.1.1) (fun v _ => eval_wire v birth.month) (fun v hv => hv.2)
  replace hsameYear := Bounded.mono h₅ hsameYear
  replace h₅ := Nat.le_trans h₄ h₅
  apply Emit.Meets.bind_value
    (sameness_yields (hwire hmonth h₅) (hwire hmonth' h₅) (fun v hv => hone v hv.1.1)
      (fun v _ => eval_wire v birth.month) (fun v _ => eval_wire v current.month))
  intro sameMonth n₆ h₆ hsameMonth
  replace hsameYear := Bounded.mono h₆ hsameYear
  replace h₆ := Nat.le_trans h₅ h₆
  apply Emit.Meets.bind_value
    (choice_yields hsameMonth (hwire hday' h₆) (hconstant n₆ 31) (fun v hv => hone v hv.1.1.1)
      (fun v hv => hv.2) (fun v _ => eval_wire v current.day) (fun v _ => rfl))
  intro dayInMonth n₇ h₇ hdayInMonth
  replace hsameYear := Bounded.mono h₇ hsameYear
  replace h₇ := Nat.le_trans h₆ h₇
  apply Emit.Meets.bind_value
    (choice_yields hsameYear hdayInMonth (hconstant n₇ 31) (fun v hv => hone v hv.1.1.1.1)
      (fun v hv => hv.1.1.1.2) (fun v hv => hv.2) (fun v _ => rfl))
  intro dayBound n₈ h₈ hdayBound
  replace h₈ := Nat.le_trans h₇ h₈
  refine Emit.Demands.bind ?_ fun n₉ h₉ => ?_
  · exact difference_demands (hwire hday h₈) hdayBound (Or.inl trivial)
      (fun v hv => hone v hv.1.1.1.1.1) (fun v _ => eval_wire v birth.day) (fun v hv => hv.2)
  replace h₉ := Nat.le_trans h₈ h₉
  -- The remaining bounds are fixed, and nothing that was chosen is used of them.
  refine Emit.Meets.assuming ?_ fun v hv => hv.1.1.1.1.1
  have hslots (n : Nat) (hn : next ≤ n) : l.secretFields.length ≤ n := Nat.le_trans hnext hn
  refine Emit.Demands.bind ?_ fun n₁₀ h₁₀ => Emit.Demands.bind ?_ fun n₁₁ h₁₁ =>
    Emit.Demands.bind ?_ fun n₁₂ h₁₂ => ?_
  · exact lowBound_demands 1 hmonth (hslots n₉ h₉) hone
  · exact highBound_demands 12 hmonth (hslots n₁₀ (Nat.le_trans h₉ h₁₀)) hone
  · exact lowBound_demands 1 hday (hslots n₁₁ (by omega)) hone
  · exact highBound_demands 31 hday (hslots n₁₂ (by omega)) hone

/-- What a rule emits demands of the values in the slots just that the rule holds of them. -/
theorem emitRule_demands {r : Rule} (hadmissible : r.Admissible l)
    (hnext : l.secretFields.length ≤ next) (hone : ∀ v, given v → v .one = 1) :
    (emitRule r).Demands next given fun v => r.Holds (slotValue v) := by
  cases r with
  | range s min max =>
      obtain ⟨hs, hle, hmax⟩ := hadmissible
      have hboth : (emitRule (.range s min max)).Demands next given fun v =>
          (slotValue v s - min).InDomain ∧ (max - slotValue v s).InDomain := by
        refine Emit.Demands.bind (lowBound_demands min hs hnext hone) fun n hn => ?_
        exact highBound_demands max hs (Nat.le_trans hnext hn) hone
      exact hboth.congr fun v _ => Scalar.between_iff hle hmax
  | compare left c right =>
      obtain ⟨hleft, hright⟩ := hadmissible
      have hbelow : Below next (termWire right) := by
        cases right with
        | slot s => exact below_wire hright hnext
        | constant k => trivial
      have hdomain (hc : c.isEquality = false) (k : Scalar) (hk : termWire right = .constant k) :
          k.InDomain := by
        cases right with
        | slot s => exact nomatch hk
        | constant k' =>
            obtain rfl : k' = k := Wire.constant.inj hk
            exact hright hc
      refine (emitComparison_demands c (below_wire hleft hnext) hbelow trivial hone hdomain).congr ?_
      intro v _
      rw [eval_wire, eval_termWire]
      rfl
  | age birth current minAge =>
      exact (emitAge_differences minAge hadmissible hnext hone).congr fun v _ =>
        DateValues.differences_iff _ _ minAge

theorem emitRules_demands {rules : List PlannedRule}
    (hadmissible : ∀ r ∈ rules, r.rule.Admissible l) (hnext : l.secretFields.length ≤ next)
    (hone : ∀ v, given v → v .one = 1) :
    (emitRules rules).Demands next given fun v => ∀ r ∈ rules, r.rule.Holds (slotValue v) := by
  induction rules generalizing next with
  | nil =>
      refine (Emit.Meets.pure () trivial fun _ _ => trivial).congr fun v _ => ?_
      simp
  | cons r rest ih =>
      have hhead := emitRule_demands (hadmissible r List.mem_cons_self) hnext hone
      have hrest (n : Nat) (hn : next ≤ n) := ih
        (fun r' hr' => hadmissible r' (List.mem_cons_of_mem r hr')) (Nat.le_trans hnext hn)
      refine (Emit.Demands.bind hhead hrest).congr fun v _ => ?_
      rw [List.forall_mem_cons]

end Circuit
end PrivatePresentation
