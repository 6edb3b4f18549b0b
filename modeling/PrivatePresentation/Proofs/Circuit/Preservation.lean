import PrivatePresentation.Proofs.Circuit.Assignment
import PrivatePresentation.Proofs.Circuit.Satisfaction

/-!
Compilation preserves meaning.  An assigned circuit is satisfied exactly if every constraint of its
schema holds of what the inputs stand for: wherever residues wrap around, the rules refuse what the
constraints refuse.
-/

namespace PrivatePresentation

namespace Scalar

/-- A small integer is its own representative, or wraps around to a large one. -/
theorem val_ofInt_cases {x : Int} (hx : -2 ^ 128 ≤ x ∧ x < 2 ^ 128) :
    0 ≤ x ∧ ((ofInt x).val : Int) = x ∨ x < 0 ∧ 2 ^ 252 ≤ ((ofInt x).val : Int) := by
  have horder := two_pow_lt_order
  have hval := cast_val_ofInt x
  by_cases hnonneg : 0 ≤ x
  · rw [Int.emod_eq_of_lt hnonneg (by omega)] at hval
    exact Or.inl ⟨hnonneg, hval⟩
  · rw [← Int.add_emod_right, Int.emod_eq_of_lt (by omega) (by omega)] at hval
    exact Or.inr ⟨by omega, by omega⟩

theorem inDomain_ofInt_iff {x : Int} (hx : -2 ^ 128 ≤ x ∧ x < 2 ^ 128) :
    (ofInt x).InDomain ↔ 0 ≤ x := by
  rw [InDomain, Gadget.width]
  rcases val_ofInt_cases hx with ⟨_, hval⟩ | ⟨_, hval⟩ <;> omega

/-- A bound from above that is reached by less than the domain is one of integers. -/
theorem reaches_ofInt_iff {x y : Int} (hx : 0 ≤ x ∧ x < 2 ^ 127) (hy : -2 ^ 128 ≤ y ∧ y < 2 ^ 128) :
    (ofInt x).val ≤ (ofInt y).val ∧ (ofInt y).val < (ofInt x).val + 2 ^ Gadget.width ↔ x ≤ y := by
  rw [Gadget.width]
  rcases val_ofInt_cases hy with ⟨_, hval⟩ | ⟨_, hval⟩ <;>
    rcases val_ofInt_cases (x := x) (by omega) with ⟨_, hval'⟩ | ⟨_, hval'⟩ <;> omega

theorem between_ofInt_iff {x min max : Int} (hx : -2 ^ 128 ≤ x ∧ x < 2 ^ 128) (hmin : 0 ≤ min)
    (hmax : 0 ≤ max ∧ max < 2 ^ 127) :
    min.toNat ≤ (ofInt x).val ∧ (ofInt x).val ≤ max.toNat ↔ min ≤ x ∧ x ≤ max := by
  rcases val_ofInt_cases hx with ⟨_, hval⟩ | ⟨_, hval⟩ <;> omega

end Scalar

/-- The comparison of residues is that of what they are the residues of. -/
theorem Comparator.holds_iff {c : Comparator} {a b : Meaning}
    (hordered : c.isEquality = false → ∃ x y : Int, a = .integer x ∧ b = .integer y ∧
      (-2 ^ 128 ≤ x ∧ x < 2 ^ 128) ∧ (-2 ^ 128 ≤ y ∧ y < 2 ^ 128)) :
    c.Holds a.residue b.residue ↔ c.Relates a b := by
  cases hc : c.isEquality with
  | true =>
      cases c with
      | equal => exact Iff.rfl
      | notEqual => exact Iff.rfl
      | _ => exact nomatch hc
  | false =>
      obtain ⟨x, y, rfl, rfl, hx, hy⟩ := hordered hc
      have hdomain := Scalar.inDomain_ofInt_iff hx
      have hdomain' := Scalar.inDomain_ofInt_iff hy
      have hvalues := Scalar.val_ofInt_cases hx
      have hvalues' := Scalar.val_ofInt_cases hy
      cases c with
      | equal => exact nomatch hc
      | notEqual => exact nomatch hc
      | _ =>
          simp only [Holds, Relates, Meaning.residue, Meaning.integer.injEq, exists_and_left,
            exists_eq_left', hdomain, hdomain']
          omega

/-- Dates of small integers are compared as the dates that they are.  A current date before the birth
wraps around, and then lies out of reach. -/
theorem DateValues.ofAge_iff {birthYear birthMonth birthDay year month day minAge : Int}
    (hbirthYear : -2 ^ 127 ≤ birthYear ∧ birthYear < 2 ^ 127)
    (hbirthMonth : -2 ^ 127 ≤ birthMonth ∧ birthMonth < 2 ^ 127)
    (hbirthDay : -2 ^ 127 ≤ birthDay ∧ birthDay < 2 ^ 127)
    (hyear : -2 ^ 127 ≤ year ∧ year < 2 ^ 127) (hmonth : -2 ^ 127 ≤ month ∧ month < 2 ^ 127)
    (hday : -2 ^ 127 ≤ day ∧ day < 2 ^ 127) (hage : 0 ≤ minAge ∧ minAge ≤ Schema.maxMinAge) :
    DateValues.OfAge ⟨.ofInt birthYear, .ofInt birthMonth, .ofInt birthDay⟩
        ⟨.ofInt year, .ofInt month, .ofInt day⟩ (.ofNat minAge.natAbs) ↔
      0 ≤ birthYear ∧ 1 ≤ birthMonth ∧ birthMonth ≤ 12 ∧ 1 ≤ birthDay ∧ birthDay ≤ 31 ∧
        toLex (birthYear, toLex (birthMonth, birthDay)) ≤
          toLex (year - minAge, toLex (month, day)) := by
  rw [Schema.maxMinAge] at hage
  have hlastYear : (Scalar.ofInt year - Scalar.ofNat minAge.natAbs) = Scalar.ofInt (year - minAge) := by
    have hcast : (minAge.natAbs : Int) = minAge := by omega
    rw [Scalar.ofNat_eq_ofInt, hcast, Scalar.ofInt_sub]
  have hlast : -2 ^ 128 ≤ year - minAge ∧ year - minAge < 2 ^ 128 := by omega
  have hdomain := Scalar.inDomain_ofInt_iff (x := birthYear) (by omega)
  have hmonths := @Scalar.between_ofInt_iff birthMonth 1 12 (by omega) (by omega) (by omega)
  have hdays := @Scalar.between_ofInt_iff birthDay 1 31 (by omega) (by omega) (by omega)
  have hsameYear := Scalar.ofInt_inj (x := birthYear) (y := year - minAge) (by omega) (by omega)
  have hsameMonth := Scalar.ofInt_inj (x := birthMonth) (y := month) (by omega) (by omega)
  rw [← Fin.val_inj] at hsameYear hsameMonth
  have hyears (hx : 0 ≤ birthYear) := Scalar.reaches_ofInt_iff ⟨hx, hbirthYear.2⟩ hlast
  have hmonthReach (hx : 1 ≤ birthMonth) :=
    Scalar.reaches_ofInt_iff (x := birthMonth) (y := month) (by omega) (by omega)
  have hdayReach (hx : 1 ≤ birthDay) :=
    Scalar.reaches_ofInt_iff (x := birthDay) (y := day) (by omega) (by omega)
  simp only [OfAge, lastYear, hlastYear, Prod.Lex.toLex_le_toLex, hdomain, hsameYear, hsameMonth]
  constructor
  · rintro ⟨hnonneg, hle, hlt, hm, hm', hd, hd', hboundary⟩
    have hbefore : birthYear ≤ year - minAge := (hyears hnonneg).1 ⟨hle, hlt⟩
    obtain ⟨hmin, hmax⟩ := hmonths.1 ⟨hm, hm'⟩
    obtain ⟨hdmin, hdmax⟩ := hdays.1 ⟨hd, hd'⟩
    refine ⟨hnonneg, hmin, hmax, hdmin, hdmax, ?_⟩
    rcases Int.le_iff_eq_or_lt.1 hbefore with heq | hlt
    · obtain ⟨hmle, hmlt, hday⟩ := hboundary heq
      have hmonthLe := (hmonthReach hmin).1 ⟨hmle, hmlt⟩
      refine Or.inr ⟨heq, (Int.le_iff_eq_or_lt.1 hmonthLe).symm.imp_right fun hsame => ⟨hsame, ?_⟩⟩
      exact (hdayReach hdmin).1 (hday hsame)
    · exact Or.inl hlt
  · rintro ⟨hnonneg, hmin, hmax, hdmin, hdmax, hlex⟩
    obtain ⟨hm, hm'⟩ := hmonths.2 ⟨hmin, hmax⟩
    obtain ⟨hd, hd'⟩ := hdays.2 ⟨hdmin, hdmax⟩
    have hbefore : birthYear ≤ year - minAge := hlex.elim (fun h => by omega) fun h => by omega
    obtain ⟨hle, hlt⟩ := (hyears hnonneg).2 hbefore
    refine ⟨hnonneg, hle, hlt, hm, hm', hd, hd', fun heq => ?_⟩
    obtain ⟨-, hmonthLex⟩ := hlex.resolve_left (by omega)
    have hmonthLe : birthMonth ≤ month := hmonthLex.elim (fun h => by omega) fun h => by omega
    obtain ⟨hmle, hmlt⟩ := (hmonthReach hmin).2 hmonthLe
    refine ⟨hmle, hmlt, fun hsame => ?_⟩
    exact (hdayReach hdmin).2 (hmonthLex.resolve_left (by omega)).2

namespace Circuit

/-- A name stands for an integer of at most 128 bits, whose residue is in a slot. -/
def StandsForInteger (meaning? : String → Option Meaning) (value : Slot → Scalar) (name : String)
    (s : Slot) : Prop :=
  ∃ x : Int, meaning? name = some (.integer x) ∧ value s = Scalar.ofInt x ∧ -2 ^ 127 ≤ x ∧ x < 2 ^ 127

section Demands

variable {l : Layout} {meaning? : String → Option Meaning} {value : Slot → Scalar}

/-- A field that is no string stands for an integer. -/
theorem Represents.integer (hrep : Represents l meaning? value) {name : String} {s : Slot}
    (hs : l.require name = .ok s)
    (hd : Schema.Declares l.fields name fun f => f.type.isHashed = false) :
    StandsForInteger meaning? value name s := by
  obtain ⟨f, hf, hhashed⟩ := hd
  obtain ⟨m, hm, hvalue, hsuits⟩ := hrep name s f hs hf
  cases m with
  | integer x => exact ⟨x, hm, hvalue, hsuits⟩
  | text hash => exact absurd (hsuits.symm.trans hhashed) Bool.true_eq_false.mp

/-- The fields of a date stand for integers. -/
theorem Represents.date (hrep : Represents l meaning? value) {d : DateFields} {slots : DateSlots}
    (hslots : dateSlots l d = .ok slots)
    (hd : ∀ name ∈ d.names, Schema.Declares l.fields name fun f => f.type.isNumeric = true) :
    StandsForInteger meaning? value d.year slots.year ∧
      StandsForInteger meaning? value d.month slots.month ∧
      StandsForInteger meaning? value d.day slots.day := by
  obtain ⟨hyear, hmonth, hday⟩ := dateSlots_spec hslots
  have hinteger {name : String} (hname : name ∈ d.names) :
      Schema.Declares l.fields name fun f => f.type.isHashed = false :=
    (hd name hname).imp fun f hf => ⟨hf.1, FieldType.isHashed_of_isNumeric hf.2⟩
  exact ⟨hrep.integer hyear (hinteger (by simp [DateFields.names])),
    hrep.integer hmonth (hinteger (by simp [DateFields.names])),
    hrep.integer hday (hinteger (by simp [DateFields.names]))⟩

/-- The right-hand side is of the sort of the left one, so that it stands for an integer if that one
does. -/
theorem compileOperand_meaning (hrep : Represents l meaning? value) {left : String}
    {f : FieldDecl} {right : Operand} {t : Term} (hright : right.Suits l.fields f)
    (ht : compileOperand l left right = .ok t) :
    ∃ m : Meaning, right.meaning? meaning? = some m ∧ t.value value = m.residue ∧
      (f.type.isHashed = false → ∃ x, m = .integer x ∧ -2 ^ 127 ≤ x ∧ x < 2 ^ 127) := by
  cases right with
  | field name =>
      obtain ⟨s, hs, ht⟩ := Outcome.of_bind ht
      obtain rfl := Except.ok.inj ht
      obtain ⟨g, hg, hsort⟩ := hright
      obtain ⟨m, hm, hvalue, -⟩ := hrep name s g hs hg
      refine ⟨m, hm, hvalue, fun hhashed => ?_⟩
      obtain ⟨x, hx, -, hbounds⟩ := hrep.integer hs ⟨g, hg, hsort.trans hhashed⟩
      exact ⟨x, Option.some.inj (hm.symm.trans hx), hbounds⟩
  | literal constant =>
      obtain ⟨rfl, -⟩ := compileOperand_literal ht
      refine ⟨constant.meaning, Operand.meaning?_literal meaning? constant, rfl, fun hhashed => ?_⟩
      cases constant with
      | text s => exact absurd (hright.symm.trans hhashed) Bool.true_eq_false.mp
      | integer n =>
          have hfits := hright.2
          rw [Json.FitsSigned, Json.minSigned, Json.maxSigned] at hfits
          exact ⟨n, rfl, by omega, by omega⟩

/-- The rule of a demand holds of the slots exactly if the demand holds of what they stand for. -/
theorem compileDemand_holds_iff (hrep : Represents l meaning? value) {d : Demand} {r : Rule}
    (hd : d.WellFormed l.fields) (hr : compileDemand l d = .ok r) :
    r.Holds value ↔ d.Holds meaning? := by
  cases d with
  | range name min max =>
      obtain ⟨hdeclared, hle, hmin, hmax⟩ := hd
      obtain ⟨s, hs, hr⟩ := Outcome.of_bind hr
      obtain ⟨hminNonneg, hr⟩ := Outcome.of_guard hr
      obtain ⟨hmaxNonneg, hr⟩ := Outcome.of_guard hr
      obtain rfl := Except.ok.inj hr
      obtain ⟨x, hx, hvalue, hlow, hhigh⟩ := hrep.integer hs hdeclared
      have hbound := hmax.2
      rw [Json.maxSigned] at hbound
      rw [Rule.Holds, Demand.Holds, hx, hvalue, val_ofNat_toNat hmin, val_ofNat_toNat hmax,
        Scalar.between_ofInt_iff (by omega) (by omega) (by omega)]
      simp only [Option.some.injEq, Meaning.integer.injEq, exists_eq_left']
  | comparison left c right =>
      obtain ⟨f, hf, hequality, hright⟩ := hd
      obtain ⟨s, hs, hr⟩ := Outcome.of_bind hr
      obtain ⟨t, ht, hr⟩ := Outcome.of_bind hr
      obtain rfl := Except.ok.inj hr
      obtain ⟨a, ha, hvalue, -⟩ := hrep left s f hs hf
      obtain ⟨b, hb, hvalue', hinteger⟩ := compileOperand_meaning hrep hright ht
      have hcompare : c.Holds a.residue b.residue ↔ c.Relates a b := by
        refine Comparator.holds_iff fun hc => ?_
        have hhashed : f.type.isHashed = false := by
          cases hsort : f.type.isHashed with
          | true => exact absurd ((hequality hsort).symm.trans hc) Bool.true_eq_false.mp
          | false => rfl
        obtain ⟨x, hx, -, hlow, hhigh⟩ := hrep.integer hs ⟨f, hf, hhashed⟩
        obtain ⟨y, hy, hlow', hhigh'⟩ := hinteger hhashed
        exact ⟨x, y, Option.some.inj (ha.symm.trans hx), hy, by omega, by omega⟩
      rw [Rule.Holds, Demand.Holds, hvalue, hvalue', ha, hb, hcompare]
      simp only [Option.some.injEq, exists_eq_left', exists_and_left]
  | age birth current minAge upgraded =>
      obtain ⟨hbirth, hcurrent, hage⟩ := hd
      obtain ⟨birthSlots, hbirthSlots, hr⟩ := Outcome.of_bind hr
      obtain ⟨currentSlots, hcurrentSlots, hr⟩ := Outcome.of_bind hr
      obtain rfl := Except.ok.inj hr
      obtain ⟨⟨by₀, hby, hby', hbyBounds⟩, ⟨bm, hbm, hbm', hbmBounds⟩, bd, hbd, hbd', hbdBounds⟩ :=
        hrep.date hbirthSlots hbirth
      obtain ⟨⟨cy, hcy, hcy', hcyBounds⟩, ⟨cm, hcm, hcm', hcmBounds⟩, cd, hcd, hcd', hcdBounds⟩ :=
        hrep.date hcurrentSlots fun name hname => (hcurrent name hname).imp fun f hf => ⟨hf.1, hf.2.1⟩
      rw [Rule.Holds, DateSlots.values, DateSlots.values, hby', hbm', hbd', hcy', hcm', hcd',
        DateValues.ofAge_iff hbyBounds hbmBounds hbdBounds hcyBounds hcmBounds hcdBounds hage,
        Demand.Holds, hby, hbm, hbd, hcy, hcm, hcd]
      simp only [Option.some.injEq, Meaning.integer.injEq, exists_and_left, exists_eq_left']

end Demands
end Circuit

namespace CircuitInstance

/-- Compilation preserves meaning: a circuit that has taken some values is satisfied exactly if every
constraint of its schema holds of what the values stand for. -/
theorem isSatisfied_iff {document : Bytes} {s : Schema} {before after : CircuitInstance}
    {values : Json.Members} (hs : Schema.parseBytes document = .ok s)
    (hc : Circuit.compile s = .ok before.circuit)
    (hassign : before.assign values = (after, .ok ())) :
    ∃ answer, after.isSatisfied = .ok answer ∧
      (answer = true ↔ ∀ d ∈ s.constraints, d.demand.Holds (s.meaning? values)) := by
  have hwell := Schema.parseBytes_wellFormed hs
  obtain ⟨a, ha, rfl⟩ := assign_spec hassign
  obtain ⟨answer, hanswer, hrules⟩ := Circuit.satisfies_spec
    (i := { before with values := some a }) rfl (Circuit.plan_admissible hwell hc)
    (Circuit.fits_of_assign ha)
  refine ⟨answer, hanswer, hrules.trans (Circuit.forall_plan_iff hc fun d hd r hr => ?_)⟩
  refine (Circuit.compileDemand_holds_iff (Circuit.represents_of_assign hc ha) ?_ hr).symm
  rw [(Circuit.compile_spec hc).1]
  exact hwell.demands d hd

/-- The text of a schema that compares two integers. -/
def orderText : String :=
  "\x7b\"fields\":[\x7b\"name\":\"low\",\"type\":\"integer\"\x7d,\x7b\"name\":\"high\",\"type\":" ++
  "\"integer\"\x7d],\"constraints\":[\x7b\"type\":\"comparison\",\"fields\":[\"low\",\"high\"]," ++
  "\"operator\":\"le\"\x7d]\x7d"

/-- A negative integer is compared with an omitted one. -/
theorem isSatisfied_iff_negative :
    ∃ (s : Schema) (before after : CircuitInstance), Schema.parse orderText = .ok s ∧
      Circuit.compile s = .ok before.circuit ∧
      before.assign [("low", .int (-1))] = (after, .ok ()) ∧
      ∃ answer, after.isSatisfied = .ok answer ∧
        (answer = true ↔
          ∀ d ∈ s.constraints, d.demand.Holds (s.meaning? [("low", .int (-1))])) := by
  have hrun : Circuit.compilesWith orderText (fun _ c =>
      decide (((CircuitInstance.mk c none).assign [("low", .int (-1))]).2 = .ok ())) = true := by
    decide +kernel
  obtain ⟨s, c, hs, hc, hassigns⟩ := Circuit.exists_of_compilesWith hrun
  have hassign : (CircuitInstance.mk c none).assign [("low", .int (-1))] = (_, .ok ()) :=
    Prod.ext rfl (of_decide_eq_true hassigns)
  exact ⟨s, ⟨c, none⟩, _, hs, hc, hassign, isSatisfied_iff hs hc hassign⟩

end CircuitInstance
end PrivatePresentation
