import PrivatePresentation.Proofs.Json.Scalars
import PrivatePresentation.Proofs.Outcome
import PrivatePresentation.Schema.Parser

/-!
The rules that a constraint has to keep to.  They are told here without the order in which they are
checked; the checks pass exactly if the rules are kept, and yield the demand of the constraint.
-/

namespace PrivatePresentation

/-- An integer of 64 bits with a sign. -/
def Json.FitsSigned (n : Int) : Prop := Json.minSigned ≤ n ∧ n ≤ Json.maxSigned

/-- The name is of a declared field with some property. -/
def Schema.Declares (fields : List FieldDecl) (name : String) (p : FieldDecl → Prop) : Prop :=
  ∃ f, findField fields name = some f ∧ p f

/-- The constant that a value is next to a field of some type. -/
inductive Literal.Written : FieldType → Json → Literal → Prop where
  | text (s : String) : Written .string (.string s) (.text s)
  | truth (b : Bool) : Written .boolean (.bool b) (.integer b.toInt)
  | date {s : String} {t : Timestamp} (ht : Timestamp.parseDate s = .ok t) :
      Written .date (.string s) (.integer t.seconds)
  | number {type : FieldType} {n : Int} (htype : type ≠ .string) (hn : Json.FitsSigned n) :
      Written type (.int n) (.integer n)
  | decimal {type : FieldType} {s : String} {n : Int} (htype : type ≠ .string) (hdate : type ≠ .date)
      (hn : Schema.integerText? s = some n) : Written type (.string s) (.integer n)

/-- The whole number that a value is, or spells. -/
inductive Json.Whole : Json → Int → Prop where
  | number {n : Int} (hn : FitsSigned n) : Whole (.int n) n
  | decimal {s : String} {n : Int} (hn : Schema.integerText? s = some n) : Whole (.string s) n

/-- The dates that the fields of an age constraint are.  Birth fields alone stand for a birth date
and the current date under its usual names, as long as these are public. -/
inductive DateFields.Named (fields : List FieldDecl) :
    List String → DateFields → DateFields → Bool → Prop where
  | both (birth current : DateFields) :
      Named fields (birth.names ++ current.names) birth current false
  | birth (birth : DateFields)
      (hcurrent : ∀ name ∈ Schema.currentDateFields,
        Schema.Declares fields name fun f => f.isPublic = true) :
      Named fields birth.names birth ⟨"current_year", "current_month", "current_day"⟩ true

/-- What a constraint demands of the declared fields, if it keeps to the rules of its kind. -/
inductive ConstraintDraft.Demands (fields : List FieldDecl) (d : ConstraintDraft) : Demand → Prop where
  | range {name : String} {min max : Int} (hkind : Text.trim d.kind = "range_check")
      (hoperator : Text.trim d.operator = "" ∨ Text.trim d.operator = "between")
      (hfields : d.fields = [name])
      (hname : Schema.Declares fields name fun f => f.type ≠ .string)
      (hvalue : d.value = some (.array [.int min, .int max]))
      (hmin : Json.FitsSigned min) (hmax : Json.FitsSigned max) (hle : min ≤ max) :
      Demands fields d (.range name min max)
  | literal {name : String} {c : Comparator} {v : Json} {constant : Literal}
      (hkind : Text.trim d.kind = "comparison") (hoperator : Comparator.ofName? d.operator = some c)
      (hfields : d.fields = [name]) (hvalue : d.value = some v)
      (hname : Schema.Declares fields name fun f =>
        (f.type = .string → c.isEquality = true) ∧ constant.Written f.type v) :
      Demands fields d (.comparison name c (.literal constant))
  | comparison {left right : String} {c : Comparator} (hkind : Text.trim d.kind = "comparison")
      (hoperator : Comparator.ofName? d.operator = some c) (hfields : d.fields = [left, right])
      (hleft : Schema.Declares fields left fun f =>
        (f.type = .string → c.isEquality = true) ∧
          Schema.Declares fields right fun g => f.type = .string ↔ g.type = .string) :
      Demands fields d (.comparison left c (.field right))
  | age {birth current : DateFields} {upgraded : Bool} {v : Json} {n : Int}
      (hkind : Text.trim d.kind = "age_verification")
      (hoperator : Text.trim d.operator ∈ ["", "ge", "greater_equal"])
      (hfields : DateFields.Named fields d.fields birth current upgraded)
      (hbirth : ∀ name ∈ birth.names, Schema.Declares fields name fun f => f.type.isNumeric = true)
      (hcurrent : ∀ name ∈ current.names, Schema.Declares fields name fun f =>
        f.type.isNumeric = true ∧ f.isPublic = true)
      (hvalue : d.value = some v) (hage : v.Whole n) (hmin : 0 ≤ n) (hmax : n ≤ Schema.maxMinAge) :
      Demands fields d (.age birth current n upgraded)

/-- The constraint that a draft is. -/
structure ConstraintDraft.Yields (fields : List FieldDecl) (d : ConstraintDraft) (c : Constraint) :
    Prop where
  nonempty : d.fields ≠ []
  declared : ∀ name ∈ d.fields, Schema.Declares fields name fun _ => True
  demands : d.Demands fields c.demand
  message : c.message = if d.message = "" then none else some d.message

theorem FieldType.isHashed_iff {t : FieldType} : t.isHashed = true ↔ t = .string := by
  cases t <;> decide

namespace Json

variable {v : Json} {n : Int}

/-- A number that fits 64 bits with a sign is the integer that it is read as. -/
theorem signed?_eq_some : v.signed? = some n ↔ v = .int n ∧ FitsSigned n := by
  constructor
  · intro h
    unfold signed? at h
    split at h
    · rename_i m fits
      obtain ⟨hfits, h⟩ := Option.ite_none_right_eq_some.1 h
      obtain rfl := Option.some.inj h
      exact ⟨(ofInt_eq fits).symm, hfits⟩
    · cases h
  · rintro ⟨rfl, hfits⟩
    have hle : maxSigned ≤ maxUnsigned := by decide
    rw [ofInt_eq ⟨hfits.1, hfits.2.trans hle⟩]
    exact if_pos hfits

end Json

namespace Schema

variable {fields : List FieldDecl} {kind : String} {d : ConstraintDraft} {demand : Demand}

theorem declared_eq_ok {name : String} {f : FieldDecl} :
    declared fields kind name = .ok f ↔ findField fields name = some f := by
  unfold declared
  constructor
  · intro h
    split at h
    · rename_i g hg
      obtain rfl := Except.ok.inj h
      exact hg
    · cases h
  · intro hf
    rw [hf]

theorem rangeBounds_eq_ok {v : Option Json} {min max : Int} :
    rangeBounds kind v = .ok (min, max) ↔ v = some (.array [.int min, .int max]) ∧
      Json.FitsSigned min ∧ Json.FitsSigned max ∧ min ≤ max := by
  constructor
  · intro h
    unfold rangeBounds at h
    split at h
    · cases h
    · split at h
      · rename_i hlow hhigh
        obtain ⟨hle, h⟩ := Outcome.of_guard h
        obtain ⟨rfl, rfl⟩ := Prod.mk.inj (Except.ok.inj h)
        obtain ⟨rfl, hmin⟩ := Json.signed?_eq_some.1 hlow
        obtain ⟨rfl, hmax⟩ := Json.signed?_eq_some.1 hhigh
        exact ⟨rfl, hmin, hmax, Int.not_lt.1 hle⟩
      · cases h
    · cases h
  · rintro ⟨rfl, hmin, hmax, hle⟩
    rw [rangeBounds, Json.signed?_eq_some.2 ⟨rfl, hmin⟩, Json.signed?_eq_some.2 ⟨rfl, hmax⟩]
    exact if_neg (Int.not_lt.2 hle)

theorem checkRange_eq_ok (hkind : Text.trim d.kind = "range_check") :
    checkRange fields kind d = .ok demand ↔ d.Demands fields demand := by
  constructor
  · intro h
    unfold checkRange at h
    split at h
    · rename_i name hfields
      obtain ⟨hoperator, h⟩ := Outcome.of_guard h
      obtain ⟨f, hf, h⟩ := Outcome.of_bind h
      obtain ⟨hhashed, h⟩ := Outcome.of_guard h
      obtain ⟨⟨min, max⟩, hbounds, h⟩ := Outcome.of_bind h
      obtain rfl := Except.ok.inj h
      obtain ⟨hvalue, hmin, hmax, hle⟩ := rangeBounds_eq_ok.1 hbounds
      have hname : Declares fields name fun f => f.type ≠ .string :=
        ⟨f, declared_eq_ok.1 hf, mt FieldType.isHashed_iff.2 hhashed⟩
      have hoperator : Text.trim d.operator = "" ∨ Text.trim d.operator = "between" := by
        by_contra hneither
        exact hoperator (not_or.1 hneither)
      exact .range hkind hoperator hfields hname hvalue hmin hmax hle
    · cases h
  · intro h
    cases h with
    | range _ hoperator hfields hname hvalue hmin hmax hle =>
        obtain ⟨f, hf, hstring⟩ := hname
        rw [checkRange, hfields]
        refine Outcome.guard_eq_ok (fun hneither => hoperator.elim hneither.1 hneither.2) ?_
        refine Outcome.bind_eq_ok (declared_eq_ok.2 hf) ?_
        refine Outcome.guard_eq_ok (mt FieldType.isHashed_iff.1 hstring) ?_
        exact Outcome.bind_eq_ok (rangeBounds_eq_ok.2 ⟨hvalue, hmin, hmax, hle⟩) rfl
    | literal hother => exact absurd (hkind.symm.trans hother) (by decide)
    | comparison hother => exact absurd (hkind.symm.trans hother) (by decide)
    | age hother => exact absurd (hkind.symm.trans hother) (by decide)

theorem literalFor_eq_ok {f : FieldDecl} {v : Json} {constant : Literal} :
    literalFor kind f v = .ok constant ↔ constant.Written f.type v := by
  constructor
  · intro h
    unfold literalFor at h
    dsimp only at h
    split at h
    · rename_i s htype
      obtain rfl := Except.ok.inj h
      exact htype ▸ .text s
    · cases h
    · rename_i b htype
      obtain rfl := Except.ok.inj h
      rw [htype]
      cases b with
      | true => exact .truth true
      | false => exact .truth false
    · rename_i s htype
      split at h
      · rename_i t ht
        obtain rfl := Except.ok.inj h
        exact htype ▸ .date ht
      · cases h
    · rename_i htype
      split at h
      · rename_i n hn
        obtain rfl := Except.ok.inj h
        obtain ⟨hv, hfits⟩ := Json.signed?_eq_some.1 hn
        exact hv ▸ .number htype hfits
      · cases h
    · rename_i htype hdate
      split at h
      · rename_i n hn
        obtain rfl := Except.ok.inj h
        exact .decimal htype hdate hn
      · cases h
    · cases h
  · intro h
    obtain ⟨name, type, required, visibility, description⟩ := f
    unfold literalFor
    cases h with
    | text s => rfl
    | truth b =>
        cases b with
        | true => rfl
        | false => rfl
    | date ht => simp only [ht]
    | @number _ n htype hn =>
        have hread : (Json.int n).signed? = some n := Json.signed?_eq_some.2 ⟨rfl, hn⟩
        rw [Json.int] at hread ⊢
        cases type with
        | string => exact absurd rfl htype
        | _ => simp only [hread]
    | decimal htype hdate hn =>
        cases type with
        | string => exact absurd rfl htype
        | date => exact absurd rfl hdate
        | _ => simp only [hn]

theorem isEquality_of_guard {c : Comparator} {t : FieldType} :
    ¬(t.isHashed && !c.isEquality) = true ↔ (t = .string → c.isEquality = true) := by
  rw [← FieldType.isHashed_iff]
  cases t.isHashed <;> cases c.isEquality <;> decide

theorem sameSort_of_guard {t u : FieldType} :
    ¬t.isHashed ≠ u.isHashed ↔ (t = .string ↔ u = .string) := by
  rw [not_not, Bool.eq_iff_iff, FieldType.isHashed_iff, FieldType.isHashed_iff]

/-- What a comparison that begins with a certain field compares it with. -/
inductive Compares (fields : List FieldDecl) (d : ConstraintDraft) (left : FieldDecl) :
    Operand → Prop where
  | literal {name : String} {v : Json} {constant : Literal} (hfields : d.fields = [name])
      (hvalue : d.value = some v) (hconstant : constant.Written left.type v) :
      Compares fields d left (.literal constant)
  | field {name right : String} (hfields : d.fields = [name, right])
      (hright : Declares fields right fun g => left.type = .string ↔ g.type = .string) :
      Compares fields d left (.field right)

theorem checkOperand_eq_ok {left : FieldDecl} {right : Operand} :
    checkOperand fields kind left d = .ok right ↔ Compares fields d left right := by
  constructor
  · intro h
    unfold checkOperand at h
    split at h
    · rename_i name hfields
      split at h
      · cases h
      · rename_i v hvalue
        obtain ⟨constant, hconstant, h⟩ := Outcome.of_bind h
        obtain rfl := Except.ok.inj h
        exact .literal hfields hvalue (literalFor_eq_ok.1 hconstant)
    · rename_i name right' hfields
      obtain ⟨g, hg, h⟩ := Outcome.of_bind h
      obtain ⟨hsame, h⟩ := Outcome.of_guard h
      obtain rfl := Except.ok.inj h
      exact .field hfields ⟨g, declared_eq_ok.1 hg, sameSort_of_guard.1 hsame⟩
    · cases h
  · intro h
    cases h with
    | literal hfields hvalue hconstant =>
        rw [checkOperand, hfields, hvalue]
        exact Outcome.bind_eq_ok (literalFor_eq_ok.2 hconstant) rfl
    | field hfields hright =>
        obtain ⟨g, hg, hsame⟩ := hright
        rw [checkOperand, hfields]
        refine Outcome.bind_eq_ok (declared_eq_ok.2 hg) ?_
        exact Outcome.guard_eq_ok (sameSort_of_guard.2 hsame) rfl

theorem checkComparison_eq_ok (hkind : Text.trim d.kind = "comparison") :
    checkComparison fields kind d = .ok demand ↔ d.Demands fields demand := by
  constructor
  · intro h
    unfold checkComparison at h
    split at h
    · cases h
    · cases h
    · rename_i c name others hoperator hfields
      obtain ⟨f, hf, h⟩ := Outcome.of_bind h
      obtain ⟨right, hright, h⟩ := Outcome.of_bind h
      obtain ⟨hequality, h⟩ := Outcome.of_guard h
      obtain rfl := Except.ok.inj h
      have hf := declared_eq_ok.1 hf
      have hequality := isEquality_of_guard.1 hequality
      cases checkOperand_eq_ok.1 hright with
      | literal hone hvalue hconstant =>
          obtain ⟨rfl, rfl⟩ := List.cons.inj (hfields.symm.trans hone)
          exact .literal hkind hoperator hfields hvalue ⟨f, hf, hequality, hconstant⟩
      | field htwo hdeclared =>
          obtain ⟨rfl, rfl⟩ := List.cons.inj (hfields.symm.trans htwo)
          exact .comparison hkind hoperator hfields ⟨f, hf, hequality, hdeclared⟩
  · intro h
    cases h with
    | literal _ hoperator hfields hvalue hname =>
        obtain ⟨f, hf, hequality, hconstant⟩ := hname
        rw [checkComparison, hoperator, hfields]
        refine Outcome.bind_eq_ok (declared_eq_ok.2 hf) ?_
        refine Outcome.bind_eq_ok (checkOperand_eq_ok.2 (.literal hfields hvalue hconstant)) ?_
        exact Outcome.guard_eq_ok (isEquality_of_guard.2 hequality) rfl
    | comparison _ hoperator hfields hleft =>
        obtain ⟨f, hf, hequality, hright⟩ := hleft
        rw [checkComparison, hoperator, hfields]
        refine Outcome.bind_eq_ok (declared_eq_ok.2 hf) ?_
        refine Outcome.bind_eq_ok (checkOperand_eq_ok.2 (.field hfields hright)) ?_
        exact Outcome.guard_eq_ok (isEquality_of_guard.2 hequality) rfl
    | range hother => exact absurd (hkind.symm.trans hother) (by decide)
    | age hother => exact absurd (hkind.symm.trans hother) (by decide)

theorem checkAgeFields_eq_ok {current : Bool} {names : List String} :
    checkAgeFields fields kind current names = .ok () ↔
      ∀ name ∈ names, Declares fields name fun f =>
        f.type.isNumeric = true ∧ (current = true → f.isPublic = true) := by
  induction names with
  | nil => exact iff_of_true rfl fun _ hname => absurd hname List.not_mem_nil
  | cons name rest ih =>
      rw [checkAgeFields, List.forall_mem_cons, ← ih]
      constructor
      · intro h
        obtain ⟨f, hf, h⟩ := Outcome.of_bind h
        obtain ⟨hnumeric, h⟩ := Outcome.of_guard h
        obtain ⟨hpublic, h⟩ := Outcome.of_guard h
        refine ⟨⟨f, declared_eq_ok.1 hf, by simpa using hnumeric, fun hcurrent => ?_⟩, h⟩
        simpa [hcurrent] using hpublic
      · rintro ⟨⟨f, hf, hnumeric, hpublic⟩, hrest⟩
        refine Outcome.bind_eq_ok (declared_eq_ok.2 hf) ?_
        refine Outcome.guard_eq_ok (by simp [hnumeric]) ?_
        exact Outcome.guard_eq_ok (by simpa using hpublic) hrest

theorem minimumAge_eq_ok {value : Option Json} {n : Int} :
    minimumAge kind value = .ok n ↔
      ∃ v, value = some v ∧ v.Whole n ∧ 0 ≤ n ∧ n ≤ maxMinAge := by
  constructor
  · intro h
    unfold minimumAge at h
    dsimp only at h
    split at h
    · cases h
    · rename_i v age hread
      obtain ⟨hwithin, h⟩ := Outcome.of_guard_else h
      obtain rfl := Except.ok.inj h
      refine ⟨v, rfl, ?_, hwithin⟩
      split at hread
      · rename_i s hv
        obtain rfl := Option.some.inj hv
        exact .decimal hread
      · rename_i u _ hv
        obtain rfl := Option.some.inj hv
        obtain ⟨rfl, hfits⟩ := Json.signed?_eq_some.1 hread
        exact .number hfits
      · cases hread
    · cases h
  · rintro ⟨v, rfl, hwhole, hwithin⟩
    cases hwhole with
    | number hn =>
        have hread : (Json.int n).signed? = some n := Json.signed?_eq_some.2 ⟨rfl, hn⟩
        rw [Json.int] at hread ⊢
        simp only [minimumAge, hread, if_pos hwithin]
    | decimal hn => simp only [minimumAge, hn, if_pos hwithin]

theorem currentDateFields_public :
    (currentDateFields.all fun name => (findField fields name).any (·.isPublic)) = true ↔
      ∀ name ∈ currentDateFields, Declares fields name fun f => f.isPublic = true := by
  rw [List.all_eq_true]
  refine forall₂_congr fun name _ => ?_
  rw [Option.any_eq_true]
  rfl

theorem ageFields_eq_ok {names : List String} {birth current : DateFields} {upgraded : Bool} :
    ageFields fields kind names = .ok (birth, current, upgraded) ↔
      DateFields.Named fields names birth current upgraded := by
  constructor
  · intro h
    unfold ageFields at h
    split at h
    · obtain ⟨rfl, rfl, rfl⟩ := Except.ok.inj h
      exact .both ⟨_, _, _⟩ ⟨_, _, _⟩
    · obtain ⟨hpublic, h⟩ := Outcome.of_guard_else h
      obtain ⟨rfl, rfl, rfl⟩ := Except.ok.inj h
      exact .birth ⟨_, _, _⟩ (currentDateFields_public.1 hpublic)
    · cases h
  · intro h
    cases h with
    | both => rfl
    | birth _ hcurrent => exact if_pos (currentDateFields_public.2 hcurrent)

theorem checkAge_eq_ok (hkind : Text.trim d.kind = "age_verification") :
    checkAge fields kind d = .ok demand ↔ d.Demands fields demand := by
  have hguard : (Text.trim d.operator ≠ "" ∧ Text.trim d.operator ≠ "ge" ∧
      Text.trim d.operator ≠ "greater_equal") ↔
        Text.trim d.operator ∉ ["", "ge", "greater_equal"] := by
    simp only [List.mem_cons, List.not_mem_nil, or_false, not_or]
  constructor
  · intro h
    unfold checkAge at h
    obtain ⟨hoperator, h⟩ := Outcome.of_guard h
    obtain ⟨⟨birth, current, upgraded⟩, hfields, h⟩ := Outcome.of_bind h
    obtain ⟨⟨⟩, hbirth, h⟩ := Outcome.of_bind h
    obtain ⟨⟨⟩, hcurrent, h⟩ := Outcome.of_bind h
    obtain ⟨n, hn, h⟩ := Outcome.of_bind h
    obtain rfl := Except.ok.inj h
    obtain ⟨v, hvalue, hage, hmin, hmax⟩ := minimumAge_eq_ok.1 hn
    refine .age hkind (not_not.1 (mt hguard.2 hoperator)) (ageFields_eq_ok.1 hfields) ?_ ?_
      hvalue hage hmin hmax
    · intro name hname
      obtain ⟨f, hf, hnumeric, -⟩ := checkAgeFields_eq_ok.1 hbirth name hname
      exact ⟨f, hf, hnumeric⟩
    · intro name hname
      obtain ⟨f, hf, hnumeric, hpublic⟩ := checkAgeFields_eq_ok.1 hcurrent name hname
      exact ⟨f, hf, hnumeric, hpublic rfl⟩
  · intro h
    cases h with
    | age _ hoperator hfields hbirth hcurrent hvalue hage hmin hmax =>
        have hbirth : checkAgeFields fields kind false _ = .ok () :=
          checkAgeFields_eq_ok.2 fun name hname => by
            obtain ⟨f, hf, hnumeric⟩ := hbirth name hname
            exact ⟨f, hf, hnumeric, fun h => Bool.noConfusion h⟩
        have hcurrent : checkAgeFields fields kind true _ = .ok () :=
          checkAgeFields_eq_ok.2 fun name hname => by
            obtain ⟨f, hf, hnumeric, hpublic⟩ := hcurrent name hname
            exact ⟨f, hf, hnumeric, fun _ => hpublic⟩
        rw [checkAge]
        refine Outcome.guard_eq_ok (mt hguard.1 (not_not.2 hoperator)) ?_
        refine Outcome.bind_eq_ok (ageFields_eq_ok.2 hfields) ?_
        refine Outcome.bind_eq_ok hbirth ?_
        refine Outcome.bind_eq_ok hcurrent ?_
        exact Outcome.bind_eq_ok (minimumAge_eq_ok.2 ⟨_, hvalue, hage, hmin, hmax⟩) rfl
    | range hother => exact absurd (hkind.symm.trans hother) (by decide)
    | literal hother => exact absurd (hkind.symm.trans hother) (by decide)
    | comparison hother => exact absurd (hkind.symm.trans hother) (by decide)

/-- The check of a kind of constraint, and whatever follows it. -/
theorem demand_eq_ok {α : Type} {next : Demand → Except SchemaError α} {a : α} :
    (if Text.trim d.kind = "range_check" then checkRange fields (Text.trim d.kind) d >>= next
      else if Text.trim d.kind = "comparison" then
        checkComparison fields (Text.trim d.kind) d >>= next
      else if Text.trim d.kind = "age_verification" then
        checkAge fields (Text.trim d.kind) d >>= next
      else .error (.unknownConstraintType (Text.trim d.kind))) = .ok a ↔
        ∃ demand, d.Demands fields demand ∧ next demand = .ok a := by
  have hbind {m : Except SchemaError Demand}
      (hm : ∀ demand, m = .ok demand ↔ d.Demands fields demand) :
      (m >>= next) = .ok a ↔ ∃ demand, d.Demands fields demand ∧ next demand = .ok a := by
    constructor
    · intro h
      obtain ⟨demand, hdemand, h⟩ := Outcome.of_bind h
      exact ⟨demand, (hm demand).1 hdemand, h⟩
    · rintro ⟨demand, hdemand, h⟩
      exact Outcome.bind_eq_ok ((hm demand).2 hdemand) h
  by_cases hrange : Text.trim d.kind = "range_check"
  · rw [if_pos hrange]
    exact hbind fun demand => checkRange_eq_ok hrange
  by_cases hcomparison : Text.trim d.kind = "comparison"
  · rw [if_neg hrange, if_pos hcomparison]
    exact hbind fun demand => checkComparison_eq_ok hcomparison
  by_cases hage : Text.trim d.kind = "age_verification"
  · rw [if_neg hrange, if_neg hcomparison, if_pos hage]
    exact hbind fun demand => checkAge_eq_ok hage
  · rw [if_neg hrange, if_neg hcomparison, if_neg hage]
    constructor
    · intro h
      cases h
    · rintro ⟨demand, hdemand, -⟩
      cases hdemand with
      | range hkind => exact absurd hkind hrange
      | literal hkind => exact absurd hkind hcomparison
      | comparison hkind => exact absurd hkind hcomparison
      | age hkind => exact absurd hkind hage

theorem unknownName?_eq_none {names : List String} :
    unknownName? fields names = none ↔ ∀ name ∈ names, Declares fields name fun _ => True := by
  rw [unknownName?, List.find?_eq_none]
  refine forall₂_congr fun name _ => ?_
  rw [Option.isNone_iff_eq_none, ← ne_eq, Option.ne_none_iff_exists']
  simp only [Declares, and_true]

/-- A constraint passes its checks exactly if it keeps to the rules. -/
theorem checkConstraint_eq_ok {index : Nat} {c : Constraint} :
    checkConstraint fields index d = .ok c ↔ d.Yields fields c := by
  constructor
  · intro h
    unfold checkConstraint at h
    obtain ⟨-, h⟩ := Outcome.of_guard h
    obtain ⟨hnonempty, h⟩ := Outcome.of_guard h
    dsimp only at h
    cases hunknown : unknownName? fields d.fields with
    | some name =>
        rw [hunknown] at h
        cases h
    | none =>
        rw [hunknown] at h
        obtain ⟨demand, hdemand, h⟩ := demand_eq_ok.1 h
        obtain rfl := Except.ok.inj h
        exact ⟨mt List.isEmpty_iff.2 hnonempty, unknownName?_eq_none.1 hunknown, hdemand, rfl⟩
  · intro h
    obtain ⟨demand, message⟩ := c
    have hkind : Text.trim d.kind ≠ "" := by
      intro hempty
      cases h.demands with
      | range hkind => exact absurd (hempty.symm.trans hkind) (by decide)
      | literal hkind => exact absurd (hempty.symm.trans hkind) (by decide)
      | comparison hkind => exact absurd (hempty.symm.trans hkind) (by decide)
      | age hkind => exact absurd (hempty.symm.trans hkind) (by decide)
    obtain rfl := h.message
    unfold checkConstraint
    refine Outcome.guard_eq_ok hkind ?_
    refine Outcome.guard_eq_ok (mt List.isEmpty_iff.1 h.nonempty) ?_
    dsimp only
    rw [unknownName?_eq_none.2 h.declared]
    exact demand_eq_ok.2 ⟨demand, h.demands, rfl⟩

/-- The constraints of a schema are those of its drafts, in their order. -/
theorem checkConstraintsFrom_eq_ok {index : Nat} {drafts : List ConstraintDraft}
    {constraints : List Constraint} :
    checkConstraintsFrom fields index drafts = .ok constraints ↔
      List.Forall₂ (ConstraintDraft.Yields fields) drafts constraints := by
  induction drafts generalizing index constraints with
  | nil =>
      rw [checkConstraintsFrom, List.forall₂_nil_left_iff, Except.ok.injEq, eq_comm]
  | cons d rest ih =>
      rw [checkConstraintsFrom]
      constructor
      · intro h
        obtain ⟨c, hc, h⟩ := Outcome.of_bind h
        obtain ⟨others, hothers, h⟩ := Outcome.of_bind h
        obtain rfl := Except.ok.inj h
        exact .cons (checkConstraint_eq_ok.1 hc) (ih.1 hothers)
      · intro h
        cases h with
        | cons hc hothers =>
            refine Outcome.bind_eq_ok (checkConstraint_eq_ok.2 hc) ?_
            exact Outcome.bind_eq_ok (ih.2 hothers) rfl

end Schema
end PrivatePresentation
