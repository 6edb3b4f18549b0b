import PrivatePresentation.Proofs.Circuit.Satisfaction
import PrivatePresentation.Proofs.Json.Canonical

/-!
Compilation of accepted schemas.  Nothing but a negative constant keeps a schema from compiling, and the
first constraint with one is the fault; once a schema is compiled, its constraints can always be written
down.
-/

namespace PrivatePresentation

/-- A demand with a negative constant, and the fault of it. -/
inductive Demand.Negative : Demand → CompilationError → Prop where
  | lowerBound {name : String} {min max : Int} (hmin : min < 0) :
      Negative (.range name min max) (.negativeBound name min)
  | upperBound {name : String} {min max : Int} (hmin : 0 ≤ min) (hmax : max < 0) :
      Negative (.range name min max) (.negativeBound name max)
  | literal {left : String} {c : Comparator} {n : Int} (hn : n < 0) :
      Negative (.comparison left c (.literal (.integer n))) (.negativeLiteral left n)

namespace Layout

variable {l : Layout} {name : String}

/-- There is a slot for every declared name. -/
theorem exists_require {p : FieldDecl → Prop} (h : Schema.Declares l.fields name p) :
    ∃ s, l.require name = .ok s := by
  obtain ⟨f, hf, -⟩ := h
  have hfields : l.slots.map (·.1) = l.fields := map_fst_slotsFrom 0 0 l.fields
  rw [Schema.findField, ← hfields, List.find?_map] at hf
  obtain ⟨⟨g, s⟩, hslot, -⟩ := Option.map_eq_some_iff.1 hf
  have hname : l.slot? name = some s := Option.map_eq_some_iff.2 ⟨(g, s), hslot, rfl⟩
  exact ⟨s, by rw [require, hname]⟩

open Json (Ordered Number.IsInteger)

theorem describe_ordered {p : Json.Number → Prop} (fields : List FieldDecl) :
    Ordered p (describe fields) := by
  refine .array fun v hv => ?_
  obtain ⟨f, -, rfl⟩ := List.mem_map.1 hv
  refine .object ?_ fun e he => ?_
  · have hkeys : "name" < "type" := by decide
    exact List.pairwise_pair.2 hkeys
  · rcases List.mem_pair.1 he with rfl | rfl
    · exact .string f.name
    · exact .string f.type.name

/-- There are no numbers in the document of a layout. -/
theorem document_ordered {p : Json.Number → Prop} (l : Layout) : Ordered p l.document := by
  refine .object ?_ fun e he => ?_
  · have hkeys : "public" < "secret" := by decide
    exact List.pairwise_pair.2 hkeys
  · rcases List.mem_pair.1 he with rfl | rfl
    · exact describe_ordered l.publicFields
    · exact describe_ordered l.secretFields

/-- The canonical text of the document of a layout. -/
def text (l : Layout) : CanonicalText := ⟨String.ofList (Canonical.write l.document)⟩

theorem ofJson_document (l : Layout) : CanonicalText.ofJson l.document = .ok l.text := by
  have hordered : Ordered Number.IsInteger l.document := document_ordered l
  rw [CanonicalText.ofJson, Canonical.coerce_eq_self hordered]
  rfl

theorem fingerprint_eq (l : Layout) : l.fingerprint = .ok (.ofCanonical l.text) := by
  rw [fingerprint, ofJson_document]
  rfl

end Layout

namespace Circuit

variable {l : Layout} {e : CompilationError}

theorem exists_dateSlots {d : DateFields} {p : FieldDecl → Prop}
    (h : ∀ name ∈ d.names, Schema.Declares l.fields name p) :
    ∃ slots, dateSlots l d = .ok slots := by
  simp only [DateFields.names, List.forall_mem_cons] at h
  obtain ⟨hyear, hmonth, hday, -⟩ := h
  obtain ⟨year, hyear⟩ := Layout.exists_require hyear
  obtain ⟨month, hmonth⟩ := Layout.exists_require hmonth
  obtain ⟨day, hday⟩ := Layout.exists_require hday
  refine ⟨⟨year, month, day⟩, ?_⟩
  simp only [dateSlots, hyear, hmonth, hday, bind, Except.bind, pure, Except.pure]

theorem compileOperand_error_iff {f : FieldDecl} {left : String} {c : Comparator} {right : Operand}
    (hright : right.Suits l.fields f) :
    compileOperand l left right = .error e ↔ (Demand.comparison left c right).Negative e := by
  constructor
  · intro h
    cases right with
    | field name =>
        obtain ⟨s, hs⟩ := Layout.exists_require hright
        rw [compileOperand, hs] at h
        cases h
    | literal constant =>
        cases constant with
        | text s => cases h
        | integer n =>
            rw [compileOperand] at h
            rcases Outcome.error_of_guard h with ⟨hn, rfl⟩ | ⟨-, h⟩
            · exact .literal hn
            · cases h
  · intro h
    cases h with
    | literal hn => rw [compileOperand, if_pos hn]

/-- The constants of a demand decide whether it has a rule. -/
theorem compileDemand_error_iff {d : Demand} (hd : d.WellFormed l.fields) :
    compileDemand l d = .error e ↔ d.Negative e := by
  cases d with
  | range name min max =>
      obtain ⟨hdeclared, -⟩ := hd
      obtain ⟨s, hs⟩ := Layout.exists_require hdeclared
      rw [compileDemand, hs]
      constructor
      · intro h
        rcases Outcome.error_of_guard h with ⟨hmin, rfl⟩ | ⟨hmin, h⟩
        · exact .lowerBound hmin
        · rcases Outcome.error_of_guard h with ⟨hmax, rfl⟩ | ⟨-, h⟩
          · exact .upperBound (Int.not_lt.1 hmin) hmax
          · cases h
      · intro h
        cases h with
        | lowerBound hmin => exact if_pos hmin
        | upperBound hmin hmax => exact (if_neg (Int.not_lt.2 hmin)).trans (if_pos hmax)
  | comparison left c right =>
      obtain ⟨f, hf, -, hright⟩ := hd
      obtain ⟨s, hs⟩ := @Layout.exists_require l left (· = f) ⟨f, hf, rfl⟩
      have hrule : compileDemand l (.comparison left c right) =
          (compileOperand l left right >>= fun t => pure (Rule.compare s c t)) := by
        rw [compileDemand, hs]
        rfl
      rw [← compileOperand_error_iff hright, hrule]
      constructor
      · intro h
        rcases Outcome.error_of_bind h with h | ⟨t, -, h⟩
        · exact h
        · cases h
      · intro h
        rw [h]
        rfl
  | age birth current minAge upgraded =>
      obtain ⟨hbirth, hcurrent, -⟩ := hd
      obtain ⟨birthSlots, hbirth⟩ := exists_dateSlots hbirth
      obtain ⟨currentSlots, hcurrent⟩ := exists_dateSlots hcurrent
      rw [compileDemand, hbirth, hcurrent]
      constructor
      · intro h
        cases h
      · intro h
        cases h

/-- A plan fails for the first constraint that has no rule. -/
theorem compilePlan_error_iff {constraints : List Constraint} :
    compilePlan l constraints = .error e ↔ ∃ before d after, constraints = before ++ d :: after ∧
      compileDemand l d.demand = .error e ∧
        ∀ d' ∈ before, ∀ e', compileDemand l d'.demand ≠ .error e' := by
  have hmap (d : Constraint) (e : CompilationError) :
      (compileDemand l d.demand).map (fun rule => (⟨label d, rule⟩ : PlannedRule)) = .error e ↔
        compileDemand l d.demand = .error e := by
    cases compileDemand l d.demand <;> simp [Except.map]
  have hok (d : Constraint) :
      (∃ r, (compileDemand l d.demand).map (fun rule => (⟨label d, rule⟩ : PlannedRule)) = .ok r) ↔
        ∀ e', compileDemand l d.demand ≠ .error e' := by
    cases compileDemand l d.demand <;> simp [Except.map]
  rw [compilePlan_eq_mapM, Outcome.mapM_error_iff]
  simp only [hmap, hok]

variable {s : Schema} {c : Circuit}

/-- A well-formed schema fails to compile for its first negative constant alone. -/
theorem compile_error_iff (hs : s.WellFormed) :
    compile s = .error e ↔ ∃ before d after, s.constraints = before ++ d :: after ∧
      d.demand.Negative e ∧ ∀ d' ∈ before, ∀ e', ¬d'.demand.Negative e' := by
  have hdigest := Layout.fingerprint_eq ⟨s.fields⟩
  have hfault (d : Constraint) (hd : d ∈ s.constraints) (e' : CompilationError) :
      compileDemand ⟨s.fields⟩ d.demand = .error e' ↔ d.demand.Negative e' :=
    compileDemand_error_iff (hs.demands d hd)
  have hplan : compile s = .error e ↔ compilePlan ⟨s.fields⟩ s.constraints = .error e := by
    rw [compile]
    simp only [hdigest, Except.mapError, bind, Except.bind, pure, Except.pure]
    cases compilePlan ⟨s.fields⟩ s.constraints with
    | error e' =>
        constructor
        · intro h
          cases h
          rfl
        · intro h
          cases h
          rfl
    | ok plan =>
        constructor
        · intro h
          cases h
        · intro h
          cases h
  rw [hplan, compilePlan_error_iff]
  refine exists_congr fun before => exists_congr fun d => exists_congr fun after =>
    and_congr_right fun hsplit => ?_
  rw [hsplit, List.forall_mem_append, List.forall_mem_cons] at hfault
  refine and_congr (hfault.2.1 e) (forall₂_congr fun d' hd' => forall_congr' fun e' => ?_)
  exact not_congr (hfault.1 d' hd' e')

/-- The gadgets of rules that can be laid on the slots can be written down. -/
theorem exists_fragmentOf {rules : List PlannedRule}
    (hadmissible : ∀ r ∈ rules, r.rule.Admissible c.layout) : ∃ f, c.fragmentOf rules = .ok f := by
  have hdemands := emitRules_demands hadmissible (Nat.le_refl c.layout.secretFields.length)
    fun (v : Variable → Scalar) (hv : v .one = 1) => hv
  obtain ⟨⟨⟩, f, hrun, -⟩ := hdemands
  exact ⟨f, by rw [fragmentOf, hrun]; rfl⟩

theorem exists_constraintCount (hadmissible : ∀ r ∈ c.plan, r.rule.Admissible c.layout) :
    ∃ n, c.constraintCount = .ok n := by
  obtain ⟨f, hf⟩ := exists_fragmentOf hadmissible
  rw [constraintCount, system, hf]
  exact ⟨_, rfl⟩

end Circuit

namespace CircuitInstance

variable {i : CircuitInstance} {rules : List PlannedRule}

/-- Nothing but missing values keeps rules from being checked. -/
theorem exists_satisfies (hadmissible : ∀ r ∈ rules, r.rule.Admissible i.circuit.layout)
    (hassigned : i.isAssigned = true) : ∃ answer, i.satisfies rules = .ok answer := by
  obtain ⟨a, ha⟩ := Option.isSome_iff_exists.1 hassigned
  obtain ⟨f, hf⟩ := Circuit.exists_fragmentOf hadmissible
  rw [satisfies, ha, hf]
  exact ⟨_, rfl⟩

theorem exists_firstViolation (hadmissible : ∀ r ∈ rules, r.rule.Admissible i.circuit.layout)
    (hassigned : i.isAssigned = true) : ∃ answer, i.firstViolation rules = .ok answer := by
  induction rules with
  | nil => exact ⟨none, rfl⟩
  | cons r rest ih =>
      obtain ⟨hr, hrest⟩ := List.forall_mem_cons.1 hadmissible
      obtain ⟨answer, hanswer⟩ := exists_satisfies (List.forall_mem_singleton.2 hr) hassigned
      rw [firstViolation, hanswer]
      cases answer with
      | true => exact ih hrest
      | false => exact ⟨some r.label, rfl⟩

/-- Rules that can be laid on their slots are never the ones that cannot be written down. -/
theorem satisfies_ne_unsatisfiable (hadmissible : ∀ r ∈ rules, r.rule.Admissible i.circuit.layout) :
    i.satisfies rules ≠ .error .unsatisfiable := by
  intro h
  cases hvalues : i.values with
  | none =>
      rw [satisfies, hvalues] at h
      cases h
  | some a =>
      obtain ⟨answer, hanswer⟩ := exists_satisfies hadmissible (by rw [isAssigned, hvalues]; rfl)
      cases hanswer.symm.trans h

theorem firstViolation_ne_unsatisfiable
    (hadmissible : ∀ r ∈ rules, r.rule.Admissible i.circuit.layout) :
    i.firstViolation rules ≠ .error .unsatisfiable := by
  intro h
  induction rules with
  | nil => cases h
  | cons r rest ih =>
      obtain ⟨hr, hrest⟩ := List.forall_mem_cons.1 hadmissible
      rw [firstViolation] at h
      rcases Outcome.error_of_bind h with h | ⟨answer, -, h⟩
      · exact satisfies_ne_unsatisfiable (List.forall_mem_singleton.2 hr) h
      · cases answer with
        | true => exact ih hrest h
        | false => cases h

end CircuitInstance

namespace Circuit

variable {s : Schema} {c : Circuit}

theorem exists_compile_iff (hs : s.WellFormed) :
    (∃ c, compile s = .ok c) ↔ ∀ d ∈ s.constraints, ∀ e, ¬d.demand.Negative e := by
  constructor
  · rintro ⟨c, hc⟩
    refine (forall_plan_iff hc (q := fun _ => True) fun d hd r hr => ?_).1 fun _ _ => trivial
    refine iff_of_true (fun e he => ?_) trivial
    rw [(compile_spec hc).1] at hr
    cases hr.symm.trans ((compileDemand_error_iff (hs.demands d hd)).2 he)
  · intro hnone
    cases hc : compile s with
    | ok c => exact ⟨c, rfl⟩
    | error e =>
        obtain ⟨before, d, after, hsplit, he, -⟩ := (compile_error_iff hs).1 hc
        exact absurd he (hnone d (hsplit ▸ List.mem_append_right _ List.mem_cons_self) e)

/-- An accepted schema has a circuit unless a bound or a literal of it is negative, and the first
constraint with one is then the fault.  The constraints of a circuit can be counted, and checked once it
has values: none of them is ever beyond being written down. -/
theorem compile_parseBytes {document : Bytes} (hs : Schema.parseBytes document = .ok s) :
    ((∃ c, compile s = .ok c) ↔ ∀ d ∈ s.constraints, ∀ e, ¬d.demand.Negative e) ∧
    (∀ e, compile s = .error e ↔ ∃ before d after, s.constraints = before ++ d :: after ∧
      d.demand.Negative e ∧ ∀ d' ∈ before, ∀ e', ¬d'.demand.Negative e') ∧
    (∀ name, compile s ≠ .error (.unknownField name)) ∧
    (∀ cause, compile s ≠ .error (.fingerprint cause)) ∧
    ∀ c, compile s = .ok c → (∃ n, c.constraintCount = .ok n) ∧
      ∀ i : CircuitInstance, i.circuit = c →
        (i.isAssigned = true →
          (∃ answer, i.isSatisfied = .ok answer) ∧ ∃ answer, i.unsatisfiedRule = .ok answer) ∧
        i.isSatisfied ≠ .error .unsatisfiable ∧ i.unsatisfiedRule ≠ .error .unsatisfiable := by
  have hwell := Schema.parseBytes_wellFormed hs
  refine ⟨exists_compile_iff hwell, fun e => compile_error_iff hwell, ?_, ?_, ?_⟩
  · intro name h
    obtain ⟨_, d, _, _, hd, _⟩ := (compile_error_iff hwell).1 h
    generalize d.demand = demand at hd
    cases hd
  · intro cause h
    obtain ⟨_, d, _, _, hd, _⟩ := (compile_error_iff hwell).1 h
    generalize d.demand = demand at hd
    cases hd
  · intro c hc
    have hadmissible := plan_admissible hwell hc
    refine ⟨exists_constraintCount hadmissible, ?_⟩
    rintro i rfl
    refine ⟨fun hassigned => ⟨?_, ?_⟩, ?_, ?_⟩
    · exact CircuitInstance.exists_satisfies hadmissible hassigned
    · exact CircuitInstance.exists_firstViolation hadmissible hassigned
    · exact CircuitInstance.satisfies_ne_unsatisfiable hadmissible
    · exact CircuitInstance.firstViolation_ne_unsatisfiable hadmissible

/-- The text of a schema of temperatures, with two literals and a bound, of which two are below zero. -/
def frostText : String :=
  "\x7b\"fields\":[\x7b\"name\":\"noon\",\"type\":\"integer\"\x7d]," ++
  "\"constraints\":[" ++
  "\x7b\"type\":\"comparison\",\"operator\":\"gt\",\"fields\":[\"noon\"],\"value\":3\x7d," ++
  "\x7b\"type\":\"comparison\",\"operator\":\"lt\",\"fields\":[\"noon\"],\"value\":-5\x7d," ++
  "\x7b\"type\":\"range_check\",\"fields\":[\"noon\"],\"value\":[-20,0]\x7d]\x7d"

theorem compile_parseBytes_frost :
    ∃ s, Schema.parse frostText = .ok s ∧ compile s = .error (.negativeLiteral "noon" (-5)) ∧
      ¬∃ c, compile s = .ok c := by
  have hrun : (Schema.parse frostText).toOption.map (·.constraints) =
      some [⟨.comparison "noon" .greaterThan (.literal (.integer 3)), none⟩,
        ⟨.comparison "noon" .lessThan (.literal (.integer (-5))), none⟩,
        ⟨.range "noon" (-20) 0, none⟩] := by
    decide +kernel
  obtain ⟨s, hs, hconstraints⟩ := Option.map_eq_some_iff.1 hrun
  have hs := Outcome.of_toOption hs
  have hnegative : (Demand.comparison "noon" .lessThan (.literal (.integer (-5)))).Negative
      (.negativeLiteral "noon" (-5)) := .literal (by decide)
  obtain ⟨hcompiles, herror, -⟩ := compile_parseBytes hs
  refine ⟨s, hs, (herror _).2 ⟨[_], _, [_], hconstraints, hnegative, ?_⟩, fun hc => ?_⟩
  · intro d hd e he
    obtain rfl := List.mem_singleton.1 hd
    cases he with
    | literal hn => exact absurd hn (by decide)
  · have hmem : (⟨.comparison "noon" .lessThan (.literal (.integer (-5))), none⟩ : Constraint) ∈
        s.constraints := by
      rw [hconstraints]
      exact List.mem_cons_of_mem _ List.mem_cons_self
    exact hcompiles.1 hc _ hmem _ hnegative

end Circuit
end PrivatePresentation
