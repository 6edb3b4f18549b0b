import PrivatePresentation.Proofs.Circuit.Satisfaction
import PrivatePresentation.Proving.ProofSystem

/-!
Blame.  The rules of a circuit share no further witnesses, so they all hold together exactly if each of
them holds by itself.  Where they do not, the first one that fails by itself is the one to blame, and
nothing that fails is ever handed to the prover.
-/

namespace PrivatePresentation

namespace CircuitInstance

variable {i : CircuitInstance} {rules : List PlannedRule} {a : Assignment} {r : PlannedRule}

/-- A rule that the assigned values violate by itself, and that they violate none before. -/
structure Blames (i : CircuitInstance) (a : Assignment) (before : List PlannedRule)
    (r : PlannedRule) : Prop where
  satisfied : ∀ b ∈ before, i.satisfies [b] = .ok true ∧ b.rule.Holds a.value
  violated : i.satisfies [r] = .ok false ∧ ¬r.rule.Holds a.value

/-- A rule by itself is satisfied or violated. -/
theorem satisfies_singleton (hvalues : i.values = some a) (ha : i.circuit.layout.Fits a)
    (hr : r.rule.Admissible i.circuit.layout) :
    (i.satisfies [r] = .ok true ∧ r.rule.Holds a.value) ∨
      (i.satisfies [r] = .ok false ∧ ¬r.rule.Holds a.value) := by
  obtain ⟨answer, hanswer, hiff⟩ :=
    Circuit.satisfies_spec hvalues (List.forall_mem_singleton.2 hr) ha
  rw [List.forall_mem_singleton] at hiff
  cases answer with
  | true => exact .inl ⟨hanswer, hiff.1 rfl⟩
  | false => exact .inr ⟨hanswer, fun hholds => Bool.false_ne_true (hiff.2 hholds)⟩

/-- The search for a violation passes over rules that hold, and ends at the first one that does not. -/
theorem firstViolation_spec (hvalues : i.values = some a) (ha : i.circuit.layout.Fits a)
    (hrules : ∀ r ∈ rules, r.rule.Admissible i.circuit.layout) :
    (i.firstViolation rules = .ok none ∧ ∀ r ∈ rules, r.rule.Holds a.value) ∨
      ∃ before r after, rules = before ++ r :: after ∧ i.Blames a before r ∧
        i.firstViolation rules = .ok (some r.label) := by
  induction rules with
  | nil => exact .inl ⟨rfl, fun r hr => absurd hr List.not_mem_nil⟩
  | cons r rest ih =>
      obtain ⟨hr, hrest⟩ := List.forall_mem_cons.1 hrules
      rcases satisfies_singleton hvalues ha hr with hholds | hfails
      · have hskip : i.firstViolation (r :: rest) = i.firstViolation rest := by
          rw [firstViolation, hholds.1]
          rfl
        rw [hskip]
        rcases ih hrest with ⟨hnone, hall⟩ | ⟨before, r', after, rfl, hblames, hfirst⟩
        · exact .inl ⟨hnone, List.forall_mem_cons.2 ⟨hholds.2, hall⟩⟩
        · refine .inr ⟨r :: before, r', after, rfl, ⟨?_, hblames.violated⟩, hfirst⟩
          exact List.forall_mem_cons.2 ⟨hholds, hblames.satisfied⟩
      · refine .inr ⟨[], r, rest, rfl, ⟨fun b hb => absurd hb List.not_mem_nil, hfails⟩, ?_⟩
        rw [firstViolation, hfails.1]
        rfl

/-- The rules hold together exactly if the search for a violation of one of them finds none. -/
theorem isSatisfied_cases (hvalues : i.values = some a) (ha : i.circuit.layout.Fits a)
    (hplan : ∀ r ∈ i.circuit.plan, r.rule.Admissible i.circuit.layout) :
    (i.isSatisfied = .ok true ∧ i.unsatisfiedRule = .ok none) ∨
      (i.isSatisfied = .ok false ∧ ∃ before r after, i.circuit.plan = before ++ r :: after ∧
        i.Blames a before r ∧ i.unsatisfiedRule = .ok (some r.label)) := by
  obtain ⟨answer, hanswer, hiff⟩ := Circuit.satisfies_spec hvalues hplan ha
  rcases firstViolation_spec hvalues ha hplan with ⟨hnone, hall⟩ | ⟨before, r, after, hsplit, hblames, hfirst⟩
  · left
    obtain rfl := hiff.2 hall
    exact ⟨hanswer, hnone⟩
  · right
    have hr : r ∈ i.circuit.plan := hsplit ▸ List.mem_append_right _ List.mem_cons_self
    cases answer with
    | true => exact absurd (hiff.1 rfl r hr) hblames.violated.2
    | false => exact ⟨hanswer, before, r, after, hsplit, hblames, hfirst⟩

end CircuitInstance

namespace ProofSystem

variable {i : CircuitInstance} {a : Assignment}

/-- The prover is run on values that satisfy every row of the system, with that very system. -/
theorem proveInstance_of_satisfied (hvalues : i.values = some a) (hsatisfied : i.isSatisfied = .ok true) :
    ∃ f, i.circuit.system = .ok (i.circuit.systemOf f) ∧
      (i.circuit.systemOf f).holds (Circuit.valuation a f).get = true ∧
      ∀ (ps : ProofSystem) pk b, ps.proveInstance pk i b =
        ps.prove pk (i.circuit.systemOf f) (Circuit.valuation a f) b := by
  have hsteps := hsatisfied
  rw [CircuitInstance.isSatisfied, CircuitInstance.satisfies, hvalues] at hsteps
  obtain ⟨f, hf, hholds⟩ := Outcome.of_bind hsteps
  refine ⟨f, by rw [Circuit.system, hf]; rfl, Except.ok.inj hholds, fun ps pk b => ?_⟩
  rw [proveInstance, hvalues]
  simp only [hsatisfied, hf, Except.mapError]
  rfl

theorem proveInstance_of_violated {label : String} (hvalues : i.values = some a)
    (hsatisfied : i.isSatisfied = .ok false) (hrule : i.unsatisfiedRule = .ok (some label))
    (ps : ProofSystem) (pk : ProvingKey) (b : Groth16.Blinding) :
    ps.proveInstance pk i b = .error (.unsatisfied label) := by
  rw [proveInstance, hvalues]
  simp only [hsatisfied, blame, hrule, Except.mapError]
  rfl

/-- Proving blames the first violated rule.  Of an accepted schema with all of its values, either every
rule holds, no rule is blamed and the prover is run on values that satisfy the system; or the rule that
is blamed is the first that is violated by itself, and its label is the error, whatever the prover is.
Without values there is no proof. -/
theorem blamesFirst {document : Bytes} {s : Schema} (hs : Schema.parseBytes document = .ok s)
    (hc : Circuit.compile s = .ok i.circuit) :
    (i.values = none → i.isSatisfied = .error .assignmentMissing ∧
      ∀ (ps : ProofSystem) pk b, ps.proveInstance pk i b = .error .missingAssignment) ∧
    ∀ a, i.values = some a → i.circuit.layout.Fits a →
      (i.isSatisfied = .ok true ↔ i.unsatisfiedRule = .ok none) ∧
      (i.isSatisfied = .ok true →
        ∃ f, i.circuit.system = .ok (i.circuit.systemOf f) ∧
          (i.circuit.systemOf f).holds (Circuit.valuation a f).get = true ∧
          ∀ (ps : ProofSystem) pk b, ps.proveInstance pk i b =
            ps.prove pk (i.circuit.systemOf f) (Circuit.valuation a f) b) ∧
      (i.isSatisfied ≠ .ok true → i.isSatisfied = .ok false ∧
        ∃ before r after, i.circuit.plan = before ++ r :: after ∧ i.Blames a before r ∧
          i.unsatisfiedRule = .ok (some r.label) ∧
          ∀ (ps : ProofSystem) pk b, ps.proveInstance pk i b = .error (.unsatisfied r.label)) := by
  have hplan := Circuit.plan_admissible (Schema.parseBytes_wellFormed hs) hc
  refine ⟨fun hnone => ⟨?_, fun ps pk b => ?_⟩, fun a hvalues ha => ?_⟩
  · rw [CircuitInstance.isSatisfied, CircuitInstance.satisfies, hnone]
  · rw [proveInstance, hnone]
  · rcases CircuitInstance.isSatisfied_cases hvalues ha hplan with
      ⟨hsatisfied, hrule⟩ | ⟨hsatisfied, before, r, after, hsplit, hblames, hrule⟩
    · refine ⟨iff_of_true hsatisfied hrule, proveInstance_of_satisfied hvalues, fun hnot => ?_⟩
      exact absurd hsatisfied hnot
    · have hnot : i.isSatisfied ≠ .ok true := by
        rw [hsatisfied]
        exact fun h => Bool.false_ne_true (Except.ok.inj h)
      refine ⟨iff_of_false hnot ?_, fun h => absurd h hnot, fun _ => ?_⟩
      · rw [hrule]
        exact fun h => Option.some_ne_none _ (Except.ok.inj h)
      · exact ⟨hsatisfied, before, r, after, hsplit, hblames, hrule,
          proveInstance_of_violated hvalues hsatisfied hrule⟩

/-- The text of a schema of three rules, of which `7` and `8` satisfy only the first one. -/
def contradictoryText : String :=
  "\x7b\"fields\":[\x7b\"name\":\"low\",\"type\":\"integer\"\x7d,\x7b\"name\":\"high\",\"type\":" ++
  "\"integer\"\x7d],\"constraints\":[\x7b\"type\":\"comparison\",\"fields\":[\"low\"],\"operator\":" ++
  "\"ne\",\"value\":9\x7d,\x7b\"type\":\"comparison\",\"fields\":[\"low\",\"high\"],\"operator\":" ++
  "\"eq\",\"error_message\":\"no range\"\x7d,\x7b\"type\":\"comparison\",\"fields\":[\"high\"]," ++
  "\"operator\":\"eq\",\"value\":\"6\"\x7d]\x7d"

/-- Of two rules that are violated, the first one is blamed. -/
theorem blamesFirst_contradictory :
    ∃ (s : Schema) (i : CircuitInstance), Schema.parse contradictoryText = .ok s ∧
      Circuit.compile s = .ok i.circuit ∧ i.values = some ⟨[], [7, 8]⟩ ∧ i.isSatisfied = .ok false ∧
      ∀ (ps : ProofSystem) pk b, ps.proveInstance pk i b = .error (.unsatisfied "no range") := by
  have hrun : Circuit.compilesWith contradictoryText (fun _ c =>
      let i : CircuitInstance := ⟨c, some ⟨[], [7, 8]⟩⟩
      decide (i.isSatisfied = .ok false ∧ i.unsatisfiedRule = .ok (some "no range") ∧
        c.layout.publicFields.length = 0 ∧ c.layout.secretFields.length = 2)) = true := by
    decide +kernel
  obtain ⟨s, c, hs, hc, hfacts⟩ := Circuit.exists_of_compilesWith hrun
  obtain ⟨hviolated, hrule, hinputs, hsecrets⟩ := of_decide_eq_true hfacts
  let i : CircuitInstance := ⟨c, some ⟨[], [7, 8]⟩⟩
  have hc : Circuit.compile s = .ok i.circuit := hc
  obtain ⟨-, -, hblamed⟩ := (blamesFirst hs hc).2 ⟨[], [7, 8]⟩ rfl ⟨hinputs.symm, hsecrets.symm⟩
  have hnot : i.isSatisfied ≠ .ok true := by
    rw [hviolated]
    exact fun h => Bool.false_ne_true (Except.ok.inj h)
  obtain ⟨-, -, r, -, -, -, hfirst, herror⟩ := hblamed hnot
  have hlabel : r.label = "no range" := Option.some.inj (Except.ok.inj (hfirst.symm.trans hrule))
  refine ⟨s, i, hs, hc, rfl, hviolated, ?_⟩
  rw [← hlabel]
  exact herror

end ProofSystem
end PrivatePresentation
