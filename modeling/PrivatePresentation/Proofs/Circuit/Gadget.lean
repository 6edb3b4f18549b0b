import PrivatePresentation.Proofs.Circuit.Emission

/-!
What each gadget demands and yields.  A gadget binds every prover to its meaning, and the hints always
find witnesses for values that have it.
-/

namespace PrivatePresentation

open scoped Fin.CommRing

/-- A residue that can be ordered. -/
def Scalar.InDomain (x : Scalar) : Prop := x.val < 2 ^ Gadget.width

namespace Gadget

open Combination

variable {next : Nat} {given : (Variable → Scalar) → Prop}

theorem eq_zero_or_one_of_row {x : Scalar} (hrow : (1 - x) * x = 0) : x = 0 ∨ x = 1 := by
  rcases mul_eq_zero.1 hrow with h | h
  · exact Or.inr (sub_eq_zero.1 h).symm
  · exact Or.inl h

/-- The lowest digit of a number and the number of the others. -/
theorem digit_add_rest (x place count : Nat) :
    x / 2 ^ place % 2 ^ (count + 1) =
      (if x.testBit place then 1 else 0) + 2 * (x / 2 ^ (place + 1) % 2 ^ count) := by
  have hbit : (if x.testBit place then 1 else 0) = x / 2 ^ place % 2 := by
    rw [Nat.testBit_eq_decide_div_mod_eq]
    have hlt : x / 2 ^ place % 2 < 2 := Nat.mod_lt _ (by omega)
    split <;> simp_all
  rw [hbit, pow_succ' 2 count, Nat.mod_mul, pow_succ 2 place, Nat.div_div_eq_div_mul]

/-- The digits are one or zero of every prover, and those of the value of an honest one. -/
theorem digits_spec (of : Combination) (count place next : Nat) (hof : Below next of) :
    ∃ bits f, digits of place count next = .ok (bits, f) ∧
      OrderedFrom next f.hints ∧ Below (next + f.hints.length) bits ∧
      (∀ v w, v .one = 1 → f.Satisfied v →
        ∃ n : Nat, n < 2 ^ count ∧ (weighted w bits).eval v = w * (n : Scalar)) ∧
      (∀ v w, v .one = 1 → HonestFrom v next f.hints → f.Satisfied v ∧
        (weighted w bits).eval v =
          w * (((of.eval v).val / 2 ^ place % 2 ^ count : Nat) : Scalar)) := by
  induction count generalizing place next with
  | zero =>
      refine ⟨[], ⟨[], []⟩, rfl, trivial, fun a ha => absurd ha List.not_mem_nil, ?_, ?_⟩
      · intro v w _ _
        exact ⟨0, by simp, by simp [weighted]⟩
      · intro v w _ _
        refine ⟨fun row hrow => absurd hrow List.not_mem_nil, ?_⟩
        simp [weighted, Nat.mod_one]
  | succ count ih =>
      obtain ⟨bits, f, hrun, hordered, hbelow, hsound, hcomplete⟩ :=
        ih (place + 1) (next + 1) (Bounded.mono (Nat.le_succ next) hof)
      let b := var (.witness next)
      let first : Fragment := ⟨[.bit of place], [⟨sub (var .one) b, b, []⟩]⟩
      have hrest : (digits of (place + 1) count >>= fun rest => pure (b :: rest)) (next + 1) =
          .ok (b :: bits, f) := by
        rw [← f.append_empty]
        exact Emit.bind_run hrun rfl
      have hdigits : digits of place (count + 1) next = .ok (b :: bits, first.append f) :=
        Emit.bind_run (m := digit of place) rfl hrest
      refine ⟨b :: bits, first.append f, hdigits, ?_, ?_, ?_, ?_⟩
      · exact orderedFrom_append (show OrderedFrom next first.hints from ⟨hof, trivial⟩) hordered
      · rw [Fragment.length_hints_append, ← Nat.add_assoc]
        intro l hl
        rcases List.mem_cons.1 hl with rfl | hl
        · exact below_var (Nat.lt_of_lt_of_le (Nat.lt_succ_self next) (Nat.le_add_right _ _))
        · exact hbelow l hl
      · intro v w hone hsat
        obtain ⟨hfirst, hrest⟩ := Fragment.satisfied_append.1 hsat
        have hrow := Row.holds_iff.1 (hfirst _ List.mem_cons_self)
        simp only [eval_sub, eval_var, eval_nil, hone, b] at hrow
        obtain ⟨n, hn, heval⟩ := hsound v (w + w) hone hrest
        simp only [weighted, eval_append, eval_scale, eval_var, heval, b]
        rcases eq_zero_or_one_of_row hrow with h | h
        · exact ⟨2 * n, by rw [pow_succ]; omega, by rw [h]; push_cast; ring⟩
        · exact ⟨2 * n + 1, by rw [pow_succ]; omega, by rw [h]; push_cast; ring⟩
      · intro v w hone hhonest
        obtain ⟨hfirst, hrest⟩ := (@honestFrom_append v next first.hints f.hints).1 hhonest
        have hbit : v (.witness next) = if (of.eval v).val.testBit place then 1 else 0 := hfirst.1
        obtain ⟨hsat, heval⟩ := hcomplete v (w + w) hone hrest
        refine ⟨Fragment.satisfied_append.2 ⟨?_, hsat⟩, ?_⟩
        · intro row hrow
          rw [List.mem_singleton.1 hrow, Row.holds_iff]
          simp only [eval_sub, eval_var, eval_nil, hone, hbit, b]
          split <;> ring
        · simp only [weighted, eval_append, eval_scale, eval_var, heval, b, hbit, digit_add_rest]
          split <;> push_cast <;> ring

/-- A combination of variables is in the domain. -/
theorem inDomain_linear (l : Combination) (hl : Below next l) (hone : ∀ v, given v → v .one = 1) :
    (inDomain (.linear l)).Demands next given fun v => (l.eval v).InDomain := by
  obtain ⟨bits, f, hrun, hordered, hbelow, hsound, hcomplete⟩ := digits_spec l width 0 next hl
  let last : Fragment := ⟨[], [⟨sub l (weighted 1 bits), var .one, []⟩]⟩
  have hemit : inDomain (.linear l) next = .ok ((), f.append last) := Emit.bind_run hrun rfl
  have hhints : (f.append last).hints = f.hints := List.append_nil _
  refine ⟨(), f.append last, hemit, by rwa [hhints], trivial, ?_, ?_⟩
  · intro v hv hsat
    obtain ⟨hfirst, hlast⟩ := Fragment.satisfied_append.1 hsat
    obtain ⟨n, hn, heval⟩ := hsound v 1 (hone v hv) hfirst
    have hrow := Row.holds_iff.1 (hlast _ List.mem_cons_self)
    simp only [eval_sub, eval_var, eval_nil, hone v hv, heval, mul_one, one_mul] at hrow
    have hvalue : l.eval v = (n : Scalar) := sub_eq_zero.1 hrow
    refine ⟨?_, trivial⟩
    rw [hvalue]
    exact Nat.lt_of_le_of_lt (Nat.mod_le n scalarOrder) hn
  · intro v hv hhonest
    rw [hhints] at hhonest
    obtain ⟨hsat, heval⟩ := hcomplete v 1 (hone v hv) hhonest
    refine ⟨trivial, fun hlt => Fragment.satisfied_append.2 ⟨hsat, ?_⟩⟩
    intro row hrow
    rw [pow_zero, Nat.div_one, Nat.mod_eq_of_lt hlt, Fin.cast_val_eq_self, one_mul] at heval
    rw [List.mem_singleton.1 hrow, Row.holds_iff]
    simp [heval]

/-- A wire is in the domain; a constant that is not cannot be emitted. -/
theorem inDomain_demands {w : Wire} (hw : Below next w) (hone : ∀ v, given v → v .one = 1)
    (hconstant : ∀ c, w = .constant c → c.InDomain) :
    (inDomain w).Demands next given fun v => (w.eval v).InDomain := by
  cases w with
  | linear l => exact inDomain_linear l hw hone
  | constant c =>
      have hc : c.InDomain := hconstant c rfl
      have hemit : inDomain (.constant c) = Emit.pure () := if_pos hc
      rw [hemit]
      exact (Emit.Meets.pure () trivial fun _ _ => trivial).congr fun v _ => by
        simpa [Wire.eval] using hc

theorem atMost_demands {a b : Wire} (ha : Below next a) (hb : Below next b)
    (hlinear : a.IsLinear ∨ b.IsLinear) (hone : ∀ v, given v → v .one = 1) :
    (atMost a b).Demands next given fun v => (b.eval v - a.eval v).InDomain := by
  have hsub : (b.sub a).IsLinear := by
    rcases hlinear with h | h
    · exact Wire.isLinear_sub_right b h
    · exact Wire.isLinear_sub_left h a
  have hdemand := inDomain_demands (Wire.below_sub hb ha) hone fun c hc => by
    rw [hc] at hsub
    exact hsub.elim
  exact hdemand.congr fun v hv => by rw [Wire.eval_sub (hone v hv)]

theorem equal_demands {a b : Wire} (hone : ∀ v, given v → v .one = 1) :
    (equal a b).Demands next given fun v => a.eval v = b.eval v := by
  refine (Emit.enforce_demands _ _ _).congr fun v hv => ?_
  simp only [eval_sub, eval_var, eval_nil, hone v hv, mul_one, Wire.eval_combination (hone v hv)]
  exact sub_eq_zero

/-- The flag is forced: equal values make the first row tell zero, and other values leave only one by
the second row. -/
theorem differs_yields {a b : Combination} (ha : Below next a) (hb : Below next b)
    (hone : ∀ v, given v → v .one = 1) :
    (differs a b).Meets next given (fun _ => True)
      fun v flag => flag.eval v = if a.eval v = b.eval v then 0 else 1 := by
  let flag := var (.witness next)
  let separator := var (.witness (next + 1))
  let f : Fragment := ⟨[.differs a b, .separator a b],
    [⟨sub a b, separator, flag⟩, ⟨sub a b, sub (var .one) flag, []⟩]⟩
  have hrun : differs a b next = .ok (flag, f) := rfl
  have hnext : next ≤ next + 1 := Nat.le_succ next
  refine ⟨flag, f, hrun, ?_, ?_, ?_, ?_⟩
  · exact ⟨⟨ha, hb⟩, ⟨Bounded.mono hnext ha, Bounded.mono hnext hb⟩, trivial⟩
  · exact below_var (Nat.lt_add_of_pos_right Nat.two_pos)
  · intro v hv hsat
    have hseparator := Row.holds_iff.1 (hsat _ List.mem_cons_self)
    have hflag := Row.holds_iff.1 (hsat _ (List.mem_cons_of_mem _ List.mem_cons_self))
    simp only [eval_sub, eval_var, eval_nil, hone v hv, flag, separator] at hseparator hflag
    refine ⟨trivial, ?_⟩
    rw [eval_var]
    split
    · rename_i heq
      rw [heq, sub_self, zero_mul] at hseparator
      exact hseparator.symm
    · rename_i hne
      rcases mul_eq_zero.1 hflag with h | h
      · exact absurd (sub_eq_zero.1 h) hne
      · exact (sub_eq_zero.1 h).symm
  · intro v hv hhonest
    have hflag : v (.witness next) = if a.eval v = b.eval v then 0 else 1 := hhonest.1
    have hseparator : v (.witness (next + 1)) =
        if a.eval v = b.eval v then 1 else (a.eval v - b.eval v).inverse := hhonest.2.1
    refine ⟨by rw [eval_var, hflag], fun _ row hrow => ?_⟩
    rcases List.mem_cons.1 hrow with rfl | hrow
    · rw [Row.holds_iff]
      simp only [eval_sub, eval_var, hflag, hseparator, flag, separator]
      split
      · rename_i heq
        rw [heq, sub_self, zero_mul]
      · rename_i hne
        exact Scalar.mul_inverse (sub_ne_zero.2 hne)
    · rw [List.mem_singleton.1 hrow, Row.holds_iff]
      simp only [eval_sub, eval_var, eval_nil, hone v hv, hflag, flag]
      split
      · rename_i heq
        rw [heq, sub_self, zero_mul]
      · rw [sub_self, mul_zero]

theorem isEqual_yields {a b : Wire} (ha : Below next a) (hb : Below next b)
    (hone : ∀ v, given v → v .one = 1) :
    (isEqual a b).Meets next given (fun _ => True)
      fun v same => same.eval v = if a.eval v = b.eval v then 1 else 0 := by
  apply Emit.Meets.bind_value
    (differs_yields (Wire.below_combination ha) (Wire.below_combination hb) hone)
  intro flag n _ hflag
  apply Emit.Meets.pure
  · exact below_sub (below_var trivial) hflag
  · rintro v ⟨hv, hyields⟩
    rw [eval_sub, eval_var, hone v hv, hyields, Wire.eval_combination (hone v hv),
      Wire.eval_combination (hone v hv)]
    split <;> ring

theorem notEqual_demands {a b : Wire} (ha : Below next a) (hb : Below next b)
    (hone : ∀ v, given v → v .one = 1) :
    (notEqual a b).Demands next given fun v => a.eval v ≠ b.eval v := by
  apply Emit.Meets.bind_value (isEqual_yields ha hb hone)
  intro same n _ _
  refine (Emit.enforce_demands _ _ _).congr ?_
  rintro v ⟨hv, hsame⟩
  simp only [eval_var, eval_nil, hone v hv, mul_one, hsame]
  split <;> simp_all

/-- The choice between two values is forced by a condition of one or zero. -/
theorem select_yields {condition : Combination} {t f : Wire} (hcondition : Below next condition)
    (ht : Below next t) (hf : Below next f) (hone : ∀ v, given v → v .one = 1)
    (hbinary : ∀ v, given v → condition.eval v = 0 ∨ condition.eval v = 1) :
    (select condition t f).Meets next given (fun _ => True)
      fun v w => w.eval v = if condition.eval v = 1 then t.eval v else f.eval v := by
  let r := var (.witness next)
  let fragment : Fragment := ⟨[.choice condition t.combination f.combination],
    [⟨condition, sub t.combination f.combination, sub r f.combination⟩]⟩
  have hrun : select condition t f next = .ok (.linear r, fragment) := rfl
  refine ⟨.linear r, fragment, hrun, ?_, ?_, ?_, ?_⟩
  · exact ⟨⟨hcondition, Wire.below_combination ht, Wire.below_combination hf⟩, trivial⟩
  · exact below_var (Nat.lt_succ_self next)
  · intro v hv hsat
    have hrow := Row.holds_iff.1 (hsat _ List.mem_cons_self)
    simp only [eval_sub, eval_var, Wire.eval_combination (hone v hv), r] at hrow
    refine ⟨trivial, ?_⟩
    change (var (.witness next)).eval v = _
    rw [eval_var]
    rcases hbinary v hv with h | h
    · rw [h, zero_mul] at hrow
      rw [if_neg (by rw [h]; exact zero_ne_one)]
      exact sub_eq_zero.1 hrow.symm
    · rw [h, one_mul] at hrow
      rw [if_pos h]
      exact (sub_left_injective hrow).symm
  · intro v hv hhonest
    have hvalue : v (.witness next) =
        if condition.eval v = 1 then t.combination.eval v else f.combination.eval v := hhonest.1
    rw [Wire.eval_combination (hone v hv), Wire.eval_combination (hone v hv)] at hvalue
    refine ⟨?_, fun _ row hrow => ?_⟩
    · change (var (.witness next)).eval v = _
      rw [eval_var, hvalue]
    · rw [List.mem_singleton.1 hrow, Row.holds_iff]
      simp only [eval_sub, eval_var, Wire.eval_combination (hone v hv), hvalue, r]
      rcases hbinary v hv with h | h
      · rw [h, zero_mul, if_neg zero_ne_one, sub_self]
      · rw [h, one_mul, if_pos rfl]

end Gadget
end PrivatePresentation
