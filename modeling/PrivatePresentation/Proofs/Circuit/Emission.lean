import PrivatePresentation.Proofs.Circuit.Combination

/-!
What an emission means.  The rows that it emits demand something of the values of the variables, and
from them the value of its result is known.  Soundness is about all values that satisfy the rows,
however the witnesses were found; completeness is about those that follow the hints.
-/

namespace PrivatePresentation

namespace Hint

/-- The hint reads witnesses below a bound only. -/
def ReadsBelow (n : Nat) : Hint → Prop
  | .bit l _ => Below n l
  | .differs l r => Below n l ∧ Below n r
  | .separator l r => Below n l ∧ Below n r
  | .choice c t f => Below n c ∧ Below n t ∧ Below n f

theorem eval_congr {n : Nat} {v w : Variable → Scalar} {hint : Hint} (hint_below : hint.ReadsBelow n)
    (hagree : ∀ x, Below n x → v x = w x) : hint.eval v = hint.eval w := by
  cases hint with
  | bit l place => simp only [eval, Combination.eval_congr hint_below hagree]
  | differs l r =>
      simp only [eval, Combination.eval_congr hint_below.1 hagree,
        Combination.eval_congr hint_below.2 hagree]
  | separator l r =>
      simp only [eval, Combination.eval_congr hint_below.1 hagree,
        Combination.eval_congr hint_below.2 hagree]
  | choice c t f =>
      simp only [eval, Combination.eval_congr hint_below.1 hagree,
        Combination.eval_congr hint_below.2.1 hagree,
        Combination.eval_congr hint_below.2.2 hagree]

end Hint

/-- Each hint reads only what stands before its own witness. -/
def OrderedFrom : Nat → List Hint → Prop
  | _, [] => True
  | next, h :: rest => h.ReadsBelow next ∧ OrderedFrom (next + 1) rest

/-- The witnesses have the values that their hints give. -/
def HonestFrom (v : Variable → Scalar) : Nat → List Hint → Prop
  | _, [] => True
  | next, h :: rest => v (.witness next) = h.eval v ∧ HonestFrom v (next + 1) rest

theorem orderedFrom_append {next : Nat} {first second : List Hint}
    (hfirst : OrderedFrom next first) (hsecond : OrderedFrom (next + first.length) second) :
    OrderedFrom next (first ++ second) := by
  induction first generalizing next with
  | nil => exact hsecond
  | cons h rest ih =>
      refine ⟨hfirst.1, ih hfirst.2 ?_⟩
      rwa [Nat.add_assoc, Nat.add_comm 1]

theorem honestFrom_append {v : Variable → Scalar} {next : Nat} {first second : List Hint} :
    HonestFrom v next (first ++ second) ↔
      HonestFrom v next first ∧ HonestFrom v (next + first.length) second := by
  induction first generalizing next with
  | nil => simp [HonestFrom]
  | cons h rest ih =>
      simp only [List.cons_append, HonestFrom, ih, List.length_cons, and_assoc, Nat.add_assoc,
        Nat.add_comm 1]

namespace Fragment

/-- Every row of the fragment holds of the values. -/
def Satisfied (f : Fragment) (v : Variable → Scalar) : Prop := ∀ row ∈ f.rows, row.holds v = true

theorem satisfied_append {a b : Fragment} {v : Variable → Scalar} :
    (a.append b).Satisfied v ↔ a.Satisfied v ∧ b.Satisfied v := by
  simp only [Satisfied, append, List.mem_append, or_imp, forall_and]

@[simp]
theorem append_empty (f : Fragment) : f.append ⟨[], []⟩ = f := by
  simp [append]

@[simp]
theorem empty_append (f : Fragment) : Fragment.append ⟨[], []⟩ f = f := rfl

@[simp]
theorem length_hints_append (a b : Fragment) :
    (a.append b).hints.length = a.hints.length + b.hints.length := List.length_append

end Fragment

theorem Row.holds_iff {v : Variable → Scalar} {left right output : Combination} :
    Row.holds v ⟨left, right, output⟩ = true ↔
      left.eval v * right.eval v = output.eval v := by
  simp [Row.holds]

namespace Emit

variable {α β : Type}

theorem bind_run {m : Emit α} {g : α → Emit β} {next : Nat} {a : α} {b : β} {first second : Fragment}
    (hm : m next = .ok (a, first)) (hg : g a (next + first.hints.length) = .ok (b, second)) :
    (m >>= g) next = .ok (b, first.append second) := by
  change Emit.bind m g next = _
  simp only [Emit.bind, hm, hg]

theorem of_bind {m : Emit α} {g : α → Emit β} {next : Nat} {b : β} {f : Fragment}
    (h : (m >>= g) next = .ok (b, f)) : ∃ a first second, m next = .ok (a, first) ∧
      g a (next + first.hints.length) = .ok (b, second) ∧ f = first.append second := by
  change Emit.bind m g next = _ at h
  unfold Emit.bind at h
  split at h
  · cases h
  · rename_i a first hm
    split at h
    · cases h
    · rename_i c second hg
      obtain ⟨rfl, rfl⟩ := Prod.mk.inj (Except.ok.inj h)
      exact ⟨a, first, second, hm, hg, rfl⟩

/-- What a run of an emission from some witness on brings about, of all values with some property:
the rows hold of them only if the demand does, the result yields what is told of it, and the rows do
hold of values that follow the hints and meet the demand. -/
structure Brings [Bounded α] (given demand : (Variable → Scalar) → Prop)
    (yields : (Variable → Scalar) → α → Prop) (next : Nat) (a : α) (f : Fragment) : Prop where
  ordered : OrderedFrom next f.hints
  below : Below (next + f.hints.length) a
  sound : ∀ v, given v → f.Satisfied v → demand v ∧ yields v a
  complete : ∀ v, given v → HonestFrom v next f.hints → yields v a ∧ (demand v → f.Satisfied v)

/-- The emission succeeds from some witness on, and means what is told of it. -/
def Meets [Bounded α] (m : Emit α) (next : Nat) (given demand : (Variable → Scalar) → Prop)
    (yields : (Variable → Scalar) → α → Prop) : Prop :=
  ∃ a f, m next = .ok (a, f) ∧ Brings given demand yields next a f

/-- An emission with nothing to tell of its result. -/
abbrev Demands (m : Emit Unit) (next : Nat) (given demand : (Variable → Scalar) → Prop) : Prop :=
  m.Meets next given demand fun _ _ => True

section Rules

variable [Bounded α] [Bounded β] {m : Emit α} {g : α → Emit β} {next : Nat}
  {given demand : (Variable → Scalar) → Prop} {yields : (Variable → Scalar) → α → Prop}

/-- The demand may be told in another way, and the result in a weaker one, as far as the given values
allow. -/
theorem Meets.weaken {demand' : (Variable → Scalar) → Prop}
    {yields' : (Variable → Scalar) → α → Prop} (hm : m.Meets next given demand yields)
    (hdemand : ∀ v, given v → (demand v ↔ demand' v))
    (hyields : ∀ v a, given v → yields v a → yields' v a) :
    m.Meets next given demand' yields' := by
  obtain ⟨a, f, hrun, hbrings⟩ := hm
  refine ⟨a, f, hrun, hbrings.ordered, hbrings.below, ?_, ?_⟩
  · intro v hv hsat
    obtain ⟨hd, hy⟩ := hbrings.sound v hv hsat
    exact ⟨(hdemand v hv).1 hd, hyields v a hv hy⟩
  · intro v hv hhonest
    obtain ⟨hy, hd⟩ := hbrings.complete v hv hhonest
    exact ⟨hyields v a hv hy, fun h => hd ((hdemand v hv).2 h)⟩

theorem Meets.congr {demand' : (Variable → Scalar) → Prop}
    (hm : m.Meets next given demand yields) (hdemand : ∀ v, given v → (demand v ↔ demand' v)) :
    m.Meets next given demand' yields :=
  hm.weaken hdemand fun _ _ _ h => h

theorem Meets.assuming {given' : (Variable → Scalar) → Prop} (hm : m.Meets next given demand yields)
    (hgiven : ∀ v, given' v → given v) : m.Meets next given' demand yields := by
  obtain ⟨a, f, hrun, hbrings⟩ := hm
  refine ⟨a, f, hrun, hbrings.ordered, hbrings.below, ?_, ?_⟩
  · exact fun v hv => hbrings.sound v (hgiven v hv)
  · exact fun v hv => hbrings.complete v (hgiven v hv)

theorem Meets.pure (a : α) (ha : Below next a) (hyields : ∀ v, given v → yields v a) :
    (Emit.pure a).Meets next given (fun _ => True) yields := by
  refine ⟨a, ⟨[], []⟩, rfl, trivial, ha, fun v hv _ => ⟨trivial, hyields v hv⟩, ?_⟩
  intro v hv _
  refine ⟨hyields v hv, fun _ row hrow => ?_⟩
  cases hrow

/-- One emission after another.  What the first yields may be used of the second. -/
theorem Meets.bind {demand' : (Variable → Scalar) → Prop}
    {yields' : (Variable → Scalar) → β → Prop} (hm : m.Meets next given demand yields)
    (hg : ∀ a n, next ≤ n → Below n a →
      (g a).Meets n (fun v => given v ∧ yields v a) demand' yields') :
    (m >>= g).Meets next given (fun v => demand v ∧ demand' v) yields' := by
  obtain ⟨a, first, hfirst, hbrings⟩ := hm
  obtain ⟨b, second, hsecond, hbrings'⟩ :=
    hg a (next + first.hints.length) (Nat.le_add_right _ _) hbrings.below
  refine ⟨b, first.append second, bind_run hfirst hsecond, ?_, ?_, ?_, ?_⟩
  · exact orderedFrom_append hbrings.ordered hbrings'.ordered
  · rw [Fragment.length_hints_append, ← Nat.add_assoc]
    exact hbrings'.below
  · intro v hv hsat
    obtain ⟨hsat₁, hsat₂⟩ := Fragment.satisfied_append.1 hsat
    obtain ⟨hdemand, hyields⟩ := hbrings.sound v hv hsat₁
    obtain ⟨hdemand', hyields'⟩ := hbrings'.sound v ⟨hv, hyields⟩ hsat₂
    exact ⟨⟨hdemand, hdemand'⟩, hyields'⟩
  · intro v hv hhonest
    obtain ⟨hhonest₁, hhonest₂⟩ := honestFrom_append.1 hhonest
    obtain ⟨hyields, hsat₁⟩ := hbrings.complete v hv hhonest₁
    obtain ⟨hyields', hsat₂⟩ := hbrings'.complete v ⟨hv, hyields⟩ hhonest₂
    exact ⟨hyields', fun h => Fragment.satisfied_append.2 ⟨hsat₁ h.1, hsat₂ h.2⟩⟩

/-- A demand, and then another emission. -/
theorem Demands.bind {m : Emit Unit} {g : Unit → Emit β} {demand' : (Variable → Scalar) → Prop}
    {yields' : (Variable → Scalar) → β → Prop} (hm : m.Demands next given demand)
    (hg : ∀ n, next ≤ n → (g ()).Meets n given demand' yields') :
    (m >>= g).Meets next given (fun v => demand v ∧ demand' v) yields' := by
  apply Meets.bind hm
  intro a n hn _
  exact (hg n hn).assuming fun v hv => hv.1

/-- An emission that only makes a value, and then another one. -/
theorem Meets.bind_value {demand' : (Variable → Scalar) → Prop}
    {yields' : (Variable → Scalar) → β → Prop} (hm : m.Meets next given (fun _ => True) yields)
    (hg : ∀ a n, next ≤ n → Below n a →
      (g a).Meets n (fun v => given v ∧ yields v a) demand' yields') :
    (m >>= g).Meets next given demand' yields' :=
  (hm.bind hg).congr fun _ _ => Iff.of_eq (true_and _)

end Rules

/-- A single row. -/
theorem enforce_demands {next : Nat} {given : (Variable → Scalar) → Prop}
    (left right output : Combination) :
    (enforce left right output).Demands next given
      fun v => left.eval v * right.eval v = output.eval v := by
  refine ⟨(), ⟨[], [⟨left, right, output⟩]⟩, rfl, trivial, trivial, ?_, ?_⟩
  · intro v _ hsat
    exact ⟨Row.holds_iff.1 (hsat _ List.mem_cons_self), trivial⟩
  · intro v _ _
    refine ⟨trivial, fun hrow row hmem => ?_⟩
    rw [List.mem_singleton.1 hmem]
    exact Row.holds_iff.2 hrow

end Emit
end PrivatePresentation
