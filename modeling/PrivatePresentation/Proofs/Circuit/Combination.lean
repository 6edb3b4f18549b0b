import PrivatePresentation.Circuit.Gadget
import PrivatePresentation.Proofs.Field.Residue

/-!
Values of linear combinations and of wires, and the variables that they read.  What reads only the
witnesses below some bound keeps its value when later witnesses are chosen.
-/

namespace PrivatePresentation

open scoped Fin.CommRing

namespace Combination

variable (v : Variable → Scalar)

theorem foldl_eval (acc : Scalar) (l : Combination) :
    l.foldl (fun acc term => acc + term.1 * v term.2) acc = acc + eval v l := by
  induction l generalizing acc with
  | nil => simp [eval]
  | cons term rest ih =>
      rw [eval, List.foldl_cons, List.foldl_cons, ih, ih (0 + term.1 * v term.2)]
      ring

@[simp]
theorem eval_nil : eval v [] = 0 := rfl

@[simp]
theorem eval_cons (term : Scalar × Variable) (l : Combination) :
    eval v (term :: l) = term.1 * v term.2 + eval v l := by
  rw [eval, List.foldl_cons, foldl_eval]
  ring

@[simp]
theorem eval_append (l r : Combination) : eval v (l ++ r) = eval v l + eval v r := by
  induction l with
  | nil => simp
  | cons term rest ih =>
      rw [List.cons_append, eval_cons, eval_cons, ih]
      ring

@[simp]
theorem eval_constant (c : Scalar) (hone : v .one = 1) : eval v (constant c) = c := by
  simp [constant, hone]

@[simp]
theorem eval_var (x : Variable) : eval v (var x) = v x := by
  simp [var]

@[simp]
theorem eval_neg (l : Combination) : eval v (neg l) = -eval v l := by
  induction l with
  | nil => simp [neg]
  | cons term rest ih =>
      have hneg : neg (term :: rest) = (-term.1, term.2) :: neg rest := rfl
      rw [hneg, eval_cons, eval_cons, ih]
      ring

@[simp]
theorem eval_sub (l r : Combination) : eval v (sub l r) = eval v l - eval v r := by
  rw [sub, eval_append, eval_neg]
  ring

@[simp]
theorem eval_scale (k : Scalar) (l : Combination) : eval v (scale k l) = k * eval v l := by
  induction l with
  | nil => simp [scale]
  | cons term rest ih =>
      have hscale : scale k (term :: rest) = (k * term.1, term.2) :: scale k rest := rfl
      rw [hscale, eval_cons, eval_cons, ih]
      ring

end Combination

/-- Things that read witnesses below a bound only. -/
class Bounded (α : Type) where
  Below : Nat → α → Prop
  mono : ∀ {m n : Nat} {a : α}, m ≤ n → Below m a → Below n a

export Bounded (Below)

instance : Bounded Variable where
  Below n
    | .witness i => i < n
    | _ => True
  mono {m n x} hle h := by
    cases x with
    | witness i => exact Nat.lt_of_lt_of_le h hle
    | one => trivial
    | input i => trivial

instance : Bounded Unit where
  Below _ _ := True
  mono _ h := h

instance : Bounded (Scalar × Variable) where
  Below n term := Below n term.2
  mono hle h := Bounded.mono hle h

instance {α : Type} [Bounded α] : Bounded (List α) where
  Below n l := ∀ a ∈ l, Below n a
  mono hle h := fun a ha => Bounded.mono hle (h a ha)

instance : Bounded Wire where
  Below n
    | .constant _ => True
    | .linear l => Below n l
  mono {m n w} hle h := by
    cases w with
    | constant c => trivial
    | linear l => exact Bounded.mono (α := Combination) hle h

namespace Combination

theorem below_append {n : Nat} {l r : Combination} (hl : Below n l) (hr : Below n r) :
    Below n (l ++ r) := by
  intro term hterm
  rcases List.mem_append.1 hterm with h | h
  · exact hl term h
  · exact hr term h

theorem below_map_fst {n : Nat} {l : Combination} (f : Scalar → Scalar) (hl : Below n l) :
    Below n (l.map fun (c, x) => (f c, x)) := by
  intro term hterm
  obtain ⟨old, hold, rfl⟩ := List.mem_map.1 hterm
  exact hl old hold

theorem below_sub {n : Nat} {l r : Combination} (hl : Below n l) (hr : Below n r) :
    Below n (sub l r) :=
  below_append hl (below_map_fst (fun c => -c) hr)

theorem below_constant (n : Nat) (c : Scalar) : Below n (constant c) := by
  intro term hterm
  rw [List.mem_singleton.1 hterm]
  trivial

theorem below_var {n : Nat} {x : Variable} (hx : Below n x) : Below n (var x) := by
  intro term hterm
  rw [List.mem_singleton.1 hterm]
  exact hx

/-- A combination has the same value wherever the variables that it reads have. -/
theorem eval_congr {n : Nat} {v w : Variable → Scalar} {l : Combination} (hl : Below n l)
    (hagree : ∀ x, Below n x → v x = w x) : eval v l = eval w l := by
  induction l with
  | nil => rfl
  | cons term rest ih =>
      have hhead : v term.2 = w term.2 := hagree term.2 (hl term List.mem_cons_self)
      have htail : eval v rest = eval w rest :=
        ih fun other hother => hl other (List.mem_cons_of_mem term hother)
      rw [eval_cons, eval_cons, hhead, htail]

end Combination

namespace Wire

/-- The value of a wire. -/
def eval (v : Variable → Scalar) : Wire → Scalar
  | .constant c => c
  | .linear l => l.eval v

/-- The wire is a combination of variables, so that gadgets can be laid on it. -/
def IsLinear : Wire → Prop
  | .constant _ => False
  | .linear _ => True

variable {v : Variable → Scalar}

theorem eval_combination (hone : v .one = 1) (w : Wire) : w.combination.eval v = w.eval v := by
  cases w with
  | constant c => exact Combination.eval_constant v c hone
  | linear l => rfl

theorem eval_sub (hone : v .one = 1) (a b : Wire) : (a.sub b).eval v = a.eval v - b.eval v := by
  cases a <;> cases b <;> simp [sub, eval, combination, hone]

theorem eval_add (hone : v .one = 1) (a b : Wire) : (a.add b).eval v = a.eval v + b.eval v := by
  cases a <;> cases b <;> simp [add, eval, combination, hone]

theorem below_combination {n : Nat} {w : Wire} (hw : Below n w) : Below n w.combination := by
  cases w with
  | constant c => exact Combination.below_constant n c
  | linear l => exact hw

theorem below_sub {n : Nat} {a b : Wire} (ha : Below n a) (hb : Below n b) :
    Below n (a.sub b) := by
  have hcombination := Combination.below_sub (below_combination ha) (below_combination hb)
  cases a <;> cases b <;> trivial

theorem below_add {n : Nat} {a b : Wire} (ha : Below n a) (hb : Below n b) :
    Below n (a.add b) := by
  have hcombination := Combination.below_append (below_combination ha) (below_combination hb)
  cases a <;> cases b <;> trivial

theorem isLinear_sub_left {a : Wire} (ha : a.IsLinear) (b : Wire) : (a.sub b).IsLinear := by
  cases a with
  | constant c => exact ha.elim
  | linear l => trivial

theorem isLinear_sub_right (a : Wire) {b : Wire} (hb : b.IsLinear) : (a.sub b).IsLinear := by
  cases b with
  | constant c => exact hb.elim
  | linear l => cases a <;> trivial

theorem isLinear_add_left {a : Wire} (ha : a.IsLinear) (b : Wire) : (a.add b).IsLinear := by
  cases a with
  | constant c => exact ha.elim
  | linear l => trivial

end Wire
end PrivatePresentation
