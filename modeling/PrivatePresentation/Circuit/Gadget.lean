import PrivatePresentation.Circuit.System

/-!
Gadgets: pieces of a constraint system that pin down a relation between linear combinations with the
help of further witnesses. Each new witness comes with a hint, which tells an honest prover its value;
the rows alone bind a dishonest one. What is emitted never depends on the values of the variables.
-/

namespace PrivatePresentation

-- Powers of numbers are the core ones.
attribute [local instance (high)] instPowNat

/-- How an honest prover finds the value of a witness. -/
inductive Hint where
  /-- A binary digit of a value. -/
  | bit (of : Combination) (place : Nat)
  /-- One if two values differ, else zero. -/
  | differs (left right : Combination)
  /-- The inverse of the difference of two values, or one if there is none. -/
  | separator (left right : Combination)
  /-- One of two values, by a condition of one or zero. -/
  | choice (condition onTrue onFalse : Combination)
deriving DecidableEq, Repr, Inhabited

/-- The value of a witness. -/
def Hint.eval (v : Variable → Scalar) : Hint → Scalar
  | .bit l place => if (l.eval v).val.testBit place then 1 else 0
  | .differs l r => if l.eval v = r.eval v then 0 else 1
  | .separator l r => if l.eval v = r.eval v then 1 else (l.eval v - r.eval v).inverse
  | .choice c t f => if c.eval v = 1 then t.eval v else f.eval v

/-- Why a constraint cannot be written down, or not be filled in. -/
inductive SynthesisError where
  | unsatisfiable
  | assignmentMissing
deriving DecidableEq, Repr

/-- The text of the error. -/
def SynthesisError.message : SynthesisError → String
  | .unsatisfiable => "unsatisfiable constraint system"
  | .assignmentMissing => "an assignment for a variable could not be computed"

instance : ToString SynthesisError := ⟨SynthesisError.message⟩

/-- What gadgets emit: hints for new witnesses, and rows. -/
structure Fragment where
  hints : List Hint
  rows : List Row
deriving DecidableEq, Repr, Inhabited

/-- One fragment after another. -/
def Fragment.append (a b : Fragment) : Fragment := ⟨a.hints ++ b.hints, a.rows ++ b.rows⟩

/-- Emits a fragment whose first new witness has a given index. -/
def Emit (α : Type) := Nat → Except SynthesisError (α × Fragment)

namespace Emit

/-- Emits nothing. -/
def pure {α : Type} (a : α) : Emit α := fun _ => .ok (a, ⟨[], []⟩)

/-- Emits one thing after another. -/
def bind {α β : Type} (m : Emit α) (f : α → Emit β) : Emit β := fun next =>
  match m next with
  | .error e => .error e
  | .ok (a, first) =>
    match f a (next + first.hints.length) with
    | .error e => .error e
    | .ok (b, second) => .ok (b, first.append second)

instance : Monad Emit where
  pure := pure
  bind := bind

/-- A new witness. -/
def fresh (hint : Hint) : Emit Combination := fun next =>
  .ok (.var (.witness next), ⟨[hint], []⟩)

/-- A new row. -/
def enforce (left right output : Combination) : Emit Unit := fun _ =>
  .ok ((), ⟨[], [⟨left, right, output⟩]⟩)

/-- Nothing can be emitted. -/
def fail {α : Type} (e : SynthesisError) : Emit α := fun _ => .error e

end Emit

/-- A value in a circuit: a constant, or a linear combination of variables. -/
inductive Wire where
  | constant (value : Scalar)
  | linear (combination : Combination)
deriving DecidableEq, Repr, Inhabited

namespace Wire

/-- The value as a combination. -/
def combination : Wire → Combination
  | .constant c => .constant c
  | .linear l => l

/-- The difference of two values. -/
def sub : Wire → Wire → Wire
  | .constant a, .constant b => .constant (a - b)
  | a, b => .linear (a.combination.sub b.combination)

/-- The sum of two values. -/
def add : Wire → Wire → Wire
  | .constant a, .constant b => .constant (a + b)
  | a, b => .linear (a.combination ++ b.combination)

end Wire

namespace Gadget

/-- Number of binary digits of values that can be ordered. -/
def width : Nat := 128

/-- A binary digit of a value. -/
def digit (of : Combination) (place : Nat) : Emit Combination := do
  let b ← Emit.fresh (.bit of place)
  Emit.enforce (Combination.sub (.var .one) b) b []
  return b

/-- The binary digits of a value, beginning with a given place. -/
def digits (of : Combination) : Nat → Nat → Emit (List Combination)
  | _, 0 => return []
  | place, count + 1 => do
    let b ← digit of place
    let rest ← digits of (place + 1) count
    return b :: rest

/-- The combination of binary digits, the lowest first, with the weight of the first one. -/
def weighted : Scalar → List Combination → Combination
  | _, [] => []
  | weight, b :: rest => b.scale weight ++ weighted (weight + weight) rest

/-- The value is below `2 ^ width`. -/
def inDomain : Wire → Emit Unit
  | .constant c => if c.val < 2 ^ width then return () else Emit.fail .unsatisfiable
  | .linear l => do
    let bits ← digits l 0 width
    Emit.enforce (l.sub (weighted 1 bits)) (.var .one) []

/-- The first value is not greater than the second one, both being below `2 ^ width`. -/
def atMost (a b : Wire) : Emit Unit := inDomain (b.sub a)

/-- The two values are equal. -/
def equal (a b : Wire) : Emit Unit :=
  Emit.enforce (a.combination.sub b.combination) (.var .one) []

/-- One if the two values differ, else zero. -/
def differs (a b : Combination) : Emit Combination := do
  let flag ← Emit.fresh (.differs a b)
  let multiplier ← Emit.fresh (.separator a b)
  Emit.enforce (a.sub b) multiplier flag
  Emit.enforce (a.sub b) (Combination.sub (.var .one) flag) []
  return flag

/-- One if the two values are equal, else zero. -/
def isEqual (a b : Wire) : Emit Combination := do
  let flag ← differs a.combination b.combination
  return Combination.sub (.var .one) flag

/-- The two values differ. -/
def notEqual (a b : Wire) : Emit Unit := do
  let same ← isEqual a b
  Emit.enforce same (.var .one) []

/-- One of two values, by a condition of one or zero. -/
def select (condition : Combination) (onTrue onFalse : Wire) : Emit Wire := do
  let t := onTrue.combination
  let f := onFalse.combination
  let r ← Emit.fresh (.choice condition t f)
  Emit.enforce condition (t.sub f) (r.sub f)
  return .linear r

end Gadget
end PrivatePresentation
