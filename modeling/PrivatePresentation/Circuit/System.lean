import PrivatePresentation.Field.Prime

/-!
Systems of rank-one constraints. Each row demands that the product of two linear combinations of the
variables is a third one. The variables are the constant one, the public inputs, and the witnesses.
-/

namespace PrivatePresentation

/-- A variable of a system. -/
inductive Variable where
  | one
  | input (index : Nat)
  | witness (index : Nat)
deriving DecidableEq, Repr, Inhabited

/-- A linear combination of variables: coefficients with their variables. -/
abbrev Combination := List (Scalar × Variable)

/-- The values of the variables. -/
structure Valuation where
  inputs : Array Scalar
  witnesses : Array Scalar
deriving Inhabited

/-- The value of a variable; zero where none is given. -/
def Valuation.get (v : Valuation) : Variable → Scalar
  | .one => 1
  | .input i => v.inputs.getD i 0
  | .witness i => v.witnesses.getD i 0

namespace Combination

/-- A constant. -/
def constant (c : Scalar) : Combination := [(c, .one)]

/-- A single variable. -/
def var (x : Variable) : Combination := [(1, x)]

/-- The opposite of a combination. -/
def neg (l : Combination) : Combination := l.map fun (c, x) => (-c, x)

/-- The difference of two combinations. -/
def sub (l r : Combination) : Combination := l ++ neg r

/-- The multiple of a combination. -/
def scale (k : Scalar) (l : Combination) : Combination := l.map fun (c, x) => (k * c, x)

/-- The value of a combination. -/
def eval (v : Variable → Scalar) (l : Combination) : Scalar :=
  l.foldl (fun acc term => acc + term.1 * v term.2) 0

end Combination

/-- A constraint: `left * right = output`. -/
structure Row where
  left : Combination
  right : Combination
  output : Combination
deriving DecidableEq, Repr, Inhabited

/-- The row holds of the values. -/
def Row.holds (v : Variable → Scalar) (row : Row) : Bool :=
  row.left.eval v * row.right.eval v == row.output.eval v

/-- A system: the numbers of its variables, and its rows. -/
structure ConstraintSystem where
  inputs : Nat
  witnesses : Nat
  rows : List Row
deriving DecidableEq, Repr, Inhabited

namespace ConstraintSystem

/-- Every row holds of the values. -/
def holds (s : ConstraintSystem) (v : Variable → Scalar) : Bool := s.rows.all (·.holds v)

/-- The number of all variables, the constant one included. -/
def variableCount (s : ConstraintSystem) : Nat := 1 + s.inputs + s.witnesses

/-- The place of a variable among all of them. -/
def index (s : ConstraintSystem) : Variable → Nat
  | .one => 0
  | .input i => 1 + i
  | .witness i => 1 + s.inputs + i

end ConstraintSystem
end PrivatePresentation
