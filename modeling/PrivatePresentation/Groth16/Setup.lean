import PrivatePresentation.Circuit.System
import PrivatePresentation.Groth16.Domain
import PrivatePresentation.Groth16.Keys
import PrivatePresentation.Groth16.Multiexp

/-!
Key generation. The rows of a constraint system become polynomials with one value for each row; the
keys hold these polynomials at a secret point, hidden in multiples of the generators.
-/

namespace PrivatePresentation.Groth16

/-- The secret residues of a setup, none of them zero; nobody must know them afterwards. -/
structure Trapdoor where
  alpha : Scalar
  beta : Scalar
  gamma : Scalar
  delta : Scalar
  point : Scalar
deriving DecidableEq, Repr, Inhabited

/-- The domain of a system: an element for each row, one for each public input, and one more. -/
def domain (s : ConstraintSystem) : Domain := .covering (s.rows.length + s.inputs + 1)

/-- Adds a multiple of a combination to the values of the variables. -/
def accumulate (s : ConstraintSystem) (weight : Scalar) (values : Array Scalar)
    (l : Combination) : Array Scalar :=
  l.foldl (fun acc (c, x) => acc.modify (s.index x) (· + weight * c)) values

/-- The values at the secret point of the polynomials of each variable: on the left, on the right and
in the output of the rows. -/
structure Evaluated where
  left : List Scalar
  right : List Scalar
  output : List Scalar

/-- The polynomials of each variable at a point, from the values of the basis there. The constant and
the public inputs each have a further element of the domain, on the left. -/
def evaluateRows (s : ConstraintSystem) (basis : List Scalar) : Evaluated :=
  let zeros := Array.replicate s.variableCount (0 : Scalar)
  let weighted := s.rows.zip basis
  let own := (basis.drop s.rows.length).take (1 + s.inputs)
  let start := (own ++ List.replicate s.witnesses 0).toArray
  ⟨(weighted.foldl (fun acc (row, u) => accumulate s u acc row.left) start).toList,
   (weighted.foldl (fun acc (row, u) => accumulate s u acc row.right) zeros).toList,
   (weighted.foldl (fun acc (row, u) => accumulate s u acc row.output) zeros).toList⟩

/-- The keys of a system. -/
def setup (s : ConstraintSystem) (t : Trapdoor) : ProvingKey :=
  let d := domain s
  let e := evaluateRows s (d.lagrange t.point)
  let mixed := (e.left.zip (e.right.zip e.output)).map fun (a, b, c) => t.beta * a + t.alpha * b + c
  let gammaInverse := t.gamma.inverse
  let deltaInverse := t.delta.inverse
  let publicPart := (mixed.take (1 + s.inputs)).map (· * gammaInverse)
  let secretPart := (mixed.drop (1 + s.inputs)).map (· * deltaInverse)
  let hPart := Domain.powersFrom t.point (d.size - 1) (d.vanishing t.point * deltaInverse)
  let g := Multiexp.Table.of G1.generator
  let h := Multiexp.Table.of G2.generator
  let one (k : Scalar) : G1 := (g.multiple k).toPoint
  let two (k : Scalar) : G2 := (h.multiple k).toPoint
  { verifying := {
      alpha := one t.alpha
      beta := two t.beta
      gamma := two t.gamma
      delta := two t.delta
      inputs := g.multiples publicPart }
    beta := one t.beta
    delta := one t.delta
    aQuery := g.multiples e.left
    bQuery := g.multiples e.right
    bTwistQuery := h.multiples e.right
    hQuery := g.multiples hPart
    lQuery := g.multiples secretPart }

end PrivatePresentation.Groth16
