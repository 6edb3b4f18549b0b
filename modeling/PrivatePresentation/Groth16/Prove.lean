import PrivatePresentation.Groth16.Setup

/-!
Proofs. The prover divides the polynomial of the products less the outputs by the one that vanishes
on the domain, which goes up only if every row holds, and combines the points of the key with the
values of the variables. Two random residues hide these values.
-/

namespace PrivatePresentation.Groth16

/-- The random residues of a proof. -/
structure Blinding where
  r : Scalar
  s : Scalar
deriving DecidableEq, Repr, Inhabited

/-- The values of all variables, the constant one first. -/
def fullAssignment (v : Valuation) : List Scalar := 1 :: v.inputs.toList ++ v.witnesses.toList

/-- The coefficients of the quotient by the vanishing polynomial, which is computed from values off
the domain. -/
def quotient (s : ConstraintSystem) (v : Valuation) : List Scalar :=
  let d := domain s
  let shift := Domain.nonSquare
  let own := 1 :: v.inputs.toList
  let off (values : List Scalar) : List Scalar :=
    d.evaluate (Domain.stretch shift (d.interpolate values))
  let left := off (s.rows.map (fun row => row.left.eval v.get) ++ own)
  let right := off (s.rows.map fun row => row.right.eval v.get)
  let output := off (s.rows.map fun row => row.output.eval v.get)
  let scale := (d.vanishing shift).inverse
  let values := (left.zip (right.zip output)).map fun (a, b, c) => (a * b - c) * scale
  Domain.stretch shift.inverse (d.interpolate values)

/-- The proof for the values of the variables. -/
def prove (pk : ProvingKey) (s : ConstraintSystem) (v : Valuation) (blinding : Blinding) : Proof :=
  let all := fullAssignment v
  let h := quotient s v
  let add (p : Projective Base) (q : G1) : Projective Base := p.addPoint q
  let times (k : Scalar) (q : G1) : Projective Base := q.projectiveMultiple k.val
  let a := (add (Multiexp.sum all pk.aQuery) pk.verifying.alpha).add (times blinding.r pk.delta)
  let b1 := (add (Multiexp.sum all pk.bQuery) pk.beta).add (times blinding.s pk.delta)
  let b2 := ((Multiexp.sum all pk.bTwistQuery).addPoint pk.verifying.beta).add
    (pk.verifying.delta.projectiveMultiple blinding.s.val)
  let secret := Multiexp.sum v.witnesses.toList pk.lQuery
  let c := ((secret.add (Multiexp.sum h pk.hQuery)).add
    (Projective.multiple blinding.s.val a)).add
    ((Projective.multiple blinding.r.val b1).add
      (times (-(blinding.r * blinding.s)) pk.delta))
  ⟨a.toPoint, b2.toPoint, c.toPoint⟩

end PrivatePresentation.Groth16
