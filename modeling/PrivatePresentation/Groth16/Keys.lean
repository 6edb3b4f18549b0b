import PrivatePresentation.Curve.Basic

/-!
Keys and proofs. A verifying key fixes a circuit for the verifier; it has one point for the constant
and one for each public input. A proving key adds the points that a prover combines.
-/

namespace PrivatePresentation

/-- A proof: three points. -/
structure Proof where
  a : G1
  b : G2
  c : G1
deriving DecidableEq, Inhabited

/-- What a verifier has to know of a circuit. -/
structure VerifyingKey where
  alpha : G1
  beta : G2
  gamma : G2
  delta : G2
  inputs : List G1
deriving DecidableEq, Inhabited

/-- What a prover has to know of a circuit. -/
structure ProvingKey where
  verifying : VerifyingKey
  beta : G1
  delta : G1
  aQuery : List G1
  bQuery : List G1
  bTwistQuery : List G2
  hQuery : List G1
  lQuery : List G1
deriving DecidableEq, Inhabited

end PrivatePresentation
