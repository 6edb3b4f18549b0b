import PrivatePresentation.Curve.Group

/-!
The two groups of the curve. The first lies on `y ^ 2 = x ^ 3 + 3` over the field of coordinates, and
every point of that curve belongs to it. The second lies on the twisted curve over the quadratic
extension, of whose points only some belong to it.
-/

namespace PrivatePresentation

/-- A point of the first curve. -/
abbrev G1 := Point Base

/-- A point of the second curve. -/
abbrev G2 := Point Quadratic

namespace G1

/-- The constant of the curve equation. -/
def coefficient : Base := 3

/-- The generator of the group. -/
def generator : G1 := .affine 1 2

end G1

namespace G2

/-- The constant of the equation of the twisted curve. -/
def coefficient : Quadratic := Quadratic.scale 3 Quadratic.nonResidue.inverse

/-- The generator of the group. -/
def generator : G2 :=
  .affine
    ⟨10857046999023057135944570762232829481370756359578518086990519993285655852781,
     11559732032986387107991004021392285783925812861821192530917403151452391805634⟩
    ⟨8495653923123431417604973247489272438418190587263600148770280649306958101930,
     4082367875863433681332203403145435568316851327593401208105741076214120093531⟩

/-- The point belongs to the group: its multiple by the order is the neutral element. -/
def isInGroup (p : G2) : Bool := (p.projectiveMultiple scalarOrder).isInfinity

end G2
end PrivatePresentation
