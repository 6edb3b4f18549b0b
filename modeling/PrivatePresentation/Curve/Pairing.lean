import PrivatePresentation.Curve.Basic

/-!
The pairing of the two groups. A loop over the binary digits of a number multiplies up the values of
lines through multiples of a point of the second group at a point of the first; a power of the result
is the pairing. Products of pairings share the power.
-/

namespace PrivatePresentation.Pairing

/-- The number that the loop runs over: `6 * x + 2` for the parameter `x` of the curve. -/
def loopCount : Nat := 29793968203157093288

/-- The exponent that ends a pairing, without the factor `q ^ 6 - 1`. -/
def finalExponent : Nat :=
  let square := baseOrder * baseOrder
  (square + 1) * ((square * square - square + 1) / scalarOrder)

/-- The value at `p` of the line with a slope through a point of the twisted curve. -/
def lineValue (px py : Base) (slope x y : Quadratic) : Twelfth :=
  ⟨⟨⟨py, 0⟩, 0, 0⟩, ⟨Quadratic.scale (-px) slope, slope * x - y, 0⟩⟩

/-- The tangent at a point: its slope. -/
def tangentSlope (x y : Quadratic) : Quadratic :=
  let xx := x * x
  (xx + xx + xx) * (y + y).inverse

/-- The third point of a line, reflected. -/
def thirdPoint (slope x1 y1 x2 : Quadratic) : Quadratic × Quadratic :=
  let x3 := slope * slope - x1 - x2
  (x3, slope * (x1 - x3) - y1)

/-- A step of the loop that doubles: the line's value and the next point. -/
def doubleStep (px py : Base) : G2 → Twelfth × G2
  | .infinity => (1, .infinity)
  | .affine x y =>
    let slope := tangentSlope x y
    let next := thirdPoint slope x y x
    (lineValue px py slope x y, .affine next.1 next.2)

/-- The value at a point of the first group of the vertical line through a point of the twisted
curve. -/
def verticalValue (px : Base) (x : Quadratic) : Twelfth := ⟨⟨⟨px, 0⟩, -x, 0⟩, 0⟩

/-- A step of the loop that adds: the line's value and the next point. -/
def addStep (px py : Base) (t q : G2) : Twelfth × G2 :=
  match t, q with
  | .infinity, q => (1, q)
  | t, .infinity => (1, t)
  | .affine x1 y1, .affine x2 y2 =>
    if x1 = x2 then
      if y1 = y2 then doubleStep px py t
      else (verticalValue px x1, .infinity)
    else
      let slope := (y2 - y1) * (x2 - x1).inverse
      let next := thirdPoint slope x1 y1 x2
      (lineValue px py slope x1 y1, .affine next.1 next.2)

/-- The binary digits of a number below its highest one, the higher ones first. -/
def lowerDigits (n : Nat) : List Bool :=
  ((List.range n.log2).map fun i => n.testBit i).reverse

/-- The factor of the coordinate `x` under the power by the field order. -/
def frobeniusX : Quadratic := power Quadratic.nonResidue ((baseOrder - 1) / 3)

/-- The factor of the coordinate `y` under the power by the field order. -/
def frobeniusY : Quadratic := power Quadratic.nonResidue ((baseOrder - 1) / 2)

/-- The map of the twisted curve that raises coordinates to the field order. -/
def frobenius : G2 → G2
  | .infinity => .infinity
  | .affine x y => .affine (x.conjugate * frobeniusX) (y.conjugate * frobeniusY)

/-- The product of the line values for one pair of points. -/
def millerLoop (p : G1) (q : G2) : Twelfth :=
  match p with
  | .infinity => 1
  | .affine px py =>
    match q with
    | .infinity => 1
    | q =>
      let (f, t) := (lowerDigits loopCount).foldl (fun (acc : Twelfth × G2) digit =>
        let (line, t) := doubleStep px py acc.2
        let f := acc.1 * acc.1 * line
        if digit then
          let (line, t) := addStep px py t q
          (f * line, t)
        else (f, t)) (1, q)
      let q1 := frobenius q
      let q2 := (frobenius q1).neg
      let (line1, t) := addStep px py t q1
      let (line2, _) := addStep px py t q2
      f * line1 * line2

/-- The power that ends a pairing. -/
def finish (f : Twelfth) : Twelfth := power (f.conjugate * f.inverse) finalExponent

/-- The product of the pairings of some pairs of points is one. -/
def productIsOne (pairs : List (G1 × G2)) : Bool :=
  finish ((pairs.map fun (p, q) => millerLoop p q).foldl (· * ·) 1) == 1

end PrivatePresentation.Pairing
