import PrivatePresentation.Field.Tower

/-!
Groups of points on `y ^ 2 = x ^ 3 + b` over a field. Points are given by their coordinates; sums of
many points are computed in projective coordinates, which need no division, and brought back at once.
-/

namespace PrivatePresentation

/-- A field that a curve lies over. -/
class CurveField (F : Type) extends Add F, Sub F, Neg F, Mul F, Zero F, One F where
  decEq : DecidableEq F
  square : F → F
  /-- The inverse of an element that is not zero. -/
  inverse : F → F

instance {F : Type} [CurveField F] : DecidableEq F := CurveField.decEq

instance : CurveField Base where
  zero := 0
  one := 1
  decEq := inferInstance
  square x := x * x
  inverse := Base.inverse

instance : CurveField Quadratic where
  zero := 0
  one := 1
  decEq := inferInstance
  square := Quadratic.square
  inverse := Quadratic.inverse

/-- A point: its coordinates, or the neutral element. -/
inductive Point (F : Type) where
  | infinity
  | affine (x y : F)
deriving DecidableEq, Inhabited

/-- A point in projective coordinates, `x = X / Z ^ 2` and `y = Y / Z ^ 3`; the neutral element has
`Z = 0`. -/
structure Projective (F : Type) where
  x : F
  y : F
  z : F
deriving Inhabited

namespace Projective

variable {F : Type} [CurveField F]

open CurveField (square)

/-- The neutral element. -/
@[specialize] def infinity : Projective F := ⟨1, 1, 0⟩

/-- A point given by its coordinates. -/
@[specialize] def ofPoint : Point F → Projective F
  | .infinity => infinity
  | .affine x y => ⟨x, y, 1⟩

/-- The neutral element has no third coordinate. -/
@[specialize] def isInfinity (p : Projective F) : Bool := p.z == 0

/-- Twice a point. -/
@[specialize] def double (p : Projective F) : Projective F :=
  let a := square p.x
  let b := square p.y
  let c := square b
  let d := square (p.x + b) - a - c
  let d := d + d
  let e := a + a + a
  let x := square e - d - d
  let c2 := c + c
  let c4 := c2 + c2
  let yz := p.y * p.z
  ⟨x, e * (d - x) - (c4 + c4), yz + yz⟩

/-- The sum of a point and a point given by its coordinates. -/
@[specialize] def addPoint (p : Projective F) : Point F → Projective F
  | .infinity => p
  | .affine x y =>
    if p.isInfinity then ⟨x, y, 1⟩
    else
      let zz := square p.z
      let u := x * zz
      let s := y * p.z * zz
      if u = p.x then (if s = p.y then double p else infinity)
      else
        let h := u - p.x
        let r := s - p.y
        let hh := square h
        let hhh := h * hh
        let v := p.x * hh
        let x3 := square r - hhh - v - v
        ⟨x3, r * (v - x3) - p.y * hhh, p.z * h⟩

/-- The sum of two points. -/
@[specialize] def add (p q : Projective F) : Projective F :=
  if q.isInfinity then p
  else if p.isInfinity then q
  else
    let zz1 := square p.z
    let zz2 := square q.z
    let u1 := p.x * zz2
    let u2 := q.x * zz1
    let s1 := p.y * q.z * zz2
    let s2 := q.y * p.z * zz1
    if u1 = u2 then (if s1 = s2 then double p else infinity)
    else
      let h := u2 - u1
      let r := s2 - s1
      let hh := square h
      let hhh := h * hh
      let v := u1 * hh
      let x3 := square r - hhh - v - v
      ⟨x3, r * (v - x3) - s1 * hhh, p.z * q.z * h⟩

/-- The coordinates of a point, given the inverse of its third projective coordinate. -/
@[specialize] def toPointWith (inv : F) (p : Projective F) : Point F :=
  if p.isInfinity then .infinity
  else
    let i2 := square inv
    .affine (p.x * i2) (p.y * i2 * inv)

/-- The coordinates of a point. -/
@[specialize] def toPoint (p : Projective F) : Point F :=
  p.toPointWith (CurveField.inverse p.z)

/-- The multiple of a point by a number below `2 ^ fuel`. -/
@[specialize] def multipleFrom : Nat → Projective F → Nat → Projective F
  | 0, _, _ => infinity
  | fuel + 1, p, n =>
    if n = 0 then infinity
    else
      let rest := multipleFrom fuel p (n / 2)
      let twice := double rest
      if n % 2 = 1 then add twice p else twice

/-- The multiple of a point. -/
@[specialize] def multiple (n : Nat) (p : Projective F) : Projective F :=
  multipleFrom (n.log2 + 1) p n

end Projective

namespace Point

variable {F : Type} [CurveField F]

/-- The opposite point. -/
@[specialize] def neg : Point F → Point F
  | .infinity => .infinity
  | .affine x y => .affine x (-y)

/-- The multiple of a point by a number below `2 ^ fuel`. An odd number is one more or one less than
a multiple of four, so that at most every other step adds the point or its opposite. -/
@[specialize] def multipleFrom (p opposite : Point F) : Nat → Nat → Projective F
  | 0, _ => .infinity
  | fuel + 1, n =>
    if n = 0 then .infinity
    else if n % 2 = 0 then (multipleFrom p opposite fuel (n / 2)).double
    else if n % 4 = 3 then (multipleFrom p opposite fuel (n / 2 + 1)).double.addPoint opposite
    else (multipleFrom p opposite fuel (n / 2)).double.addPoint p

/-- The multiple of a point, in projective coordinates. -/
@[specialize] def projectiveMultiple (n : Nat) (p : Point F) : Projective F :=
  multipleFrom p p.neg (n.log2 + 2) n

/-- The sum of two points. -/
@[specialize] def add (p q : Point F) : Point F :=
  ((Projective.ofPoint p).addPoint q).toPoint

/-- The multiple of a point. -/
@[specialize] def multiple (n : Nat) (p : Point F) : Point F :=
  (p.projectiveMultiple n).toPoint

/-- The point lies on `y ^ 2 = x ^ 3 + b`. -/
@[specialize] def isOnCurve (b : F) : Point F → Bool
  | .infinity => true
  | .affine x y => y * y == x * x * x + b

end Point

/-- Coordinates of many points, with a single inversion. -/
@[specialize] def normalizeAll {F : Type} [CurveField F] (ps : List (Projective F)) :
    List (Point F) :=
  let zs := ps.map fun p => if p.isInfinity then 1 else p.z
  let before := (zs.foldl (fun (acc : F × List F) z => (acc.1 * z, acc.1 :: acc.2)) (1, [])).2
  let total := zs.foldl (· * ·) (1 : F)
  (((ps.zip zs).reverse.zip before).foldl
    (fun (acc : F × List (Point F)) (entry : (Projective F × F) × F) =>
      (acc.1 * entry.1.2, entry.1.1.toPointWith (acc.1 * entry.2) :: acc.2))
    (CurveField.inverse total, [])).2

end PrivatePresentation
