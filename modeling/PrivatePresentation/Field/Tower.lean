import PrivatePresentation.Field.Prime

/-!
Extensions of the field of coordinates. The quadratic extension adjoins a root of minus one; the
field of degree twelve adjoins a sixth root of `9 + u` to it, in two steps of degree three and two.
-/

namespace PrivatePresentation

/-- `c0 + c1 * u` with `u ^ 2 = -1`. -/
structure Quadratic where
  c0 : Base
  c1 : Base
deriving DecidableEq, Inhabited

namespace Quadratic

instance : OfNat Quadratic 0 := ⟨⟨0, 0⟩⟩
instance : OfNat Quadratic 1 := ⟨⟨1, 0⟩⟩

/-- The sum. -/
def add (a b : Quadratic) : Quadratic := ⟨a.c0 + b.c0, a.c1 + b.c1⟩

/-- The difference. -/
def sub (a b : Quadratic) : Quadratic := ⟨a.c0 - b.c0, a.c1 - b.c1⟩

/-- The opposite. -/
def neg (a : Quadratic) : Quadratic := ⟨-a.c0, -a.c1⟩

/-- The product, with one reduction for each part. -/
def mul (a b : Quadratic) : Quadratic :=
  ⟨Base.ofNat (a.c0.val * b.c0.val + (baseOrder - a.c1.val) * b.c1.val),
   Base.ofNat (a.c0.val * b.c1.val + a.c1.val * b.c0.val)⟩

/-- The square: `(c0 + c1) * (c0 - c1)` and twice the product of the parts. -/
def square (a : Quadratic) : Quadratic :=
  ⟨Base.ofNat ((a.c0.val + a.c1.val) * (a.c0.val + (baseOrder - a.c1.val))),
   Base.ofNat (2 * a.c0.val * a.c1.val)⟩

instance : Add Quadratic := ⟨add⟩
instance : Sub Quadratic := ⟨sub⟩
instance : Neg Quadratic := ⟨neg⟩
instance : Mul Quadratic := ⟨mul⟩

/-- The multiple by an element of the field below. -/
def scale (k : Base) (a : Quadratic) : Quadratic := ⟨k * a.c0, k * a.c1⟩

/-- The conjugate, which is the power by the order of the field below. -/
def conjugate (a : Quadratic) : Quadratic := ⟨a.c0, -a.c1⟩

/-- The inverse of an element that is not zero; zero for zero. -/
def inverse (a : Quadratic) : Quadratic :=
  let n := Base.inverse (a.c0 * a.c0 + a.c1 * a.c1)
  ⟨a.c0 * n, -(a.c1 * n)⟩

/-- The element `9 + u`, neither a square nor a cube. -/
def nonResidue : Quadratic := ⟨9, 1⟩

/-- The multiple by `9 + u`. -/
def mulNonResidue (a : Quadratic) : Quadratic :=
  ⟨9 * a.c0 - a.c1, 9 * a.c1 + a.c0⟩

/-- One half in the field below. -/
def half : Base := Base.ofNat ((baseOrder + 1) / 2)

/-- What may be the first part of a root, with `n` a root of the norm: `(c0 + n) / 2` or
`(c0 - n) / 2` is its square. -/
def firstPart? (a : Quadratic) (n : Base) : Option Base :=
  (Base.sqrt? ((a.c0 + n) * half)).orElse fun _ => Base.sqrt? ((a.c0 - n) * half)

/-- The root of an element that has a given first part, if there is one. -/
def rootFrom? (a : Quadratic) (first : Base) : Option Quadratic :=
  let r : Quadratic := ⟨first, a.c1 * half * Base.inverse first⟩
  if r * r = a then some r else none

/-- A square root of an element, if there is one. -/
def sqrt? (a : Quadratic) : Option Quadratic :=
  if a.c1 = 0 then
    ((Base.sqrt? a.c0).map fun r => ⟨r, 0⟩).orElse fun _ =>
      (Base.sqrt? (-a.c0)).map fun r => ⟨0, r⟩
  else do
    let n ← Base.sqrt? (a.c0 * a.c0 + a.c1 * a.c1)
    let first ← firstPart? a n
    rootFrom? a first

/-- Order of elements by their second part, then by their first. -/
def le (a b : Quadratic) : Bool :=
  a.c1.val < b.c1.val || (a.c1 == b.c1 && a.c0.val ≤ b.c0.val)

end Quadratic

/-- `c0 + c1 * v + c2 * v ^ 2` with `v ^ 3 = 9 + u`. -/
structure Sextic where
  c0 : Quadratic
  c1 : Quadratic
  c2 : Quadratic
deriving DecidableEq, Inhabited

namespace Sextic

instance : OfNat Sextic 0 := ⟨⟨0, 0, 0⟩⟩
instance : OfNat Sextic 1 := ⟨⟨1, 0, 0⟩⟩

/-- The sum. -/
def add (a b : Sextic) : Sextic := ⟨a.c0 + b.c0, a.c1 + b.c1, a.c2 + b.c2⟩

/-- The difference. -/
def sub (a b : Sextic) : Sextic := ⟨a.c0 - b.c0, a.c1 - b.c1, a.c2 - b.c2⟩

/-- The opposite. -/
def neg (a : Sextic) : Sextic := ⟨-a.c0, -a.c1, -a.c2⟩

/-- The product. -/
def mul (a b : Sextic) : Sextic :=
  let p0 := a.c0 * b.c0
  let p1 := a.c1 * b.c1
  let p2 := a.c2 * b.c2
  ⟨p0 + ((a.c1 + a.c2) * (b.c1 + b.c2) - p1 - p2).mulNonResidue,
   (a.c0 + a.c1) * (b.c0 + b.c1) - p0 - p1 + p2.mulNonResidue,
   (a.c0 + a.c2) * (b.c0 + b.c2) - p0 - p2 + p1⟩

instance : Add Sextic := ⟨add⟩
instance : Sub Sextic := ⟨sub⟩
instance : Neg Sextic := ⟨neg⟩
instance : Mul Sextic := ⟨mul⟩

/-- The multiple by `v`. -/
def mulV (a : Sextic) : Sextic := ⟨a.c2.mulNonResidue, a.c0, a.c1⟩

/-- The inverse of an element that is not zero; zero for zero. -/
def inverse (a : Sextic) : Sextic :=
  let t0 := a.c0 * a.c0 - (a.c1 * a.c2).mulNonResidue
  let t1 := (a.c2 * a.c2).mulNonResidue - a.c0 * a.c1
  let t2 := a.c1 * a.c1 - a.c0 * a.c2
  let n := (a.c0 * t0 + (a.c2 * t1 + a.c1 * t2).mulNonResidue).inverse
  ⟨t0 * n, t1 * n, t2 * n⟩

end Sextic

/-- `c0 + c1 * w` with `w ^ 2 = v`. -/
structure Twelfth where
  c0 : Sextic
  c1 : Sextic
deriving DecidableEq, Inhabited

namespace Twelfth

instance : OfNat Twelfth 0 := ⟨⟨0, 0⟩⟩
instance : OfNat Twelfth 1 := ⟨⟨1, 0⟩⟩

/-- The product. -/
def mul (a b : Twelfth) : Twelfth :=
  let p0 := a.c0 * b.c0
  let p1 := a.c1 * b.c1
  ⟨p0 + p1.mulV, (a.c0 + a.c1) * (b.c0 + b.c1) - p0 - p1⟩

instance : Mul Twelfth := ⟨mul⟩

/-- The conjugate over the field of degree six. -/
def conjugate (a : Twelfth) : Twelfth := ⟨a.c0, -a.c1⟩

/-- The inverse of an element that is not zero; zero for zero. -/
def inverse (a : Twelfth) : Twelfth :=
  let n := (a.c0 * a.c0 - (a.c1 * a.c1).mulV).inverse
  ⟨a.c0 * n, -(a.c1 * n)⟩

end Twelfth
end PrivatePresentation
