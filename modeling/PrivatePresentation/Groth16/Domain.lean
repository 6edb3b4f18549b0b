import PrivatePresentation.Field.Prime

/-!
Polynomials over the scalars, given by coefficients or by their values on the powers of a root of
unity. The number of powers is a power of two; passing between the two forms takes the even and the
odd coefficients apart.
-/

namespace PrivatePresentation

-- Powers of numbers are the core ones.
attribute [local instance (high)] instPowNat

/-- The powers of a root of unity whose order is `2 ^ log`. -/
structure Domain where
  log : Nat
deriving DecidableEq, Repr, Inhabited

namespace Domain

/-- A residue that is no square. -/
def nonSquare : Scalar := 5

/-- The smallest domain with at least some elements. -/
def covering (count : Nat) : Domain := ⟨if count ≤ 1 then 0 else (count - 1).log2 + 1⟩

/-- The number of elements. -/
def size (d : Domain) : Nat := 2 ^ d.log

/-- The root of unity. -/
def root (d : Domain) : Scalar := power nonSquare ((scalarOrder - 1) / 2 ^ d.log)

/-- Powers of a residue, beginning with a given factor. -/
def powersFrom (x : Scalar) : Nat → Scalar → List Scalar
  | 0, _ => []
  | count + 1, acc => acc :: powersFrom x count (acc * x)

/-- The items at even and at odd places. -/
def split {α : Type} : List α → List α × List α
  | [] => ([], [])
  | [a] => ([a], [])
  | a :: b :: rest =>
    let (even, odd) := split rest
    (a :: even, b :: odd)

/-- The sums and the differences of the halves of a transform. -/
def combine (root : Scalar) : Scalar → List Scalar → List Scalar → List Scalar × List Scalar
  | twist, e :: even, o :: odd =>
    let t := twist * o
    let (sums, differences) := combine root (twist * root) even odd
    ((e + t) :: sums, (e - t) :: differences)
  | _, _, _ => ([], [])

/-- The values of a polynomial at the powers of a root of order `2 ^ log`. -/
def transform : Nat → Scalar → List Scalar → List Scalar
  | 0, _, coefficients => coefficients
  | log + 1, root, coefficients =>
    let (even, odd) := split coefficients
    let square := root * root
    let (sums, differences) :=
      combine root 1 (transform log square even) (transform log square odd)
    sums ++ differences

/-- A list filled up with zeros. -/
def fill (d : Domain) (xs : List Scalar) : List Scalar :=
  xs ++ List.replicate (d.size - xs.length) 0

/-- The values of a polynomial on the domain. -/
def evaluate (d : Domain) (coefficients : List Scalar) : List Scalar :=
  transform d.log d.root (d.fill coefficients)

/-- The coefficients of the polynomial with given values on the domain. -/
def interpolate (d : Domain) (values : List Scalar) : List Scalar :=
  let scale := (Scalar.ofNat d.size).inverse
  (transform d.log d.root.inverse (d.fill values)).map (scale * ·)

/-- The polynomial of the argument times a residue. -/
def stretch (x : Scalar) (coefficients : List Scalar) : List Scalar :=
  (coefficients.zip (powersFrom x coefficients.length 1)).map fun (c, p) => c * p

/-- The polynomial that vanishes on the domain, at a point. -/
def vanishing (d : Domain) (x : Scalar) : Scalar := power x d.size - 1

/-- The values at a point of the polynomials that are one at one element and zero at the others. -/
def lagrange (d : Domain) (x : Scalar) : List Scalar :=
  let elements := powersFrom d.root d.size 1
  if d.vanishing x = 0 then elements.map fun e => if e = x then 1 else 0
  else
    let scale := d.vanishing x * (Scalar.ofNat d.size).inverse
    (elements.zip (Scalar.inverses (elements.map fun e => x - e))).map fun (e, i) => scale * e * i

end Domain
end PrivatePresentation
