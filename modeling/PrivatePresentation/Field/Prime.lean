/-!
Arithmetic modulo the two primes of the pairing-friendly curve: the order of its groups, in which
circuits compute, and the order of the field that its coordinates lie in.
-/

namespace PrivatePresentation

/-- The order of the groups of the curve. -/
def scalarOrder : Nat :=
  21888242871839275222246405745257275088548364400416034343698204186575808495617

/-- The order of the field of coordinates. -/
def baseOrder : Nat :=
  21888242871839275222246405745257275088696311157297823662689037894645226208583

instance : @NeZero Nat Zero.ofOfNat0 scalarOrder := ⟨Nat.succ_ne_zero _⟩

instance : @NeZero Nat Zero.ofOfNat0 baseOrder := ⟨Nat.succ_ne_zero _⟩

/-- A residue modulo the order of the groups. -/
abbrev Scalar := Fin scalarOrder

/-- A residue modulo the order of the field of coordinates. -/
abbrev Base := Fin baseOrder

/-- Powers by squaring, for exponents below `2 ^ fuel`. -/
@[specialize] def powerFrom {F : Type} [Mul F] [OfNat F 1] : Nat → F → Nat → F
  | 0, _, _ => 1
  | fuel + 1, x, n =>
    if n = 0 then 1
    else if n % 2 = 1 then x * powerFrom fuel (x * x) (n / 2)
    else powerFrom fuel (x * x) (n / 2)

/-- The power of an element. -/
@[specialize] def power {F : Type} [Mul F] [OfNat F 1] (x : F) (n : Nat) : F :=
  powerFrom (n.log2 + 1) x n

namespace Scalar

/-- The residue of a natural number. -/
def ofNat (n : Nat) : Scalar := Fin.ofNat scalarOrder n

/-- The residue of an integer; a negative one wraps around the order. -/
def ofInt (x : Int) : Scalar := if x < 0 then -(ofNat x.natAbs) else ofNat x.natAbs

/-- The inverse of a residue that is not zero; zero for zero. -/
def inverse (x : Scalar) : Scalar := power x (scalarOrder - 2)

/-- The decimal text of the representative below the order. -/
def text (x : Scalar) : String := toString x.val

/-- The products of the elements before each one. -/
def runningProducts : Scalar → List Scalar → List Scalar
  | _, [] => []
  | acc, x :: rest => acc :: runningProducts (acc * x) rest

/-- The inverses of elements none of which is zero, with a single inversion. -/
def inverses (xs : List Scalar) : List Scalar :=
  let before := runningProducts 1 xs
  let total := xs.foldl (· * ·) 1
  ((xs.zip before).foldr
    (fun (x, product) (acc : Scalar × List Scalar) => (acc.1 * x, acc.1 * product :: acc.2))
    (inverse total, [])).2

end Scalar

namespace Base

/-- The residue of a natural number. -/
def ofNat (n : Nat) : Base := Fin.ofNat baseOrder n

/-- The inverse of a residue that is not zero; zero for zero. -/
def inverse (x : Base) : Base := power x (baseOrder - 2)

/-- A square root, if there is one. The order leaves the remainder three on division by four. -/
def sqrt? (x : Base) : Option Base :=
  let r := power x ((baseOrder + 1) / 4)
  if r * r = x then some r else none

end Base
end PrivatePresentation
