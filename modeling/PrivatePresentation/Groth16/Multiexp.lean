import PrivatePresentation.Curve.Basic

/-!
Multiples of points in bulk. Multiples of one point are read off a table of the multiples by each
digit at each place; a sum of multiples of many points first gathers the points with the same digit.
Digits are bytes.
-/

namespace PrivatePresentation.Multiexp

variable {F : Type} [CurveField F]

/-- The digits of a scalar, the lowest first. -/
def digits : Nat → Nat → List Nat
  | 0, _ => []
  | places + 1, n => n % 256 :: digits places (n / 256)

/-- Number of digits of a scalar. -/
def places : Nat := 32

/-- The first multiples of a point, from none to 255. -/
@[specialize] def row (p : Point F) : Array (Point F) :=
  let multiples := (List.range 255).foldl
    (fun (acc : List (Projective F)) _ =>
      match acc with
      | [] => [.infinity]
      | q :: rest => q.addPoint p :: q :: rest) [.infinity]
  (normalizeAll multiples.reverse).toArray

/-- The point of each place: the point itself, and each one the 256-fold of the one before. -/
@[specialize] def bases : Nat → Projective F → List (Projective F)
  | 0, _ => []
  | count + 1, p =>
    p :: bases count (Projective.double (Projective.double (Projective.double (Projective.double
      (Projective.double (Projective.double (Projective.double (Projective.double p))))))))

/-- The multiples of a point by each digit at each place. -/
structure Table (F : Type) where
  rows : List (Array (Point F))

/-- The table of a point. -/
@[specialize] def Table.of (p : Point F) : Table F :=
  ⟨(normalizeAll (bases places (.ofPoint p))).map row⟩

/-- The multiple of the point of a table. -/
@[specialize] def Table.multiple (t : Table F) (k : Scalar) : Projective F :=
  if k.val = 0 then .infinity
  else
    (t.rows.zip (digits places k.val)).foldl
      (fun acc (entry : Array (Point F) × Nat) =>
        if entry.2 = 0 then acc else acc.addPoint (entry.1.getD entry.2 .infinity)) .infinity

/-- The multiples of the point of a table. -/
@[specialize] def Table.multiples (t : Table F) (ks : List Scalar) : List (Point F) :=
  normalizeAll (ks.map t.multiple)

/-- Adds each point to the bucket of its digit. -/
@[specialize] def gather (entries : List (Nat × Point F)) : Array (Projective F) :=
  entries.foldl (fun buckets (entry : Nat × Point F) =>
    if entry.1 = 0 then buckets
    else buckets.modify entry.1 fun b => b.addPoint entry.2) (Array.replicate 256 .infinity)

/-- The sum of the buckets, each as often as its digit. -/
@[specialize] def sumBuckets (buckets : Array (Projective F)) : Projective F :=
  ((List.range 255).foldl (fun (acc : Projective F × Projective F) i =>
    let running := acc.1.add (buckets.getD (255 - i) .infinity)
    (running, acc.2.add running)) (.infinity, .infinity)).2

/-- The sum of multiples of points, place by place from the highest one. -/
@[specialize] def sumFrom : Nat → List (Nat × Point F) → Projective F
  | 0, _ => .infinity
  | count + 1, entries =>
    let entries := entries.filter fun e => e.1 != 0
    if entries.isEmpty then .infinity
    else
      let higher := sumFrom count (entries.map fun e => (e.1 / 256, e.2))
      let shifted := (List.range 8).foldl (fun p _ => Projective.double p) higher
      shifted.add (sumBuckets (gather (entries.map fun e => (e.1 % 256, e.2))))

/-- The sum of multiples of points. Points taken once are added apart. -/
@[specialize] def sum (ks : List Scalar) (ps : List (Point F)) : Projective F :=
  let entries := (ks.zip ps).map fun e => (e.1.val, e.2)
  let single := entries.filter fun e => e.1 == 1
  let many := entries.filter fun e => 1 < e.1
  single.foldl (fun acc e => acc.addPoint e.2) (sumFrom places many)

end PrivatePresentation.Multiexp
