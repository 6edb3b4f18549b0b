/-!
How alike two words are: the share of letters that they have in common nearby, lessened by those that
stand in another order. The measure is a fraction between zero and one, and a word is taken for a
slip of another if it is above seven tenths.
-/

namespace PrivatePresentation.Text

/-- A fraction; the denominator is positive where the measure is defined. -/
structure Likeness where
  num : Nat
  den : Nat
deriving DecidableEq, Repr

namespace Likeness

/-- One fraction is above another. -/
def above (a b : Likeness) : Bool := decide (b.num * a.den < a.num * b.den)

end Likeness

/-- Takes the first place from `low` to below `high` that holds a letter and is not yet taken. -/
def takePlace (letter : Char) (low high : Nat) : Nat → List (Char × Bool) → Option (List (Char × Bool))
  | _, [] => none
  | i, (c, taken) :: rest =>
    if low ≤ i && i < high && c == letter && !taken then some ((c, true) :: rest)
    else (takePlace letter low high (i + 1) rest).map ((c, taken) :: ·)

/-- The letters of a word that have a partner nearby, and the other word with the partners marked. -/
def partners (range : Nat) : Nat → List Char → List (Char × Bool) → List Char × List (Char × Bool)
  | _, [], other => ([], other)
  | i, c :: rest, other =>
    match takePlace c (i - range) (i + range + 1) 0 other with
    | some other =>
      let (matched, other) := partners range (i + 1) rest other
      (c :: matched, other)
    | none => partners range (i + 1) rest other

/-- How alike two words are. -/
def likeness (a b : String) : Likeness :=
  let m := a.length
  let n := b.length
  let range := max m n / 2 - 1
  let (matched, other) := partners range 0 a.toList (b.toList.map (·, false))
  let order := (other.filter (·.2)).map (·.1)
  let k := matched.length
  let crossed := ((matched.zip order).filter fun (x, y) => x != y).length / 2
  if k = 0 then ⟨0, 1⟩ else ⟨k * k * n + k * k * m + (k - crossed) * m * n, 3 * m * n * k⟩

/-- The words that another may be a slip of, the most alike last. -/
def slipsOf (word : String) (words : List String) : List String :=
  let scored := (words.map fun w => (w, likeness word w)).filter fun (_, l) => l.above ⟨7, 10⟩
  (scored.mergeSort fun a b => !a.2.above b.2).map (·.1)

end PrivatePresentation.Text
