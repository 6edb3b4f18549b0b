/-!
Tables of characters: closed ranges of code points in ascending order, searched by halving.
-/

namespace PrivatePresentation.Text

/-- Looks for a range holding `n` between two positions of an ascending table. -/
def inRanges (table : Array (Nat × Nat)) (n : Nat) : Nat → Nat → Nat → Bool
  | 0, _, _ => false
  | fuel + 1, low, high =>
    if low < high then
      let middle := (low + high) / 2
      match table[middle]? with
      | none => false
      | some (first, last) =>
        if n < first then inRanges table n fuel low middle
        else if last < n then inRanges table n fuel (middle + 1) high
        else true
    else false

/-- A number lies in one of the ranges of an ascending table. -/
def inTable (table : Array (Nat × Nat)) (n : Nat) : Bool :=
  inRanges table n (table.size + 1) 0 table.size

end PrivatePresentation.Text
