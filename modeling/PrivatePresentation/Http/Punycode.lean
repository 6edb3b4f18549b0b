/-!
Punycode: characters beyond ASCII written with letters, digits and hyphens. The ASCII characters
stand in front, up to the last hyphen; what follows are steps in a mixed system of base 36, each of
which says how far on the next insertion is and at which place.
-/

namespace PrivatePresentation.Http.Punycode

/-- The value of a digit: letters before figures. -/
def digitValue? (c : Char) : Option Nat :=
  if 'a' ≤ c ∧ c ≤ 'z' then some (c.toNat - 97)
  else if 'A' ≤ c ∧ c ≤ 'Z' then some (c.toNat - 65)
  else if '0' ≤ c ∧ c ≤ '9' then some (c.toNat - 48 + 26)
  else none

/-- The least digit that is not the last one of a step. -/
def threshold (position bias : Nat) : Nat :=
  if position ≤ bias then 1 else if bias + 26 ≤ position then 26 else position - bias

/-- Divides a distance until it is small, counting the positions that this takes. -/
def shrink : Nat → Nat → Nat → Nat × Nat
  | 0, distance, position => (distance, position)
  | fuel + 1, distance, position =>
    if 455 < distance then shrink fuel (distance / 35) (position + 36) else (distance, position)

/-- The bias after a step over a distance that made a text of some characters. -/
def adapt (distance count : Nat) (first : Bool) : Nat :=
  let distance := if first then distance / 700 else distance / 2
  let (distance, position) := shrink distance (distance + distance / count) 0
  position + 36 * distance / (distance + 38)

/-- The length of one step, and the characters after it. -/
def readStep (bias : Nat) : List Char → Nat → Nat → Nat → Option (Nat × List Char)
  | [], _, _, _ => none
  | c :: rest, position, weight, sum =>
    match digitValue? c with
    | none => none
    | some d =>
      let t := threshold position bias
      let sum := sum + d * weight
      if d < t then some (sum, rest)
      else readStep bias rest (position + 36) (weight * (36 - t)) sum

/-- Inserts the characters that the steps tell. -/
def insertAll : Nat → List Char → List Char → Nat → Nat → Nat → Option (List Char)
  | _, [], decoded, _, _, _ => some decoded
  | 0, _, _, _, _, _ => none
  | fuel + 1, steps, decoded, code, place, bias =>
    match readStep bias steps 36 1 0 with
    | none => none
    | some (step, rest) =>
      let count := decoded.length + 1
      let code := code + (place + step) / count
      let target := (place + step) % count
      if 0x10FFFF < code ∨ (0xD800 ≤ code ∧ code ≤ 0xDFFF) then none
      else
        insertAll fuel rest (decoded.take target ++ Char.ofNat code :: decoded.drop target) code
          (target + 1) (adapt step count (place == 0))

/-- The text that is written so. A hyphen in front separates nothing and is no digit. -/
def decode? (written : List Char) : Option (List Char) :=
  let steps := (written.reverse.takeWhile (· != '-')).reverse
  let before := written.take (written.length - steps.length)
  if before.length = 1 ∨ before.any (0x80 ≤ ·.toNat) then none
  else insertAll steps.length steps before.dropLast 0x80 0 72

end PrivatePresentation.Http.Punycode
