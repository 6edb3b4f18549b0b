import PrivatePresentation.Circuit.Assignment
import PrivatePresentation.Proofs.Schema.WellFormed
import PrivatePresentation.Proofs.Field.Residue

/-!
What inputs stand for, before any residue is taken, and what a constraint says of it.  Integers have
their sign here, so the constraints are those of the schema's author.
-/

namespace PrivatePresentation

/-- What an input stands for. -/
inductive Meaning where
  | integer (x : Int)
  | text (hash : Scalar)
deriving DecidableEq, Repr

namespace Meaning

/-- The residue of a meaning; that of a negative integer wraps around the order. -/
def residue : Meaning → Scalar
  | .integer x => Scalar.ofInt x
  | .text hash => hash

/-- What a value stands for as an instance of a field. -/
def ofValue (f : FieldDecl) (v : Json) : Except ConversionError Meaning :=
  match f.type with
  | .integer => (Normalize.integerOf f.name v).map .integer
  | .number => (Normalize.integerOf f.name v).map .integer
  | .boolean => (Normalize.truthOf f.name v).map fun b => .integer (if b then 1 else 0)
  | .date => (Normalize.secondOf f.name v).map .integer
  | .string =>
    match v with
    | .string s => .ok (.text (Normalize.hashText s))
    | v => .error (.wrongType f.name "a string" (Normalize.describe v))

/-- What a field stands for among given values; zero if it has none. -/
def ofField? (f : FieldDecl) (values : Json.Members) : Option Meaning :=
  match Json.Members.get? f.name values with
  | none => some (.integer 0)
  | some v => (ofValue f v).toOption

/-- A hash is only of a string, and an integer has at most 128 bits. -/
def Suits (f : FieldDecl) : Meaning → Prop
  | .integer x => -2 ^ 127 ≤ x ∧ x < 2 ^ 127
  | .text _ => f.type.isHashed = true

end Meaning

/-- What a name stands for among given values; nothing if no field has the name. -/
def Schema.meaning? (s : Schema) (values : Json.Members) (name : String) : Option Meaning :=
  (s.field? name).bind fun f => Meaning.ofField? f values

/-- How two meanings compare.  Only integers that are not negative have an order; any two meanings are
equal or different by their residues. -/
def Comparator.Relates (c : Comparator) (a b : Meaning) : Prop :=
  match c with
  | .greaterEqual => ∃ x y, a = .integer x ∧ b = .integer y ∧ 0 ≤ x ∧ 0 ≤ y ∧ y ≤ x
  | .greaterThan => ∃ x y, a = .integer x ∧ b = .integer y ∧ 0 ≤ x ∧ 0 ≤ y ∧ y < x
  | .lessEqual => ∃ x y, a = .integer x ∧ b = .integer y ∧ 0 ≤ x ∧ 0 ≤ y ∧ x ≤ y
  | .lessThan => ∃ x y, a = .integer x ∧ b = .integer y ∧ 0 ≤ x ∧ 0 ≤ y ∧ x < y
  | .equal => a.residue = b.residue
  | .notEqual => a.residue ≠ b.residue

/-- What a literal stands for. -/
def Literal.meaning : Literal → Meaning
  | .integer n => .integer n
  | .text s => .text (Normalize.hashText s)

/-- What the right-hand side of a comparison stands for. -/
def Operand.meaning? (meaning? : String → Option Meaning) : Operand → Option Meaning
  | .field name => meaning? name
  | .literal (.integer n) => some (.integer n)
  | .literal (.text s) => some (.text (Normalize.hashText s))

/-- The demand holds of what the names stand for. -/
def Demand.Holds (meaning? : String → Option Meaning) : Demand → Prop
  | .range name min max => ∃ x, meaning? name = some (.integer x) ∧ min ≤ x ∧ x ≤ max
  | .comparison left c right =>
    ∃ a b, meaning? left = some a ∧ right.meaning? meaning? = some b ∧ c.Relates a b
  | .age birth current minAge _ =>
    ∃ birthYear birthMonth birthDay currentYear currentMonth currentDay : Int,
      meaning? birth.year = some (.integer birthYear) ∧
      meaning? birth.month = some (.integer birthMonth) ∧
      meaning? birth.day = some (.integer birthDay) ∧
      meaning? current.year = some (.integer currentYear) ∧
      meaning? current.month = some (.integer currentMonth) ∧
      meaning? current.day = some (.integer currentDay) ∧
      0 ≤ birthYear ∧ 1 ≤ birthMonth ∧ birthMonth ≤ 12 ∧ 1 ≤ birthDay ∧ birthDay ≤ 31 ∧
      toLex (birthYear, toLex (birthMonth, birthDay)) ≤
        toLex (currentYear - minAge, toLex (currentMonth, currentDay))

namespace Normalize

/-- An integer of 128 bits with a sign. -/
def InWindow (x : Int) : Prop := -2 ^ 127 ≤ x ∧ x < 2 ^ 127

variable {field : String} {v : Json} {x : Binary64} {n : Int}

theorem truncate_within (hx : ¬maxMagnitude < x.wholePart) : InWindow x.truncate := by
  rw [maxMagnitude] at hx
  rw [InWindow, Binary64.truncate]
  split <;> omega

theorem saturated_eq_self (hn : InWindow n) : saturated n = n := by
  obtain ⟨hlow, hhigh⟩ := hn
  rw [saturated, minWide, maxWide]
  omega

/-- The conversion of a double that is taken never saturates. -/
theorem truncated_eq (hn : truncated field x = .ok n) : n = x.truncate := by
  unfold truncated at hn
  obtain ⟨hle, hn⟩ := Outcome.of_guard hn
  rw [← Except.ok.inj hn, saturated_eq_self (truncate_within hle)]

theorem truncated_within (hn : truncated field x = .ok n) : InWindow n := by
  rw [truncated_eq hn]
  unfold truncated at hn
  exact truncate_within (Outcome.of_guard hn).1

theorem number_within (hn : Json.minSigned ≤ n ∧ n ≤ Json.maxUnsigned) : InWindow n := by
  rw [Json.minSigned, Json.maxUnsigned] at hn
  rw [InWindow]
  omega

theorem integerOf_within (hn : integerOf field v = .ok n) : InWindow n := by
  unfold integerOf at hn
  split at hn
  · rename_i hfits
    obtain rfl := Except.ok.inj hn
    exact number_within hfits
  · exact truncated_within hn
  · dsimp only at hn
    obtain ⟨-, hn⟩ := Outcome.of_guard hn
    split at hn
    · rename_i hwithin
      obtain rfl := Except.ok.inj hn
      have hwide := Decimal.integerWithin?_within hwithin
      rw [minWide, maxWide] at hwide
      rw [InWindow]
      omega
    · split at hn
      · exact truncated_within hn
      · exact nomatch hn
      · exact nomatch hn
  · exact nomatch hn

/-- No date is before the start of 1970. -/
theorem secondOf_within (hn : secondOf field v = .ok n) : 0 ≤ n ∧ InWindow n := by
  unfold secondOf at hn
  split at hn
  · rename_i hfits
    obtain ⟨hnonneg, hn⟩ := Outcome.of_guard hn
    obtain rfl := Except.ok.inj hn
    exact ⟨Int.not_lt.1 hnonneg, number_within hfits⟩
  · cases hn
  · split at hn
    · rename_i ht
      obtain ⟨hnonneg, hn⟩ := Outcome.of_guard hn
      obtain rfl := Except.ok.inj hn
      have hfits := Timestamp.fitsSigned_of_parseDate ht
      rw [Json.FitsSigned, Json.minSigned, Json.maxSigned] at hfits
      rw [InWindow]
      omega
    · cases hn
  · cases hn

end Normalize

namespace Meaning

/-- Normalization takes the residue of the meaning, and fails only where there is no meaning. -/
theorem normalize_eq (f : FieldDecl) (v : Json) : normalize f v = (ofValue f v).map residue := by
  have hmap {α : Type} (g : α → Meaning) (m : Except ConversionError α) :
      (m.map g).map residue = m.map fun a => residue (g a) := by
    cases m <;> rfl
  unfold normalize ofValue
  cases htype : f.type with
  | integer => exact (hmap Meaning.integer _).symm
  | number => exact (hmap Meaning.integer _).symm
  | boolean =>
      cases Normalize.truthOf f.name v with
      | error e => rfl
      | ok b => cases b <;> rfl
  | date => exact (hmap Meaning.integer _).symm
  | string => cases v <;> rfl

theorem suits_of_ofValue {f : FieldDecl} {v : Json} {m : Meaning} (hm : ofValue f v = .ok m) :
    m.Suits f := by
  unfold ofValue at hm
  split at hm
  · obtain ⟨x, hx, rfl⟩ := Outcome.of_map hm
    exact Normalize.integerOf_within hx
  · obtain ⟨x, hx, rfl⟩ := Outcome.of_map hm
    exact Normalize.integerOf_within hx
  · obtain ⟨b, -, rfl⟩ := Outcome.of_map hm
    cases b <;> simp [Suits]
  · obtain ⟨x, hx, rfl⟩ := Outcome.of_map hm
    exact (Normalize.secondOf_within hx).2
  · rename_i htype
    split at hm
    · obtain rfl := Except.ok.inj hm
      simp [Suits, htype, FieldType.isHashed]
    · cases hm

end Meaning

theorem Operand.meaning?_literal (meaning? : String → Option Meaning) (constant : Literal) :
    (Operand.literal constant).meaning? meaning? = some constant.meaning := by
  cases constant <;> rfl

namespace Circuit

/-- The constant of a literal is the residue of what it stands for; a negative one has none. -/
theorem compileOperand_literal {l : Layout} {left : String} {constant : Literal} {t : Term}
    (ht : compileOperand l left (.literal constant) = .ok t) :
    t = .constant constant.meaning.residue ∧ ∀ n, constant = .integer n → 0 ≤ n := by
  cases constant with
  | text s =>
      obtain rfl := Except.ok.inj ht
      exact ⟨rfl, fun n hn => nomatch hn⟩
  | integer n =>
      obtain ⟨hnonneg, ht⟩ := Outcome.of_guard ht
      obtain rfl := Except.ok.inj ht
      have hcast : (n.toNat : Int) = n := Int.toNat_of_nonneg (Int.not_lt.1 hnonneg)
      refine ⟨?_, fun m hm => Literal.integer.inj hm ▸ Int.not_lt.1 hnonneg⟩
      rw [Scalar.ofNat_eq_ofInt, hcast]
      rfl

end Circuit
end PrivatePresentation
