import PrivatePresentation.Proofs.Circuit.Literal
import PrivatePresentation.Proofs.Circuit.Preservation
import PrivatePresentation.Proofs.Decimal.Rounding

/-!
The window of numbers.  By whatever way a number comes into a circuit, as an integer or a double of a
document, as text, as a truth value or as a date, its residue is that of an integer of 128 bits with a
sign.  This window is so much narrower than the order that residues show the sign of such an integer,
and that no negative difference of two of them wraps around into the domain of the comparators.
-/

namespace PrivatePresentation

open scoped Fin.CommRing

namespace Normalize

/-- A value is taken for a double: a number that is one, or a text of a double that is no integer of 128
bits. -/
inductive TakenFor : Json → Binary64 → Prop where
  | number (d : Binary64) : TakenFor (.number (.float d)) d
  | text {s : String} {d : Binary64}
      (hinteger : Decimal.integerWithin? minWide maxWide (Text.trim s) = none)
      (hdouble : Decimal.float? (Text.trim s) = some (.finite d)) : TakenFor (.string s) d

/-- The integer that a value stands for as an instance of a field. -/
structure StandsFor (f : FieldDecl) (v : Json) (x : Int) : Prop where
  meaning : Meaning.ofValue f v = .ok (.integer x)
  inWindow : InWindow x
  /-- A truth value or a date is not negative. -/
  nonneg : f.type.isNumeric = false → 0 ≤ x
  /-- A double becomes what is left of it without its fractional part; its conversion never saturates. -/
  unsaturated : f.type.isNumeric = true → ∀ d, TakenFor v d →
    x = saturated d.truncate ∧ saturated d.truncate = towardZero d.toRat

end Normalize

/-- The residues of two integers tell the sign of one and the order of both. -/
structure Scalar.Compares (x y : Int) : Prop where
  injective : ofInt x = ofInt y ↔ x = y
  sign : (ofInt x).InDomain ↔ 0 ≤ x
  difference : ((ofInt y - ofInt x).val : Int) = (y - x) % scalarOrder
  order : (ofInt y - ofInt x).InDomain ↔ x ≤ y
  /-- A comparator of wires with these residues demands the order of the integers. -/
  comparator : ∀ {next : Nat} {given : (Variable → Scalar) → Prop} {a b : Wire}, Below next a →
    Below next b → a.IsLinear ∨ b.IsLinear →
    (∀ v, given v → v .one = 1 ∧ a.eval v = ofInt x ∧ b.eval v = ofInt y) →
    (Gadget.atMost a b).Demands next given fun _ => x ≤ y

namespace Scalar

open Normalize (InWindow)

variable {x y : Int}

/-- A difference within the window is not below minus `2 ^ 128`, so it wraps around to above the domain
if it is negative. -/
theorem inDomain_ofInt_sub_iff (hx : InWindow x) (hy : InWindow y) :
    (ofInt y - ofInt x).InDomain ↔ x ≤ y := by
  obtain ⟨hlow, hhigh⟩ := hx
  obtain ⟨hlow', hhigh'⟩ := hy
  rw [← ofInt_sub, inDomain_ofInt_iff (by omega)]
  exact sub_nonneg

theorem compares_of_inWindow (hx : InWindow x) (hy : InWindow y) : Compares x y where
  injective := by
    obtain ⟨hlow, hhigh⟩ := hx
    obtain ⟨hlow', hhigh'⟩ := hy
    exact ofInt_inj (by omega) (by omega)
  sign := by
    obtain ⟨hlow, hhigh⟩ := hx
    exact inDomain_ofInt_iff (by omega)
  difference := by rw [← ofInt_sub, cast_val_ofInt]
  order := inDomain_ofInt_sub_iff hx hy
  comparator := by
    intro next given a b ha hb hlinear hgiven
    have hdemand := Gadget.atMost_demands ha hb hlinear fun v hv => (hgiven v hv).1
    refine hdemand.congr fun v hv => ?_
    obtain ⟨-, hleft, hright⟩ := hgiven v hv
    rw [hleft, hright]
    exact inDomain_ofInt_sub_iff hx hy

end Scalar

namespace Normalize

variable {f : FieldDecl} {field : String} {v : Json} {d : Binary64} {x n : Int}

/-- No value of a field that is not numeric stands for a negative integer. -/
theorem nonneg_of_ofValue (hnumeric : f.type.isNumeric = false)
    (hx : Meaning.ofValue f v = .ok (.integer x)) : 0 ≤ x := by
  cases htype : f.type with
  | boolean =>
      rw [Meaning.ofValue_boolean htype] at hx
      obtain ⟨b, -, hvalue⟩ := Outcome.of_map hx
      rw [← Meaning.integer.inj hvalue]
      cases b <;> decide
  | date =>
      rw [Meaning.ofValue_date htype] at hx
      obtain ⟨n, hn, hvalue⟩ := Outcome.of_map hx
      rw [← Meaning.integer.inj hvalue]
      exact (secondOf_within hn).1
  | string =>
      -- A string stands for its hash.
      unfold Meaning.ofValue at hx
      rw [htype] at hx
      dsimp only at hx
      split at hx <;> cases hx
  | _ =>
      rw [htype] at hnumeric
      cases hnumeric

/-- What is taken for a double is converted as one. -/
theorem truncated_of_takenFor (hd : TakenFor v d) (hn : integerOf field v = .ok n) :
    truncated field d = .ok n := by
  cases hd with
  | number => exact hn
  | text hinteger hdouble =>
      unfold integerOf at hn
      dsimp only at hn
      obtain ⟨-, hn⟩ := Outcome.of_guard hn
      rwa [hinteger, hdouble] at hn

/-- The conversion of a double that is taken never saturates. -/
theorem saturated_of_truncated (hn : truncated field d = .ok n) :
    n = saturated d.truncate ∧ saturated d.truncate = towardZero d.toRat := by
  have hexact : n = d.truncate := truncated_eq hn
  have hfits : saturated d.truncate = d.truncate :=
    saturated_eq_self (hexact ▸ truncated_within hn)
  exact ⟨hexact.trans hfits.symm, hfits.trans d.truncate_eq⟩

theorem standsFor_of_ofValue (hx : Meaning.ofValue f v = .ok (.integer x)) : StandsFor f v x where
  meaning := hx
  inWindow := Meaning.suits_of_ofValue hx
  nonneg := fun hnumeric => nonneg_of_ofValue hnumeric hx
  unsaturated := by
    intro hnumeric d hd
    rw [Meaning.ofValue_numeric hnumeric] at hx
    obtain ⟨n, hn, hvalue⟩ := Outcome.of_map hx
    obtain rfl := Meaning.integer.inj hvalue
    exact saturated_of_truncated (truncated_of_takenFor hd hn)

/-- Normalized numbers stay inside the window of integers that the comparators can tell apart. -/
theorem staysInWindow {e : Scalar} (hf : f.type ≠ .string) (he : normalize f v = .ok e) :
    (∃ x, StandsFor f v x ∧ e = Scalar.ofInt x) ∧
      ∀ x y, InWindow x → InWindow y → Scalar.Compares x y := by
  refine ⟨?_, fun x y hx hy => Scalar.compares_of_inWindow hx hy⟩
  rw [Meaning.normalize_eq] at he
  obtain ⟨m, hm, hresidue⟩ := Outcome.of_map he
  cases m with
  | integer x => exact ⟨x, standsFor_of_ofValue hm, hresidue.symm⟩
  | text hash =>
      have hhashed : f.type.isHashed = true := Meaning.suits_of_ofValue hm
      cases htype : f.type with
      | string => exact absurd htype hf
      | _ =>
          rw [htype] at hhashed
          cases hhashed

/-- A field for numbers. -/
def amount : FieldDecl := ⟨"amount", .number, true, .secret, ""⟩

/-- The largest double that is taken. -/
def largest : Binary64 := ⟨false, 8999725064576941, 74⟩

/-- The largest double that is taken, spelled in a text. -/
theorem staysInWindow_largest : amount.type ≠ .string ∧
    normalize amount (.string " 1.7e38 ") = .ok (Scalar.ofInt maxMagnitude) ∧
    TakenFor (.string " 1.7e38 ") largest ∧
    (∃ x, StandsFor amount (.string " 1.7e38 ") x ∧ Scalar.ofInt maxMagnitude = Scalar.ofInt x) ∧
    ∀ x y, InWindow x → InWindow y → Scalar.Compares x y := by
  have htype : amount.type ≠ .string := by decide
  have hvalue : normalize amount (.string " 1.7e38 ") = .ok (Scalar.ofInt maxMagnitude) := by
    decide +kernel
  have hlargest : TakenFor (.string " 1.7e38 ") largest :=
    .text (by decide +kernel) (by decide +kernel)
  exact ⟨htype, hvalue, hlargest, staysInWindow htype hvalue⟩

/-- Text goes down to the start of the window; the integer before it is out of range. -/
example : normalize amount (.string "-170141183460469231731687303715884105728") =
      .ok (Scalar.ofInt (-2 ^ 127)) ∧
    normalize amount (.string "-170141183460469231731687303715884105729") =
      .error (.outOfRange "amount") := by
  decide +kernel

end Normalize
end PrivatePresentation
