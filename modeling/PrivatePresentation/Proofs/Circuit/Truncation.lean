import PrivatePresentation.Proofs.Circuit.Literal
import PrivatePresentation.Proofs.Json.NormalForm
import PrivatePresentation.Proofs.Json.Numeral
import PrivatePresentation.Proofs.Json.PlainText

/-!
Numbers as residues.  A number given to a field loses its fractional part.  It is taken as it is if it is
spelled as an integer that fits; otherwise the double nearest to it is taken, so a number just below an
integer can become that integer, but none becomes more than an integer above it that is a double.
-/

namespace PrivatePresentation.Normalize

open Decimal (Spelling)

/-- A value that spells a number: JSON text of the number, or a string with white space around it. -/
inductive Given (s : Spelling) : Json → Prop where
  | number {v : Json} (hjson : s.IsJson) (hread : Json.parse (String.ofList s.text) = .ok v) : Given s v
  | string {before after : List Char} (hbefore : ∀ c ∈ before, Text.isBlank c = true)
      (hafter : ∀ c ∈ after, Text.isBlank c = true) :
      Given s (.string (String.ofList (before ++ s.text ++ after)))

/-- The number is taken as it is: it is spelled as an integer, and as a JSON number it fits 64 bits. -/
def IsExact (s : Spelling) : Json → Prop
  | .string _ => s.IsPlain
  | _ => s.IsPlain ∧ Json.minSigned ≤ s.toInt ∧ s.toInt ≤ Json.maxUnsigned

variable {s : Spelling} {v : Json} {field : String} {n : Int}

theorem solid_digits {digits : List Char} (hdigits : ∀ c ∈ digits, Decimal.isDigit c = true) :
    Text.Solid digits := by
  intro c hc
  have hcode := Decimal.isDigit_iff.1 (hdigits c hc)
  simp [Text.isBlank]
  omega

theorem solid_text (s : Spelling) : Text.Solid s.text := by
  have hsign (sign : Decimal.Sign) : Text.Solid sign.text := by
    cases sign <;> exact Text.solid_of_all rfl
  have hfraction : Text.Solid ((s.fraction?.map ('.' :: ·)).getD []) := by
    cases hcases : s.fraction? with
    | none => exact Text.solid_of_all rfl
    | some digits =>
        have hpoint : Text.Solid ['.'] := Text.solid_of_all rfl
        apply hpoint.append (solid_digits _)
        intro c hc
        exact s.isDigit_of_mem c (by simp [hcases, hc])
  have hpower : Text.Solid ((s.power?.map Decimal.Power.text).getD []) := by
    cases s.power? with
    | none => exact Text.solid_of_all rfl
    | some p =>
        have hletter : Text.Solid [p.letter] := by
          rcases p.isLetter with h | h <;> rw [h] <;> exact Text.solid_of_all rfl
        exact hletter.append ((hsign p.sign).append (solid_digits p.isDigit_of_mem))
  exact (hsign s.sign).append ((solid_digits s.isDigit_of_mem_whole).append (hfraction.append hpower))

theorem text_ne_nil (s : Spelling) : s.text ≠ [] := by
  obtain ⟨c, rest, hbegin, -⟩ := s.head?_unsigned
  rw [Spelling.text, hbegin]
  exact List.append_ne_nil_of_right_ne_nil _ (List.cons_ne_nil c rest)

/-- The double nearest to an integer beyond 128 bits is too large. -/
theorem maxMagnitude_lt {x : Binary64} (hx : Binary64.Rounds n x) (hn : n < minWide ∨ maxWide < n) :
    maxMagnitude < x.wholePart := by
  have hpower : Binary64.Representable (2 ^ 127) := by
    simpa using @Binary64.representable_mul_two_pow 1 127 (by norm_num) (by norm_num)
  have hwide : (2 ^ 127 : ℚ) ≤ |x.toRat| := by
    rcases hn with hn | hn
    · have hlow : (n : ℚ) ≤ -2 ^ 127 := by
        rw [minWide, Nat.one_shiftLeft] at hn
        exact_mod_cast hn.le
      have hle := hx.le_of_le hpower.neg hlow
      rw [abs_of_nonpos (by linarith)]
      linarith
    · have hhigh : (2 ^ 127 : ℚ) ≤ n := by
        rw [maxWide, Nat.one_shiftLeft] at hn
        exact_mod_cast (by omega : ((2 ^ 127 : Nat) : Int) ≤ n)
      exact (hx.le_of_ge hpower hhigh).trans (le_abs_self _)
  have hfloor : ((2 ^ 127 : Nat) : Int) ≤ x.wholePart := by
    rw [x.wholePart_eq_floor, Int.le_floor]
    exact_mod_cast hwide
  have hlimit : maxMagnitude < 2 ^ 127 := by
    rw [maxMagnitude]
    norm_num
  exact hlimit.trans_le (by exact_mod_cast hfloor)

/-- A JSON number is taken as it is, or as the double nearest to it without its fractional part. -/
theorem integerOf_number (hjson : s.IsJson) (hread : Json.parse (String.ofList s.text) = .ok v)
    (h : integerOf field v = .ok n) :
    (s.IsPlain ∧ Json.minSigned ≤ s.toInt ∧ s.toInt ≤ Json.maxUnsigned → n = s.toInt) ∧
      (¬(s.IsPlain ∧ Json.minSigned ≤ s.toInt ∧ s.toInt ≤ Json.maxUnsigned) →
        ∃ x, Binary64.Rounds s.toRat x ∧ n = x.truncate) ∧ ∃ m, v = .number m := by
  have hnone : Json.EndsNumber [] := fun b hb => absurd hb (Option.not_mem_none b)
  obtain ⟨⟨w, rest⟩, hvalue, hend⟩ := Outcome.of_bind hread
  obtain rfl := Json.of_readEnd hend
  rw [Text.utf8_ofList, ← List.append_nil (s.text.flatMap _)] at hvalue
  obtain ⟨-, m, rfl, hm⟩ := Json.of_readValue_number hjson hnone hvalue
  cases hm with
  | integer hplain fits =>
      rw [integerOf] at h
      exact ⟨fun _ => (Except.ok.inj h).symm, fun hnot => absurd ⟨hplain, fits⟩ hnot, _, rfl⟩
  | @float x hx hwide =>
      rw [integerOf] at h
      have htruncate := truncated_eq h
      refine ⟨?_, fun _ => ⟨x, hx, htruncate⟩, _, rfl⟩
      -- minus zero is a double
      rintro ⟨hplain, hlow, hhigh⟩
      have hzero := hwide hplain hlow hhigh
      rw [Spelling.toRat_of_isPlain hplain, hzero, Int.cast_zero] at hx
      rw [hzero, htruncate, x.truncate_eq, hx.toRat_eq Binary64.representable_zero]
      rfl

section Strings

variable {before after : List Char}

/-- A string is trimmed and read as an integer, and as a double if it is none. -/
theorem integerOf_padded (hbefore : ∀ c ∈ before, Text.isBlank c = true)
    (hafter : ∀ c ∈ after, Text.isBlank c = true)
    (h : integerOf field (.string (String.ofList (before ++ s.text ++ after))) = .ok n) :
    Decimal.integerWithin? minWide maxWide (String.ofList s.text) = some n ∨
      Decimal.integerWithin? minWide maxWide (String.ofList s.text) = none ∧
        ∃ x, Binary64.Rounds s.toRat x ∧ truncated field x = .ok n := by
  have htrim : Text.trim (String.ofList (before ++ s.text ++ after)) = String.ofList s.text := by
    rw [Text.trim_ofList, Text.trimChars_surrounded hbefore hafter (solid_text s)]
  have hne : String.ofList s.text ≠ "" := by
    rw [Ne, String.ofList_eq_empty_iff]
    exact text_ne_nil s
  rw [integerOf, htrim] at h
  simp only [if_neg hne, Spelling.float?_text] at h
  split at h
  · rename_i m hm
    obtain rfl := Except.ok.inj h
    exact .inl hm
  · rename_i hnone
    split at h
    · rename_i x hx
      exact .inr ⟨hnone, x, s.rounds_of_doubleText (Option.some.inj hx), h⟩
    · cases h
    · cases h

theorem integerOf_padded_of_isPlain (hbefore : ∀ c ∈ before, Text.isBlank c = true)
    (hafter : ∀ c ∈ after, Text.isBlank c = true) (hplain : s.IsPlain)
    (h : integerOf field (.string (String.ofList (before ++ s.text ++ after))) = .ok n) : n = s.toInt := by
  have hinteger : Decimal.integerWithin? minWide maxWide (String.ofList s.text) =
      if minWide ≤ s.toInt ∧ s.toInt ≤ maxWide then some s.toInt else none := by
    simp only [Decimal.integerWithin?, String.toList_ofList, s.integer?_text_of_isPlain hplain]
  rcases integerOf_padded hbefore hafter h with hsome | ⟨hnone, x, hx, htruncated⟩
  · rw [hinteger, Option.ite_none_right_eq_some] at hsome
    exact (Option.some.inj hsome.2).symm
  · -- an integer that does not fit is no smaller as a double
    have hwide : s.toInt < minWide ∨ maxWide < s.toInt := by
      by_contra hfits
      rw [hinteger, if_pos (by omega)] at hnone
      cases hnone
    rw [Spelling.toRat_of_isPlain hplain] at hx
    rw [truncated, if_pos (maxMagnitude_lt hx hwide)] at htruncated
    cases htruncated

theorem integerOf_padded_of_not_isPlain (hbefore : ∀ c ∈ before, Text.isBlank c = true)
    (hafter : ∀ c ∈ after, Text.isBlank c = true) (hplain : ¬s.IsPlain)
    (h : integerOf field (.string (String.ofList (before ++ s.text ++ after))) = .ok n) :
    ∃ x, Binary64.Rounds s.toRat x ∧ n = x.truncate := by
  rcases integerOf_padded hbefore hafter h with hsome | ⟨-, x, hx, htruncated⟩
  · simp [Decimal.integerWithin?, s.integer?_text_of_not_isPlain hplain] at hsome
  · exact ⟨x, hx, truncated_eq htruncated⟩

end Strings

/-- What is made of a number: itself, or the double nearest to it without its fractional part. -/
theorem integerOf_given (hgiven : Given s v) (h : integerOf field v = .ok n) :
    (IsExact s v → n = s.toInt) ∧
      (¬IsExact s v → ∃ x, Binary64.Rounds s.toRat x ∧ n = x.truncate) := by
  cases hgiven with
  | number hjson hread =>
      obtain ⟨hexact, hrounded, m, rfl⟩ := integerOf_number hjson hread h
      exact ⟨hexact, hrounded⟩
  | string hbefore hafter =>
      exact ⟨fun hplain => integerOf_padded_of_isPlain hbefore hafter hplain h,
        fun hplain => integerOf_padded_of_not_isPlain hbefore hafter hplain h⟩

/-- What a spelled number becomes, given as a value: its integer part, or that of the double nearest to
it. -/
structure Truncates (s : Spelling) (v : Json) (n : Int) : Prop where
  /-- An integer that is spelled as one and fits is taken as it is. -/
  exact : IsExact s v → n = towardZero s.toRat
  /-- Any other number is rounded to a double first. -/
  rounded : ¬IsExact s v → ∃ x, Binary64.Rounds s.toRat x ∧ n = towardZero x.toRat
  /-- That makes no difference to a number that is a double. -/
  representable : Binary64.Representable s.toRat → n = towardZero s.toRat
  /-- Spellings of one number become one integer if that number is a double or both are treated alike. -/
  same : ∀ (s' : Spelling) (v' : Json) (field' : FieldDecl) (e' : Scalar), Given s' v' →
    field'.type.isNumeric = true → normalize field' v' = .ok e' → s'.toRat = s.toRat →
    Binary64.Representable s.toRat ∨ (IsExact s v ↔ IsExact s' v') → e' = Scalar.ofInt n
  /-- A number below a positive double becomes no more than it, and stays below an integer if it is taken
  as it is or there is a double in between. -/
  below : ∀ m : Int, 0 < m → s.toRat < m → (Binary64.Representable m → n ≤ m) ∧
    (IsExact s v ∨ (∃ r, Binary64.Representable r ∧ s.toRat ≤ r ∧ r < m) → n < m)

theorem normalize_eq_ok {field : FieldDecl} {e : Scalar} (hfield : field.type.isNumeric = true)
    (h : normalize field v = .ok e) : ∃ n, integerOf field.name v = .ok n ∧ e = Scalar.ofInt n := by
  have hnumber : normalize field v = (integerOf field.name v).map Scalar.ofInt := by
    unfold normalize
    cases hcases : field.type with
    | integer => rfl
    | number => rfl
    | _ =>
        rw [hcases] at hfield
        cases hfield
  rw [hnumber] at h
  obtain ⟨n, hn, hvalue⟩ := Outcome.of_map h
  exact ⟨n, hn, hvalue.symm⟩

theorem integerOf_exact (hgiven : Given s v) (hn : integerOf field v = .ok n) (hexact : IsExact s v) :
    n = towardZero s.toRat := by
  have hplain : s.IsPlain := by
    cases v with
    | string t => exact hexact
    | _ => exact hexact.1
  rw [(integerOf_given hgiven hn).1 hexact, Spelling.toRat_of_isPlain hplain, towardZero_intCast]

theorem integerOf_representable (hgiven : Given s v) (hn : integerOf field v = .ok n)
    (hdouble : Binary64.Representable s.toRat) : n = towardZero s.toRat := by
  by_cases hexact : IsExact s v
  · exact integerOf_exact hgiven hn hexact
  · obtain ⟨x, hx, rfl⟩ := (integerOf_given hgiven hn).2 hexact
    rw [x.truncate_eq, hx.toRat_eq hdouble]

/-- Two spellings of one number become one integer unless just one of them is rounded. -/
theorem integerOf_unique {s' : Spelling} {v' : Json} {field' : String} {n' : Int} (hgiven : Given s v)
    (hn : integerOf field v = .ok n) (hgiven' : Given s' v') (hn' : integerOf field' v' = .ok n')
    (hsame : s'.toRat = s.toRat)
    (hcase : Binary64.Representable s.toRat ∨ (IsExact s v ↔ IsExact s' v')) : n' = n := by
  rcases hcase with hdouble | hcase
  · rw [integerOf_representable hgiven hn hdouble,
      integerOf_representable hgiven' hn' (hsame ▸ hdouble), hsame]
  · by_cases hexact : IsExact s v
    · rw [integerOf_exact hgiven hn hexact, integerOf_exact hgiven' hn' (hcase.1 hexact), hsame]
    · obtain ⟨x, hx, rfl⟩ := (integerOf_given hgiven hn).2 hexact
      obtain ⟨x', hx', rfl⟩ := (integerOf_given hgiven' hn').2 (mt hcase.2 hexact)
      rw [hsame] at hx'
      rw [x'.truncate_eq, x.truncate_eq, hx'.unique hx]

/-- A number given to a numeric field becomes an integer part: its own, or that of the double nearest to
it. -/
theorem losesFraction {field : FieldDecl} {e : Scalar} (hfield : field.type.isNumeric = true)
    (hgiven : Given s v) (he : normalize field v = .ok e) :
    ∃ n, Truncates s v n ∧ e = Scalar.ofInt n := by
  obtain ⟨n, hn, rfl⟩ := normalize_eq_ok hfield he
  refine ⟨n, ⟨integerOf_exact hgiven hn, ?rounded, integerOf_representable hgiven hn, ?same, ?below⟩, rfl⟩
  case rounded =>
    intro hexact
    obtain ⟨x, hx, rfl⟩ := (integerOf_given hgiven hn).2 hexact
    exact ⟨x, hx, x.truncate_eq⟩
  case same =>
    intro s' v' field' e' hgiven' hfield' he' hsame hcase
    obtain ⟨n', hn', rfl⟩ := normalize_eq_ok hfield' he'
    rw [integerOf_unique hgiven hn hgiven' hn' hsame hcase]
  case below =>
    intro m hm hless
    by_cases hexact : IsExact s v
    · have hlt : n < m := by
        rw [integerOf_exact hgiven hn hexact]
        exact towardZero_lt hm hless
      exact ⟨fun _ => hlt.le, fun _ => hlt⟩
    · obtain ⟨x, hx, rfl⟩ := (integerOf_given hgiven hn).2 hexact
      rw [x.truncate_eq]
      constructor
      · intro hdouble
        exact towardZero_le hm (hx.le_of_le hdouble hless.le)
      · intro hcase
        obtain ⟨r, hr, hlow, hhigh⟩ := hcase.resolve_left hexact
        exact towardZero_lt hm ((hx.le_of_le hr hlow).trans_lt hhigh)

section BelowOne

/-- The spelling `0.99999999999999999999`, of a number below one to which one is the nearest double. -/
def belowOne : Spelling where
  sign := .none
  whole := ['0']
  fraction? := some (List.replicate 20 '9')
  power? := none
  isDigit_of_mem := by
    intro c hc
    rcases List.mem_cons.1 hc with rfl | hnine
    · decide
    · rw [List.eq_of_mem_replicate hnine]
      decide
  ne_nil := by decide

/-- A field for whole numbers. -/
def score : FieldDecl := ⟨"score", .integer, true, .secret, ""⟩

theorem given_belowOne : Given belowOne (.number (.float ⟨false, 4503599627370496, -52⟩)) := by
  refine .number ⟨by decide, by decide, by decide, by decide⟩ ?_
  rfl

theorem towardZero_belowOne : towardZero belowOne.toRat = 0 := by
  have hdigits : Decimal.digitsValue (belowOne.whole ++ belowOne.fraction) = 10 ^ 20 - 1 := rfl
  have hplaces : belowOne.exponent - belowOne.fraction.length = -20 := rfl
  have hvalue : belowOne.toRat = (10 ^ 20 - 1) * 10 ^ (-20 : Int) := by
    rw [Spelling.toRat, hdigits, hplaces, Binary64.signed, if_neg (by decide), one_mul]
    norm_num
  rw [hvalue, towardZero, if_pos (by norm_num), Int.floor_eq_zero_iff]
  norm_num

theorem losesFraction_belowOne : score.type.isNumeric = true ∧
    Given belowOne (.number (.float ⟨false, 4503599627370496, -52⟩)) ∧
    normalize score (.number (.float ⟨false, 4503599627370496, -52⟩)) = .ok 1 ∧
    ∃ n, Truncates belowOne (.number (.float ⟨false, 4503599627370496, -52⟩)) n ∧ 1 = Scalar.ofInt n :=
  ⟨rfl, given_belowOne, rfl, @losesFraction belowOne _ score 1 rfl given_belowOne rfl⟩

/-- A number can become an integer above it. -/
theorem passesInteger : ¬∀ (s : Spelling) (v : Json) (field : FieldDecl) (e : Scalar),
    field.type.isNumeric = true → Given s v → normalize field v = .ok e →
      e = Scalar.ofInt (towardZero s.toRat) := by
  intro h
  have hone := h belowOne _ score 1 rfl given_belowOne rfl
  rw [towardZero_belowOne] at hone
  exact absurd hone (by decide +kernel)

end BelowOne

end PrivatePresentation.Normalize
