import PrivatePresentation.Proofs.Decimal.Spelling
import PrivatePresentation.Proofs.Json.Scalars
import PrivatePresentation.Proofs.Outcome

/-!
Numbers in JSON text.  A number is spelled without a plus sign, with a digit on each side of a point, and
without zeros in front.  It is read as the integer it stands for if it is spelled as one and fits 64 bits,
and as the double nearest to it otherwise.
-/

namespace PrivatePresentation

namespace Decimal.Spelling

/-- The spellings that JSON has. -/
structure IsJson (s : Spelling) : Prop where
  sign : s.sign ≠ .plus
  whole : s.whole ≠ []
  zero : s.whole.head? = some '0' → s.whole = ['0']
  fraction : s.fraction? ≠ some []

/-- The digits as they are kept while the number is read. -/
def literal (s : Spelling) : Json.Literal where
  negative := s.sign.isMinus
  whole := Text.utf8Chars s.whole
  fraction := Text.utf8Chars s.fraction
  exponent := s.exponent
  plain := s.fraction?.isNone && s.power?.isNone

end Decimal.Spelling

namespace Json

open Decimal (Power Spelling)

section Digits

variable {digits : List Char}

theorem length_utf8Chars_digits (hdigits : ∀ c ∈ digits, Decimal.isDigit c = true) :
    (Text.utf8Chars digits).length = digits.length := by
  rw [utf8Chars_digits hdigits, List.length_map]

theorem utf8Chars_ne_nil (hne : digits ≠ []) (hdigits : ∀ c ∈ digits, Decimal.isDigit c = true) :
    Text.utf8Chars digits ≠ [] := by
  rw [utf8Chars_digits hdigits]
  simpa using hne

end Digits

section Literals

variable (s : Spelling)

theorem literal_float? : s.literal.float? =
    Binary64.ofDecimal s.sign.isMinus (Decimal.digitsValue (s.whole ++ s.fraction))
      (s.exponent - s.fraction.length) := by
  have hdigits : ∀ c ∈ s.whole ++ s.fraction, Decimal.isDigit c = true := s.isDigit_of_mem
  rw [Literal.float?, Spelling.literal, ← Text.utf8Chars_append, digitsValue_utf8Chars hdigits,
    length_utf8Chars_digits s.isDigit_of_mem_fraction]

/-- A number is an integer that is spelled as one, or the nearest double. -/
inductive Denotes : Number → Prop where
  | integer (hplain : s.IsPlain) (fits : minSigned ≤ s.toInt ∧ s.toInt ≤ maxUnsigned) :
      Denotes (.integer s.toInt fits)
  | float {x : Binary64} (hx : Binary64.Rounds s.toRat x)
      (hwide : s.IsPlain → minSigned ≤ s.toInt → s.toInt ≤ maxUnsigned → s.toInt = 0) :
      Denotes (.float x)

variable {s}

theorem denotes_of_number? {n : Number} (h : s.literal.number? = some n) : Denotes s n := by
  have hwhole := digitsValue_utf8Chars s.isDigit_of_mem_whole
  have hplain : s.literal.plain = true ↔ s.IsPlain := by
    simp only [Spelling.literal, Bool.and_eq_true, Option.isNone_iff_eq_none]
    exact ⟨fun h => ⟨h.1, h.2⟩, fun h => ⟨h.1, h.2⟩⟩
  have hvalue : digitsValue s.literal.whole = Decimal.digitsValue s.whole := hwhole
  have hsign : s.literal.negative = s.sign.isMinus := rfl
  have hint : s.toInt = if s.sign.isMinus then -(Decimal.digitsValue s.whole : Int)
      else Decimal.digitsValue s.whole := rfl
  unfold Literal.number? at h
  dsimp only at h
  split_ifs at h with hnatural hnegative
  · obtain ⟨hs, hpositive, hless⟩ := hnatural
    rw [hsign] at hpositive
    rw [if_neg hpositive, ← hvalue] at hint
    obtain rfl := Option.some.inj h
    simp only [← hint]
    exact .integer (hplain.1 hs) _
  · obtain ⟨hs, hminus, hfits⟩ := hnegative
    rw [hsign] at hminus
    rw [if_pos hminus, ← hvalue] at hint
    obtain rfl := Option.some.inj h
    simp only [← hint]
    exact .integer (hplain.1 hs) _
  · obtain ⟨x, hx, rfl⟩ := Option.map_eq_some_iff.1 h
    rw [literal_float?] at hx
    rw [hsign, hvalue, hplain] at hnatural hnegative
    refine .float (Binary64.rounds_of_ofDecimal hx) fun hs hlow hhigh => ?_
    rw [minSigned] at hlow
    rw [maxUnsigned] at hhigh
    by_contra hne
    by_cases hminus : s.sign.isMinus = true
    · rw [if_pos hminus] at hint
      exact hnegative ⟨hs, hminus, by omega, by omega⟩
    · rw [if_neg hminus] at hint
      exact hnatural ⟨hs, hminus, by omega⟩

end Literals

section Reading

variable {s : Spelling} {l : Literal} {n : Number} {rest rest' : Bytes}

/-- What follows a number is no part of it. -/
def EndsNumber (rest : Bytes) : Prop :=
  ∀ b ∈ rest.head?, isDigit b = false ∧ b ≠ 0x2E ∧ b ≠ 0x65 ∧ b ≠ 0x45

theorem of_finishNumber (h : finishNumber l rest = .ok (n, rest')) :
    rest' = rest ∧ l.number? = some n := by
  unfold finishNumber at h
  split at h
  · rename_i m hm
    obtain ⟨rfl, rfl⟩ := Prod.mk.inj (Except.ok.inj h)
    exact ⟨rfl, hm⟩
  · cases h

theorem utf8Chars_sign (sign : Decimal.Sign) : Text.utf8Chars sign.text =
    match sign with
    | .none => []
    | .plus => [0x2B]
    | .minus => [0x2D] := by
  cases sign <;> rfl

/-- A power of ten is read with its sign. -/
theorem of_readExponent {p : Power} (hrest : EndsNumber rest)
    (h : readExponent l (Text.utf8Chars (p.sign.text ++ p.digits) ++ rest) = .ok (n, rest')) :
    rest' = rest ∧ Literal.number? { l with plain := false, exponent := p.exponent } = some n := by
  have hdigits := isDigit_of_mem_utf8Chars p.isDigit_of_mem
  have hsplit := splitDigits_append hdigits fun b hb => (hrest b hb).1
  have hvalue := digitsValue_utf8Chars p.isDigit_of_mem
  obtain ⟨d, tail, hcons⟩ := List.exists_cons_of_ne_nil (utf8Chars_ne_nil p.ne_nil p.isDigit_of_mem)
  have hd : isDigit d = true := hdigits d (hcons ▸ List.mem_cons_self)
  have hpower : p.exponent = if p.sign.isMinus then -(digitsValue (Text.utf8Chars p.digits) : Int)
      else digitsValue (Text.utf8Chars p.digits) := by
    rw [hvalue]
    rfl
  have hsign : readExponent l (Text.utf8Chars (p.sign.text ++ p.digits) ++ rest) =
      (passedAt? 0 (Text.utf8Chars p.digits ++ rest)).elim
        (finishNumber { l with plain := false, exponent := p.exponent } rest) fun left =>
          if !p.sign.isMinus && digitsValue (l.whole ++ l.fraction) != 0 then
            failAt .numberOutOfRange left
          else finishNumber { l with plain := false, exponent := p.exponent } rest := by
    rw [hcons, List.cons_append] at hsplit
    rw [hpower, Text.utf8Chars_append, utf8Chars_sign, hcons, List.cons_append]
    have hplus : d ≠ 0x2B := ne_of_isDigit hd rfl
    have hminus : d ≠ 0x2D := ne_of_isDigit hd rfl
    cases hpassed : passedAt? 0 (d :: (tail ++ rest)) with
    | none =>
        cases p.sign <;>
          simp [readExponent, hsplit, hd, hplus, hminus, hpassed, Decimal.Sign.isMinus]
    | some left =>
        cases p.sign <;>
          simp [readExponent, hsplit, hd, hplus, hminus, hpassed, Decimal.Sign.isMinus]
  rw [hsign] at h
  cases hpassed : passedAt? 0 (Text.utf8Chars p.digits ++ rest) with
  | none =>
      rw [hpassed] at h
      exact of_finishNumber h
  | some left =>
      rw [hpassed, Option.elim_some] at h
      split at h
      · cases h
      · exact of_finishNumber h

/-- The bytes of a power of ten, or none. -/
def powerBytes (power? : Option Power) : Bytes :=
  Text.utf8Chars ((power?.map Power.text).getD [])

/-- The digits with a power of ten, or without. -/
def Literal.raised (l : Literal) : Option Power → Literal
  | none => l
  | some p => { l with plain := false, exponent := p.exponent }

/-- What follows is no digit and no point. -/
def AfterDigits (rest : Bytes) : Prop := ∀ b ∈ rest.head?, isDigit b = false ∧ b ≠ 0x2E

theorem afterDigits_power (power? : Option Power) (hrest : EndsNumber rest) :
    AfterDigits (powerBytes power? ++ rest) := by
  intro b hb
  cases power? with
  | none => exact ⟨(hrest b hb).1, (hrest b hb).2.1⟩
  | some p =>
      have htext : powerBytes (some p) = String.utf8EncodeChar p.letter ++
          Text.utf8Chars (p.sign.text ++ p.digits) := rfl
      rw [htext] at hb
      rcases p.isLetter with hletter | hletter
      · rw [hletter] at hb
        obtain rfl := Option.some.inj hb
        decide
      · rw [hletter] at hb
        obtain rfl := Option.some.inj hb
        decide

/-- A number may end with a power of ten. -/
theorem of_readPower {power? : Option Power} (hrest : EndsNumber rest)
    (h : readFraction l (powerBytes power? ++ rest) = .ok (n, rest')) :
    rest' = rest ∧ (l.raised power?).number? = some n := by
  cases power? with
  | none =>
      have hplain : readFraction l rest = finishNumber l rest := by
        cases rest with
        | nil => rfl
        | cons b rest =>
            obtain ⟨-, hpoint, hlower, hupper⟩ := hrest b rfl
            simp [readFraction, hpoint, hlower, hupper]
      have hnone : powerBytes none ++ rest = rest := rfl
      rw [hnone, hplain] at h
      exact of_finishNumber h
  | some p =>
      have hpower : readFraction l (powerBytes (some p) ++ rest) =
          readExponent l (Text.utf8Chars (p.sign.text ++ p.digits) ++ rest) := by
        have htext : powerBytes (some p) = String.utf8EncodeChar p.letter ++
            Text.utf8Chars (p.sign.text ++ p.digits) := rfl
        rw [htext]
        rcases p.isLetter with hletter | hletter
        · rw [hletter]
          rfl
        · rw [hletter]
          rfl
      rw [hpower] at h
      exact of_readExponent hrest h

/-- The digits after a point are read up to what is no digit. -/
theorem readFraction_point {digits : Bytes} (hne : digits ≠ [])
    (hdigits : ∀ b ∈ digits, isDigit b = true) (hrest : AfterDigits rest) :
    readFraction l (0x2E :: (digits ++ rest)) =
      readFraction { l with plain := false, fraction := digits } rest := by
  have hsplit := splitDigits_append hdigits fun b hb => (hrest b hb).1
  cases rest with
  | nil =>
      rw [List.append_nil] at hsplit ⊢
      simp [readFraction, hsplit, hne]
  | cons b rest =>
      have hpoint := (hrest b rfl).2
      by_cases hlower : b = 0x65
      · subst hlower
        simp [readFraction, hsplit, hne]
      · by_cases hupper : b = 0x45
        · subst hupper
          simp [readFraction, hsplit, hne]
        · simp [readFraction, hsplit, hne, hpoint, hlower, hupper]

theorem literal_eq_raised : s.literal = Literal.raised
    ⟨s.sign.isMinus, Text.utf8Chars s.whole, Text.utf8Chars s.fraction, 0, s.fraction?.isNone⟩
    s.power? := by
  cases hpower : s.power? with
  | none => simp [Spelling.literal, Spelling.exponent, Literal.raised, hpower]
  | some p => simp [Spelling.literal, Spelling.exponent, Literal.raised, hpower]

/-- What stands after the digits before the point is read up to its end. -/
theorem of_readFraction (hjson : s.IsJson) (hrest : EndsNumber rest)
    (h : readFraction ⟨s.sign.isMinus, Text.utf8Chars s.whole, [], 0, true⟩
      (Text.utf8Chars s.tail ++ rest) = .ok (n, rest')) :
    rest' = rest ∧ s.literal.number? = some n := by
  rw [literal_eq_raised]
  cases hfraction : s.fraction? with
  | none =>
      have hnone : s.fraction = [] := by simp [Spelling.fraction, hfraction]
      have htail : Text.utf8Chars s.tail = powerBytes s.power? := by
        simp [Spelling.tail, hfraction, powerBytes]
      rw [htail] at h
      rw [hnone]
      exact of_readPower hrest h
  | some digits =>
      have hsome : s.fraction = digits := by simp [Spelling.fraction, hfraction]
      have hdigits := s.isDigit_of_mem_fraction
      have htail : Text.utf8Chars s.tail ++ rest =
          0x2E :: (Text.utf8Chars digits ++ (powerBytes s.power? ++ rest)) := by
        have hpoint : String.utf8EncodeChar '.' = [0x2E] := rfl
        simp [Spelling.tail, hfraction, powerBytes, hpoint]
      have hne : digits ≠ [] := by
        rintro rfl
        exact hjson.fraction hfraction
      rw [hsome] at hdigits ⊢
      rw [htail, readFraction_point (utf8Chars_ne_nil hne hdigits) (isDigit_of_mem_utf8Chars hdigits)
        (afterDigits_power s.power? hrest)] at h
      exact of_readPower hrest h

/-- The digits before the point are kept as they are. -/
theorem readNumber_whole (hjson : s.IsJson) (hrest : EndsNumber rest) :
    readNumber s.sign.isMinus (Text.utf8Chars (s.whole ++ s.tail) ++ rest) =
      readFraction ⟨s.sign.isMinus, Text.utf8Chars s.whole, [], 0, true⟩ (Text.utf8Chars s.tail ++ rest) := by
  have hafter : ∀ b ∈ (Text.utf8Chars s.tail ++ rest).head?, isDigit b = false := by
    intro b hb
    cases hfraction : s.fraction? with
    | none =>
        have htail : Text.utf8Chars s.tail = powerBytes s.power? := by
          simp [Spelling.tail, hfraction, powerBytes]
        rw [htail] at hb
        exact (afterDigits_power s.power? hrest b hb).1
    | some digits =>
        have hpoint : String.utf8EncodeChar '.' = [0x2E] := rfl
        simp [Spelling.tail, hfraction, hpoint] at hb
        rw [← hb]
        rfl
  have hzero : (Text.utf8Chars s.whole).head? = some 0x30 → Text.utf8Chars s.whole = [0x30] := by
    intro hfirst
    obtain ⟨c, cs, hchars⟩ := List.exists_cons_of_ne_nil hjson.whole
    have hc := (toNat_ofNat_digit (s.isDigit_of_mem_whole c (hchars ▸ List.mem_cons_self))).1
    rw [utf8Chars_digits s.isDigit_of_mem_whole, hchars, List.map_cons, List.head?_cons,
      Option.some.injEq] at hfirst
    rw [hfirst] at hc
    have hwhole : s.whole = ['0'] := by
      apply hjson.zero
      rw [hchars]
      exact congrArg some (Char.toNat_inj.1 hc.symm)
    rw [hwhole]
    rfl
  rw [Text.utf8Chars_append, List.append_assoc]
  exact readNumber_digits (utf8Chars_ne_nil hjson.whole s.isDigit_of_mem_whole)
    (isDigit_of_mem_utf8Chars s.isDigit_of_mem_whole) hzero hafter

/-- A number is read up to its end. -/
theorem of_readNumber (hjson : s.IsJson) (hrest : EndsNumber rest)
    (h : readNumber s.sign.isMinus (Text.utf8Chars (s.whole ++ s.tail) ++ rest) = .ok (n, rest')) :
    rest' = rest ∧ s.literal.number? = some n := by
  rw [readNumber_whole hjson hrest] at h
  exact of_readFraction hjson hrest h

/-- A value that begins as a number is one. -/
theorem of_readValue_number {depth : Nat} {v : Json} (hjson : s.IsJson) (hrest : EndsNumber rest)
    (h : readValue depth (Text.utf8Chars s.text ++ rest) = .ok (v, rest')) :
    rest' = rest ∧ ∃ n, v = .number n ∧ Denotes s n := by
  have hnumber : (readNumber s.sign.isMinus (Text.utf8Chars (s.whole ++ s.tail) ++ rest) >>= fun p =>
      pure (Json.number p.1, p.2)) = .ok (v, rest') := by
    have htext : Text.utf8Chars s.text =
        Text.utf8Chars s.sign.text ++ Text.utf8Chars (s.whole ++ s.tail) :=
      Text.utf8Chars_append _ _
    rw [← h, htext, utf8Chars_sign]
    have hsign := hjson.sign
    cases hcases : s.sign with
    | plus => exact absurd hcases hsign
    | minus => exact (readValue_minus depth _).symm
    | none =>
        obtain ⟨d, tail, hcons⟩ := List.exists_cons_of_ne_nil
          (utf8Chars_ne_nil hjson.whole s.isDigit_of_mem_whole)
        have hd : isDigit d = true :=
          isDigit_of_mem_utf8Chars s.isDigit_of_mem_whole d (hcons ▸ List.mem_cons_self)
        rw [Text.utf8Chars_append, hcons]
        exact (readValue_of_isDigit hd _).symm
  obtain ⟨⟨n, later⟩, hread, hvalue⟩ := Outcome.of_bind hnumber
  obtain ⟨rfl, rfl⟩ := Prod.mk.inj (Except.ok.inj hvalue)
  obtain ⟨rfl, hn⟩ := of_readNumber hjson hrest hread
  exact ⟨rfl, n, rfl, denotes_of_number? hn⟩

end Reading

end Json
end PrivatePresentation
