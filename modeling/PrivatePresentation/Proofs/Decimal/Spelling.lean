import PrivatePresentation.Decimal.Reader
import PrivatePresentation.Proofs.Decimal.Digits
import PrivatePresentation.Proofs.Decimal.Rounding
import PrivatePresentation.Proofs.Text.Bytes

/-!
Spellings of numbers: a sign, digits with a point among, before or after them, and a power of ten.  The
reader of integers takes those with neither a point nor a power as the numbers they stand for, and the
reader of doubles takes each of them as the double nearest to its number.
-/

namespace PrivatePresentation.Decimal

/-- What may stand in front of digits. -/
inductive Sign where
  | none
  | plus
  | minus
deriving DecidableEq

namespace Sign

def text : Sign → List Char
  | none => []
  | plus => ['+']
  | minus => ['-']

def isMinus : Sign → Bool
  | minus => true
  | _ => false

end Sign

/-- A power of ten. -/
structure Power where
  letter : Char
  sign : Sign
  digits : List Char
  isLetter : letter = 'e' ∨ letter = 'E'
  ne_nil : digits ≠ []
  isDigit_of_mem : ∀ c ∈ digits, isDigit c = true

namespace Power

def text (p : Power) : List Char := p.letter :: (p.sign.text ++ p.digits)

def exponent (p : Power) : Int :=
  if p.sign.isMinus then -(digitsValue p.digits : Int) else digitsValue p.digits

end Power

/-- A number in decimal: its digits before and after the point, if there is one. -/
structure Spelling where
  sign : Sign
  whole : List Char
  fraction? : Option (List Char)
  power? : Option Power
  isDigit_of_mem : ∀ c ∈ whole ++ fraction?.getD [], isDigit c = true
  ne_nil : whole ++ fraction?.getD [] ≠ []

namespace Spelling

variable {s : Spelling}

def fraction (s : Spelling) : List Char := s.fraction?.getD []

def exponent (s : Spelling) : Int := (s.power?.map Power.exponent).getD 0

/-- What stands after the digits before the point. -/
def tail (s : Spelling) : List Char :=
  (s.fraction?.map ('.' :: ·)).getD [] ++ (s.power?.map Power.text).getD []

def text (s : Spelling) : List Char := s.sign.text ++ (s.whole ++ s.tail)

/-- The number that is spelled. -/
def toRat (s : Spelling) : ℚ :=
  Binary64.signed s.sign.isMinus
    (digitsValue (s.whole ++ s.fraction) * 10 ^ (s.exponent - s.fraction.length))

/-- There is neither a point nor a power of ten. -/
structure IsPlain (s : Spelling) : Prop where
  fraction : s.fraction? = none
  power : s.power? = none

/-- The number of a spelling without a point and without a power of ten. -/
def toInt (s : Spelling) : Int :=
  if s.sign.isMinus then -(digitsValue s.whole : Int) else digitsValue s.whole

theorem toRat_of_isPlain (hs : s.IsPlain) : s.toRat = s.toInt := by
  simp only [toRat, Binary64.signed, fraction, exponent, hs.fraction, hs.power, toInt]
  split <;> simp

end Spelling

section Digits

variable {digits rest : List Char}

theorem natural?_digits (hne : digits ≠ []) (hdigits : ∀ c ∈ digits, isDigit c = true) :
    natural? digits = some (digitsValue digits) := by
  rw [natural?, if_pos ⟨hne, List.all_eq_true.2 hdigits⟩]

/-- A sign is split off what begins with none. -/
theorem splitSign_append (sign : Sign) (hrest : ∀ c ∈ rest.head?, c ≠ '-' ∧ c ≠ '+') :
    splitSign (sign.text ++ rest) = (sign.isMinus, rest) := by
  cases sign with
  | plus => rfl
  | minus => rfl
  | none =>
      cases rest with
      | nil => rfl
      | cons c rest =>
          obtain ⟨hminus, hplus⟩ := hrest c rfl
          simp [Sign.text, Sign.isMinus, splitSign, hminus, hplus]

theorem ne_of_isDigit {c d : Char} (hc : isDigit c = true) (hd : isDigit d = false) : c ≠ d := by
  rintro rfl
  rw [hc] at hd
  cases hd

theorem toLower_of_isDigit {c : Char} (hc : isDigit c = true) : c.toLower = c := by
  have hcode := isDigit_iff.1 hc
  rw [Char.toLower, dif_neg]
  rintro ⟨hletter, -⟩
  have hupper : 65 ≤ c.toNat := hletter
  omega

theorem exponent?_text (p : Power) : exponent? p.text = some p.exponent := by
  obtain ⟨d, tail, hdigits⟩ := List.exists_cons_of_ne_nil p.ne_nil
  have hd : isDigit d = true := p.isDigit_of_mem d (by rw [hdigits]; exact List.mem_cons_self)
  have hsplit : splitSign (p.sign.text ++ p.digits) = (p.sign.isMinus, p.digits) := by
    apply splitSign_append
    intro c hc
    rw [hdigits] at hc
    obtain rfl := Option.some.inj hc
    exact ⟨ne_of_isDigit hd (by decide), ne_of_isDigit hd (by decide)⟩
  rw [Power.text, exponent?, if_pos p.isLetter, hsplit]
  simp only [natural?_digits p.ne_nil p.isDigit_of_mem]
  rfl

end Digits

namespace Spelling

variable (s : Spelling)

theorem isDigit_of_mem_whole : ∀ c ∈ s.whole, isDigit c = true :=
  fun c hc => s.isDigit_of_mem c (List.mem_append_left _ hc)

theorem isDigit_of_mem_fraction : ∀ c ∈ s.fraction, isDigit c = true :=
  fun c hc => s.isDigit_of_mem c (List.mem_append_right _ hc)

/-- What follows the digits before the point is no digit. -/
theorem head?_tail : ∀ c ∈ s.tail.head?, isDigit c = false := by
  intro c hc
  rw [tail] at hc
  cases hfraction : s.fraction? with
  | some digits =>
      rw [hfraction] at hc
      obtain rfl := Option.some.inj hc
      decide
  | none =>
      cases hpower : s.power? with
      | none => simp [hfraction, hpower] at hc
      | some p =>
          rw [hfraction, hpower] at hc
          obtain rfl := Option.some.inj hc
          rcases p.isLetter with h | h <;> rw [h] <;> decide

/-- What follows the sign is a digit or a point. -/
theorem head?_unsigned : ∃ c rest, s.whole ++ s.tail = c :: rest ∧ (isDigit c = true ∨ c = '.') := by
  cases hwhole : s.whole with
  | cons c rest =>
      exact ⟨c, rest ++ s.tail, rfl, .inl (s.isDigit_of_mem_whole c (hwhole ▸ List.mem_cons_self))⟩
  | nil =>
      have hne := s.ne_nil
      cases hfraction : s.fraction? with
      | none => simp [hwhole, hfraction] at hne
      | some digits => exact ⟨'.', _, by simp [tail, hfraction]; rfl, .inr rfl⟩

theorem splitSign_text : splitSign s.text = (s.sign.isMinus, s.whole ++ s.tail) := by
  apply splitSign_append
  obtain ⟨c, rest, hbegin, hc⟩ := s.head?_unsigned
  intro d hd
  rw [hbegin] at hd
  obtain rfl := Option.some.inj hd
  rcases hc with hdigit | rfl
  · exact ⟨ne_of_isDigit hdigit (by decide), ne_of_isDigit hdigit (by decide)⟩
  · exact ⟨by decide, by decide⟩

/-- The power of ten is read off what follows the other digits. -/
theorem exponent?_power :
    exponent? ((s.power?.map Power.text).getD []) = some s.exponent ∧
      ∀ c ∈ ((s.power?.map Power.text).getD []).head?, isDigit c = false ∧ c ≠ '.' := by
  cases hpower : s.power? with
  | none =>
      constructor
      · simp [exponent, hpower, exponent?]
      · simp
  | some p =>
      constructor
      · simpa [exponent, hpower] using exponent?_text p
      · intro c hc
        obtain rfl := Option.some.inj hc
        rcases p.isLetter with h | h <;> rw [h] <;> decide

/-- What a reader of doubles makes of a number. -/
def doubleText (s : Spelling) : FloatText :=
  match Binary64.ofDecimal s.sign.isMinus (digitsValue (s.whole ++ s.fraction))
      (s.exponent - s.fraction.length) with
  | some x => .finite x
  | none => .infinite

theorem unsignedFloat?_tail : unsignedFloat? s.sign.isMinus (s.whole ++ s.tail) = some s.doubleText := by
  have hwhole := Text.takeWhile_run s.isDigit_of_mem_whole s.head?_tail
  have hrest := Text.dropWhile_run s.isDigit_of_mem_whole s.head?_tail
  have hne : ¬(s.whole.isEmpty && s.fraction.isEmpty) = true := by
    have hdigits := s.ne_nil
    simp [fraction] at hdigits ⊢
    exact hdigits
  obtain ⟨hexponent, hstop⟩ := s.exponent?_power
  generalize hpower : (s.power?.map Power.text).getD [] = power at hexponent hstop
  have hresult : (do
      let exponent ← exponent? power
      match Binary64.ofDecimal s.sign.isMinus (digitsValue (s.whole ++ s.fraction))
          (exponent - s.fraction.length) with
      | some x => some (.finite x)
      | none => some .infinite) = some s.doubleText := by
    rw [hexponent, Option.bind_eq_bind, Option.bind_some, doubleText]
    split <;> rfl
  rw [unsignedFloat?, hwhole, hrest]
  cases hfraction : s.fraction? with
  | some digits =>
      have hdigits : s.fraction = digits := by simp [fraction, hfraction]
      have htail : s.tail = '.' :: (digits ++ power) := by simp [tail, hfraction, hpower]
      have hall := s.isDigit_of_mem_fraction
      rw [hdigits] at hne hresult hall
      have htake := Text.takeWhile_run hall fun c hc => (hstop c hc).1
      have hdrop := Text.dropWhile_run hall fun c hc => (hstop c hc).1
      rw [htail]
      simp only [htake, hdrop, if_neg hne]
      exact hresult
  | none =>
      have hdigits : s.fraction = [] := by simp [fraction, hfraction]
      have htail : s.tail = power := by simp [tail, hfraction, hpower]
      rw [hdigits] at hne hresult
      rw [htail]
      split
      rename_i digits rest hsplit
      split at hsplit
      · exact absurd rfl (hstop '.' rfl).2
      · obtain ⟨rfl, rfl⟩ := Prod.mk.inj hsplit
        rw [if_neg hne]
        exact hresult

/-- A reader of doubles takes every spelling. -/
theorem float?_text : float? (String.ofList s.text) = some s.doubleText := by
  have hword {word : String} {first : Char} {others : List Char} (htext : word.toList = first :: others)
      (hfirst : isDigit first = false ∧ first ≠ '.') :
      Text.lowerAscii (String.ofList (s.whole ++ s.tail)) ≠ word := by
    rintro rfl
    obtain ⟨c, rest, hbegin, hc⟩ := s.head?_unsigned
    rw [hbegin, Text.lowerAscii, String.toList_map, String.toList_ofList, List.map_cons] at htext
    obtain rfl := (List.cons.inj htext).1
    rcases hc with hdigit | rfl
    · rw [toLower_of_isDigit hdigit, hdigit] at hfirst
      exact Bool.noConfusion hfirst.1
    · exact hfirst.2 (by decide)
  have hinf : "inf".toList = ['i', 'n', 'f'] := rfl
  have hinfinity : "infinity".toList = ['i', 'n', 'f', 'i', 'n', 'i', 't', 'y'] := rfl
  have hnan : "nan".toList = ['n', 'a', 'n'] := rfl
  rw [float?, String.toList_ofList, splitSign_text]
  dsimp only
  rw [if_neg, if_neg (hword hnan (by decide))]
  · exact s.unsignedFloat?_tail
  · rintro (h | h)
    · exact hword hinf (by decide) h
    · exact hword hinfinity (by decide) h

/-- A reader of integers takes the spellings without a point and without a power of ten. -/
theorem integer?_text_of_isPlain (hs : s.IsPlain) : integer? s.text = some s.toInt := by
  have htail : s.tail = [] := by simp [tail, hs.fraction, hs.power]
  have hne : s.whole ≠ [] := by
    have hdigits := s.ne_nil
    rwa [hs.fraction, Option.getD_none, List.append_nil] at hdigits
  have hnatural := natural?_digits hne s.isDigit_of_mem_whole
  obtain ⟨d, rest, hwhole⟩ := List.exists_cons_of_ne_nil hne
  have hd := s.isDigit_of_mem_whole d (hwhole ▸ List.mem_cons_self)
  rw [text, htail, List.append_nil, toInt]
  cases s.sign with
  | plus => simp [Sign.text, Sign.isMinus, integer?, hnatural]
  | minus => simp [Sign.text, Sign.isMinus, integer?, hnatural]
  | none =>
      have hminus : d ≠ '-' := ne_of_isDigit hd (by decide)
      have hplus : d ≠ '+' := ne_of_isDigit hd (by decide)
      rw [hwhole] at hnatural ⊢
      simp [Sign.text, Sign.isMinus, integer?, hnatural, hminus, hplus]

theorem integer?_text_of_not_isPlain (hs : ¬s.IsPlain) : integer? s.text = none := by
  have htail : s.tail ≠ [] := by
    intro h
    apply hs
    rw [tail, List.append_eq_nil_iff] at h
    refine ⟨?_, ?_⟩
    · cases hfraction : s.fraction? with
      | none => rfl
      | some digits => simp [hfraction] at h
    · cases hpower : s.power? with
      | none => rfl
      | some p => simp [hpower, Power.text] at h
  obtain ⟨c, rest, hcons⟩ := List.exists_cons_of_ne_nil htail
  have hc := s.head?_tail c (by rw [hcons]; rfl)
  have hnatural : natural? (s.whole ++ s.tail) = none := by
    rw [natural?, if_neg]
    rintro ⟨-, hall⟩
    have hdigit := List.all_eq_true.1 hall c (by simp [hcons])
    rw [hc] at hdigit
    cases hdigit
  have hplain : integer? (s.whole ++ s.tail) = none := by
    obtain ⟨d, tail, hbegin, hd⟩ := s.head?_unsigned
    rw [hbegin] at hnatural ⊢
    have hminus : d ≠ '-' := by
      rcases hd with hd | rfl
      · exact ne_of_isDigit hd (by decide)
      · decide
    have hplus : d ≠ '+' := by
      rcases hd with hd | rfl
      · exact ne_of_isDigit hd (by decide)
      · decide
    simp [integer?, hnatural, hminus, hplus]
  rw [text]
  cases s.sign with
  | plus => simp [Sign.text, integer?, hnatural]
  | minus => simp [Sign.text, integer?, hnatural]
  | none => exact hplain

/-- The double that is read is the one nearest to the number. -/
theorem rounds_of_doubleText {x : Binary64} (h : s.doubleText = .finite x) :
    Binary64.Rounds s.toRat x := by
  rw [doubleText] at h
  split at h
  · rename_i y hy
    obtain rfl := FloatText.finite.inj h
    exact Binary64.rounds_of_ofDecimal hy
  · cases h

end Spelling

end PrivatePresentation.Decimal
