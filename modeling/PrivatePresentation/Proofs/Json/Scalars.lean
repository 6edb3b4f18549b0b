import PrivatePresentation.Json.Reader
import PrivatePresentation.Json.Writer
import PrivatePresentation.Proofs.Decimal.Digits
import PrivatePresentation.Proofs.Text.Bytes

/-!
Strings and integers are read back.  Every character of a string comes out of its escape, and the
digits of a number end where the number does.
-/

namespace PrivatePresentation.Json

/-- A byte that stands for itself inside a string. -/
def IsPlain (b : UInt8) : Prop := 0x20 ≤ b.toNat ∧ b.toNat ≠ 0x22 ∧ b.toNat ≠ 0x5C

theorem readStringBytes_plain {b : UInt8} (hb : IsPlain b) (reversed rest : Bytes) :
    readStringBytes reversed (b :: rest) = readStringBytes (b :: reversed) rest := by
  obtain ⟨hcontrol, hquote, hslash⟩ := hb
  have hquote : b ≠ 0x22 := fun h => hquote (congrArg UInt8.toNat h)
  have hslash : b ≠ 0x5C := fun h => hslash (congrArg UInt8.toNat h)
  have hcontrol : ¬b < 0x20 := fun h => absurd (UInt8.lt_iff_toNat_lt.1 h) (Nat.not_lt.2 hcontrol)
  rw [readStringBytes.eq_7 reversed b rest hquote (fun h => absurd h hslash)
    (fun _ _ _ _ _ h => absurd h hslash) (fun _ h => absurd h hslash)
    (fun _ _ h => absurd h hslash), if_neg hcontrol]

/-- A letter after a backslash. -/
theorem readStringBytes_escape {e b : UInt8} (he : simpleEscape? e = some b)
    (reversed rest : Bytes) :
    readStringBytes reversed (0x5C :: e :: rest) = readStringBytes (b :: reversed) rest := by
  have hletter : e ≠ 117 := by
    rintro rfl
    cases he
  rw [readStringBytes.eq_6 reversed e rest (fun _ _ _ _ _ h => absurd h hletter) hletter, he]

/-- The bytes inside a string and those they stand for. -/
inductive Unescapes : Bytes → Bytes → Prop where
  | nil : Unescapes [] []
  | plain {b : UInt8} {text raw : Bytes} (hb : IsPlain b) (h : Unescapes text raw) :
      Unescapes (b :: text) (b :: raw)
  | escape {e b : UInt8} {text raw : Bytes} (he : simpleEscape? e = some b) (h : Unescapes text raw) :
      Unescapes (0x5C :: e :: text) (b :: raw)
  | unit {a b c d : UInt8} {n : Nat} {text raw : Bytes} (hn : hex4? a b c d = some n)
      (hscalar : n < 0xD800 ∨ 0xDFFF < n) (h : Unescapes text raw) :
      Unescapes (0x5C :: 0x75 :: a :: b :: c :: d :: text)
        (Text.utf8 (String.singleton (Char.ofNat n)) ++ raw)
  | pair {a b c d a' b' c' d' : UInt8} {n m : Nat} {text raw : Bytes} (hn : hex4? a b c d = some n)
      (hhigh : 0xD800 ≤ n ∧ n ≤ 0xDBFF) (hm : hex4? a' b' c' d' = some m)
      (hlow : 0xDC00 ≤ m ∧ m ≤ 0xDFFF) (h : Unescapes text raw) :
      Unescapes (0x5C :: 0x75 :: a :: b :: c :: d :: 0x5C :: 0x75 :: a' :: b' :: c' :: d' :: text)
        (Text.utf8 (String.singleton (Char.ofNat ((n - 0xD800) * 0x400 + (m - 0xDC00) + 0x10000))) ++ raw)

namespace Unescapes

variable {text raw : Bytes}

/-- A string is read up to its closing quote. -/
theorem reads (h : Unescapes text raw) (reversed rest : Bytes) :
    readStringBytes reversed (text ++ 0x22 :: rest) = .ok (reversed.reverse ++ raw, rest) := by
  induction h generalizing reversed with
  | nil => simp [readStringBytes.eq_2]
  | plain hb h ih =>
      rw [List.cons_append, readStringBytes_plain hb, ih]
      simp
  | escape he h ih =>
      rw [List.cons_append, List.cons_append, readStringBytes_escape he, ih]
      simp
  | unit hn hscalar h ih =>
      simp only [List.cons_append]
      rw [readStringBytes.eq_4]
      simp only [hn]
      rw [if_neg (by omega), if_pos (by omega), pushCodePoint, ih]
      simp
  | pair hn hhigh hm hlow h ih =>
      simp only [List.cons_append]
      rw [readStringBytes.eq_4]
      simp only [hn, hm]
      rw [if_neg (by omega), if_neg (by omega), if_neg (by omega), pushCodePoint, ih]
      simp

theorem readString {s : String} (h : Unescapes text (Text.utf8 s)) (rest : Bytes) :
    readString (text ++ 0x22 :: rest) = .ok (s, rest) := by
  rw [Json.readString, h.reads]
  simp only [bind, Except.bind, List.reverse_nil, List.nil_append, Text.ofUtf8?_utf8]

theorem plains {bs : Bytes} (hbs : ∀ b ∈ bs, IsPlain b) (h : Unescapes text raw) :
    Unescapes (bs ++ text) (bs ++ raw) := by
  induction bs with
  | nil => exact h
  | cons b bs ih =>
      obtain ⟨hb, hrest⟩ := List.forall_mem_cons.1 hbs
      exact .plain hb (ih hrest)

/-- Four hexadecimal digits of a control character. -/
theorem control {n : Nat} (hn : n < 0x20) (h : Unescapes text raw) :
    Unescapes (Text.utf8Chars
        ['\\', 'u', '0', '0', Hex.digit (n / 16), Hex.digit (n % 16)] ++ text)
      (String.utf8EncodeChar (Char.ofNat n) ++ raw) := by
  have hbytes : Text.utf8Chars ['\\', 'u', '0', '0', Hex.digit (n / 16), Hex.digit (n % 16)] =
      [0x5C, 0x75, 0x30, 0x30, UInt8.ofNat (Hex.digit (n / 16)).toNat,
        UInt8.ofNat (Hex.digit (n % 16)).toNat] := by
    decide +revert
  have hvalue : hex4? 0x30 0x30 (UInt8.ofNat (Hex.digit (n / 16)).toNat)
      (UInt8.ofNat (Hex.digit (n % 16)).toNat) = some n := by
    decide +revert
  have hchar : Text.utf8 (String.singleton (Char.ofNat n)) = String.utf8EncodeChar (Char.ofNat n) := by
    decide +revert
  rw [hbytes, ← hchar]
  exact .unit hvalue (.inl (by omega)) h

theorem isPlain_of_mem {c : Char} (hcontrol : 0x20 ≤ c.toNat) (hquote : c ≠ '"') (hslash : c ≠ '\\') :
    ∀ b ∈ String.utf8EncodeChar c, IsPlain b := by
  intro b hb
  rcases Text.utf8EncodeChar_cases c with ⟨hascii, hone⟩ | ⟨-, hlarge⟩
  · rw [hone, List.mem_singleton] at hb
    subst hb
    have hcode : (UInt8.ofNat c.toNat).toNat = c.toNat :=
      UInt8.toNat_ofNat'.trans (Nat.mod_eq_of_lt (by omega))
    rw [IsPlain, hcode]
    exact ⟨hcontrol, fun h => hquote (Char.toNat_inj.1 h), fun h => hslash (Char.toNat_inj.1 h)⟩
  · have := hlarge b hb
    exact ⟨by omega, by omega, by omega⟩

/-- A character comes out of its escape. -/
theorem escapeChar (c : Char) (h : Unescapes text raw) :
    Unescapes (Text.utf8Chars (escapeChar c) ++ text) (String.utf8EncodeChar c ++ raw) := by
  unfold Json.escapeChar
  split
  · exact .escape rfl h
  · exact .escape rfl h
  · exact .escape rfl h
  · exact .escape rfl h
  · exact .escape rfl h
  · exact .escape rfl h
  · exact .escape rfl h
  · rename_i hquote hslash _ _ _ _ _
    split
    · rename_i hcontrol
      have hread := h.control hcontrol
      rwa [Char.ofNat_toNat] at hread
    · rename_i hcontrol
      rw [Text.utf8Chars, List.flatMap_singleton]
      exact h.plains (isPlain_of_mem (Nat.not_lt.1 hcontrol) hquote hslash)

theorem escaped (s : List Char) :
    Unescapes (Text.utf8Chars (s.flatMap Json.escapeChar)) (Text.utf8Chars s) := by
  induction s with
  | nil => exact .nil
  | cons c s ih =>
      rw [List.flatMap_cons, Text.utf8Chars_append, Text.utf8Chars_cons]
      exact ih.escapeChar c

end Unescapes

/-- A string is read back from its escaped characters. -/
theorem readString_escaped (s : String) (rest : Bytes) :
    readString (Text.utf8Chars (s.toList.flatMap escapeChar) ++ 0x22 :: rest) = .ok (s, rest) := by
  have hs := Unescapes.escaped s.toList
  rw [← Text.utf8_eq_utf8Chars] at hs
  exact hs.readString rest

theorem utf8Chars_writeString (s : String) :
    Text.utf8Chars (writeString s) =
      0x22 :: (Text.utf8Chars (s.toList.flatMap escapeChar) ++ [0x22]) := by
  have hquote : String.utf8EncodeChar '"' = [0x22] := rfl
  simp only [writeString, Text.utf8Chars_append, Text.utf8Chars_cons, Text.utf8Chars_nil, hquote,
    List.cons_append, List.nil_append]

/-- What may follow a value inside a document. -/
def Delimited (rest : Bytes) : Prop := ∀ b ∈ rest.head?, b = 0x2C ∨ b = 0x5D ∨ b = 0x7D

section Digits

variable {digits : List Char} {rest : Bytes}

theorem ne_of_isDigit {d b : UInt8} (hd : isDigit d = true) (hb : isDigit b = false) : d ≠ b := by
  rintro rfl
  rw [hd] at hb
  cases hb

theorem isSpace_of_isDigit {d : UInt8} (hd : isDigit d = true) : isSpace d = false := by
  simp [isSpace, @ne_of_isDigit d 0x20 hd rfl, @ne_of_isDigit d 0x09 hd rfl,
    @ne_of_isDigit d 0x0A hd rfl, @ne_of_isDigit d 0x0D hd rfl]

theorem toNat_ofNat_digit {c : Char} (hc : Decimal.isDigit c = true) :
    (UInt8.ofNat c.toNat).toNat = c.toNat ∧ 48 ≤ c.toNat ∧ c.toNat ≤ 57 := by
  have hcode := Decimal.isDigit_iff.1 hc
  exact ⟨UInt8.toNat_ofNat'.trans (Nat.mod_eq_of_lt (by omega)), hcode⟩

theorem utf8Chars_digits (hdigits : ∀ c ∈ digits, Decimal.isDigit c = true) :
    Text.utf8Chars digits = digits.map fun c => UInt8.ofNat c.toNat := by
  have hone : ∀ c ∈ digits, String.utf8EncodeChar c = [UInt8.ofNat c.toNat] := by
    intro c hc
    obtain ⟨-, hcode⟩ := toNat_ofNat_digit (hdigits c hc)
    rcases Text.utf8EncodeChar_cases c with ⟨-, hone⟩ | ⟨hlarge, -⟩
    · exact hone
    · omega
  rw [Text.utf8Chars, List.flatMap_congr hone, List.map_eq_flatMap]

theorem isDigit_of_mem_utf8Chars (hdigits : ∀ c ∈ digits, Decimal.isDigit c = true) :
    ∀ b ∈ Text.utf8Chars digits, isDigit b = true := by
  intro b hb
  rw [utf8Chars_digits hdigits] at hb
  obtain ⟨c, hc, rfl⟩ := List.mem_map.1 hb
  obtain ⟨hbyte, hcode⟩ := toNat_ofNat_digit (hdigits c hc)
  rw [isDigit, Bool.and_eq_true, decide_eq_true_eq, decide_eq_true_eq, UInt8.le_iff_toNat_le,
    UInt8.le_iff_toNat_le, hbyte]
  exact hcode

theorem digitsValue_utf8Chars (hdigits : ∀ c ∈ digits, Decimal.isDigit c = true) :
    digitsValue (Text.utf8Chars digits) = Decimal.digitsValue digits := by
  rw [utf8Chars_digits hdigits, digitsValue, Decimal.digitsValue, List.foldl_map]
  apply List.foldl_ext
  intro n c hc
  rw [(toNat_ofNat_digit (hdigits c hc)).1]

theorem splitDigits_append {digits : Bytes} (hdigits : ∀ b ∈ digits, isDigit b = true)
    (hrest : ∀ b ∈ rest.head?, isDigit b = false) : splitDigits (digits ++ rest) = (digits, rest) := by
  rw [splitDigits, Text.takeWhile_run hdigits hrest, Text.dropWhile_run hdigits hrest]

/-- The digits before a point are read up to what is no digit; a zero among them is first only if it is
alone. -/
theorem readNumber_digits {digits : Bytes} {negative : Bool} (hne : digits ≠ [])
    (hdigits : ∀ b ∈ digits, isDigit b = true) (hzero : digits.head? = some 0x30 → digits = [0x30])
    (hrest : ∀ b ∈ rest.head?, isDigit b = false) :
    readNumber negative (digits ++ rest) = readFraction ⟨negative, digits, [], 0, true⟩ rest := by
  have hsplit := splitDigits_append hdigits hrest
  obtain ⟨d, tail, rfl⟩ := List.exists_cons_of_ne_nil hne
  have hd : isDigit d = true := hdigits d List.mem_cons_self
  rw [List.cons_append] at hsplit ⊢
  by_cases hd0 : d = 0x30
  · subst hd0
    obtain ⟨-, rfl⟩ := List.cons.inj (hzero rfl)
    cases rest with
    | nil => rfl
    | cons b rest => simp [readNumber, hrest b rfl]
  · simp [readNumber, hd0, hd, hsplit]

/-- A value that begins with a digit is a number. -/
theorem readValue_of_isDigit {depth : Nat} {d : UInt8} (hd : isDigit d = true) (bytes : Bytes) :
    readValue depth (d :: bytes) =
      readNumber false (d :: bytes) >>= fun p => pure (.number p.1, p.2) := by
  have hspace : skipSpace (d :: bytes) = d :: bytes :=
    List.dropWhile_cons_of_neg (by rw [isSpace_of_isDigit hd]; exact Bool.false_ne_true)
  have hne (b : UInt8) (hb : isDigit b = false) : d ≠ b := ne_of_isDigit hd hb
  unfold readValue
  simp [hspace, hd, hne 0x6E rfl, hne 0x74 rfl, hne 0x66 rfl, hne 0x22 rfl, hne 0x2D rfl]

/-- A value that begins with a minus sign is a number. -/
theorem readValue_minus (depth : Nat) (bytes : Bytes) :
    readValue depth (0x2D :: bytes) = readNumber true bytes >>= fun p => pure (.number p.1, p.2) := by
  unfold readValue
  simp [skipSpace, isSpace]

end Digits

section Integers

variable {n : Nat} {rest : Bytes}

/-- The digits of a number as bytes. -/
def digitBytes (n : Nat) : Bytes := (Nat.toDigits 10 n).map fun c => UInt8.ofNat c.toNat

theorem utf8Chars_toDigits (n : Nat) : Text.utf8Chars (Nat.toDigits 10 n) = digitBytes n :=
  utf8Chars_digits fun _ => Decimal.isDigit_of_mem_toDigits

theorem isDigit_of_mem_digitBytes {b : UInt8} (hb : b ∈ digitBytes n) : isDigit b = true := by
  rw [← utf8Chars_toDigits] at hb
  exact isDigit_of_mem_utf8Chars (fun _ => Decimal.isDigit_of_mem_toDigits) b hb

theorem digitsValue_digitBytes (n : Nat) : digitsValue (digitBytes n) = n := by
  rw [← utf8Chars_toDigits, digitsValue_utf8Chars fun _ => Decimal.isDigit_of_mem_toDigits,
    Decimal.digitsValue_toDigits]

/-- The first digit of a number is zero only if the number is. -/
theorem head_digitBytes (n : Nat) :
    ∃ d ds, digitBytes n = d :: ds ∧ isDigit d = true ∧ (d = 0x30 → ds = []) := by
  obtain ⟨c, cs, hchars⟩ := List.exists_cons_of_ne_nil (Nat.toDigits_ne_nil (n := n) (b := 10))
  have hbytes : digitBytes n = UInt8.ofNat c.toNat :: cs.map fun c => UInt8.ofNat c.toNat := by
    rw [digitBytes, hchars]
    rfl
  have hc : Decimal.isDigit c = true :=
    Decimal.isDigit_of_mem_toDigits (n := n) (by rw [hchars]; exact List.mem_cons_self)
  refine ⟨_, _, hbytes, isDigit_of_mem_digitBytes (hbytes ▸ List.mem_cons_self), fun hzero => ?_⟩
  have hcode := (toNat_ofNat_digit hc).1
  rw [hzero] at hcode
  have hchar : c = '0' := Char.toNat_inj.1 hcode.symm
  have hone := Decimal.toDigits_eq_zero n (by rw [hchars, hchar]; rfl)
  rw [hchars] at hone
  obtain ⟨-, rfl⟩ := List.cons.inj hone
  rfl

theorem Delimited.isDigit_eq_false (hrest : Delimited rest) : ∀ b ∈ rest.head?, isDigit b = false := by
  intro b hb
  rcases hrest b hb with rfl | rfl | rfl
  · rfl
  · rfl
  · rfl

theorem readFraction_delimited (hrest : Delimited rest) (l : Literal) :
    readFraction l rest = finishNumber l rest := by
  cases rest with
  | nil => rfl
  | cons b rest =>
      rcases hrest b rfl with rfl | rfl | rfl
      · rfl
      · rfl
      · rfl

/-- The digits of a number are read up to its end. -/
theorem readNumber_digitBytes (negative : Bool) (hrest : Delimited rest) :
    readNumber negative (digitBytes n ++ rest) =
      finishNumber ⟨negative, digitBytes n, [], 0, true⟩ rest := by
  obtain ⟨d, ds, hdigits, -, hzero⟩ := head_digitBytes n
  have hlone : (digitBytes n).head? = some 0x30 → digitBytes n = [0x30] := by
    rw [hdigits]
    intro hd
    obtain rfl := Option.some.inj hd
    rw [hzero rfl]
  rw [readNumber_digits (hdigits ▸ List.cons_ne_nil d ds) (fun _ => isDigit_of_mem_digitBytes) hlone
    hrest.isDigit_eq_false]
  exact readFraction_delimited hrest _

/-- A number of 64 bits is the integer that it is made of. -/
theorem ofInt_eq {n : Int} (fits : minSigned ≤ n ∧ n ≤ maxUnsigned) :
    int n = .number (.integer n fits) := by
  have hclamp : max minSigned (min n maxUnsigned) = n := by
    rw [min_eq_left fits.2, max_eq_right fits.1]
  simp only [int, Number.ofInt, hclamp]

theorem number?_natural (k : Nat) (fits : minSigned ≤ (k : Int) ∧ (k : Int) ≤ maxUnsigned) :
    Literal.number? ⟨false, digitBytes k, [], 0, true⟩ = some (.integer k fits) := by
  have hk : k < 18446744073709551616 := by
    have hhigh := fits.2
    simp only [maxUnsigned] at hhigh
    omega
  simp [Literal.number?, digitsValue_digitBytes, hk]

theorem number?_negative {k : Nat} (hpos : 0 < k)
    (fits : minSigned ≤ -(k : Int) ∧ -(k : Int) ≤ maxUnsigned) :
    Literal.number? ⟨true, digitBytes k, [], 0, true⟩ = some (.integer (-k) fits) := by
  have hk : k ≤ 9223372036854775808 := by
    have hlow := fits.1
    simp only [minSigned] at hlow
    omega
  simp [Literal.number?, digitsValue_digitBytes, hpos, hk]

end Integers

end PrivatePresentation.Json
