import Mathlib.Data.List.TakeWhile
import PrivatePresentation.Proofs.Decimal.Digits
import PrivatePresentation.Proofs.Outcome
import PrivatePresentation.Proofs.Text.Bytes
import PrivatePresentation.Time.Reader

/-!
Steps of reading, told by what they take from the front of a text.  A step takes as many digits as it may,
so it reads back what has been written for it only if no further digit follows.
-/

namespace PrivatePresentation.Timestamp

/-- Digits, as many as the bounds say, with a value. -/
structure Numeral (least most : Nat) (digits : List Char) (n : Nat) : Prop where
  all : ∀ c ∈ digits, isDigit c = true
  least : least ≤ digits.length
  most : digits.length ≤ most
  value : digitsValue digits = n

/-- White space, and then as many digits as the bounds say. -/
inductive Part (least most : Nat) : List Char → Nat → Prop where
  | mk {blanks digits : List Char} {n : Nat} (hblanks : ∀ c ∈ blanks, Text.isBlank c = true)
      (hdigits : Numeral least most digits n) : Part least most (blanks ++ digits) n

/-- A year in up to four digits, or with a sign in any number of them, after white space. -/
inductive YearText : List Char → Int → Prop where
  | plain {text : List Char} {n : Nat} (htext : Part 1 4 text n) : YearText text n
  | plus {blanks digits : List Char} {n : Nat} (hblanks : ∀ c ∈ blanks, Text.isBlank c = true)
      (hdigits : Numeral 1 digits.length digits n) : YearText (blanks ++ '+' :: digits) n
  | minus {blanks digits : List Char} {n : Nat} (hblanks : ∀ c ∈ blanks, Text.isBlank c = true)
      (hdigits : Numeral 1 digits.length digits n) : YearText (blanks ++ '-' :: digits) (-n)

variable {least most low high n : Nat} {s rest : List Char}

/-- Digits are worth here what they are worth in other numbers. -/
theorem digitsValue_eq : digitsValue = Decimal.digitsValue := rfl

theorem not_isBlank_of_isDigit {c : Char} (hc : isDigit c = true) : Text.isBlank c = false := by
  have hcode := Decimal.isDigit_iff.1 hc
  simp [Text.isBlank]
  omega

theorem isDigit_hyphen : isDigit '-' = false := by decide

/-- A text has as many bytes as characters at least. -/
theorem length_le_utf8ByteSize (s : List Char) : s.length ≤ (String.ofList s).utf8ByteSize := by
  induction s with
  | nil => exact Nat.zero_le _
  | cons c rest ih =>
      have hc : 1 ≤ c.utf8Size := c.utf8Size_pos
      rw [String.ofList_cons, String.utf8ByteSize_append, String.utf8ByteSize_singleton,
        List.length_cons]
      omega

section Number

theorem of_number (hn : number least most s = .ok (n, rest)) :
    s = (s.take most).takeWhile isDigit ++ rest ∧ least ≤ ((s.take most).takeWhile isDigit).length ∧
      digitsValue ((s.take most).takeWhile isDigit) = n := by
  unfold number at hn
  dsimp only at hn
  obtain ⟨-, hn⟩ := Outcome.of_guard hn
  obtain ⟨hleast, hn⟩ := Outcome.of_guard hn
  obtain ⟨hvalue, rfl⟩ := Prod.mk.inj (Except.ok.inj hn)
  have hprefix : (s.take most).takeWhile isDigit <+: s :=
    (List.takeWhile_prefix _).trans (List.take_prefix _ _)
  exact ⟨(List.prefix_iff_eq_append.1 hprefix).symm, Nat.le_of_not_lt hleast, hvalue⟩

/-- A number is read off the front of a text exactly if digits stand there, as many as it may have; and
no digit follows them if there could have been more. -/
theorem number_eq_ok : number least most s = .ok (n, rest) ↔
    ∃ digits, s = digits ++ rest ∧ Numeral least most digits n ∧
      (digits.length < most → ∀ c ∈ rest.head?, isDigit c = false) := by
  constructor
  · intro hn
    obtain ⟨hs, hleast, hvalue⟩ := of_number hn
    refine ⟨_, hs, ⟨fun c hc => List.mem_takeWhile_imp hc, hleast, ?_, hvalue⟩, fun hshort c hc => ?_⟩
    · exact ((List.takeWhile_sublist _).length_le).trans (List.length_take_le _ _)
    · rw [← List.take_takeWhile] at hs hshort
      have hall : (s.takeWhile isDigit).length ≤ most := by
        rw [List.length_take] at hshort
        omega
      rw [List.take_of_length_le hall] at hs
      have hsplit := List.takeWhile_append_dropWhile (p := isDigit) (l := s)
      obtain rfl : s.dropWhile isDigit = rest := List.append_cancel_left (hsplit.trans hs)
      exact Text.head?_dropWhile s c hc
  · rintro ⟨digits, rfl, hdigits, hstops⟩
    have hread : ((digits ++ rest).take most).takeWhile isDigit = digits := by
      rw [← List.take_takeWhile]
      by_cases hshort : digits.length < most
      · rw [Text.takeWhile_run hdigits.all (hstops hshort), List.take_of_length_le hdigits.most]
      · have hlength : digits.length = most := Nat.le_antisymm hdigits.most (Nat.le_of_not_lt hshort)
        rw [List.takeWhile_append_of_pos hdigits.all, ← hlength, List.take_left]
    unfold number
    dsimp only
    rw [hread]
    apply Outcome.guard_eq_ok
    · have hbytes := length_le_utf8ByteSize (digits ++ rest)
      have hleast := hdigits.least
      rw [List.length_append] at hbytes
      omega
    · apply Outcome.guard_eq_ok
      · exact Nat.not_lt.2 hdigits.least
      · rw [hdigits.value, List.drop_left]

theorem bounded_eq_ok : bounded least most low high s = .ok (n, rest) ↔
    number least most s = .ok (n, rest) ∧ low ≤ n ∧ n ≤ high := by
  constructor
  · intro hn
    unfold bounded at hn
    obtain ⟨⟨m, rest'⟩, hnumber, hn⟩ := Outcome.of_bind hn
    obtain ⟨hwithin, hn⟩ := Outcome.of_guard_else hn
    obtain ⟨rfl, rfl⟩ := Prod.mk.inj (Except.ok.inj hn)
    exact ⟨hnumber, hwithin⟩
  · rintro ⟨hnumber, hwithin⟩
    unfold bounded
    exact Outcome.bind_eq_ok hnumber (if_pos hwithin)

theorem literal_eq_ok {c : Char} {u : Unit} : literal c s = .ok (u, rest) ↔ s = c :: rest := by
  cases s with
  | nil => simp [literal]
  | cons d tail =>
      by_cases hd : d = c
      · simp [literal, hd]
      · simp [literal, hd]

end Number

section Lenient

variable {text : List Char} {year : Int}

theorem exists_blanks (s : List Char) :
    ∃ blanks, s = blanks ++ Text.trimStartChars s ∧ ∀ c ∈ blanks, Text.isBlank c = true :=
  ⟨s.takeWhile Text.isBlank, List.takeWhile_append_dropWhile.symm, fun _ hc => List.mem_takeWhile_imp hc⟩

theorem trimStartChars_append {blanks : List Char} (hblanks : ∀ c ∈ blanks, Text.isBlank c = true)
    (hs : ∀ c ∈ s.head?, Text.isBlank c = false) : Text.trimStartChars (blanks ++ s) = s := by
  rw [Text.trimStartChars, List.dropWhile_append_of_pos hblanks, Text.dropWhile_isBlank_eq_self hs]

theorem Numeral.ne_nil {digits : List Char} (h : Numeral least most digits n) (hleast : 1 ≤ least) :
    digits ≠ [] := by
  rintro rfl
  exact absurd (Nat.le_trans hleast h.least) (by decide)

/-- The digits of a number do not begin with white space. -/
theorem Numeral.head?_append {digits : List Char} (h : Numeral least most digits n) (hleast : 1 ≤ least)
    (rest : List Char) : ∀ c ∈ (digits ++ rest).head?, isDigit c = true := by
  cases digits with
  | nil => exact absurd rfl (h.ne_nil hleast)
  | cons d tail =>
      intro c hc
      obtain rfl := Option.some.inj hc
      exact h.all d List.mem_cons_self

theorem of_lenientPart (hn : lenientPart low high s = .ok (n, rest)) :
    low ≤ n ∧ n ≤ high ∧ ∃ text, s = text ++ rest ∧ Part 1 2 text n := by
  unfold lenientPart at hn
  obtain ⟨hnumber, hlow, hhigh⟩ := bounded_eq_ok.1 hn
  obtain ⟨digits, hdigits, hnumeral, -⟩ := number_eq_ok.1 hnumber
  obtain ⟨blanks, hs, hblanks⟩ := exists_blanks s
  refine ⟨hlow, hhigh, blanks ++ digits, ?_, .mk hblanks hnumeral⟩
  rw [List.append_assoc, ← hdigits]
  exact hs

theorem number_part (htext : Part least most text n) (hleast : 1 ≤ least)
    (hrest : ∀ c ∈ rest.head?, isDigit c = false) :
    number least most (Text.trimStartChars (text ++ rest)) = .ok (n, rest) := by
  cases htext with
  | @mk blanks digits _ hblanks hdigits =>
      have hfirst := hdigits.head?_append hleast rest
      rw [List.append_assoc, trimStartChars_append hblanks fun c hc => not_isBlank_of_isDigit (hfirst c hc)]
      exact number_eq_ok.2 ⟨digits, rfl, hdigits, fun _ => hrest⟩

theorem of_leniently (hyear : leniently s = .ok (year, rest)) :
    ∃ text, s = text ++ rest ∧ YearText text year := by
  obtain ⟨blanks, hs, hblanks⟩ := exists_blanks s
  unfold leniently at hyear
  split at hyear
  · rename_i tail htail
    obtain ⟨⟨n, rest'⟩, hnumber, hyear⟩ := Outcome.of_bind hyear
    obtain ⟨rfl, rfl⟩ := Prod.mk.inj (Except.ok.inj hyear)
    obtain ⟨digits, rfl, hdigits, -⟩ := number_eq_ok.1 hnumber
    refine ⟨blanks ++ '-' :: digits, ?_, .minus hblanks { hdigits with most := Nat.le_refl _ }⟩
    rw [hs, htail, List.append_assoc, List.cons_append]
  · rename_i tail htail
    obtain ⟨⟨n, rest'⟩, hnumber, hyear⟩ := Outcome.of_bind hyear
    obtain ⟨rfl, rfl⟩ := Prod.mk.inj (Except.ok.inj hyear)
    obtain ⟨digits, rfl, hdigits, -⟩ := number_eq_ok.1 hnumber
    refine ⟨blanks ++ '+' :: digits, ?_, .plus hblanks { hdigits with most := Nat.le_refl _ }⟩
    rw [hs, htail, List.append_assoc, List.cons_append]
  · obtain ⟨⟨n, rest'⟩, hnumber, hyear⟩ := Outcome.of_bind hyear
    obtain ⟨rfl, rfl⟩ := Prod.mk.inj (Except.ok.inj hyear)
    obtain ⟨digits, hdigits, hnumeral, -⟩ := number_eq_ok.1 hnumber
    refine ⟨blanks ++ digits, ?_, .plain (.mk hblanks hnumeral)⟩
    rw [List.append_assoc, ← hdigits]
    exact hs

theorem leniently_append (htext : YearText text year) (hrest : ∀ c ∈ rest.head?, isDigit c = false) :
    leniently (text ++ rest) = .ok (year, rest) := by
  have hread {digits : List Char} {n : Nat} (hdigits : Numeral 1 digits.length digits n) :
      number 1 ((digits ++ rest).length + 1) (digits ++ rest) = .ok (n, rest) := by
    apply number_eq_ok.2
    refine ⟨digits, rfl, { hdigits with most := ?_ }, fun _ => hrest⟩
    rw [List.length_append]
    omega
  unfold leniently
  cases htext with
  | minus hblanks hdigits =>
      rw [List.append_assoc, List.cons_append, trimStartChars_append hblanks (by simp [Text.isBlank])]
      exact Outcome.bind_eq_ok (hread hdigits) rfl
  | plus hblanks hdigits =>
      rw [List.append_assoc, List.cons_append, trimStartChars_append hblanks (by simp [Text.isBlank])]
      exact Outcome.bind_eq_ok (hread hdigits) rfl
  | plain htext =>
      cases htext with
      | @mk blanks digits n hblanks hdigits =>
          have hfirst := hdigits.head?_append (Nat.le_refl 1) rest
          rw [List.append_assoc,
            trimStartChars_append hblanks fun c hc => not_isBlank_of_isDigit (hfirst c hc)]
          split
          · rename_i heq
            exact absurd (hfirst '-' (by rw [heq]; rfl)) (by decide)
          · rename_i heq
            exact absurd (hfirst '+' (by rw [heq]; rfl)) (by decide)
          · exact Outcome.bind_eq_ok (number_eq_ok.2 ⟨digits, rfl, hdigits, fun _ => hrest⟩) rfl

theorem lenientYear_eq_ok : lenientYear s = .ok (year, rest) ↔
    leniently s = .ok (year, rest) ∧ -2147483648 ≤ year ∧ year ≤ 2147483647 := by
  constructor
  · intro hyear
    unfold lenientYear at hyear
    obtain ⟨⟨y, rest'⟩, hread, hyear⟩ := Outcome.of_bind hyear
    obtain ⟨hwithin, hyear⟩ := Outcome.of_guard_else hyear
    obtain ⟨rfl, rfl⟩ := Prod.mk.inj (Except.ok.inj hyear)
    exact ⟨hread, hwithin⟩
  · rintro ⟨hread, hwithin⟩
    unfold lenientYear
    exact Outcome.bind_eq_ok hread (if_pos hwithin)

end Lenient

section Colons

theorem Part.colon_not_mem {least most n : Nat} {text : List Char} (h : Part least most text n) :
    ':' ∉ text := by
  cases h with
  | mk hblanks hdigits =>
      rw [List.mem_append]
      rintro (hblank | hdigit)
      · exact absurd (hblanks _ hblank) (by decide)
      · exact absurd (hdigits.all _ hdigit) (by decide)

theorem YearText.colon_not_mem {text : List Char} {y : Int} (h : YearText text y) : ':' ∉ text := by
  have hsigned {blanks digits : List Char} {n : Nat} (hblanks : ∀ c ∈ blanks, Text.isBlank c = true)
      (hdigits : Numeral 1 digits.length digits n) : ':' ∉ blanks ++ digits :=
    Part.colon_not_mem (.mk hblanks hdigits)
  cases h with
  | plain htext => exact htext.colon_not_mem
  | plus hblanks hdigits => simpa using hsigned hblanks hdigits
  | minus hblanks hdigits => simpa using hsigned hblanks hdigits

/-- No colon stands in a text before the rest of it. -/
def ColonFree (s rest : List Char) : Prop := ∃ taken, s = taken ++ rest ∧ ':' ∉ taken

theorem ColonFree.trans {rest' : List Char} (h : ColonFree s rest) (h' : ColonFree rest rest') :
    ColonFree s rest' := by
  obtain ⟨taken, rfl, htaken⟩ := h
  obtain ⟨taken', rfl, htaken'⟩ := h'
  refine ⟨taken ++ taken', (List.append_assoc _ _ _).symm, ?_⟩
  rw [List.mem_append, not_or]
  exact ⟨htaken, htaken'⟩

theorem ColonFree.mem (h : ColonFree s (':' :: rest)) : ':' ∈ s := by
  obtain ⟨taken, rfl, -⟩ := h
  simp

theorem colonFree_cons {c : Char} (hc : ':' ≠ c) : ColonFree (c :: rest) rest :=
  ⟨[c], rfl, by simpa using hc⟩

theorem colonFree_of_number (hn : number least most s = .ok (n, rest)) : ColonFree s rest := by
  obtain ⟨digits, rfl, hdigits, -⟩ := number_eq_ok.1 hn
  have hpart : Part least most ([] ++ digits) n := .mk (by simp) hdigits
  exact ⟨digits, rfl, hpart.colon_not_mem⟩

theorem colonFree_of_bounded (hn : bounded least most low high s = .ok (n, rest)) : ColonFree s rest :=
  colonFree_of_number (bounded_eq_ok.1 hn).1

theorem colonFree_of_hyphen {u : Unit} (hu : literal '-' s = .ok (u, rest)) : ColonFree s rest := by
  rw [literal_eq_ok.1 hu]
  exact colonFree_cons (by decide)

theorem colonFree_of_dateTimeSeparator {u : Unit} (hu : dateTimeSeparator s = .ok (u, rest)) :
    ColonFree s rest := by
  unfold dateTimeSeparator at hu
  split at hu
  iterate 3
    obtain rfl := (Prod.mk.inj (Except.ok.inj hu)).2
    exact colonFree_cons (by decide)
  · exact nomatch hu
  · exact nomatch hu

theorem colonFree_trimStartChars (s : List Char) : ColonFree s (Text.trimStartChars s) := by
  obtain ⟨blanks, hs, hblanks⟩ := exists_blanks s
  exact ⟨blanks, hs, fun hcolon => absurd (hblanks _ hcolon) (by decide)⟩

theorem colonFree_of_lenientPart (hn : lenientPart low high s = .ok (n, rest)) : ColonFree s rest :=
  (colonFree_trimStartChars s).trans (colonFree_of_bounded hn)

theorem colonFree_of_lenientYear {year : Int} (hyear : lenientYear s = .ok (year, rest)) :
    ColonFree s rest := by
  obtain ⟨text, rfl, htext⟩ := of_leniently (lenientYear_eq_ok.1 hyear).1
  exact ⟨text, rfl, htext.colon_not_mem⟩

end Colons
end PrivatePresentation.Timestamp
