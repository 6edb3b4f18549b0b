import PrivatePresentation.Circuit.Normalize
import PrivatePresentation.Identity
import PrivatePresentation.Proofs.Outcome
import PrivatePresentation.Proofs.Text.Bytes
import PrivatePresentation.Proofs.Text.Hex
import PrivatePresentation.Proofs.Time.Scan

/-!
The text of an identifier.  The identifier is read back from it, group by group.  To a field it is
nothing but a text: its four hyphens are too many for a number, its first one comes too late for a
date, and it is too long for a truth value.
-/

namespace PrivatePresentation

namespace Decimal

theorem count_hyphen_natural {s : List Char} {n : Nat} (hn : natural? s = some n) :
    s.count '-' = 0 := by
  unfold natural? at hn
  split at hn
  · rename_i hdigits
    rw [List.count_eq_zero]
    intro hmem
    have hdigit := List.all_eq_true.1 hdigits.2 _ hmem
    revert hdigit
    decide
  · exact nomatch hn

theorem count_hyphen_of_map {s : List Char} {f : Int → Int} {n : Int}
    (hn : Option.map f (do let m ← natural? s; pure (m : Int)) = some n) : s.count '-' = 0 := by
  cases hm : natural? s with
  | none =>
      rw [hm] at hn
      exact nomatch hn
  | some m => exact count_hyphen_natural hm

theorem count_hyphen_integer {s : List Char} {n : Int} (hn : integer? s = some n) :
    s.count '-' ≤ 1 := by
  unfold integer? at hn
  split at hn
  · rw [List.count_cons_self, count_hyphen_of_map hn]
  · rw [List.count_cons_of_ne (by decide), count_hyphen_of_map hn]
    exact Nat.zero_le 1
  · rw [count_hyphen_of_map hn]
    exact Nat.zero_le 1

theorem count_hyphen_splitSign (s : List Char) :
    s.count '-' ≤ (splitSign s).2.count '-' + 1 := by
  unfold splitSign
  split
  · rw [List.count_cons_self]
  · rw [List.count_cons_of_ne (by decide)]
    exact Nat.le_succ _
  · exact Nat.le_succ _

theorem count_hyphen_exponent {s : List Char} {n : Int} (hn : exponent? s = some n) :
    s.count '-' ≤ 1 := by
  unfold exponent? at hn
  split at hn
  · exact Nat.zero_le 1
  · rename_i e rest
    split at hn
    · rename_i he
      have hrest := count_hyphen_splitSign rest
      rw [count_hyphen_of_map (s := (splitSign rest).2) hn] at hrest
      rwa [List.count_cons_of_ne (by rcases he with rfl | rfl <;> decide)]
    · exact nomatch hn

theorem count_hyphen_dropDigits (s : List Char) :
    (s.dropWhile isDigit).count '-' = s.count '-' := by
  have hdigits : (s.takeWhile isDigit).count '-' = 0 := by
    rw [List.count_eq_zero]
    intro hmem
    have hdigit := List.mem_takeWhile_imp hmem
    revert hdigit
    decide
  have hsplit := congrArg (List.count '-') (List.takeWhile_append_dropWhile (p := isDigit) (l := s))
  rwa [List.count_append, hdigits, Nat.zero_add] at hsplit

theorem count_hyphen_unsignedFloat {negative : Bool} {s : List Char} {x : FloatText}
    (hx : unsignedFloat? negative s = some x) : s.count '-' ≤ 1 := by
  rw [← count_hyphen_dropDigits]
  unfold unsignedFloat? at hx
  dsimp only at hx
  split at hx
  · rename_i rest hpoint
    rw [hpoint, List.count_cons_of_ne (by decide), ← count_hyphen_dropDigits]
    dsimp only at hx
    split at hx
    · exact nomatch hx
    · obtain ⟨n, hn, -⟩ := Option.bind_eq_some_iff.1 hx
      exact count_hyphen_exponent hn
  · dsimp only at hx
    split at hx
    · exact nomatch hx
    · obtain ⟨n, hn, -⟩ := Option.bind_eq_some_iff.1 hx
      exact count_hyphen_exponent hn

/-- The words for doubles that are no numbers have no hyphen. -/
theorem count_hyphen_word {s : List Char} {word : String}
    (hs : Text.lowerAscii (String.ofList s) = word) (hword : '-' ∉ word.toList) :
    s.count '-' = 0 := by
  rw [List.count_eq_zero]
  intro hmem
  refine hword ?_
  rw [← hs, Text.lowerAscii, String.toList_map, String.toList_ofList]
  exact List.mem_map.2 ⟨'-', hmem, by decide⟩

/-- A number has two hyphens at most, one in front and one in its power of ten. -/
theorem count_hyphen_float {s : String} {x : FloatText} (hx : float? s = some x) :
    s.toList.count '-' ≤ 2 := by
  have hsign := count_hyphen_splitSign s.toList
  have hrest : (splitSign s.toList).2.count '-' ≤ 1 := by
    unfold float? at hx
    dsimp only at hx
    split at hx
    · rename_i hword
      rcases hword with hword | hword
      · exact (count_hyphen_word hword (by decide)).le.trans (Nat.zero_le 1)
      · exact (count_hyphen_word hword (by decide)).le.trans (Nat.zero_le 1)
    · split at hx
      · rename_i hword
        exact (count_hyphen_word hword (by decide)).le.trans (Nat.zero_le 1)
      · exact count_hyphen_unsignedFloat hx
  omega

end Decimal

namespace Timestamp

/-- A hyphen that is read after a number is not far from where the number begins. -/
theorem hyphen_after_number {least most n : Nat} {s rest rest' : List Char}
    (hn : number least most s = .ok (n, rest)) (hrest : literal '-' rest = .ok ((), rest')) :
    ∃ i ≤ most, s[i]? = some '-' := by
  obtain ⟨digits, rfl, hdigits, -⟩ := number_eq_ok.1 hn
  rw [literal_eq_ok.1 hrest]
  exact ⟨digits.length, hdigits.most, by simp⟩

/-- A date has been read in one of two forms. -/
theorem of_parseDate {s : String} {t : Timestamp} (ht : parseDate s = .ok t) :
    (∃ u, scanStrict (Text.trim s).toList = .ok u) ∨
      ∃ d, scanDate (Text.trim s).toList = .ok d := by
  unfold parseDate parse at ht
  dsimp only at ht
  cases hstrict : scanStrict (Text.trim s).toList with
  | ok u => exact Or.inl ⟨u, rfl⟩
  | error e =>
      cases hdate : scanDate (Text.trim s).toList with
      | ok d => exact Or.inr ⟨d, rfl⟩
      | error e' =>
          simp only [hstrict, hdate] at ht
          exact nomatch ht

theorem early_hyphen_scanStrict {s : List Char} {t : Timestamp} (ht : scanStrict s = .ok t) :
    ∃ i ≤ 4, s[i]? = some '-' := by
  unfold scanStrict at ht
  obtain ⟨⟨year, rest⟩, hyear, ht⟩ := Outcome.of_bind ht
  obtain ⟨⟨_, _⟩, hhyphen, -⟩ := Outcome.of_bind ht
  exact hyphen_after_number hyear hhyphen

/-- A date alone that begins with neither white space nor a sign has a hyphen among its first five
characters. -/
theorem early_hyphen_scanDate {c : Char} {s : List Char} {d : CalendarDate}
    (hc : c ≠ '-' ∧ c ≠ '+' ∧ Text.isBlank c = false) (hd : scanDate (c :: s) = .ok d) :
    ∃ i ≤ 4, (c :: s)[i]? = some '-' := by
  unfold scanDate at hd
  obtain ⟨⟨year, rest⟩, hyear, hd⟩ := Outcome.of_bind hd
  obtain ⟨⟨_, _⟩, hhyphen, -⟩ := Outcome.of_bind hd
  have hlenient := (lenientYear_eq_ok.1 hyear).1
  have htrim : Text.trimStartChars (c :: s) = c :: s :=
    List.dropWhile_cons_of_neg (by rw [hc.2.2]; exact Bool.false_ne_true)
  unfold leniently at hlenient
  rw [htrim] at hlenient
  split at hlenient
  · rename_i heq
    exact absurd (List.cons.inj heq).1 hc.1
  · rename_i heq
    exact absurd (List.cons.inj heq).1 hc.2.1
  · obtain ⟨⟨n, tail⟩, hn, hlenient⟩ := Outcome.of_bind hlenient
    obtain ⟨-, rfl⟩ := Prod.mk.inj (Except.ok.inj hlenient)
    exact hyphen_after_number hn hhyphen

end Timestamp

namespace RequestId

/-- The digits of an identifier. -/
def digits (id : RequestId) : List Char := Hex.encodeChars id.bytes

variable {id : RequestId}

theorem length_digits (hlength : id.bytes.length = 16) : id.digits.length = 32 := by
  rw [digits, Hex.length_encodeChars, hlength]

theorem toList_text (id : RequestId) :
    id.text.toList = id.digits.take 8 ++ '-' :: ((id.digits.drop 8).take 4 ++
      '-' :: ((id.digits.drop 12).take 4 ++ '-' :: ((id.digits.drop 16).take 4 ++
        '-' :: id.digits.drop 20))) := by
  simp [text, cut, digits, String.intercalate_cons_cons]

theorem hyphens_text (id : RequestId) : 4 ≤ id.text.toList.count '-' := by
  simp only [toList_text, List.count_append, List.count_cons_self]
  omega

theorem text_within {c : Char} (hc : c ∈ id.text.toList) : 45 ≤ c.toNat ∧ c.toNat ≤ 102 := by
  have hdigit : ∀ c ∈ id.digits, 45 ≤ c.toNat ∧ c.toNat ≤ 102 := fun c hc => by
    have hwithin := Hex.encodeChars_within hc
    omega
  have hhyphen : 45 ≤ '-'.toNat ∧ '-'.toNat ≤ 102 := by decide
  rw [toList_text] at hc
  simp only [List.mem_append, List.mem_cons] at hc
  rcases hc with hc | rfl | hc | rfl | hc | rfl | hc | rfl | hc
  · exact hdigit c (List.mem_of_mem_take hc)
  · exact hhyphen
  · exact hdigit c (List.mem_of_mem_drop (List.mem_of_mem_take hc))
  · exact hhyphen
  · exact hdigit c (List.mem_of_mem_drop (List.mem_of_mem_take hc))
  · exact hhyphen
  · exact hdigit c (List.mem_of_mem_drop (List.mem_of_mem_take hc))
  · exact hhyphen
  · exact hdigit c (List.mem_of_mem_drop hc)

/-- No character of an identifier is white space. -/
theorem not_isBlank_text {c : Char} (hc : c ∈ id.text.toList) : Text.isBlank c = false := by
  have hwithin := text_within hc
  simp [Text.isBlank]
  omega

theorem trim_text (id : RequestId) : Text.trim id.text = id.text := by
  rw [Text.trim, Text.trimChars_of_not_isBlank fun c hc => not_isBlank_text hc, String.ofList_toList]

/-- The first eight characters are digits. -/
theorem first_within (hlength : id.bytes.length = 16) {i : Nat} (hi : i < 8) {c : Char}
    (hc : id.text.toList[i]? = some c) : 48 ≤ c.toNat := by
  have hdigits := length_digits hlength
  rw [toList_text, List.getElem?_append_left (by rw [List.length_take]; omega),
    List.getElem?_take_of_lt hi] at hc
  exact (Hex.encodeChars_within (List.mem_of_getElem? hc)).1

theorem parseDate_text (hlength : id.bytes.length = 16) (t : Timestamp) :
    Timestamp.parseDate id.text ≠ .ok t := by
  intro ht
  have hearly : ¬∃ i ≤ 4, id.text.toList[i]? = some '-' := by
    rintro ⟨i, hi, hc⟩
    have hwithin := first_within hlength (Nat.lt_of_le_of_lt hi (by decide)) hc
    revert hwithin
    decide
  rcases Timestamp.of_parseDate ht with ⟨u, hu⟩ | ⟨d, hd⟩
  · rw [trim_text] at hu
    exact hearly (Timestamp.early_hyphen_scanStrict hu)
  · rw [trim_text] at hd
    cases hchars : id.text.toList with
    | nil =>
        have hhyphens := hyphens_text id
        rw [hchars] at hhyphens
        exact absurd hhyphens (by decide)
    | cons c rest =>
        have hfirst : 48 ≤ c.toNat :=
          first_within hlength (i := 0) (by decide) (by rw [hchars]; rfl)
        have hc : c ∈ id.text.toList := by
          rw [hchars]
          exact List.mem_cons_self
        rw [hchars] at hd hearly
        refine hearly (Timestamp.early_hyphen_scanDate ⟨?_, ?_, not_isBlank_text hc⟩ hd)
        · rintro rfl
          exact absurd hfirst (by decide)
        · rintro rfl
          exact absurd hfirst (by decide)

theorem integerOf_text (field : String) (n : Int) :
    Normalize.integerOf field (.string id.text) ≠ .ok n := by
  intro hn
  have hhyphens := hyphens_text id
  unfold Normalize.integerOf at hn
  dsimp only at hn
  rw [trim_text] at hn
  obtain ⟨-, hn⟩ := Outcome.of_guard hn
  cases hinteger : Decimal.integer? id.text.toList with
  | some m =>
      have hcount := Decimal.count_hyphen_integer hinteger
      omega
  | none =>
      cases hfloat : Decimal.float? id.text with
      | some x =>
          have hcount := Decimal.count_hyphen_float hfloat
          omega
      | none =>
          simp only [Decimal.integerWithin?, hinteger, hfloat] at hn
          exact nomatch hn

theorem truthOf_text (field : String) (b : Bool) :
    Normalize.truthOf field (.string id.text) ≠ .ok b := by
  have hnone {words : List String} (hwords : ∀ word ∈ words, word.toList.count '-' = 0) :
      words.contains id.text = false := by
    rw [Bool.eq_false_iff, ne_eq, List.contains_iff_mem]
    intro hmem
    have hcount := hwords _ hmem
    have hhyphens := hyphens_text id
    omega
  unfold Normalize.truthOf
  dsimp only
  rw [hnone (by decide), hnone (by decide)]
  exact nofun

/-- The text of an identifier is a value of fields of texts alone. -/
theorem normalize_text (hlength : id.bytes.length = 16) {f : FieldDecl} {x : Scalar}
    (hx : normalize f (.string id.text) = .ok x) : f.type = .string := by
  unfold normalize at hx
  cases htype : f.type with
  | string => rfl
  | boolean =>
      rw [htype] at hx
      obtain ⟨b, hb, -⟩ := Outcome.of_map hx
      exact absurd hb (truthOf_text _ b)
  | date =>
      rw [htype] at hx
      obtain ⟨n, hn, -⟩ := Outcome.of_map hx
      unfold Normalize.secondOf at hn
      dsimp only at hn
      split at hn
      · rename_i t ht
        exact absurd ht (parseDate_text hlength t)
      · exact nomatch hn
  | integer | number =>
      rw [htype] at hx
      obtain ⟨n, hn, -⟩ := Outcome.of_map hx
      exact absurd hn (integerOf_text _ n)

theorem hyphen_not_mem_digits : '-' ∉ id.digits := by
  intro hmem
  have hwithin := (Hex.encodeChars_within hmem).1
  revert hwithin
  decide

/-- The groups of digits of an identifier. -/
def groups (id : RequestId) : List (List Char) :=
  [id.digits.take 8, (id.digits.drop 8).take 4, (id.digits.drop 12).take 4,
    (id.digits.drop 16).take 4, id.digits.drop 20]

theorem toList_text_eq_intercalate (id : RequestId) :
    id.text.toList = ['-'].intercalate id.groups := by
  rw [toList_text]
  simp [groups, List.intercalate]

theorem hyphen_not_mem_groups : ∀ group ∈ id.groups, '-' ∉ group := by
  intro group hgroup hmem
  apply @hyphen_not_mem_digits id
  simp only [groups, List.mem_cons, List.not_mem_nil, or_false] at hgroup
  rcases hgroup with rfl | rfl | rfl | rfl | rfl
  · exact List.mem_of_mem_take hmem
  · exact List.mem_of_mem_drop (List.mem_of_mem_take hmem)
  · exact List.mem_of_mem_drop (List.mem_of_mem_take hmem)
  · exact List.mem_of_mem_drop (List.mem_of_mem_take hmem)
  · exact List.mem_of_mem_drop hmem

/-- The groups of an identifier are found between its hyphens, and they are all of its digits. -/
theorem hyphenated?_text (hlength : id.bytes.length = 16) :
    hyphenated? id.text.toList = some id.bytes := by
  have hstep (n k : Nat) :
      (id.digits.drop n).take k ++ id.digits.drop (n + k) = id.digits.drop n := by
    rw [← List.drop_drop, List.take_append_drop]
  have hjoined : id.digits.take 8 ++ (id.digits.drop 8).take 4 ++ (id.digits.drop 12).take 4 ++
      (id.digits.drop 16).take 4 ++ id.digits.drop 20 = id.digits := by
    simp only [List.append_assoc, hstep 16 4, hstep 12 4, hstep 8 4, List.take_append_drop]
  have hsplit := List.splitOn_intercalate '-' (@hyphen_not_mem_groups id) (by simp [groups])
  rw [hyphenated?, toList_text_eq_intercalate, hsplit, groups]
  simp only [List.length_take, List.length_drop, length_digits hlength, hjoined]
  exact Hex.decodeChars_encodeChars id.bytes

theorem braced?_text (id : RequestId) : braced? id.text.toList = none := by
  unfold braced?
  split
  · rename_i hchars _
    have hwithin := @text_within id '\x7b' (hchars ▸ List.mem_cons_self)
    exact absurd hwithin.2 (by decide)
  · rfl

/-- A hyphen stands where the name would have its second colon. -/
theorem named?_text (hlength : id.bytes.length = 16) : named? id.text.toList = none := by
  have hdigits := length_digits hlength
  have hhyphen : id.text.toList[8]? = some '-' := by
    rw [toList_text, List.getElem?_append_right (by simp)]
    simp [hdigits]
  have hother : (id.text.toList.take "urn:uuid:".toList.length).map Char.toLower ≠
      "urn:uuid:".toList := by
    intro hstart
    have hcolon := congrArg (fun s => s[8]?) hstart
    rw [List.getElem?_map, List.getElem?_take_of_lt (by decide), hhyphen] at hcolon
    revert hcolon
    decide
  rw [named?]
  exact if_neg hother

/-- An identifier is read back from its text. -/
theorem parse_text (hlength : id.bytes.length = 16) : parse id.text = .ok id := by
  have hlong : id.text.toList.length ≠ 32 := by
    rw [toList_text]
    simp [length_digits hlength]
  rw [parse, bytes?, if_neg hlong, braced?_text, named?_text hlength]
  dsimp only
  rw [hyphenated?_text hlength]

theorem parseTrimmed_text (hlength : id.bytes.length = 16) : parseTrimmed id.text = .ok id := by
  rw [parseTrimmed, trim_text, parse_text hlength]

end RequestId
end PrivatePresentation
