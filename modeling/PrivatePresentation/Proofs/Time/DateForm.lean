import PrivatePresentation.Circuit.Normalize
import PrivatePresentation.Proofs.Schema.Rules
import PrivatePresentation.Proofs.Time.Days
import PrivatePresentation.Proofs.Time.Scan

/-!
The texts that stand for dates.  Next to instants there are dates alone, in more forms than the one of ten
characters: their years may be long or signed, their parts short, and white space may stand before a part.
-/

namespace PrivatePresentation.Timestamp

/-- A year, a month and a day with hyphens between them. -/
inductive Hyphenated (year : List Char → Int → Prop) (part : List Char → Nat → Prop) :
    List Char → CalendarDate → Prop where
  | mk {y m d : List Char} {date : CalendarDate} (hyear : year y date.year) (hmonth : part m date.month)
      (hday : part d date.day) : Hyphenated year part (y ++ '-' :: (m ++ '-' :: d)) date

/-- The form of ten characters: four digits, two and two. -/
def IsoDate : List Char → CalendarDate → Prop :=
  Hyphenated (fun text year => ∃ n : Nat, Numeral 4 4 text n ∧ year = n) (Numeral 2 2)

/-- The forms in which dates are read. -/
def LenientDate : List Char → CalendarDate → Prop := Hyphenated YearText (Part 1 2)

variable {s : List Char} {d : CalendarDate}

theorem Hyphenated.imp {year year' : List Char → Int → Prop} {part part' : List Char → Nat → Prop}
    (hyear : ∀ text y, year text y → year' text y) (hpart : ∀ text n, part text n → part' text n)
    (h : Hyphenated year part s d) : Hyphenated year' part' s d := by
  cases h with
  | mk hy hm hd => exact .mk (hyear _ _ hy) (hpart _ _ hm) (hpart _ _ hd)

/-- The form of ten characters is one of those that are read. -/
theorem IsoDate.lenient (h : IsoDate s d) : LenientDate s d := by
  have hpart {least most least' most' n : Nat} (hleast : least' ≤ least) (hmost : most ≤ most')
      {text : List Char} (hn : Numeral least most text n) : Part least' most' text n := by
    have hn' : Numeral least' most' text n :=
      { hn with least := hleast.trans hn.least, most := hn.most.trans hmost }
    have hnone : ∀ c ∈ ([] : List Char), Text.isBlank c = true := by simp
    exact .mk hnone hn'
  apply Hyphenated.imp _ _ h
  · rintro text year ⟨n, hn, rfl⟩
    exact .plain (hpart (by decide) (Nat.le_refl 4) hn)
  · intro text n hn
    exact hpart (by decide) (Nat.le_refl 2) hn

theorem Hyphenated.not_mem {year : List Char → Int → Prop} {part : List Char → Nat → Prop} {c : Char}
    (hc : c ≠ '-') (hyear : ∀ text y, year text y → c ∉ text)
    (hpart : ∀ text n, part text n → c ∉ text) (h : Hyphenated year part s d) : c ∉ s := by
  cases h with
  | mk hy hm hd => simp [hc, hyear _ _ hy, hpart _ _ hm, hpart _ _ hd]

theorem LenientDate.colon_not_mem (h : LenientDate s d) : ':' ∉ s :=
  Hyphenated.not_mem (by decide) (fun _ _ hy => hy.colon_not_mem) (fun _ _ hn => hn.colon_not_mem) h

/-- The parts of a date alone are read one after the other. -/
theorem LenientDate.reads (h : LenientDate s d) : ∃ afterYear afterMonth,
    leniently s = .ok (d.year, '-' :: afterYear) ∧
      number 1 2 (Text.trimStartChars afterYear) = .ok (d.month, '-' :: afterMonth) ∧
      number 1 2 (Text.trimStartChars afterMonth) = .ok (d.day, []) := by
  have hhyphen (rest : List Char) : ∀ c ∈ ('-' :: rest).head?, isDigit c = false := by
    intro c hc
    obtain rfl := Option.some.inj hc
    exact isDigit_hyphen
  -- Each part is followed by a hyphen or by nothing, so its digits are all read.
  cases h with
  | @mk y m text _ hy hm htext =>
      have hday : number 1 2 (Text.trimStartChars (text ++ [])) = .ok (d.day, []) :=
        number_part htext (Nat.le_refl 1) (by simp)
      rw [List.append_nil] at hday
      exact ⟨_, _, leniently_append hy (hhyphen _), number_part hm (Nat.le_refl 1) (hhyphen _), hday⟩

/-- A text is in the form of one date at most, whether it exists or not. -/
theorem LenientDate.unique {d' : CalendarDate} (h : LenientDate s d) (h' : LenientDate s d') : d = d' := by
  obtain ⟨s₁, s₂, hyear, hmonth, hday⟩ := h.reads
  obtain ⟨s₁', s₂', hyear', hmonth', hday'⟩ := h'.reads
  obtain ⟨hy, hs₁⟩ := Prod.mk.inj (Except.ok.inj (hyear.symm.trans hyear'))
  obtain rfl := List.tail_eq_of_cons_eq hs₁
  obtain ⟨hm, hs₂⟩ := Prod.mk.inj (Except.ok.inj (hmonth.symm.trans hmonth'))
  obtain rfl := List.tail_eq_of_cons_eq hs₂
  obtain ⟨hd, -⟩ := Prod.mk.inj (Except.ok.inj (hday.symm.trans hday'))
  cases d
  cases d'
  simp_all only

/-- An instant has a colon after its hours. -/
theorem colon_mem_of_scanStrict {t : Timestamp} (ht : scanStrict s = .ok t) : ':' ∈ s := by
  unfold scanStrict at ht
  obtain ⟨⟨year, s₁⟩, hyear, ht⟩ := Outcome.of_bind ht
  obtain ⟨⟨_, s₂⟩, hfirst, ht⟩ := Outcome.of_bind ht
  obtain ⟨⟨month, s₃⟩, hmonth, ht⟩ := Outcome.of_bind ht
  obtain ⟨⟨_, s₄⟩, hsecond, ht⟩ := Outcome.of_bind ht
  obtain ⟨⟨day, s₅⟩, hday, ht⟩ := Outcome.of_bind ht
  obtain ⟨⟨_, s₆⟩, hseparator, ht⟩ := Outcome.of_bind ht
  obtain ⟨⟨hour, s₇⟩, hhour, ht⟩ := Outcome.of_bind ht
  obtain ⟨⟨_, s₈⟩, hcolon, -⟩ := Outcome.of_bind ht
  have hdate : ColonFree s s₅ :=
    (colonFree_of_number hyear).trans ((colonFree_of_hyphen hfirst).trans
      ((colonFree_of_bounded hmonth).trans ((colonFree_of_hyphen hsecond).trans
        (colonFree_of_bounded hday))))
  have hclock : ColonFree s s₇ :=
    hdate.trans ((colonFree_of_dateTimeSeparator hseparator).trans (colonFree_of_bounded hhour))
  rw [literal_eq_ok.1 hcolon] at hclock
  exact hclock.mem

/-- The year of a date that exists fits a machine word. -/
theorem year_within (hd : d.isValid = true) : -2147483648 ≤ d.year ∧ d.year ≤ 2147483647 := by
  obtain ⟨⟨hmin, hmax⟩, -⟩ := CalendarDate.of_isValid hd
  rw [CalendarDate.minYear] at hmin
  rw [CalendarDate.maxYear] at hmax
  omega

theorem scanDate_eq_ok : scanDate s = .ok d ↔ LenientDate s d ∧ d.isValid = true := by
  constructor
  · intro hd
    have hvalid := scanDate_valid hd
    unfold scanDate at hd
    obtain ⟨⟨year, s₁⟩, hyear, hd⟩ := Outcome.of_bind hd
    obtain ⟨⟨_, s₂⟩, hfirst, hd⟩ := Outcome.of_bind hd
    obtain ⟨⟨month, s₃⟩, hmonth, hd⟩ := Outcome.of_bind hd
    obtain ⟨⟨_, s₄⟩, hsecond, hd⟩ := Outcome.of_bind hd
    obtain ⟨⟨day, s₅⟩, hday, hd⟩ := Outcome.of_bind hd
    obtain ⟨hend, hd⟩ := Outcome.of_guard hd
    obtain ⟨-, hd⟩ := Outcome.of_guard_else hd
    obtain rfl := Except.ok.inj hd
    obtain rfl : s₅ = [] := by simpa using hend
    obtain ⟨y, rfl, hy⟩ := of_leniently (lenientYear_eq_ok.1 hyear).1
    obtain rfl := literal_eq_ok.1 hfirst
    obtain ⟨-, -, m, rfl, hm⟩ := of_lenientPart hmonth
    obtain rfl := literal_eq_ok.1 hsecond
    obtain ⟨-, -, text, rfl, htext⟩ := of_lenientPart hday
    rw [List.append_nil]
    exact ⟨.mk hy hm htext, hvalid⟩
  · rintro ⟨hform, hvalid⟩
    obtain ⟨-, hmonthBounds, hdayBounds⟩ := CalendarDate.of_isValid hvalid
    obtain ⟨afterYear, afterMonth, hyear, hmonth, hday⟩ := hform.reads
    have hlast := hdayBounds.2.trans (CalendarDate.monthLength_le d.year d.month)
    unfold scanDate
    apply Outcome.bind_eq_ok (lenientYear_eq_ok.2 ⟨hyear, year_within hvalid⟩)
    apply Outcome.bind_eq_ok (literal_eq_ok (u := ()).2 rfl)
    apply Outcome.bind_eq_ok (bounded_eq_ok.2 ⟨hmonth, hmonthBounds⟩)
    apply Outcome.bind_eq_ok (literal_eq_ok (u := ()).2 rfl)
    apply Outcome.bind_eq_ok (bounded_eq_ok.2 ⟨hday, hdayBounds.1, hlast⟩)
    exact Outcome.guard_eq_ok (by simp) (if_pos hvalid)

/-- No text is both an instant and a date alone. -/
theorem LenientDate.not_parse {text : String} {t : Timestamp} (h : LenientDate text.toList d) :
    parse text ≠ .ok t := by
  intro ht
  unfold parse at ht
  split at ht
  · rename_i u hu
    exact h.colon_not_mem (colon_mem_of_scanStrict hu)
  · exact nomatch ht

/-- The instant that a text stands for where a date is wanted: it is that instant, or the start of a date
that exists. -/
def Denotes (text : String) (t : Timestamp) : Prop :=
  parse (Text.trim text) = .ok t ∨
    ∃ d : CalendarDate, LenientDate (Text.trim text).toList d ∧ d.isValid = true ∧ t = ofDate d

variable {text : String} {t : Timestamp}

theorem parseDate_eq_ok : parseDate text = .ok t ↔ Denotes text t := by
  unfold parseDate Denotes
  dsimp only
  constructor
  · intro ht
    split at ht
    · rename_i u hu
      obtain rfl := Except.ok.inj ht
      exact .inl hu
    · split at ht
      · rename_i d hd
        obtain ⟨hform, hvalid⟩ := scanDate_eq_ok.1 hd
        exact .inr ⟨d, hform, hvalid, (Except.ok.inj ht).symm⟩
      · exact nomatch ht
  · rintro (ht | ⟨d, hform, hvalid, rfl⟩)
    · rw [ht]
    · cases hparse : parse (Text.trim text) with
      | ok u => exact absurd hparse hform.not_parse
      | error e => simp only [scanDate_eq_ok.2 ⟨hform, hvalid⟩]

theorem Denotes.unique {u : Timestamp} (ht : Denotes text t) (hu : Denotes text u) : t = u :=
  Except.ok.inj ((parseDate_eq_ok.2 ht).symm.trans (parseDate_eq_ok.2 hu))

/-- A text that stands for nothing is refused as it is without white space at its ends. -/
theorem parseDate_eq_error : parseDate text = .error (.invalidFormat (Text.trim text)) ↔
    ∀ t, ¬Denotes text t := by
  constructor
  · intro herror t ht
    rw [parseDate_eq_ok.2 ht] at herror
    exact nomatch herror
  · intro hnone
    cases hparse : parse (Text.trim text) with
    | ok t => exact absurd (.inl hparse) (hnone t)
    | error e =>
        cases hdate : scanDate (Text.trim text).toList with
        | ok d =>
            obtain ⟨hform, hvalid⟩ := scanDate_eq_ok.1 hdate
            exact absurd (.inr ⟨d, hform, hvalid, rfl⟩) (hnone (ofDate d))
        | error e' =>
            unfold parseDate
            simp only [hparse, hdate]

/-- How a text is read where a date is wanted, in a schema, as an input, or by itself. -/
structure DateReading (text : String) : Prop where
  accepted : ∀ t, parseDate text = .ok t ↔ Denotes text t
  refused : parseDate text = .error (.invalidFormat (Text.trim text)) ↔ ∀ t, ¬Denotes text t
  single : ∀ t u, Denotes text t → Denotes text u → t = u
  /-- The form of ten characters is read if there is such a date. -/
  iso : ∀ d, IsoDate (Text.trim text).toList d → ∀ t,
    parseDate text = .ok t ↔ d.isValid = true ∧ t = ofDate d
  /-- A date alone is the midnight with which it begins. -/
  midnight : ∀ d, LenientDate (Text.trim text).toList d → d.isValid = true →
    parseDate text = .ok (ofDate d) ∧ (ofDate d).date = d ∧ secondsPerDay ∣ (ofDate d).seconds ∧
      (ofDate d).nanos = 0
  literal : ∀ kind (f : FieldDecl) (c : Literal), f.type = .date →
    (Schema.literalFor kind f (.string text) = .ok c ↔ ∃ t, Denotes text t ∧ c = .integer t.seconds)
  input : ∀ (f : FieldDecl) (e : Scalar), f.type = .date →
    (normalize f (.string text) = .ok e ↔
      ∃ t, Denotes text t ∧ 0 ≤ t.seconds ∧ e = Scalar.ofInt t.seconds)

/-- Where a date is wanted, a text is an instant or a date alone. -/
theorem dateReading (text : String) : DateReading text where
  accepted t := parseDate_eq_ok
  refused := parseDate_eq_error
  single t u ht hu := ht.unique hu
  iso d hd t := by
    rw [parseDate_eq_ok]
    constructor
    · rintro (ht | ⟨d', hform, hvalid, rfl⟩)
      · exact absurd ht hd.lenient.not_parse
      · obtain rfl := hd.lenient.unique hform
        exact ⟨hvalid, rfl⟩
    · rintro ⟨hvalid, rfl⟩
      exact .inr ⟨d, hd.lenient, hvalid, rfl⟩
  midnight d hd hvalid := by
    refine ⟨parseDate_eq_ok.2 (.inr ⟨d, hd, hvalid, rfl⟩), date_ofDate hvalid, ?_, rfl⟩
    exact Int.dvd_mul_left _ _
  literal kind f c hf := by
    rw [Schema.literalFor_eq_ok, hf]
    constructor
    · intro hc
      cases hc with
      | date ht => exact ⟨_, parseDate_eq_ok.1 ht, rfl⟩
      | decimal _ hdate => exact absurd rfl hdate
    · rintro ⟨t, ht, rfl⟩
      exact .date (parseDate_eq_ok.2 ht)
  input f e hf := by
    unfold normalize
    rw [hf]
    dsimp only
    constructor
    · intro he
      obtain ⟨n, hn, rfl⟩ := Outcome.of_map he
      unfold Normalize.secondOf at hn
      dsimp only at hn
      split at hn
      · rename_i t ht
        obtain ⟨hnonneg, hn⟩ := Outcome.of_guard hn
        obtain rfl := Except.ok.inj hn
        exact ⟨t, parseDate_eq_ok.1 ht, Int.not_lt.1 hnonneg, rfl⟩
      · exact nomatch hn
    · rintro ⟨t, ht, hnonneg, rfl⟩
      unfold Normalize.secondOf
      simp only [parseDate_eq_ok.2 ht, if_neg (Int.not_lt.2 hnonneg), Except.map]

example : parseDate " 2024-7-5" = .ok (ofDate ⟨2024, 7, 5⟩) := by rfl

end PrivatePresentation.Timestamp
