import PrivatePresentation.Proofs.Time.DateForm

/-!
Instants in text.  A text in the strict form tells a date, a time of day, and how far the clock is ahead of
UTC; it is read as the second in UTC in which that moment falls.  What is written for a whole second is in
that form, so it is read as the second again, and the date of an instant is read as the midnight with which
its day begins.
-/

namespace PrivatePresentation.Timestamp

/-- A date and a time of day somewhere, with the seconds by which the clock there is ahead of UTC. -/
structure Moment where
  date : CalendarDate
  hour : Nat
  minute : Nat
  second : Nat
  /-- The digits after the point. -/
  fraction : List Char
  offset : Int

namespace Moment

/-- Seconds since the start of 1970 in UTC, less the part of a second. -/
def seconds (m : Moment) : Int :=
  m.date.toDays * secondsPerDay + (m.hour * 3600 + m.minute * 60 + min m.second 59 : Nat) - m.offset

/-- Seconds since the start of 1970 in UTC.  A leap second is counted as the second before it. -/
def instant (m : Moment) : ℚ := m.seconds + digitsValue m.fraction / 10 ^ m.fraction.length

end Moment

/-- The letter of UTC, or a sign with hours and minutes. -/
inductive OffsetText : List Char → Int → Prop where
  | utc {c : Char} (hc : c = 'Z' ∨ c = 'z') : OffsetText [c] 0
  | ahead {hours minutes : List Char} {h m : Nat} (hhours : Numeral 2 2 hours h)
      (hminutes : Numeral 2 2 minutes m) (hh : h ≤ 23) (hm : m ≤ 59) :
      OffsetText ('+' :: (hours ++ ':' :: minutes)) (h * 3600 + m * 60)
  | behind {hours minutes : List Char} {h m : Nat} (hhours : Numeral 2 2 hours h)
      (hminutes : Numeral 2 2 minutes m) (hh : h ≤ 23) (hm : m ≤ 59) :
      OffsetText ('-' :: (hours ++ ':' :: minutes)) (-(h * 3600 + m * 60))

/-- Nothing, or a point with digits after it. -/
inductive FractionText : List Char → List Char → Prop where
  | none : FractionText [] []
  | point {digits : List Char} (hne : digits ≠ []) (hdigits : ∀ c ∈ digits, isDigit c = true) :
      FractionText ('.' :: digits) digits

/-- The texts of RFC 3339: a date that exists, a time of day and an offset. -/
inductive Rfc3339 : List Char → Moment → Prop where
  | mk {date hours minutes seconds fraction offset : List Char} {separator : Char} {moment : Moment}
      (hdate : IsoDate date moment.date) (hreal : moment.date.IsReal)
      (hseparator : separator = 'T' ∨ separator = 't' ∨ separator = ' ')
      (hhours : Numeral 2 2 hours moment.hour) (hhour : moment.hour ≤ 23)
      (hminutes : Numeral 2 2 minutes moment.minute) (hminute : moment.minute ≤ 59)
      (hseconds : Numeral 2 2 seconds moment.second) (hsecond : moment.second ≤ 60)
      (hfraction : FractionText fraction moment.fraction) (hoffset : OffsetText offset moment.offset) :
      Rfc3339 (date ++ separator :: (hours ++ ':' :: (minutes ++ ':' :: (seconds ++ (fraction ++ offset)))))
        moment

section Digits

/-- A number is written in as many digits as are asked for, if they are enough. -/
theorem numeral_padded {width n : Nat} (hwidth : 0 < width) (hn : n < 10 ^ width) :
    Numeral width width (padded width n).toList n := by
  have hlength : (Nat.toDigits 10 n).length ≤ width := Nat.toDigits_length 10 n width hwidth hn
  have hpadded : (padded width n).toList =
      List.replicate (width - (Nat.toDigits 10 n).length) '0' ++ Nat.toDigits 10 n := by
    simp [padded, ← String.length_toList]
  rw [hpadded]
  refine ⟨?_, ?_, ?_, ?_⟩
  · intro c hc
    rcases List.mem_append.1 hc with hzero | hdigit
    · rw [List.eq_of_mem_replicate hzero]
      decide
    · exact Decimal.isDigit_of_mem_toDigits hdigit
  · simp
    omega
  · simp
    omega
  · exact (Decimal.digitsValue_zeros _ _).trans (Decimal.digitsValue_toDigits n)

end Digits

section Reading

variable {s rest : List Char}

/-- Two digits are read off the front, if the first of them is within bounds. -/
theorem twoDigits_append (most : Nat) {digits : List Char} {n : Nat} (hdigits : Numeral 2 2 digits n)
    (hn : n < 10 * most + 10) (rest : List Char) :
    offset.twoDigits most (digits ++ rest) = .ok (n, rest) := by
  obtain ⟨a, b, rfl⟩ := List.length_eq_two.1 (Nat.le_antisymm hdigits.most hdigits.least)
  have ha := hdigits.all a (by simp)
  have hb := hdigits.all b (by simp)
  have hvalue := hdigits.value
  have hfirst : a.toNat - 48 ≤ most := by
    simp [digitsValue] at hvalue
    omega
  simp [offset.twoDigits, ha, hb, hfirst, hvalue]

theorem offset_eq_ok {o : Int} (ho : OffsetText s o) : offset (literal ':') s = .ok (o, []) := by
  cases ho with
  | utc hc =>
      rcases hc with rfl | rfl
      · rfl
      · rfl
  | @ahead hours minutes h m hhours hminutes hh hm =>
      have hfirst := twoDigits_append 9 hhours (by omega) (':' :: minutes)
      have hsecond := twoDigits_append 5 hminutes (by omega) []
      rw [List.append_nil] at hsecond
      simp [offset, hfirst, hsecond, literal, bind, Except.bind, pure, Except.pure]
  | @behind hours minutes h m hhours hminutes hh hm =>
      have hfirst := twoDigits_append 9 hhours (by omega) (':' :: minutes)
      have hsecond := twoDigits_append 5 hminutes (by omega) []
      rw [List.append_nil] at hsecond
      simp [offset, hfirst, hsecond, literal, bind, Except.bind, pure, Except.pure]

/-- An offset begins with neither a digit nor a point. -/
theorem OffsetText.head {o : Int} (ho : OffsetText s o) :
    ∀ c ∈ s.head?, isDigit c = false ∧ c ≠ '.' := by
  intro c hc
  cases ho with
  | utc hletter =>
      obtain rfl := Option.some.inj hc
      rcases hletter with rfl | rfl
      · decide
      · decide
  | ahead =>
      obtain rfl := Option.some.inj hc
      decide
  | behind =>
      obtain rfl := Option.some.inj hc
      decide

/-- However many digits stand after the point, they are all read. -/
theorem fraction_append {digits : List Char} (hs : FractionText s digits)
    (hrest : ∀ c ∈ rest.head?, isDigit c = false ∧ c ≠ '.') :
    ∃ nanos, fraction (s ++ rest) = .ok (nanos, rest) := by
  cases hs with
  | none =>
      refine ⟨0, ?_⟩
      unfold fraction
      split
      · rename_i tail hpoint
        exact absurd rfl (hrest '.' (by rw [← List.nil_append rest, hpoint]; rfl)).2
      · rfl
  | point hne hdigits =>
      have hlength := List.length_pos_iff.2 hne
      have htaken : Numeral 1 9 (digits.take 9) (digitsValue (digits.take 9)) :=
        ⟨fun c hc => hdigits c (List.mem_of_mem_take hc), by rw [List.length_take]; omega,
          List.length_take_le _ _, rfl⟩
      have hread : number 1 9 (digits ++ rest) =
          .ok (digitsValue (digits.take 9), digits.drop 9 ++ rest) := by
        apply number_eq_ok.2
        refine ⟨digits.take 9, ?_, htaken, ?_⟩
        · rw [← List.append_assoc, List.take_append_drop]
        · intro hshort c hc
          have hnone : digits.drop 9 = [] := by
            rw [List.length_take] at hshort
            rw [List.drop_eq_nil_iff]
            omega
          rw [hnone] at hc
          exact (hrest c hc).1
      have hdropped : (digits.drop 9 ++ rest).dropWhile isDigit = rest :=
        Text.dropWhile_run (fun c hc => hdigits c (List.mem_of_mem_drop hc))
          fun c hc => (hrest c hc).1
      have hpoint : fraction ('.' :: digits ++ rest) = nanoseconds (digits ++ rest) := rfl
      rw [hpoint, nanoseconds, hread]
      simp only [bind, Except.bind, hdropped, pure, Except.pure]
      exact ⟨_, rfl⟩

theorem OffsetText.within {o : Int} (ho : OffsetText s o) : -maxOffset ≤ o ∧ o ≤ maxOffset := by
  unfold maxOffset
  cases ho with
  | utc => omega
  | ahead => omega
  | behind => omega

/-- The days of dates with years of four digits. -/
theorem toDays_of_fourDigits {d : CalendarDate} (hreal : d.IsReal) (hfirst : 0 ≤ d.year)
    (hlast : d.year ≤ 9999) : -719893 ≤ d.toDays ∧ d.toDays ≤ 2933287 := by
  obtain ⟨hmonth, hday⟩ := hreal
  have hlength := CalendarDate.monthLength_le d.year d.month
  have hbefore : CalendarDate.daysBefore (-1) = -366 := rfl
  have hafter : CalendarDate.daysBefore 9999 = 3652059 := rfl
  rw [CalendarDate.toDays_eq, CalendarDate.dayOfYear]
  split
  · have hlow := CalendarDate.daysBefore_le (show -1 ≤ d.year - 1 by omega)
    have hhigh := CalendarDate.daysBefore_le (show d.year - 1 ≤ 9999 by omega)
    omega
  · have hlow := CalendarDate.daysBefore_le (show -1 ≤ d.year by omega)
    have hhigh := CalendarDate.daysBefore_le hlast
    omega

theorem isValid_of_fourDigits {d : CalendarDate} (hreal : d.IsReal) (hfirst : 0 ≤ d.year)
    (hlast : d.year ≤ 9999) : d.isValid = true := by
  obtain ⟨hmonth, hday⟩ := hreal
  have hmin : CalendarDate.minYear ≤ d.year := by
    rw [CalendarDate.minYear]
    omega
  have hmax : d.year ≤ CalendarDate.maxYear := by
    rw [CalendarDate.maxYear]
    omega
  simp [CalendarDate.isValid, hmin, hmax, hmonth, hday]

theorem dateTimeSeparator_cons {c : Char} (hc : c = 'T' ∨ c = 't' ∨ c = ' ') (rest : List Char) :
    dateTimeSeparator (c :: rest) = .ok ((), rest) := by
  rcases hc with rfl | rfl | rfl
  · rfl
  · rfl
  · rfl

/-- Digits of a fixed number are read off the front of whatever follows them. -/
theorem number_append {width n : Nat} {digits : List Char} (hdigits : Numeral width width digits n)
    (rest : List Char) : number width width (digits ++ rest) = .ok (n, rest) := by
  apply number_eq_ok.2
  refine ⟨digits, rfl, hdigits, fun hshort => ?_⟩
  exact absurd hdigits.least (Nat.not_le.2 hshort)

theorem assemble_eq_ok {m : Moment} (hreal : m.date.IsReal) (hfirst : 0 ≤ m.date.year)
    (hlast : m.date.year ≤ 9999) (hhour : m.hour ≤ 23) (hminute : m.minute ≤ 59) (hsecond : m.second ≤ 60)
    (hoffset : -maxOffset ≤ m.offset ∧ m.offset ≤ maxOffset) (nanos : Nat) :
    ∃ t, assemble m.date m.hour m.minute m.second nanos m.offset = .ok t ∧ t.seconds = m.seconds := by
  have hdays := toDays_of_fourDigits hreal hfirst hlast
  have hvalid := isValid_of_fourDigits hreal hfirst hlast
  rw [maxOffset] at hoffset
  have hclock : (m.hour * 3600 + m.minute * 60 + if m.second = 60 then 59 else m.second : Int) =
      (m.hour * 3600 + m.minute * 60 + min m.second 59 : Nat) := by
    split <;> omega
  have hclock' : (m.hour * 3600 + m.minute * 60 + min m.second 59 : Nat) < 86400 := by omega
  refine ⟨⟨m.seconds, nanos + if m.second = 60 then nanosPerSecond else 0⟩, ?_, rfl⟩
  unfold assemble
  apply Outcome.guard_eq_ok
  · simp [hvalid]
  · apply Outcome.guard_eq_ok
    · omega
    · dsimp only
      simp only [hclock]
      apply Outcome.guard_eq_ok
      · rw [secondsPerDay, minSeconds, maxSeconds]
        omega
      · rfl

variable {m : Moment}

/-- A text in the strict form is read as the second in which its moment falls. -/
theorem Rfc3339.reads (hs : Rfc3339 s m) : ∃ t, scanStrict s = .ok t ∧ t.seconds = m.seconds := by
  cases hs with
  | mk hdate hreal hseparator hhours hhour hminutes hminute hseconds hsecond hfraction hoffset =>
      obtain ⟨nanos, hnanos⟩ := fraction_append hfraction hoffset.head
      generalize hmoment : m.date = d at hdate hreal
      cases hdate with
      | mk hyear hmonth hday =>
          obtain ⟨year, hyear, hvalue⟩ := hyear
          have hbelow : year < 10 ^ 4 := by
            have hall := Decimal.digitsValue_lt hyear.all
            rw [← digitsValue_eq] at hall
            rw [hyear.value, Nat.le_antisymm hyear.most hyear.least] at hall
            exact hall
          have hmonthLength := CalendarDate.monthLength_le d.year d.month
          subst hmoment
          obtain ⟨t, ht, htseconds⟩ := assemble_eq_ok hreal (by omega) (by omega) hhour hminute hsecond
            hoffset.within nanos
          refine ⟨t, ?_, htseconds⟩
          obtain ⟨hrealMonth, hrealDay⟩ := hreal
          simp only [List.append_assoc, List.cons_append]
          unfold scanStrict
          apply Outcome.bind_eq_ok (number_append hyear _)
          apply Outcome.bind_eq_ok (literal_eq_ok (u := ()).2 rfl)
          apply Outcome.bind_eq_ok (bounded_eq_ok.2 ⟨number_append hmonth _, hrealMonth⟩)
          apply Outcome.bind_eq_ok (literal_eq_ok (u := ()).2 rfl)
          apply Outcome.bind_eq_ok (bounded_eq_ok.2 ⟨number_append hday _, hrealDay.1, by omega⟩)
          apply Outcome.bind_eq_ok (dateTimeSeparator_cons hseparator _)
          apply Outcome.bind_eq_ok (bounded_eq_ok.2 ⟨number_append hhours _, Nat.zero_le _, hhour⟩)
          apply Outcome.bind_eq_ok (literal_eq_ok (u := ()).2 rfl)
          apply Outcome.bind_eq_ok (bounded_eq_ok.2 ⟨number_append hminutes _, Nat.zero_le _, hminute⟩)
          apply Outcome.bind_eq_ok (literal_eq_ok (u := ()).2 rfl)
          apply Outcome.bind_eq_ok (bounded_eq_ok.2 ⟨number_append hseconds _, Nat.zero_le _, hsecond⟩)
          apply Outcome.bind_eq_ok hnanos
          apply Outcome.bind_eq_ok (offset_eq_ok hoffset)
          have hwithin := hoffset.within
          apply Outcome.guard_eq_ok
          · omega
          · apply Outcome.guard_eq_ok
            · simp
            · rw [← hvalue]
              exact ht

/-- The digits after the point tell less than a second. -/
theorem Rfc3339.floor_instant (hs : Rfc3339 s m) : ⌊m.instant⌋ = m.seconds := by
  have hpart : ∀ c ∈ m.fraction, isDigit c = true := by
    cases hs with
    | mk _ _ _ _ _ _ _ _ _ hfraction =>
        generalize m.fraction = digits at hfraction
        cases hfraction with
        | none => simp
        | point _ hdigits => exact hdigits
  have hless : (digitsValue m.fraction : ℚ) < 10 ^ m.fraction.length := by
    exact_mod_cast Decimal.digitsValue_lt hpart
  rw [Moment.instant, Int.floor_intCast_add, add_eq_left, Int.floor_eq_zero_iff]
  constructor
  · positivity
  · rw [div_lt_one (by positivity)]
    exact hless

theorem Rfc3339.parse {text : String} (hs : Rfc3339 text.toList m) :
    Timestamp.parse text = .ok ⟨⌊m.instant⌋, 0⟩ := by
  obtain ⟨t, ht, hseconds⟩ := hs.reads
  rw [Timestamp.parse, ht, hs.floor_instant, ← hseconds]
  rfl

end Reading

section Writing

variable {t : Timestamp}

/-- The day of an instant is the one that it lies in. -/
theorem toDays_date (t : Timestamp) : t.date.toDays = t.seconds / secondsPerDay := by
  rw [date, CalendarDate.toDays_ofDays, Int.fdiv_eq_ediv_of_nonneg _ (by decide)]

theorem isReal_date (t : Timestamp) : t.date.IsReal := CalendarDate.isReal_ofDays _

/-- A date in ten characters. -/
def dateText (d : CalendarDate) : String :=
  padded 4 d.year.toNat ++ "-" ++ padded 2 d.month ++ "-" ++ padded 2 d.day

theorem isoDate_dateText {d : CalendarDate} (hreal : d.IsReal) (hfirst : 0 ≤ d.year) (hlast : d.year ≤ 9999) :
    IsoDate (dateText d).toList d := by
  have hlength := CalendarDate.monthLength_le d.year d.month
  have hyear : Numeral 4 4 (padded 4 d.year.toNat).toList d.year.toNat :=
    numeral_padded (by decide) (by omega)
  have hmonth : Numeral 2 2 (padded 2 d.month).toList d.month :=
    numeral_padded (by decide) (by have := hreal.month; omega)
  have hday : Numeral 2 2 (padded 2 d.day).toList d.day :=
    numeral_padded (by decide) (by have := hreal.day; omega)
  have htext : (dateText d).toList = (padded 4 d.year.toNat).toList ++ '-' ::
      ((padded 2 d.month).toList ++ '-' :: (padded 2 d.day).toList) := by
    simp [dateText]
  rw [htext]
  exact .mk ⟨_, hyear, by omega⟩ hmonth hday

/-- The moment of an instant in UTC. -/
def moment (t : Timestamp) : Moment where
  date := t.date
  hour := (t.seconds % secondsPerDay).toNat / 3600
  minute := (t.seconds % secondsPerDay).toNat / 60 % 60
  second := (t.seconds % secondsPerDay).toNat % 60
  fraction := []
  offset := 0

theorem seconds_moment (t : Timestamp) : t.moment.seconds = t.seconds := by
  have hday := toDays_date t
  have hfirst := Int.emod_nonneg t.seconds (show secondsPerDay ≠ 0 by decide)
  have hlast := Int.emod_lt_of_pos t.seconds (show 0 < secondsPerDay by decide)
  have hsplit := Int.mul_ediv_add_emod t.seconds secondsPerDay
  simp only [Moment.seconds, moment, hday]
  rw [secondsPerDay] at *
  omega

/-- What is written for a whole second is in the strict form. -/
theorem rfc3339_isoText (ht : t.nanos = 0) (hfirst : 0 ≤ t.date.year) (hlast : t.date.year ≤ 9999) :
    Rfc3339 t.isoText.toList t.moment := by
  have hdate := isoDate_dateText (isReal_date t) hfirst hlast
  have hrange : (t.seconds % secondsPerDay).toNat < 86400 := by
    have hless := Int.emod_lt_of_pos t.seconds (show 0 < secondsPerDay by decide)
    rw [secondsPerDay] at hless ⊢
    omega
  have hclock : t.seconds - t.seconds.fdiv secondsPerDay * secondsPerDay = t.seconds % secondsPerDay := by
    rw [Int.fdiv_eq_ediv_of_nonneg _ (by decide), Int.emod_def, mul_comm]
  have hyear : yearText t.date.year = padded 4 t.date.year.toNat := by
    rw [yearText, if_pos ⟨hfirst, hlast⟩]
    congr 1
    omega
  have htext : t.isoText.toList = (dateText t.date).toList ++ 'T' ::
      ((padded 2 t.moment.hour).toList ++ ':' :: ((padded 2 t.moment.minute).toList ++ ':' ::
        ((padded 2 t.moment.second).toList ++ ([] ++ ['Z'])))) := by
    simp [isoText, secondText, dateText, moment, hyear, hclock, ht]
  rw [htext]
  have hhour : t.moment.hour ≤ 23 := by
    simp only [moment]
    omega
  have hminute : t.moment.minute ≤ 59 := by
    simp only [moment]
    omega
  have hsecond : t.moment.second ≤ 59 := by
    simp only [moment]
    omega
  exact .mk hdate (isReal_date t) (.inl rfl) (numeral_padded (by decide) (by omega)) hhour
    (numeral_padded (by decide) (by omega)) hminute (numeral_padded (by decide) (by omega))
    (hsecond.trans (by decide)) .none (.utc (.inl rfl))

theorem parse_isoText (ht : t.nanos = 0) (hfirst : 0 ≤ t.date.year) (hlast : t.date.year ≤ 9999) :
    parse t.isoText = .ok t := by
  have hform := rfc3339_isoText ht hfirst hlast
  rw [hform.parse, hform.floor_instant, seconds_moment, ← ht]

/-- The midnight with which the day of an instant begins. -/
def midnight (t : Timestamp) : Timestamp := ⟨t.seconds - t.seconds % secondsPerDay, 0⟩

theorem ofDate_date (t : Timestamp) : ofDate t.date = t.midnight := by
  have hsplit := Int.mul_ediv_add_emod t.seconds secondsPerDay
  have hseconds : t.seconds / secondsPerDay * secondsPerDay = t.seconds - t.seconds % secondsPerDay := by
    rw [mul_comm]
    omega
  rw [ofDate, toDays_date, hseconds, midnight]

theorem solid_dateText {d : CalendarDate} (hd : IsoDate (dateText d).toList d) :
    Text.trim (dateText d) = dateText d := by
  have hdigit {least most n : Nat} {digits : List Char} (h : Numeral least most digits n) :
      ∀ c ∈ digits, Text.isBlank c = false := fun c hc => not_isBlank_of_isDigit (h.all c hc)
  have hsolid : ∀ c ∈ (dateText d).toList, Text.isBlank c = false := by
    generalize (dateText d).toList = s at hd
    intro c hc
    cases hd with
    | mk hyear hmonth hday =>
        obtain ⟨year, hyear, -⟩ := hyear
        simp only [List.mem_append, List.mem_cons] at hc
        rcases hc with hc | rfl | hc | rfl | hc
        · exact hdigit hyear c hc
        · decide
        · exact hdigit hmonth c hc
        · decide
        · exact hdigit hday c hc
  rw [Text.trim, Text.trimChars_of_not_isBlank hsolid, String.ofList_toList]

theorem parseDate_dateText (hfirst : 0 ≤ t.date.year) (hlast : t.date.year ≤ 9999) :
    parseDate (dateText t.date) = .ok t.midnight := by
  have hform := isoDate_dateText (isReal_date t) hfirst hlast
  rw [parseDate_eq_ok, Denotes, solid_dateText hform, ← ofDate_date]
  exact .inr ⟨t.date, hform.lenient, isValid_of_fourDigits (isReal_date t) hfirst hlast, rfl⟩

/-- No later midnight is at or before the instant. -/
theorem isGreatest_midnight (t : Timestamp) :
    IsGreatest {s | secondsPerDay ∣ s ∧ s ≤ t.seconds} t.midnight.seconds := by
  have hfirst := Int.emod_nonneg t.seconds (show secondsPerDay ≠ 0 by decide)
  have hlast := Int.emod_lt_of_pos t.seconds (show 0 < secondsPerDay by decide)
  constructor
  · exact ⟨Int.dvd_self_sub_emod, by simp only [midnight]; omega⟩
  · rintro s ⟨⟨k, rfl⟩, hs⟩
    have hsplit := Int.mul_ediv_add_emod t.seconds secondsPerDay
    simp only [midnight]
    rw [secondsPerDay] at *
    omega

end Writing

/-- Instants, texts and dates go over into each other. -/
structure Conversions : Prop where
  readsBack : ∀ t : Timestamp, t.nanos = 0 → 0 ≤ t.date.year → t.date.year ≤ 9999 → parse t.isoText = .ok t
  /-- A date is read as the last midnight that is not after the instant, before 1970 as well. -/
  midnight : ∀ t : Timestamp, t.nanos = 0 → 0 ≤ t.date.year → t.date.year ≤ 9999 →
    parseDate (dateText t.date) = .ok ⟨t.seconds - t.seconds % 86400, 0⟩ ∧
      IsGreatest {s | 86400 ∣ s ∧ s ≤ t.seconds} (t.seconds - t.seconds % 86400)
  /-- A text is read as its moment in UTC, rounded down to a second, whatever the offset. -/
  anyOffset : ∀ (text : String) (m : Moment), Rfc3339 text.toList m → parse text = .ok ⟨⌊m.instant⌋, 0⟩
  /-- The date of an instant is the one on whose day the instant falls in UTC. -/
  date : ∀ (t : Timestamp) (d : CalendarDate), t.date = d ↔
    d.IsReal ∧ d.toDays * 86400 ≤ t.seconds ∧ t.seconds < (d.toDays + 1) * 86400
  /-- Days are counted from the first one of 1970, one for each date. -/
  epoch : CalendarDate.toDays ⟨1970, 1, 1⟩ = 0
  next : ∀ d : CalendarDate, d.IsReal → d.next.IsReal ∧ d.next.toDays = d.toDays + 1

/-- Whole seconds are read back, dates are midnights in UTC, and a moment anywhere is the second in UTC in
which it falls. -/
theorem conversions : Conversions where
  readsBack t := parse_isoText
  midnight t ht hfirst hlast := ⟨parseDate_dateText hfirst hlast, isGreatest_midnight t⟩
  anyOffset text m hs := hs.parse
  date t d := by
    have hdays := toDays_date t
    rw [secondsPerDay] at hdays
    constructor
    · rintro rfl
      refine ⟨isReal_date t, ?_, ?_⟩
      · omega
      · omega
    · rintro ⟨hreal, hlow, hhigh⟩
      have hsame : t.seconds / secondsPerDay = d.toDays := by
        rw [secondsPerDay]
        omega
      rw [Timestamp.date, Int.fdiv_eq_ediv_of_nonneg _ (by decide), hsame, CalendarDate.ofDays_toDays hreal]
  epoch := by decide
  next d hd := ⟨hd.next, CalendarDate.toDays_next hd⟩

end PrivatePresentation.Timestamp
