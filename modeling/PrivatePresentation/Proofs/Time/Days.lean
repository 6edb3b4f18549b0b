import Mathlib.Tactic.IntervalCases
import PrivatePresentation.Proofs.Time.Calendar

/-!
Days and dates: a date that exists is the date of its day, and each day has one.  The year of an era is
found from the days of the era less those of the leap days before, of which a day is one only at the end
of its own year.
-/

namespace PrivatePresentation

namespace CalendarDate

variable {d : CalendarDate}

/-- A month of the year, and a day of the month. -/
structure IsReal (d : CalendarDate) : Prop where
  month : 1 ≤ d.month ∧ d.month ≤ 12
  day : 1 ≤ d.day ∧ d.day ≤ monthLength d.year d.month

theorem isReal_of_isValid (hd : d.isValid = true) : d.IsReal :=
  ⟨(of_isValid hd).2.1, (of_isValid hd).2.2⟩

/-- Days of an era before a year of it. -/
def eraDays (year : Nat) : Nat := year * 365 + year / 4 - year / 100

/-- A day of a year of an era, of which the last is there in leap years only. -/
def IsDayOf (year day : Nat) : Prop :=
  day < 365 ∨ day = 365 ∧ (year + 1) % 4 = 0 ∧ ((year + 1) % 100 ≠ 0 ∨ (year + 1) % 400 = 0)

/-- A year of an era by centuries, groups of four years, and the years left of a group. -/
theorem yearOfEra_split {century group rest day n : Nat} (hcentury : century ≤ 3) (hgroup : group ≤ 24)
    (hrest : rest ≤ 3) (hday : day < 365 ∨ day = 365 ∧ rest = 3 ∧ (group = 24 → century = 3))
    (hn : n = 36524 * century + 1461 * group + 365 * rest + day) :
    n < 146097 ∧ (n - n / 1460 + n / 36524 - n / 146096) / 365 = 100 * century + 4 * group + rest := by
  have hcenturies : n < 146097 ∧ n / 36524 = century + n / 146096 := by
    by_cases hlast : n = 146096
    · subst hlast
      omega
    · have hwithin : 1461 * group + 365 * rest + day < 36524 := by omega
      have hcount : n / 36524 = century := by
        rw [Nat.div_eq_iff (by decide)]
        omega
      omega
  -- A group of four years has a day more than is counted for it.
  have hgroups : n / 1460 = 25 * century + group + (24 * century + group + 365 * rest + day) / 1460 := by
    omega
  obtain ⟨hbound, hcenturies⟩ := hcenturies
  refine ⟨hbound, ?_⟩
  rw [Nat.div_eq_iff (by decide)]
  omega

theorem yearOfEra_eq {year day n : Nat} (hyear : year < 400) (hday : IsDayOf year day)
    (hn : n = eraDays year + day) :
    n < 146097 ∧ (n - n / 1460 + n / 36524 - n / 146096) / 365 = year := by
  have hsplit : year = 100 * (year / 100) + 4 * (year % 100 / 4) + year % 4 := by omega
  have hdays : n = 36524 * (year / 100) + 1461 * (year % 100 / 4) + 365 * (year % 4) + day := by
    rw [hn, eraDays]
    omega
  have hyearOf := yearOfEra_split (by omega) (by omega) (by omega) (hday.imp_right fun h => by omega) hdays
  rwa [← hsplit] at hyearOf

/-- Months are found from the days of a year that begins in March. -/
theorem month_of_dayOfYear {year : Int} {month day : Nat} (hmonth : 1 ≤ month ∧ month ≤ 12)
    (hday : 1 ≤ day ∧ day ≤ monthLength year month) :
    (5 * dayOfYear month day + 2) / 153 = (month + 9) % 12 ∧
      dayOfYear month day - (153 * ((month + 9) % 12) + 2) / 5 + 1 = day := by
  obtain ⟨hfirst, hlast⟩ := hmonth
  unfold dayOfYear
  interval_cases month
  all_goals
    have hlength := hday.2
    simp [monthLength] at hlength
    try split at hlength
    all_goals omega

theorem isLeap_iff {year : Int} :
    isLeap year = true ↔ year % 4 = 0 ∧ (year % 100 ≠ 0 ∨ year % 400 = 0) := by
  simp [isLeap]

/-- The year that a date belongs to if years begin in March. -/
def marchYear (d : CalendarDate) : Int := if d.month ≤ 2 then d.year - 1 else d.year

/-- The day of a date in its year is one of the year, and the leap day is there in leap years only. -/
theorem isDayOf_dayOfYear (hd : d.IsReal) {year : Nat} (hyear : (year : Int) = d.marchYear % 400) :
    IsDayOf year (dayOfYear d.month d.day) := by
  obtain ⟨hmonth, hday⟩ := hd
  by_cases hfebruary : d.month = 2
  · have hlength : monthLength d.year d.month = if isLeap d.year then 29 else 28 := if_pos hfebruary
    rw [marchYear, hfebruary] at hyear
    rw [hlength] at hday
    rw [IsDayOf, hfebruary, dayOfYear]
    by_cases hleap : isLeap d.year = true
    · rw [if_pos hleap] at hday
      obtain ⟨hfour, hcentury⟩ := isLeap_iff.1 hleap
      omega
    · rw [if_neg hleap] at hday
      omega
  · left
    have hlength := monthLength_le d.year d.month
    have hnovember : (d.month + 9) % 12 ≤ 10 := by omega
    unfold dayOfYear
    omega

/-- The days of a date by eras of 400 years, years of an era, and days of a year. -/
theorem toDays_eq_era (d : CalendarDate) : d.toDays + 719468 =
    d.marchYear / 400 * 146097 +
      ((eraDays (d.marchYear % 400).toNat + dayOfYear d.month d.day : Nat) : Int) := by
  simp only [toDays, eraDays, marchYear, Int.fdiv_eq_ediv_of_nonneg _ (show (0 : Int) ≤ 400 by omega)]
  omega

/-- A date that exists is the date of its day. -/
theorem ofDays_toDays (hd : d.IsReal) : ofDays d.toDays = d := by
  obtain ⟨hmonth, hday⟩ := hd
  have hera : d.marchYear = d.marchYear / 400 * 400 + (d.marchYear % 400).toNat := by omega
  have hdays := toDays_eq_era d
  have hofYear : IsDayOf (d.marchYear % 400).toNat (dayOfYear d.month d.day) :=
    isDayOf_dayOfYear ⟨hmonth, hday⟩ (by omega)
  generalize d.marchYear / 400 = era at hera hdays
  generalize hyear : (d.marchYear % 400).toNat = year at hera hdays hofYear
  obtain ⟨hbound, hyearOf⟩ := yearOfEra_eq (by omega) hofYear rfl
  obtain ⟨hmonthOf, hdayOf⟩ := month_of_dayOfYear hmonth hday
  have heraOf : (d.toDays + 719468).fdiv 146097 = era := by
    rw [Int.fdiv_eq_ediv_of_nonneg _ (by decide)]
    omega
  have hdaysOf : (d.toDays + 719468 - era * 146097).toNat = eraDays year + dayOfYear d.month d.day := by
    omega
  have hdayOfYear : eraDays year + dayOfYear d.month d.day - (365 * year + year / 4 - year / 100) =
      dayOfYear d.month d.day := by
    unfold eraDays
    omega
  have hmonthBack : (if (d.month + 9) % 12 < 10 then (d.month + 9) % 12 + 3 else (d.month + 9) % 12 - 9) =
      d.month := by
    split <;> omega
  have hyearBack : (year : Int) + era * 400 + (if d.month ≤ 2 then 1 else 0) = d.year := by
    rw [marchYear] at hera
    split at hera <;> split <;> omega
  unfold ofDays
  dsimp only
  rw [heraOf, hdaysOf, hyearOf, hdayOfYear, hmonthOf, hdayOf, hmonthBack, hyearBack]

section Next

/-- The date of the day after. -/
def next (d : CalendarDate) : CalendarDate :=
  if d.day < monthLength d.year d.month then ⟨d.year, d.month, d.day + 1⟩
  else if d.month < 12 then ⟨d.year, d.month + 1, 1⟩
  else ⟨d.year + 1, 1, 1⟩

theorem one_le_monthLength (year : Int) (month : Nat) : 1 ≤ monthLength year month := by
  unfold monthLength
  split
  · split <;> omega
  · split <;> omega

theorem IsReal.next (hd : d.IsReal) : d.next.IsReal := by
  obtain ⟨hmonth, hday⟩ := hd
  unfold CalendarDate.next
  split
  · exact ⟨hmonth, Nat.le_add_left 1 _, by assumption⟩
  · split
    · exact ⟨⟨Nat.le_add_left 1 _, by assumption⟩, Nat.le_refl 1, one_le_monthLength _ _⟩
    · exact ⟨⟨Nat.le_refl 1, by simp⟩, Nat.le_refl 1, one_le_monthLength _ _⟩

/-- The day after February the last is the first of a year that begins in March. -/
theorem toDays_next (hd : d.IsReal) : d.next.toDays = d.toDays + 1 := by
  obtain ⟨year, month, day⟩ := d
  obtain ⟨⟨hfirst, hlast⟩, hday⟩ := hd
  dsimp only at hfirst hlast hday
  rw [toDays_eq, toDays_eq, next]
  by_cases hwithin : day < monthLength year month
  · simp only [hwithin, ↓reduceIte, dayOfYear]
    omega
  · have hend : day = monthLength year month := by omega
    subst hend
    simp only [hwithin, ↓reduceIte]
    by_cases hleap : isLeap year = true
    · obtain ⟨hfour, hcentury⟩ := isLeap_iff.1 hleap
      interval_cases month <;> simp [monthLength, hleap, dayOfYear, daysBefore] <;> omega
    · have hnot : ¬(year % 4 = 0 ∧ (year % 100 ≠ 0 ∨ year % 400 = 0)) := fun h => hleap (isLeap_iff.2 h)
      interval_cases month <;> simp [monthLength, hleap, dayOfYear, daysBefore] <;> omega

/-- Each day is that of some date: an era begins at or before it, and it is reached from there. -/
theorem exists_toDays (n : Int) : ∃ d : CalendarDate, d.IsReal ∧ d.toDays = n := by
  have hlater (k : Nat) : ∃ d : CalendarDate, d.IsReal ∧
      d.toDays = (n + 719468) / 146097 * 146097 - 719468 + k := by
    induction k with
    | zero =>
        refine ⟨⟨(n + 719468) / 146097 * 400, 3, 1⟩, ⟨by simp, by simp, ?_⟩, ?_⟩
        · exact one_le_monthLength _ 3
        · simp [toDays_eq, daysBefore, dayOfYear]
          omega
    | succ k ih =>
        obtain ⟨d, hd, hdays⟩ := ih
        refine ⟨d.next, hd.next, ?_⟩
        rw [toDays_next hd, hdays]
        omega
  obtain ⟨d, hd, hdays⟩ := hlater ((n + 719468) % 146097).toNat
  refine ⟨d, hd, ?_⟩
  omega

variable (n : Int)

theorem isReal_ofDays : (ofDays n).IsReal := by
  obtain ⟨d, hd, rfl⟩ := exists_toDays n
  rwa [ofDays_toDays hd]

theorem toDays_ofDays : (ofDays n).toDays = n := by
  obtain ⟨d, hd, rfl⟩ := exists_toDays n
  rw [ofDays_toDays hd]

end Next

end CalendarDate

/-- A day begins with its own first second. -/
theorem Timestamp.date_ofDate {d : CalendarDate} (hd : d.isValid = true) : (ofDate d).date = d := by
  rw [date, ofDate, Int.mul_fdiv_cancel _ (by decide),
    CalendarDate.ofDays_toDays (CalendarDate.isReal_of_isValid hd)]

end PrivatePresentation
