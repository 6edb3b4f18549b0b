import Mathlib
import PrivatePresentation.Proofs.Outcome
import PrivatePresentation.Time.Reader

/-!
The reach of the calendar: an instant that is read from a text lies between the first and the last
second of the calendar, whichever form it is written in.
-/

namespace PrivatePresentation

namespace CalendarDate

/-- Days before a year that begins in March, counted from the first of March of year zero. -/
def daysBefore (year : Int) : Int := 365 * year + year / 4 - year / 100 + year / 400

theorem daysBefore_lt {y z : Int} (hlt : y < z) : daysBefore y + 364 ≤ daysBefore z := by
  simp only [daysBefore]
  omega

theorem daysBefore_le {y z : Int} (hle : y ≤ z) : daysBefore y ≤ daysBefore z := by
  rcases Int.le_iff_eq_or_lt.1 hle with rfl | hlt
  · exact Int.le_refl _
  · have := daysBefore_lt hlt
    omega

/-- The days of an era and of a year in it are those before the year. -/
theorem toDays_eq (d : CalendarDate) :
    d.toDays = daysBefore (if d.month ≤ 2 then d.year - 1 else d.year) +
      dayOfYear d.month d.day - 719468 := by
  simp only [toDays, daysBefore, Int.fdiv_eq_ediv_of_nonneg _ (show (0 : Int) ≤ 400 by omega)]
  omega

theorem monthLength_le (year : Int) (month : Nat) : monthLength year month ≤ 31 := by
  unfold monthLength
  split
  · split <;> omega
  · split <;> omega

theorem of_isValid {d : CalendarDate} (hd : d.isValid = true) :
    (minYear ≤ d.year ∧ d.year ≤ maxYear) ∧
      (1 ≤ d.month ∧ d.month ≤ 12) ∧ 1 ≤ d.day ∧ d.day ≤ monthLength d.year d.month := by
  simp only [isValid, Bool.and_eq_true, decide_eq_true_eq] at hd
  obtain ⟨⟨⟨⟨⟨hmin, hmax⟩, hm₁⟩, hm₁₂⟩, hd₁⟩, hday⟩ := hd
  exact ⟨⟨hmin, hmax⟩, ⟨hm₁, hm₁₂⟩, hd₁, hday⟩

/-- The days of a date that exists are within those of the first and the last date. -/
theorem toDays_within {d : CalendarDate} (hd : d.isValid = true) :
    -96465292 ≤ d.toDays ∧ d.toDays ≤ 95026236 := by
  have hlength := monthLength_le d.year d.month
  obtain ⟨⟨hmin, hmax⟩, hmonth, hday⟩ := of_isValid hd
  rw [minYear] at hmin
  rw [maxYear] at hmax
  have hfirst : daysBefore (-262144) = -95746130 := rfl
  have hlast : daysBefore 262142 = 95745399 := rfl
  -- January and February belong to the year before.
  rw [toDays_eq, dayOfYear]
  split
  · have hlow := daysBefore_le (show -262144 ≤ d.year - 1 by omega)
    have hhigh := daysBefore_lt (show d.year - 1 < 262142 by omega)
    omega
  · have hlow := daysBefore_lt (show -262144 < d.year by omega)
    have hhigh := daysBefore_le hmax
    omega

end CalendarDate

namespace Timestamp

/-- An instant of the calendar. -/
def InCalendar (t : Timestamp) : Prop := minSeconds ≤ t.seconds ∧ t.seconds ≤ maxSeconds

theorem ofDate_within {d : CalendarDate} (hd : d.isValid = true) : (ofDate d).InCalendar := by
  have hdays := CalendarDate.toDays_within hd
  simp only [InCalendar, ofDate, secondsPerDay, minSeconds, maxSeconds]
  omega

theorem assemble_within {date : CalendarDate} {hour minute second nanos : Nat} {offset : Int}
    {t : Timestamp} (ht : assemble date hour minute second nanos offset = .ok t) : t.InCalendar := by
  unfold assemble at ht
  obtain ⟨-, ht⟩ := Outcome.of_guard ht
  obtain ⟨-, ht⟩ := Outcome.of_guard ht
  obtain ⟨hwithin, ht⟩ := Outcome.of_guard ht
  obtain rfl := Except.ok.inj ht
  exact ⟨Int.not_lt.1 fun h => hwithin (Or.inl h), Int.not_lt.1 fun h => hwithin (Or.inr h)⟩

/-- Whatever the strict form starts with, it ends by assembling an instant. -/
theorem scanStrict_within {s : List Char} {t : Timestamp} (ht : scanStrict s = .ok t) :
    t.InCalendar := by
  unfold scanStrict at ht
  repeat obtain ⟨⟨_, _⟩, -, ht⟩ := Outcome.of_bind ht
  obtain ⟨-, ht⟩ := Outcome.of_guard ht
  obtain ⟨-, ht⟩ := Outcome.of_guard ht
  exact assemble_within ht

theorem scanDate_valid {s : List Char} {d : CalendarDate} (hd : scanDate s = .ok d) :
    d.isValid = true := by
  unfold scanDate at hd
  repeat obtain ⟨⟨_, _⟩, -, hd⟩ := Outcome.of_bind hd
  obtain ⟨-, hd⟩ := Outcome.of_guard hd
  obtain ⟨hvalid, hd⟩ := Outcome.of_guard_else hd
  obtain rfl := Except.ok.inj hd
  exact hvalid

theorem parse_within {s : String} {t : Timestamp} (ht : parse s = .ok t) :
    t.InCalendar := by
  unfold parse at ht
  split at ht
  · rename_i u hu
    obtain rfl := Except.ok.inj ht
    have hwithin := scanStrict_within hu
    exact hwithin
  · exact nomatch ht

theorem parseDate_within {s : String} {t : Timestamp} (ht : parseDate s = .ok t) :
    t.InCalendar := by
  unfold parseDate at ht
  dsimp only at ht
  split at ht
  · rename_i u hu
    obtain rfl := Except.ok.inj ht
    exact parse_within hu
  · split at ht
    · rename_i d hd
      obtain rfl := Except.ok.inj ht
      exact ofDate_within (scanDate_valid hd)
    · exact nomatch ht

theorem isAfter_eq_false_iff {a b : Timestamp} :
    a.isAfter b = false ↔ a.seconds < b.seconds ∨ a.seconds = b.seconds ∧ a.nanos ≤ b.nanos := by
  simp only [isAfter, Bool.or_eq_false_iff, decide_eq_false_iff_not, Bool.and_eq_false_iff,
    beq_eq_false_iff_ne]
  omega

/-- A sum stays in the calendar, and goes no further than its last second. -/
theorem seconds_plusSeconds {t : Timestamp} (ht : t.InCalendar) (n : Nat) :
    (t.plusSeconds n).seconds = min (t.seconds + n) maxSeconds := by
  have hlast := ht.2
  unfold plusSeconds
  by_cases hn : n = 0
  · rw [if_pos hn]
    omega
  rw [if_neg hn]
  by_cases hover : maxSeconds < t.seconds + n
  · rw [if_pos hover]
    exact (Int.min_eq_right hover.le).symm
  · rw [if_neg hover]
    exact (Int.min_eq_left (Int.not_lt.1 hover)).symm

theorem plusSeconds_inCalendar {t : Timestamp} (ht : t.InCalendar) (n : Nat) :
    (t.plusSeconds n).InCalendar := by
  have hfirst := ht.1
  have hlast := ht.2
  rw [InCalendar, seconds_plusSeconds ht]
  omega

end Timestamp
end PrivatePresentation
