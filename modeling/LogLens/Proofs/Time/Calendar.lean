/-
Days and their numbers.

A day number splits into whole periods of 400, 100, 4 and 1 years that begin on 1 March (`split`).
The date made from these parts exists in the calendar, and its number is the day number again; the
days from the first to the last representable second fall in the representable years.
-/
import Mathlib
import LogLens.Time.Instant

namespace LogLens
namespace CalendarDate

/-! ## Periods of years -/

/-- A day as the periods before it: `day` counts the days of the year from 1 March. -/
structure Split (n : Int) where
  era : Int
  century : Nat
  quad : Nat
  year : Nat
  day : Nat
  sum : n = 146097 * era + 36524 * century + 1461 * quad + 365 * year + day - 719468
  century_le : century ≤ 3
  quad_le : quad ≤ 24
  year_le : year ≤ 3
  day_le : day ≤ 365
  /-- Only a fourth year has a leap day, unless it ends a century that does not end an era. -/
  leap : day = 365 → year = 3 ∧ (quad = 24 → century = 3)

/-- The year that began on the last 1 March. -/
def Split.marchYear {n : Int} (s : Split n) : Int :=
  400 * s.era + 100 * s.century + 4 * s.quad + s.year

/-- The date `m` months and some days behind 1 March. -/
def ofMonths (marchYear : Int) (m day : Nat) : CalendarDate :=
  if m < 10 then ⟨marchYear, m + 3, day⟩ else ⟨marchYear + 1, m - 9, day⟩

/-- The month that the days of the year from 1 March reach, counted from March. -/
def Split.month {n : Int} (s : Split n) : Nat := (5 * s.day + 2) / 153

def Split.dayOfMonth {n : Int} (s : Split n) : Nat := s.day - daysBeforeMonth s.month + 1

theorem exists_split (n : Int) :
    ∃ s : Split n, ofDayNumber n = ofMonths s.marchYear s.month s.dayOfMonth := by
  refine ⟨⟨(n + 719468) / 146097, min 3 (((n + 719468) % 146097).toNat / 36524), _, _, _,
    ?_, ?_, ?_, ?_, ?_, ?_⟩, rfl⟩
  all_goals omega

/-! ## The number of the date -/

theorem dayNumber_ofMonths (marchYear : Int) {m : Nat} (hm : m ≤ 11) (day : Nat) :
    (ofMonths marchYear m day).dayNumber =
      daysBeforeMarch marchYear + daysBeforeMonth m + (day - 1 : Nat) - 719468 := by
  rw [ofMonths]
  split
  · have hlate : ¬m + 3 ≤ 2 := by omega
    simp [dayNumber, hlate]
  · have hearly : m - 9 ≤ 2 := by omega
    have hmonth : m - 9 + 9 = m := by omega
    simp [dayNumber, hearly, hmonth]

namespace Split

variable {n : Int} (s : Split n)

theorem month_le : s.month ≤ 11 := by
  have hday := s.day_le
  rw [month]
  omega

theorem daysBeforeMonth_le : daysBeforeMonth s.month ≤ s.day := by
  rw [daysBeforeMonth, month]
  omega

theorem daysBeforeMarch_marchYear : daysBeforeMarch s.marchYear =
    146097 * s.era + 36524 * s.century + 1461 * s.quad + 365 * s.year := by
  have hcentury := s.century_le
  have hquad := s.quad_le
  have hyear := s.year_le
  rw [daysBeforeMarch, marchYear]
  omega

theorem dayNumber_eq : (ofMonths s.marchYear s.month s.dayOfMonth).dayNumber = n := by
  have hsum := s.sum
  have hbefore := s.daysBeforeMonth_le
  rw [dayNumber_ofMonths _ s.month_le, s.daysBeforeMarch_marchYear, dayOfMonth]
  omega

/-! ## The date exists -/

theorem isLeapYear_of_day (h : s.day = 365) : isLeapYear (s.marchYear + 1) = true := by
  obtain ⟨hyear, hquad⟩ := s.leap h
  have hcentury := s.century_le
  have hquad' := s.quad_le
  rw [isLeapYear, marchYear]
  simp only [Bool.and_eq_true, Bool.or_eq_true, decide_eq_true_eq]
  omega

theorem dayOfMonth_le : s.dayOfMonth ≤
    daysInMonth (ofMonths s.marchYear s.month s.dayOfMonth).year
      (ofMonths s.marchYear s.month s.dayOfMonth).month := by
  have hday := s.day_le
  have hleap := s.isLeapYear_of_day
  have hmonth : s.month = (5 * s.day + 2) / 153 := rfl
  have hdayOfMonth : s.dayOfMonth = s.day - (153 * s.month + 2) / 5 + 1 := rfl
  have hle := s.month_le
  generalize s.month = m at *
  generalize s.dayOfMonth = day at *
  by_cases hfebruary : m = 11
  · subst hfebruary
    show day ≤ if isLeapYear (s.marchYear + 1) then 29 else 28
    split
    · omega
    · rename_i hcommon
      have hlast : s.day ≠ 365 := fun h => hcommon (hleap h)
      omega
  · interval_cases m <;> simp [ofMonths, daysInMonth] <;> omega

/-- The last representable day is 31 December, the 306th day since 1 March. -/
theorem marchYear_le (hlast : n ≤ 95026236) :
    s.marchYear ≤ lastYear - 1 ∨ s.marchYear = lastYear ∧ s.day < 306 := by
  have hsum := s.sum
  have hcentury := s.century_le
  have hquad := s.quad_le
  have hyear := s.year_le
  by_contra hlate
  simp only [marchYear, lastYear] at hlate
  -- each part in turn is that of the last year, since one more would be too many days
  have hera : s.era = 655 := by omega
  have hcentury' : s.century = 1 := by omega
  have hquad' : s.quad = 10 := by omega
  have hyear' : s.year = 2 := by omega
  omega

/-- The days of the representable years have representable years. -/
theorem year_mem (hfirst : -96465292 ≤ n) (hlast : n ≤ 95026236) :
    firstYear ≤ (ofMonths s.marchYear s.month s.dayOfMonth).year ∧
      (ofMonths s.marchYear s.month s.dayOfMonth).year ≤ lastYear := by
  have hsum := s.sum
  have hday := s.day_le
  have hcentury := s.century_le
  have hquad := s.quad_le
  have hyear := s.year_le
  have hmonth : s.month = (5 * s.day + 2) / 153 := rfl
  have hupper := s.marchYear_le hlast
  have hlower : firstYear - 1 ≤ s.marchYear ∧ (s.marchYear = firstYear - 1 → 306 ≤ s.day) := by
    simp only [marchYear, firstYear]
    omega
  rw [ofMonths]
  split <;> simp only <;> omega

end Split

theorem dayNumber_ofDayNumber (n : Int) : (ofDayNumber n).dayNumber = n := by
  obtain ⟨s, hs⟩ := exists_split n
  rw [hs, s.dayNumber_eq]

theorem month_mem (n : Int) : 1 ≤ (ofDayNumber n).month ∧ (ofDayNumber n).month ≤ 12 := by
  obtain ⟨s, hs⟩ := exists_split n
  have hmonth := s.month_le
  rw [hs, ofMonths]
  split <;> simp only <;> omega

theorem day_mem (n : Int) : 1 ≤ (ofDayNumber n).day ∧
    (ofDayNumber n).day ≤ daysInMonth (ofDayNumber n).year (ofDayNumber n).month := by
  obtain ⟨s, hs⟩ := exists_split n
  have hday : (ofMonths s.marchYear s.month s.dayOfMonth).day = s.dayOfMonth := by
    rw [ofMonths]
    split <;> rfl
  rw [hs, hday]
  exact ⟨Nat.succ_pos _, s.dayOfMonth_le⟩

/-- The date of a day in the representable years is one of the calendar. -/
theorem of?_ofDayNumber {n : Int} (hfirst : -96465292 ≤ n) (hlast : n ≤ 95026236) :
    of? (ofDayNumber n).year (ofDayNumber n).month (ofDayNumber n).day = some (ofDayNumber n) := by
  have hyear : firstYear ≤ (ofDayNumber n).year ∧ (ofDayNumber n).year ≤ lastYear := by
    obtain ⟨s, hs⟩ := exists_split n
    exact hs ▸ s.year_mem hfirst hlast
  exact if_pos ⟨hyear.1, hyear.2, (month_mem n).1, (month_mem n).2, day_mem n⟩

/-! ## Years -/

/-- The number of 1 January. -/
def newYear (year : Int) : Int := daysBeforeMarch (year - 1) + 306 - 719468

theorem newYear_add_le {a b : Int} (h : a ≤ b) : newYear a + 365 * (b - a) ≤ newYear b := by
  rw [newYear, newYear, daysBeforeMarch, daysBeforeMarch]
  omega

/-- A date lies between the first of January of its year and that of the next. -/
theorem newYear_le_dayNumber {d : CalendarDate} (hmonth : 1 ≤ d.month ∧ d.month ≤ 12)
    (hday : 1 ≤ d.day ∧ d.day ≤ 31) :
    newYear d.year ≤ d.dayNumber ∧ d.dayNumber < newYear (d.year + 1) := by
  have hnext : daysBeforeMarch (d.year - 1) + 365 ≤ daysBeforeMarch d.year := by
    rw [daysBeforeMarch, daysBeforeMarch]
    omega
  have hyear : d.year + 1 - 1 = d.year := by omega
  rw [newYear, newYear, hyear, dayNumber]
  simp only [daysBeforeMonth]
  split <;> omega

/-- The same day of the next year is at least a common year later. -/
theorem dayNumber_nextYear (d : CalendarDate) :
    d.dayNumber + 365 ≤ (CalendarDate.mk (d.year + 1) d.month d.day).dayNumber := by
  have hmarch : ∀ year, daysBeforeMarch year + 365 ≤ daysBeforeMarch (year + 1) := by
    intro year
    rw [daysBeforeMarch, daysBeforeMarch]
    omega
  have hearly := hmarch (d.year - 1)
  have hlate := hmarch d.year
  have hyear : d.year - 1 + 1 = d.year + 1 - 1 := by omega
  rw [hyear] at hearly
  rw [dayNumber, dayNumber]
  dsimp only
  split <;> omega

/-- No two leap years stand together, so only their leap days are missing in the next year. -/
theorem le_daysInMonth_nextYear {year : Int} {month day : Nat} (h : day ≤ daysInMonth year month) :
    day ≤ daysInMonth (year + 1) month ↔ ¬(month = 2 ∧ day = 29) := by
  by_cases hmonth : month = 2
  · subst hmonth
    have hnext : isLeapYear year = true → isLeapYear (year + 1) = false := by
      simp only [isLeapYear, Bool.and_eq_true, Bool.or_eq_true, decide_eq_true_eq,
        Bool.and_eq_false_iff, decide_eq_false_iff_not]
      omega
    simp only [daysInMonth, true_and] at h ⊢
    cases hleap : isLeapYear year with
    | true =>
      rw [hleap, if_pos rfl] at h
      rw [hnext hleap, if_neg Bool.false_ne_true]
      omega
    | false =>
      rw [hleap, if_neg Bool.false_ne_true] at h
      split <;> omega
  · have hsame : daysInMonth (year + 1) month = daysInMonth year month := by
      unfold daysInMonth
      split <;> first | rfl | exact absurd rfl hmonth
    rw [hsame]
    exact iff_of_true h fun hleap => hmonth hleap.1

end CalendarDate

theorem Instant.of?_self (t : Instant) : of? t.seconds t.nanos = some t :=
  dif_pos ⟨t.first_le, t.le_last, t.nanos_lt⟩

theorem Instant.of?_civil (t : Instant) :
    CalendarDate.of? t.civil.date.year t.civil.date.month t.civil.date.day = some t.civil.date := by
  have hfirst := t.first_le
  have hlast := t.le_last
  rw [firstSecond] at hfirst
  rw [lastSecond] at hlast
  refine CalendarDate.of?_ofDayNumber ?_ ?_ <;> rw [secondsPerDay] <;> omega

theorem Instant.year_mem (t : Instant) :
    CalendarDate.firstYear ≤ t.year ∧ t.year ≤ CalendarDate.lastYear := by
  have hdate := t.of?_civil
  rw [CalendarDate.of?] at hdate
  split at hdate
  · rename_i hmem
    exact ⟨hmem.1, hmem.2.1⟩
  · cases hdate

end LogLens
