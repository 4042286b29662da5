/-
Times that are written without a year.

An instant is written as system logs write it and read with a reference that is later, by less than
364 days.  It lies in the year of the reference or in the year before (`year_le`, `le_year_add`).
The year of the reference is tried first, and for an instant of the year before it is more than a
day late, so the year before is taken (`inferYear_yearless`).  Only the leap day of the year before
is lost: the year of the reference has none, and no other year is tried.
-/
import LogLens.Proofs.Header.Stamps
import LogLens.Proofs.Time.Recognition

namespace LogLens

open Pattern Layout

namespace Instant

/-! ## Texts without a year -/

/-- The day of a month in two characters, the first of them a zero or a blank below ten. -/
def dayText (zero : Bool) (day : Nat) : String :=
  if zero ∨ 10 ≤ day then padded 2 day else " " ++ toString day

/-- `Mon D HH:MM:SS`. -/
def toYearlessText (t : Instant) (zero : Bool) : String :=
  let c := t.civil
  String.ofList (monthName c.date.month) ++ " " ++ dayText zero c.date.day ++ " " ++
    padded 2 c.hour ++ ":" ++ padded 2 c.minute ++ ":" ++ padded 2 c.second

/-- What such a text says of an instant. -/
def yearless (t : Instant) : Stamp.Yearless where
  month := t.civil.date.month
  day := t.civil.date.day
  hour := t.civil.hour
  minute := t.civil.minute
  second := t.civil.second
  millis := 0

/-- The instant is on a 29 February. -/
def OnLeapDay (t : Instant) : Prop := t.civil.date.month = 2 ∧ t.civil.date.day = 29

instance (t : Instant) : Decidable t.OnLeapDay :=
  inferInstanceAs (Decidable (t.civil.date.month = 2 ∧ t.civil.date.day = 29))

/-! ## The year of an instant -/

theorem newYear_le_day (t : Instant) :
    CalendarDate.newYear t.year ≤ t.seconds / secondsPerDay ∧
      t.seconds / secondsPerDay < CalendarDate.newYear (t.year + 1) := by
  have hrange := inRange_civil t
  have hnumber : t.civil.date.dayNumber = t.seconds / secondsPerDay :=
    CalendarDate.dayNumber_ofDayNumber _
  rw [← hnumber]
  exact CalendarDate.newYear_le_dayNumber hrange.month hrange.day

theorem year_le {a b : Instant} (h : a.seconds ≤ b.seconds) : a.year ≤ b.year := by
  by_contra hyear
  have ha := (newYear_le_day a).1
  have hb := (newYear_le_day b).2
  have hnew := CalendarDate.newYear_add_le (show b.year + 1 ≤ a.year by omega)
  have hday : a.seconds / secondsPerDay ≤ b.seconds / secondsPerDay :=
    Int.ediv_le_ediv (by decide) h
  omega

/-- Less than a common year later it is at most the next year. -/
theorem le_year_add {a b : Instant} (h : b.seconds < a.seconds + 364 * secondsPerDay) :
    b.year ≤ a.year + 1 := by
  by_contra hyear
  have ha := (newYear_le_day a).2
  have hb := (newYear_le_day b).1
  have hnew := CalendarDate.newYear_add_le (show a.year + 1 ≤ b.year by omega)
  rw [secondsPerDay] at *
  omega

/-! ## The same time in a year -/

theorem seconds_of_civil {t : Instant} (h : t.nanos < nanosPerSecond) :
    t.civil.date.dayNumber * secondsPerDay +
      (3600 * t.civil.hour + 60 * t.civil.minute + t.civil.second : Nat) = t.seconds := by
  obtain ⟨-, hsecond, -⟩ | ⟨hleap, -, -⟩ := civil_second t
  · have hnumber : t.civil.date.dayNumber = t.seconds / secondsPerDay :=
      CalendarDate.dayNumber_ofDayNumber _
    have hhour : t.civil.hour = (t.seconds % secondsPerDay).toNat / 3600 := rfl
    have hminute : t.civil.minute = (t.seconds % secondsPerDay).toNat / 60 % 60 := rfl
    rw [hnumber, hhour, hminute, hsecond, secondsPerDay]
    omega
  · omega

section Years

variable {t : Instant} (hnanos : t.nanos = 0)

include hnanos

theorem inYear?_yearless (year : Int) : t.yearless.inYear? year =
    (CalendarDate.of? year t.civil.date.month t.civil.date.day).bind fun date =>
      of? (t.seconds + (date.dayNumber - t.civil.date.dayNumber) * secondsPerDay) 0 := by
  have hwhole : t.nanos < nanosPerSecond := hnanos ▸ by decide
  have hrange := inRange_civil t
  have hseconds := seconds_of_civil hwhole
  have hsecond : t.civil.second ≤ 59 := by
    obtain ⟨-, hsecond, -⟩ | ⟨hleap, -, -⟩ := civil_second t <;> omega
  rw [Stamp.Yearless.inYear?]
  refine congrArg _ (funext fun date => ?_)
  rw [yearless]
  simp only [if_pos (And.intro hrange.hour (And.intro hrange.minute hsecond)), ofLocal?,
    Nat.zero_mul]
  refine congrArg (of? · 0) ?_
  rw [secondsPerDay] at *
  omega

theorem inYear?_year : t.yearless.inYear? t.year = some t := by
  have hself : of? t.seconds 0 = some t := hnanos ▸ t.of?_self
  rw [inYear?_yearless hnanos, year, t.of?_civil, Option.bind_some, Int.sub_self, Int.zero_mul,
    Int.add_zero, hself]

theorem inYear?_of_onLeapDay (h : t.OnLeapDay) : t.yearless.inYear? (t.year + 1) = none := by
  have hday := (CalendarDate.day_mem (t.seconds / secondsPerDay)).2
  have hnone : CalendarDate.of? (t.year + 1) t.civil.date.month t.civil.date.day = none := by
    refine if_neg fun hdate => ?_
    exact (CalendarDate.le_daysInMonth_nextYear hday).mp hdate.2.2.2.2.2 h
  rw [inYear?_yearless hnanos, hnone, Option.bind_none]

/-- Any other time is at least a common year later in the next year. -/
theorem exists_inYear? (h : ¬t.OnLeapDay) (hyear : t.year + 1 ≤ CalendarDate.lastYear) :
    ∃ next, t.yearless.inYear? (t.year + 1) = some next ∧
      t.seconds + 365 * secondsPerDay ≤ next.seconds := by
  have hrange := inRange_civil t
  have hday := CalendarDate.day_mem (t.seconds / secondsPerDay)
  have hfirst := t.year_mem.1
  let date : CalendarDate := ⟨t.year + 1, t.civil.date.month, t.civil.date.day⟩
  have hdate : CalendarDate.of? (t.year + 1) t.civil.date.month t.civil.date.day = some date :=
    if_pos ⟨by omega, hyear, hrange.month.1, hrange.month.2, hday.1,
      (CalendarDate.le_daysInMonth_nextYear hday.2).mpr h⟩
  have hlater : t.civil.date.dayNumber + 365 ≤ date.dayNumber :=
    CalendarDate.dayNumber_nextYear t.civil.date
  have hbefore : date.dayNumber < CalendarDate.newYear (t.year + 1 + 1) :=
    (CalendarDate.newYear_le_dayNumber (d := date) hrange.month hrange.day).2
  have hnew := CalendarDate.newYear_add_le
    (show t.year + 1 + 1 ≤ CalendarDate.lastYear + 1 by omega)
  have hend : CalendarDate.newYear (CalendarDate.lastYear + 1) = 95026237 := by decide
  have hnumber : t.civil.date.dayNumber = t.seconds / secondsPerDay :=
    CalendarDate.dayNumber_ofDayNumber _
  have hstart := t.first_le
  have hzero : 0 < 2 * nanosPerSecond := by decide
  have hplace :
      firstSecond ≤ t.seconds + (date.dayNumber - t.civil.date.dayNumber) * secondsPerDay ∧
        t.seconds + (date.dayNumber - t.civil.date.dayNumber) * secondsPerDay ≤ lastSecond := by
    rw [firstSecond] at *
    rw [lastSecond]
    rw [secondsPerDay] at *
    omega
  obtain ⟨next, hnext, hseconds, -⟩ := exists_of? hplace.1 hplace.2 hzero
  refine ⟨next, ?_, ?_⟩
  · rw [inYear?_yearless hnanos, hdate, Option.bind_some, hnext]
  · rw [hseconds]
    rw [secondsPerDay]
    omega

end Years

end Instant

namespace Stamp

open Instant

/-! ## The year that is taken -/

theorem seconds_of_later? {t next : Instant} {span : Nat} (h : t.later? span = some next) :
    next.seconds = t.seconds + span := by
  have hof : ∀ {seconds nanos}, Instant.of? seconds nanos = some next → next.seconds = seconds := by
    intro seconds nanos hof
    rw [Instant.of?] at hof
    split at hof
    · rw [← Option.some.inj hof]
    · cases hof
  rw [Instant.later?] at h
  split at h
  · rename_i hspan
    rw [← Option.some.inj h, hspan]
    omega
  · split at h <;> exact hof h

theorem inferYear_yearless {t reference : Instant} (hnext : reference.HasNextDay)
    (hnanos : t.nanos = 0) (hle : t ≤ reference)
    (hafter : reference.seconds < t.seconds + 364 * secondsPerDay) :
    inferYear t.yearless reference =
      .ok (if t.OnLeapDay ∧ t.year ≠ reference.year then none else some t) := by
  obtain ⟨limit, hlimit⟩ := hnext.later?
  have hlimitSeconds : limit.seconds = reference.seconds + secondsPerDay := seconds_of_later? hlimit
  have hseconds : t.seconds ≤ reference.seconds := hle.elim Int.le_of_lt fun h => h.1.le
  have hupper := year_le hseconds
  have hlower := le_year_add hafter
  by_cases hyear : t.year = reference.year
  · have hnot : ¬limit < t := by
      rintro (hlt | hlt) <;> rw [secondsPerDay] at hlimitSeconds <;> omega
    rw [inferYear, ← hyear, inYear?_year hnanos]
    simp only [hlimit, if_neg hnot]
    rw [if_neg fun h => h.2 rfl]
  · have hnextYear : reference.year = t.year + 1 := by omega
    have hlast : t.year + 1 ≤ CalendarDate.lastYear := hnextYear ▸ reference.year_mem.2
    by_cases hleap : t.OnLeapDay
    · rw [inferYear, hnextYear, inYear?_of_onLeapDay hnanos hleap, if_pos ⟨hleap, by omega⟩]
    · obtain ⟨candidate, hcandidate, hlate⟩ := exists_inYear? hnanos hleap hlast
      have hlt : limit < candidate := by
        refine Or.inl ?_
        rw [secondsPerDay] at *
        omega
      have hback : t.year + 1 - 1 = t.year := by omega
      rw [inferYear, hnextYear, hcandidate]
      simp only [hlimit, if_pos hlt]
      rw [hback, inYear?_year hnanos, if_neg fun h => hleap h.1]

/-! ## Reading the text -/

theorem cut?_of_head? {p : Pattern} {found rest : List Char}
    (h : (p (found ++ rest)).head? = some rest) : cut? p (found ++ rest) = some (found, rest) := by
  rw [cut?, first?, h, Option.map_some, covered_append]

section Cuts

variable (rest : List Char)

theorem cut?_monthName {a b c : Char} (ha : a.isUpper = true) (hb : b.isLower = true)
    (hc : c.isLower = true) :
    cut? (Pattern.seq (.one Char.isUpper) (.times 2 Char.isLower)) ([a, b, c] ++ rest) =
      some ([a, b, c], rest) := by
  refine cut?_of_head? ?_
  have htwo : times 2 Char.isLower ([b, c] ++ rest) = [rest] :=
    times_append rfl (by simp [hb, hc]) rest
  rw [List.cons_append, seq_of_single (one_of_pos ha _), htwo]
  rfl

theorem cut?_blanks {lead : List Char} (hlead : ∀ c ∈ lead, isBlank c = true)
    (hrest : ∀ c ∈ rest.head?, isBlank c = false) :
    cut? (.oneOrMore isBlank) (' ' :: lead ++ rest) = some (' ' :: lead, rest) := by
  refine cut?_of_head? ?_
  rw [List.cons_append, oneOrMore, seq_of_single (one_of_pos (by decide) _)]
  exact (prefers_many hlead hrest).head?

theorem cut?_blank (hrest : ∀ c ∈ rest.head?, isBlank c = false) :
    cut? (.oneOrMore isBlank) (' ' :: rest) = some ([' '], rest) :=
  cut?_blanks rest (List.forall_mem_nil _) hrest

theorem cut?_day {width day : Nat} (h : width = 1 ∧ day < 10 ∨ width = 2 ∧ day < 100) :
    cut? (.oneOrTwo isAnyDigit) ((padded width day).toList ++ ' ' :: rest) =
      some ((padded width day).toList, ' ' :: rest) := by
  refine cut?_of_head? ?_
  have hdigits : ∀ c ∈ (padded width day).toList, isAnyDigit c = true :=
    fun c hc => isAnyDigit_of_isDigit (isDigit_of_mem_padded c hc)
  rcases h with ⟨rfl, hday⟩ | ⟨rfl, hday⟩
  · obtain ⟨a, ha⟩ := List.length_eq_one_iff.mp (length_padded (by decide) hday)
    rw [ha] at hdigits ⊢
    rw [List.singleton_append, oneOrTwo, seq_of_single (one_of_pos (hdigits a (by simp)) _),
      maybe_of_none (one_of_neg (by decide) _)]
    rfl
  · obtain ⟨a, b, hab⟩ := List.length_eq_two.mp (length_padded (by decide) hday)
    rw [hab] at hdigits ⊢
    rw [List.cons_append, List.cons_append,
      oneOrTwo_of_pos (hdigits a (by simp)) (hdigits b (by simp))]
    rfl

theorem cut?_two {n : Nat} (hn : n < 100) :
    cut? (.times 2 isAnyDigit) ((padded 2 n).toList ++ rest) =
      some ((padded 2 n).toList, rest) := by
  refine cut?_of_head? ?_
  rw [times_padded (by decide) hn]
  rfl

end Cuts

theorem asciiNumber?_padded (width n : Nat) : asciiNumber? (padded width n).toList = some n := by
  have hall : (padded width n).toList.all isDigit = true :=
    List.all_eq_true.mpr isDigit_of_mem_padded
  rw [asciiNumber?, if_pos hall, digitsValue_padded]

theorem exists_dayText (zero : Bool) {day : Nat} (h : day < 100) :
    ∃ lead width, (∀ c ∈ lead, isBlank c = true) ∧
      (width = 1 ∧ day < 10 ∨ width = 2 ∧ day < 100) ∧
      (dayText zero day).toList = lead ++ (padded width day).toList := by
  rw [dayText]
  split
  · refine ⟨[], 2, List.forall_mem_nil _, Or.inr ⟨rfl, h⟩, ?_⟩
    rw [List.nil_append]
  · rename_i hfill
    have hspace : " ".toList = [' '] := rfl
    refine ⟨[' '], 1, List.forall_mem_singleton.mpr (by decide), Or.inl ⟨rfl, by omega⟩, ?_⟩
    rw [padded_one, String.toList_append, hspace]

theorem toList_toYearlessText {t : Instant} {zero : Bool} {name lead day : List Char}
    (hname : monthName t.civil.date.month = name)
    (hday : (dayText zero t.civil.date.day).toList = lead ++ day) :
    (t.toYearlessText zero).toList = name ++ (' ' :: lead ++ (day ++ ' ' ::
      ((padded 2 t.civil.hour).toList ++ ':' :: ((padded 2 t.civil.minute).toList ++ ':' ::
      ((padded 2 t.civil.second).toList ++ []))))) := by
  simp [toYearlessText, hname, hday]

/-- The text is cut into the parts that were written. -/
theorem yearless?_toYearlessText (t : Instant) (zero : Bool) :
    yearless? (t.toYearlessText zero).toList = some t.yearless := by
  have hrange := inRange_civil t
  obtain ⟨-, hday, hhour, hminute, hsecond, -⟩ := hrange.small
  obtain ⟨a, b, c, hname, ha, hb, hc, hfind, -⟩ := exists_monthName hrange.month
  obtain ⟨lead, width, hlead, hwidth, hdayText⟩ := exists_dayText zero hday
  have hblank : ∀ (width n : Nat) (rest : List Char),
      ∀ c ∈ ((padded width n).toList ++ rest).head?, isBlank c = false := by
    intro width n rest c hc
    rw [List.head?_append_of_ne_nil _ (padded_ne_nil _ _)] at hc
    exact isBlank_of_isDigit (isDigit_of_mem_padded c (List.mem_of_mem_head? hc))
  have htext := toList_toYearlessText hname hdayText
  have hmonth : t.civil.date.month - 1 + 1 = t.civil.date.month :=
    Nat.sub_add_cancel hrange.month.1
  have hcolon : ∀ rest : List Char, afterPrefix? [':'] (':' :: rest) = some rest := fun _ => rfl
  have htake : ∀ rest : List Char, ([a, b, c] ++ rest).take 3 = [a, b, c] := fun _ => rfl
  rw [htext, yearless?]
  dsimp only
  rw [cut?_monthName _ ha hb hc, Option.bind_eq_bind, Option.bind_some,
    cut?_blanks _ hlead (hblank _ _ _), Option.bind_eq_bind, Option.bind_some,
    cut?_day _ hwidth, Option.bind_eq_bind, Option.bind_some,
    cut?_blank _ (hblank _ _ _), Option.bind_some,
    cut?_two _ hhour, Option.bind_some, hcolon, Option.bind_some,
    cut?_two _ hminute, Option.bind_some, hcolon, Option.bind_some,
    cut?_two _ hsecond, Option.bind_some]
  dsimp only
  rw [Option.bind_some, htake, hfind, Option.bind_some, asciiNumber?_padded, Option.bind_some,
    asciiNumber?_padded, Option.bind_some, asciiNumber?_padded, Option.bind_some,
    asciiNumber?_padded, Option.bind_some, hmonth]
  rfl

/-- A capital is none of the characters that other stamps begin with or stand in. -/
theorem of_isUpper {c : Char} (h : c.isUpper = true) :
    (isBlank c = false ∧ c ≠ '[') ∧ isDigit c = false ∧ c ∉ ['-', '+', '.'] := by
  have hletter := Header.letter_of_isAlpha (by simp [Char.isAlpha, h] : c.isAlpha = true)
  have hdigit := hletter.digit
  rw [isAnyDigit, Bool.or_eq_false_iff] at hdigit
  refine ⟨⟨hletter.blank, fun hc => hletter.mark (by simp [hc])⟩, hdigit.1, fun hc => ?_⟩
  simp only [List.mem_cons, List.not_mem_nil, or_false] at hc
  rcases hc with rfl | rfl | rfl <;> cases h

theorem comma_notMem_toYearlessText (t : Instant) (zero : Bool) :
    ',' ∉ (t.toYearlessText zero).toList := by
  have hrange := inRange_civil t
  have hname := comma_notMem_monthName hrange.month
  obtain ⟨lead, width, hlead, -, hday⟩ := exists_dayText zero hrange.small.2.1
  have hblank : ',' ∉ lead := fun hmem => absurd (hlead _ hmem) (by decide)
  rw [toList_toYearlessText rfl hday]
  simp [hname, hblank, comma_notMem_padded]

/-- The text is read as a time without a year. -/
theorem parse_toYearlessText (t reference : Instant) (zero : Bool) :
    parse (t.toYearlessText zero) reference = inferYear t.yearless reference := by
  have hrange := inRange_civil t
  obtain ⟨a, b, c, hname, ha, -⟩ := exists_monthName hrange.month
  obtain ⟨lead, width, -, -, hday⟩ := exists_dayText zero hrange.small.2.1
  obtain ⟨hedge, hdigit, hsign⟩ := of_isUpper ha
  have hcomma := comma_notMem_toYearlessText t zero
  have hread := yearless?_toYearlessText t zero
  have hlast : EndsInDigit (t.toYearlessText zero).toList := by
    have hsecond := EndsInDigit.of_digits (padded_ne_nil 2 t.civil.second) isDigit_of_mem_padded
    rw [toList_toYearlessText hname hday, List.append_nil]
    exact (((((hsecond.cons _).append _).cons _).append _).cons _ |>.append _ |>.append _).append _
  obtain ⟨rest, hrest⟩ : ∃ rest, (t.toYearlessText zero).toList = a :: rest :=
    ⟨_, toList_toYearlessText hname hday⟩
  have hsolid : Solid (t.toYearlessText zero).toList := by
    refine solid_of_ends (fun d hd => ?_) (Or.inl hlast)
    rw [hrest] at hd
    exact Option.some.inj hd ▸ hedge
  have hinner := inner_of_around hsolid (.refl _)
  rw [hrest] at hinner hcomma hlast hread
  exact parse_of_yearless hinner hedge.1 hdigit hsign hcomma hlast hread reference

/-- A time without its year is read as the instant in the 364 days before the reference, but for
the leap day of another year than that of the reference. -/
theorem parse_pastYear {t reference : Instant} (hnext : reference.HasNextDay)
    (hnanos : t.nanos = 0) (hle : t ≤ reference)
    (hafter : reference.seconds < t.seconds + 364 * secondsPerDay) (zero : Bool) :
    parse (t.toYearlessText zero) reference =
      .ok (if t.OnLeapDay ∧ t.year ≠ reference.year then none else some t) := by
  rw [parse_toYearlessText, inferYear_yearless hnext hnanos hle hafter]

/-- A time in March is read on the first of the next March. -/
theorem parse_pastYear_march :
    let t : Instant := ⟨1677801601, 0, by decide, by decide, by decide⟩
    let reference : Instant := ⟨1709251200, 0, by decide, by decide, by decide⟩
    reference.HasNextDay ∧ t.nanos = 0 ∧ t ≤ reference ∧
      reference.seconds < t.seconds + 364 * secondsPerDay ∧
      t.toYearlessText false = "Mar  3 00:00:01" ∧
      parse "Mar  3 00:00:01" reference = .ok (some t) := by
  intro t reference
  have hnext : reference.HasNextDay := by decide
  have hle : t ≤ reference := by decide
  have hafter : reference.seconds < t.seconds + 364 * secondsPerDay := by decide
  have htext : t.toYearlessText false = "Mar  3 00:00:01" := by decide +kernel
  have hnot : ¬(t.OnLeapDay ∧ t.year ≠ reference.year) := by decide +kernel
  refine ⟨hnext, rfl, hle, hafter, htext, ?_⟩
  rw [← htext, parse_pastYear hnext rfl hle hafter, if_neg hnot]

/-- A time on a leap day is lost ten months later, in another year. -/
theorem parse_leapDay_lost :
    let t : Instant := ⟨1709208000, 0, by decide, by decide, by decide⟩
    let reference : Instant := ⟨1736510400, 0, by decide, by decide, by decide⟩
    reference.HasNextDay ∧ t.nanos = 0 ∧ t ≤ reference ∧
      reference.seconds < t.seconds + 364 * secondsPerDay ∧
      t.toYearlessText false = "Feb 29 12:00:00" ∧
      parse "Feb 29 12:00:00" reference = .ok none := by
  decide +kernel

end Stamp
end LogLens
