/-
The parts of a date, of a time and of an offset.

A part is a number of a fixed width (`Part.text`), and a date or a time is three of them with a
separator between each two (`partsText`).  Items for the same parts take such a text off the front
of any other (`readItems?_parts`).  Items for another form of date fail on it: they meet another
separator (`readItems?_separator`), or a digit where they want one (`readItems?_short`).  Behind the
time stand a fraction of a second (`FractionText`) and an offset from universal time (`Offset`).
-/
import LogLens.Proofs.Time.Calendar
import LogLens.Proofs.Time.Recognition

namespace LogLens
namespace Layout

open Instant (padded)

/-! ## Dates and times in range -/

/-- The parts of a date and a time are numbers that a layout reads. -/
structure InRange (c : Instant.Civil) : Prop where
  month : 1 ≤ c.date.month ∧ c.date.month ≤ 12
  day : 1 ≤ c.date.day ∧ c.date.day ≤ 31
  hour : c.hour ≤ 23
  minute : c.minute ≤ 59
  second : c.second ≤ 60
  nanos : c.nanos < nanosPerSecond

theorem inRange_civil (t : Instant) : InRange t.civil := by
  have hday := CalendarDate.day_mem (t.seconds / secondsPerDay)
  have hlength : ∀ year month, daysInMonth year month ≤ 31 := by
    intro year month
    unfold daysInMonth
    split <;> (try split) <;> decide
  have htime : (t.seconds % secondsPerDay).toNat < 86400 := by
    rw [secondsPerDay]
    omega
  have hnanos := t.nanos_lt
  rw [nanosPerSecond] at hnanos
  refine ⟨CalendarDate.month_mem _, ⟨hday.1, hday.2.trans (hlength _ _)⟩, ?_, ?_, ?_, ?_⟩ <;>
    simp only [Instant.civil]
  · omega
  · omega
  · split <;> omega
  · split <;> rw [nanosPerSecond] at * <;> omega

/-- The parts have two digits, and the thousandths of a second three. -/
theorem InRange.small {c : Instant.Civil} (hc : InRange c) :
    c.date.month < 100 ∧ c.date.day < 100 ∧ c.hour < 100 ∧ c.minute < 100 ∧ c.second < 100 ∧
      c.nanos / 1000000 < 1000 := by
  obtain ⟨⟨-, hmonth⟩, ⟨-, hday⟩, hhour, hminute, hsecond, hnanos⟩ := hc
  rw [nanosPerSecond] at hnanos
  omega

/-- Four digits are enough for the year. -/
structure Plain (c : Instant.Civil) : Prop extends InRange c where
  year : 0 ≤ c.date.year ∧ c.date.year ≤ 9999

/-! ## Single parts -/

/-- The number that stands for a part, a year without its sign. -/
def Part.value (c : Instant.Civil) : Part → Nat
  | .year => c.date.year.natAbs
  | .month => c.date.month
  | .day => c.date.day
  | .hour => c.hour
  | .minute => c.minute
  | .second => c.second

/-- A part as it is written. -/
def Part.text (c : Instant.Civil) (part : Part) : List Char :=
  (padded part.width (part.value c)).toList

/-- The reading with a part of a date and a time in its place. -/
def Reading.put (c : Instant.Civil) (r : Reading) : Part → Reading
  | .year => { r with year := c.date.year }
  | .month => { r with month := c.date.month }
  | .day => { r with day := c.date.day }
  | .hour => { r with hour := c.hour }
  | .minute => { r with minute := c.minute }
  | .second => { r with second := c.second }

section Parts

variable {c : Instant.Civil}

theorem Part.isDigit_of_mem_text {part : Part} : ∀ d ∈ part.text c, isDigit d = true :=
  isDigit_of_mem_padded

theorem Part.text_ne_nil (part : Part) : part.text c ≠ [] := padded_ne_nil _ _

theorem Part.width_pos (part : Part) : 0 < part.width := by cases part <;> decide

/-- The part can be written with as many digits as it has room for. -/
structure Fits (c : Instant.Civil) (part : Part) : Prop extends InRange c where
  year : part = .year → 0 ≤ c.date.year ∧ c.date.year ≤ 9999

theorem Plain.fits (hc : Plain c) (part : Part) : Fits c part := ⟨hc.toInRange, fun _ => hc.year⟩

theorem InRange.fits (hc : InRange c) {part : Part} (hpart : part ≠ .year) : Fits c part :=
  ⟨hc, fun h => absurd h hpart⟩

section Fitting

variable {part : Part} (hc : Fits c part)

include hc

theorem Fits.value_lt : part.value c < 10 ^ part.width := by
  obtain ⟨hmonth, hday, hhour, hminute, hsecond, -⟩ := hc.small
  cases part <;> simp only [Part.value, Part.width]
  case year =>
    have hyear := hc.year rfl
    omega
  all_goals omega

theorem Fits.length_text : (part.text c).length = part.width :=
  length_padded part.width_pos hc.value_lt

theorem Fits.set?_value (r : Reading) : r.set? part (part.value c) = some (r.put c part) := by
  cases part with
  | year =>
    have hyear : (c.date.year.natAbs : Int) = c.date.year := Int.natAbs_of_nonneg (hc.year rfl).1
    simp only [Reading.set?, Part.value, Reading.put, hyear]
  | month => exact if_pos hc.month
  | day => exact if_pos hc.day
  | hour => exact if_pos hc.hour
  | minute => exact if_pos hc.minute
  | second => exact if_pos hc.second

theorem read?_part {number : Part → Item} (hnumber : number = .strict ∨ number = .number)
    (r : Reading) (rest : List Char) :
    (number part).read? r (part.text c ++ rest) = some (r.put c part, rest) := by
  have hset := hc.set?_value r
  have hvalue := hc.value_lt
  rcases hnumber with rfl | rfl
  · refine (strict?_padded hvalue).trans ?_
    rw [hset, Option.map_some]
  · refine (number?_padded hvalue).trans ?_
    rw [hset, Option.map_some]

end Fitting

theorem Plain.length_text (hc : Plain c) (part : Part) : (part.text c).length = part.width :=
  (hc.fits part).length_text

end Parts

/-! ## Three parts -/

def partsText (c : Instant.Civil) (separator : Char) (x y z : Part) : List Char :=
  x.text c ++ separator :: (y.text c ++ separator :: z.text c)

section Three

variable {c : Instant.Civil} {separator : Char}

theorem readItems?_parts (hc : Plain c) {number : Part → Item}
    (hnumber : number = .strict ∨ number = .number) (x y z : Part) (r : Reading)
    (more : List Item) (rest : List Char) :
    readItems? (separated separator (number x) (number y) (number z) ++ more) r
        (partsText c separator x y z ++ rest) =
      readItems? more (((r.put c x).put c y).put c z) rest := by
  have hread := fun part => read?_part (hc.fits part) hnumber
  simp only [separated, partsText, List.cons_append, List.nil_append, List.append_assoc]
  rw [readItems?_cons (hread x _ _), readItems?_cons (read?_oneOf List.mem_cons_self),
    readItems?_cons (hread y _ _), readItems?_cons (read?_oneOf List.mem_cons_self),
    readItems?_cons (hread z _ _)]

/-- Another separator stands behind the first part. -/
theorem readItems?_separator {x y z : Item} {other : Char} (h : other ≠ separator) {r r' : Reading}
    {cs rest : List Char} (hread : x.read? r cs = some (r', other :: rest)) (more : List Item) :
    readItems? (separated separator x y z ++ more) r cs = none := by
  have hnot : other ∉ [separator] := by simpa using h
  rw [separated, List.cons_append, readItems?_cons hread, List.cons_append,
    readItems?_of_none (read?_oneOf_of_notMem hnot rest)]

/-- What follows two digits decides, whatever number they are taken for. -/
theorem readItems?_twoDigits {part : Part} (hpart : part.width = 2) {ds : List Char}
    (hlength : ds.length = 2) (hds : ∀ d ∈ ds, isDigit d = true) {items : List Item}
    {rest : List Char} (h : ∀ r, readItems? items r rest = none) (r : Reading) :
    readItems? (.number part :: items) r (ds ++ rest) = none := by
  have hne : ds ≠ [] := by
    rintro rfl
    cases hlength
  have hread : (Item.number part).read? r (ds ++ rest) =
      (r.set? part (digitsValue ds)).map fun r => (r, rest) :=
    number?_digits hne hds (by omega) (Or.inl (by omega))
  cases hset : r.set? part (digitsValue ds) with
  | none =>
    rw [hset, Option.map_none] at hread
    exact readItems?_of_none hread items
  | some r' =>
    rw [hset, Option.map_some] at hread
    rw [readItems?_cons hread, h r']

/-- The first two of more digits are not in front of a separator. -/
theorem readItems?_short {part : Part} (hpart : part.width = 2)
    (hseparator : isDigit separator = false) {ds : List Char} (hlength : 2 < ds.length)
    (hds : ∀ d ∈ ds, isDigit d = true) (y z : Item) (r : Reading) (more : List Item)
    (rest : List Char) :
    readItems? (separated separator (.number part) y z ++ more) r (ds ++ rest) = none := by
  have htake : (ds.take 2).length = 2 := by
    rw [List.length_take]
    omega
  obtain ⟨d, ds', hdrop⟩ := List.exists_cons_of_length_pos
    (by rw [List.length_drop]; omega : 0 < (ds.drop 2).length)
  have hd : d ∈ ds := List.mem_of_mem_drop (hdrop ▸ List.mem_cons_self)
  have hnot : d ∉ [separator] := by simpa using ne_of_isDigit (hds d hd) hseparator
  rw [← List.take_append_drop 2 ds, hdrop, List.append_assoc]
  refine readItems?_twoDigits hpart htake (fun x hx => hds x (List.mem_of_mem_take hx))
    (fun r' => ?_) r
  exact readItems?_of_none (read?_oneOf_of_notMem hnot (ds' ++ rest)) _

end Three

/-! ## Forms of dates -/

/-- The three ways to write a date in digits. -/
inductive DateForm where
  | dashed
  | yearFirst
  | monthFirst
  deriving DecidableEq

def DateForm.items : DateForm → List Item
  | .dashed => yearMonthDay '-'
  | .yearFirst => yearMonthDay '/'
  | .monthFirst => separated '/' (.number .month) (.number .day) (.number .year)

def DateForm.text (c : Instant.Civil) : DateForm → List Char
  | .dashed => partsText c '-' .year .month .day
  | .yearFirst => partsText c '/' .year .month .day
  | .monthFirst => partsText c '/' .month .day .year

/-- `HH:MM:SS`. -/
def timeText (c : Instant.Civil) : List Char := partsText c ':' .hour .minute .second

def Reading.dated (c : Instant.Civil) (r : Reading) : Reading :=
  ((r.put c .year).put c .month).put c .day

def Reading.timed (c : Instant.Civil) (r : Reading) : Reading :=
  ((r.put c .hour).put c .minute).put c .second

section Forms

variable {c : Instant.Civil} (hc : Plain c)

include hc

theorem readItems?_form (form : DateForm) (r : Reading) (more : List Item) (rest : List Char) :
    readItems? (form.items ++ more) r (form.text c ++ rest) = readItems? more (r.dated c) rest := by
  cases form <;> exact readItems?_parts hc (Or.inr rfl) _ _ _ r more rest

theorem readItems?_strictDate (r : Reading) (more : List Item) (rest : List Char) :
    readItems? (separated '-' (.strict .year) (.strict .month) (.strict .day) ++ more) r
        (DateForm.dashed.text c ++ rest) = readItems? more (r.dated c) rest :=
  readItems?_parts hc (Or.inl rfl) _ _ _ r more rest

theorem readItems?_strictTime (r : Reading) (more : List Item) (rest : List Char) :
    readItems? (separated ':' (.strict .hour) (.strict .minute) (.strict .second) ++ more) r
        (timeText c ++ rest) = readItems? more (r.timed c) rest :=
  readItems?_parts hc (Or.inl rfl) _ _ _ r more rest

theorem readItems?_timeText (r : Reading) (more : List Item) (rest : List Char) :
    readItems? (clock ++ more) r (timeText c ++ rest) = readItems? more (r.timed c) rest :=
  readItems?_parts hc (Or.inr rfl) _ _ _ r more rest

/-- The first part of a date is read as a year, whatever it is. -/
theorem number?_year (part : Part) {other : Char} (hother : isDigit other = false) (r : Reading)
    (rest : List Char) : ∃ r', (Item.number .year).read? r (part.text c ++ other :: rest) =
      some (r', other :: rest) := by
  have hwidth : (part.text c).length ≤ Part.year.width := by
    rw [hc.length_text]
    cases part <;> decide
  have hread : number? .year r (part.text c ++ other :: rest) =
      (r.set? .year (digitsValue (part.text c))).map fun r => (r, other :: rest) := by
    refine number?_digits part.text_ne_nil Part.isDigit_of_mem_text hwidth (Or.inr fun d hd => ?_)
    exact Option.some.inj hd ▸ hother
  exact ⟨_, hread⟩

/-- Items of one form fail on a date of another form, with one exception. -/
theorem readItems?_otherForm {form other : DateForm} (hne : form ≠ other)
    (hfirst : form = .yearFirst → other ≠ .monthFirst) (r : Reading) (more : List Item)
    (rest : List Char) : readItems? (form.items ++ more) r (other.text c ++ rest) = none := by
  have hyear : ∀ (part : Part) {separator mark : Char}, mark ≠ separator → isDigit mark = false →
      ∀ rest, readItems? (yearMonthDay separator ++ more) r (part.text c ++ mark :: rest) =
        none := by
    intro part separator mark hmark hdigit rest
    obtain ⟨r', hread⟩ := number?_year hc part hdigit r rest
    exact readItems?_separator hmark hread more
  have hshort : ∀ rest, readItems? (DateForm.monthFirst.items ++ more) r
      (Part.year.text c ++ rest) = none :=
    readItems?_short rfl (by decide) (hc.length_text .year ▸ by decide) Part.isDigit_of_mem_text
      _ _ r more
  cases form <;> cases other <;>
    simp only [DateForm.text, partsText, List.append_assoc, List.cons_append]
  case dashed.dashed | yearFirst.yearFirst | monthFirst.monthFirst => exact absurd rfl hne
  case dashed.yearFirst => exact hyear .year (by decide) (by decide) _
  case dashed.monthFirst => exact hyear .month (by decide) (by decide) _
  case yearFirst.dashed => exact hyear .year (by decide) (by decide) _
  case yearFirst.monthFirst => exact absurd rfl (hfirst rfl)
  case monthFirst.dashed | monthFirst.yearFirst => exact hshort _

end Forms

/-! ## Between date and time -/

/-- What layouts have for the character between date and time. -/
def gapItems (gap : Char) : List Item := if gap = 'T' then literal "T" else [.blank]

section Gap

variable {gap : Char} (hgap : gap ∈ ['T', ' ']) (r : Reading) (more : List Item)

theorem gapItems_T : gapItems 'T' = [.oneOf ['T']] := rfl

theorem gapItems_space : gapItems ' ' = [.blank] := rfl

theorem readItems?_blank (items : List Item) (cs : List Char) :
    readItems? (.blank :: items) r cs = readItems? items r (trimStart cs) :=
  readItems?_cons rfl

theorem readItems?_gap_nil : readItems? (gapItems gap ++ clock ++ more) r [] = none := by
  rw [gapItems]
  split <;> rfl

include hgap

theorem readItems?_gap {c : Instant.Civil} (hc : Plain c) (rest : List Char) :
    readItems? (gapItems gap ++ clock ++ more) r (gap :: (timeText c ++ rest)) =
      readItems? more (r.timed c) rest := by
  have hclock := readItems?_timeText hc r more rest
  have htrim : trimStart (' ' :: (timeText c ++ rest)) = timeText c ++ rest := by
    have hblank : ∀ d ∈ (Part.hour.text c).head?, isBlank d = false := fun d hd =>
      isBlank_of_isDigit (Part.isDigit_of_mem_text d (List.mem_of_mem_head? hd))
    rw [trimStart, List.dropWhile_cons_of_pos (by decide), timeText, partsText, List.append_assoc]
    exact dropWhile_append_of_neg Part.hour.text_ne_nil hblank _
  simp only [List.mem_cons, List.not_mem_nil, or_false] at hgap
  rw [List.append_assoc]
  rcases hgap with rfl | rfl
  · rw [gapItems_T, List.singleton_append, readItems?_cons (read?_oneOf List.mem_cons_self), hclock]
  · rw [gapItems_space, List.singleton_append, readItems?_blank, htrim, hclock]

theorem readItems?_otherGap {other : Char} (hother : other ∈ ['T', ' ']) (hne : gap ≠ other)
    (rest : List Char) : readItems? (gapItems gap ++ clock ++ more) r (other :: rest) = none := by
  simp only [List.mem_cons, List.not_mem_nil, or_false] at hgap hother
  rw [List.append_assoc]
  rcases hgap with rfl | rfl <;> rcases hother with rfl | rfl
  · exact absurd rfl hne
  · rw [gapItems_T]
    exact readItems?_of_none (read?_oneOf_of_notMem (by decide) rest) _
  · have htrim : trimStart ('T' :: rest) = 'T' :: rest := List.dropWhile_cons_of_neg (by decide)
    have hhour : (Item.number .hour).read? r ('T' :: rest) = none :=
      number?_of_neg (by decide) (by decide) (by decide) .hour rest
    rw [gapItems_space, List.singleton_append, readItems?_blank, htrim]
    exact readItems?_of_none hhour _
  · exact absurd rfl hne

/-- Behind two digits that would be an hour the gap stands where a colon should. -/
theorem readItems?_gap_digits {g : Char} {ds : List Char} (hlength : ds.length = 2)
    (hds : ∀ d ∈ ds, isDigit d = true) (rest : List Char) :
    readItems? (gapItems g ++ clock ++ more) r (ds ++ gap :: rest) = none := by
  obtain ⟨a, b, rfl⟩ := List.length_eq_two.mp hlength
  have ha : isDigit a = true := hds a List.mem_cons_self
  have htrim : trimStart ([a, b] ++ gap :: rest) = [a, b] ++ gap :: rest :=
    List.dropWhile_cons_of_neg (by simp [isBlank_of_isDigit ha])
  have hcolon : gap ∉ [':'] := by
    intro hmem
    rw [List.mem_singleton.mp hmem] at hgap
    exact absurd hgap (by decide)
  rw [gapItems, List.append_assoc]
  split
  · have hnot : a ∉ ['T'] := by simpa using ne_of_isDigit ha (by decide : isDigit 'T' = false)
    exact readItems?_of_none (read?_oneOf_of_notMem hnot _) _
  · rw [List.singleton_append, readItems?_blank, htrim]
    refine readItems?_twoDigits rfl rfl hds (fun r' => ?_) r
    exact readItems?_of_none (read?_oneOf_of_notMem hcolon rest) _

end Gap

/-- A date with the month first begins as one with the year first does, but then its year is taken
for a day and an hour. -/
theorem readItems?_yearFirst {c : Instant.Civil} (hc : Plain c) {gap : Char}
    (hgap : gap ∈ ['T', ' ']) (g : Char) (r : Reading) (more : List Item) (rest : List Char) :
    readItems? (DateForm.yearFirst.items ++ (gapItems g ++ clock ++ more)) r
      (DateForm.monthFirst.text c ++ gap :: rest) = none := by
  have hlength := hc.length_text .year
  have hyear : Part.year.text c = (Part.year.text c).take 2 ++ (Part.year.text c).drop 2 :=
    (List.take_append_drop 2 _).symm
  have hfront : ((Part.year.text c).take 2).length = 2 := by rw [List.length_take, hlength]; rfl
  have hback : ((Part.year.text c).drop 2).length = 2 := by rw [List.length_drop, hlength]; rfl
  obtain ⟨r', hread⟩ := number?_year hc .month (by decide : isDigit '/' = false) r
    (Part.day.text c ++ '/' :: (Part.year.text c ++ gap :: rest))
  simp only [DateForm.items, DateForm.text, yearMonthDay, separated, partsText, List.cons_append,
    List.nil_append, List.append_assoc]
  rw [readItems?_cons hread, readItems?_cons (read?_oneOf List.mem_cons_self)]
  refine readItems?_twoDigits rfl (hc.length_text .day) Part.isDigit_of_mem_text (fun r => ?_) r'
  rw [readItems?_cons (read?_oneOf List.mem_cons_self), hyear, List.append_assoc]
  refine readItems?_twoDigits rfl hfront
    (fun d hd => Part.isDigit_of_mem_text d (List.mem_of_mem_take hd)) (fun r => ?_) r
  have hnone := readItems?_gap_digits hgap r more (g := g) hback
    (fun d hd => Part.isDigit_of_mem_text d (List.mem_of_mem_drop hd)) rest
  rwa [List.append_assoc] at hnone

/-! ## Dates of web servers -/

def webDate : List Item := separated '/' (.number .day) .monthName (.number .year)

/-- `DD/Mon/YYYY`. -/
def webDateText (c : Instant.Civil) : List Char :=
  Part.day.text c ++ '/' :: (monthName c.date.month ++ '/' :: Part.year.text c)

theorem toLower_of_isDigit {d : Char} (hd : isDigit d = true) : d.toLower = d := by
  have hsmall : ∀ n < 58, 48 ≤ n → (Char.ofNat n).toLower = Char.ofNat n := by decide
  rw [isDigit, Bool.and_eq_true, decide_eq_true_eq, decide_eq_true_eq] at hd
  have hlow : 48 ≤ d.toNat := hd.1
  have hhigh : d.toNat ≤ 57 := hd.2
  have hlower := hsmall d.toNat (by omega) hlow
  rwa [Char.ofNat_toNat] at hlower

/-- The name of a month does not begin with a digit. -/
theorem read?_monthName_of_isDigit {d : Char} (hd : isDigit d = true) (r : Reading)
    (rest : List Char) : Item.monthName.read? r (d :: rest) = none := by
  have hletter : ∀ name ∈ monthNames,
      (name.toList.map Char.toLower).head?.all (fun a => !isDigit a) = true := by decide
  have hnot : ∀ name ∈ monthNames,
      equalsIgnoringCase name.toList ((d :: rest).take 3) = false := by
    intro name hname
    rw [equalsIgnoringCase, beq_eq_false_iff_ne]
    intro heq
    have hhead := hletter name hname
    rw [heq, List.take_succ_cons, List.map_cons, List.head?_cons, toLower_of_isDigit hd,
      Option.all_some, hd] at hhead
    cases hhead
  rw [Item.read?, monthName?, List.findIdx?_eq_none_iff.mpr hnot]
  rfl

section Web

variable {c : Instant.Civil} (hc : Plain c)

include hc

theorem readItems?_webDate (r : Reading) (more : List Item) (rest : List Char) :
    readItems? (webDate ++ more) r (webDateText c ++ rest) = readItems? more (r.dated c) rest := by
  obtain ⟨x, y, z, hname, -, -, -, -, hfind⟩ := exists_monthName hc.month
  have hmonth : ∀ (r : Reading) rest, Item.monthName.read? r ([x, y, z] ++ rest) =
      some ({ r with month := c.date.month - 1 + 1 }, rest) := by
    intro r rest
    have htake : ([x, y, z] ++ rest).take 3 = [x, y, z] := rfl
    rw [Item.read?, monthName?, htake, hfind, Option.map_some]
    rfl
  have hread : ∀ part r rest, (Item.number part).read? r (part.text c ++ rest) =
      some (r.put c part, rest) := fun part => read?_part (hc.fits part) (Or.inr rfl)
  have hback : c.date.month - 1 + 1 = c.date.month := Nat.sub_add_cancel hc.month.1
  rw [hback] at hmonth
  simp only [webDate, separated, webDateText, hname, List.append_assoc, List.cons_append,
    List.nil_append]
  rw [readItems?_cons (hread .day _ _), readItems?_cons (read?_oneOf List.mem_cons_self)]
  refine (readItems?_cons (hmonth _ _)).trans ?_
  rw [readItems?_cons (read?_oneOf List.mem_cons_self), readItems?_cons (hread .year _ _)]
  rfl

theorem readItems?_webDate_form (form : DateForm) (r : Reading) (more : List Item)
    (rest : List Char) : readItems? (webDate ++ more) r (form.text c ++ rest) = none := by
  have hshort : ∀ rest, readItems? (webDate ++ more) r (Part.year.text c ++ rest) = none :=
    readItems?_short rfl (by decide) (hc.length_text .year ▸ by decide) Part.isDigit_of_mem_text _
      _ r more
  cases form <;> simp only [DateForm.text, partsText, List.append_assoc, List.cons_append]
  case dashed | yearFirst => exact hshort _
  case monthFirst =>
    simp only [webDate, separated, List.cons_append, List.nil_append]
    refine readItems?_twoDigits rfl (hc.length_text .month) Part.isDigit_of_mem_text
      (fun r => ?_) r
    obtain ⟨d, ds, hday⟩ := List.exists_cons_of_ne_nil (Part.day.text_ne_nil (c := c))
    have hd : isDigit d = true := Part.isDigit_of_mem_text (c := c) d (hday ▸ List.mem_cons_self)
    rw [readItems?_cons (read?_oneOf List.mem_cons_self), hday]
    exact readItems?_of_none (read?_monthName_of_isDigit hd r _) _

/-- A date of web servers has other separators than one with hyphens. -/
theorem readItems?_dashed_web (r : Reading) (more : List Item) (rest : List Char) :
    readItems? (DateForm.dashed.items ++ more) r (webDateText c ++ rest) = none := by
  obtain ⟨r', hread⟩ := number?_year hc .day (by decide : isDigit '/' = false) r
    (monthName c.date.month ++ '/' :: (Part.year.text c ++ rest))
  simp only [webDateText, List.append_assoc, List.cons_append]
  exact readItems?_separator (by decide) hread more

end Web

/-! ## Fractions -/

/-- A text of a fraction of a second: nothing, or one of the marks and up to nine digits. -/
inductive FractionText (marks : List Char) (nanos : Nat) : List Char → Prop
  | whole (h : nanos = 0) : FractionText marks nanos []
  | digits {mark : Char} {ds : List Char} (hmark : mark ∈ marks) (hne : ds ≠ [])
      (hlength : ds.length ≤ 9) (hds : ∀ d ∈ ds, isDigit d = true)
      (hvalue : digitsValue ds * 10 ^ (9 - ds.length) = nanos) :
      FractionText marks nanos (mark :: ds)

theorem readItems?_fraction {nanos : Nat} {text : List Char} (h : FractionText ['.'] nanos text)
    {r : Reading} (hr : r.nanos = 0) (more : List Item) {rest : List Char}
    (hrest : ∀ d ∈ rest.head?, isDigit d = false ∧ d ≠ '.') :
    readItems? (.fraction :: more) r (text ++ rest) = readItems? more { r with nanos } rest := by
  cases h with
  | whole hzero =>
    have hsame : { r with nanos } = r := by rw [hzero, ← hr]
    rw [hsame, List.nil_append]
    refine readItems?_cons ?_
    rw [Item.read?, fraction?]
    rintro tail rfl
    exact (hrest '.' rfl).2 rfl
  | digits hmark hne hlength hds hvalue =>
    rw [List.mem_singleton.mp hmark, ← hvalue, List.cons_append]
    exact readItems?_cons (read?_fraction_digits hne hds hlength fun d hd => (hrest d hd).1)

/-! ## Offsets -/

/-- An offset of whole minutes, less than a day. -/
structure Offset where
  behind : Bool
  minutes : Nat
  lt_day : minutes < 1440

namespace Offset

def seconds (z : Offset) : Int :=
  if z.behind then -(60 * z.minutes : Nat) else (60 * z.minutes : Nat)

def sign (z : Offset) : Char := if z.behind then '-' else '+'

/-- The sign and the hours and minutes of an offset, with something between the two. -/
def text (z : Offset) (between : List Char) : List Char :=
  z.sign :: ((padded 2 (z.minutes / 60)).toList ++ (between ++ (padded 2 (z.minutes % 60)).toList))

theorem sign_cases (z : Offset) : z.sign = '+' ∨ z.sign = '-' := by
  rw [sign]
  split
  · exact Or.inr rfl
  · exact Or.inl rfl

end Offset

theorem exists_padded_two {n : Nat} (hn : n < 100) : ∃ a b, (padded 2 n).toList = [a, b] ∧
    isDigit a = true ∧ isDigit b = true ∧ digitsValue [a, b] = n := by
  have hlength : (padded 2 n).toList.length = 2 := length_padded (by decide) hn
  obtain ⟨a, b, hab⟩ := List.length_eq_two.mp hlength
  have hdigit : ∀ d ∈ (padded 2 n).toList, isDigit d = true := isDigit_of_mem_padded
  have hvalue := digitsValue_padded 2 n
  rw [hab] at hdigit hvalue
  exact ⟨a, b, hab, hdigit a (by simp), hdigit b (by simp), hvalue⟩

theorem offsetMinutes?_padded {n : Nat} (hn : n < 60) :
    offsetMinutes? (padded 2 n).toList = some (n, []) := by
  obtain ⟨a, b, hab, ha, hb, hvalue⟩ := exists_padded_two (by omega : n < 100)
  have htens : digitValue a ≤ 5 := by
    simp only [digitsValue, List.foldl_cons, List.foldl_nil] at hvalue
    omega
  rw [hab, offsetMinutes?]
  simp [ha, hb, htens, hvalue]

theorem signedOffset?_of_parts {loose : Bool} {sign a b : Char}
    (hsign : sign = '+' ∨ sign = '-' ∨ sign = '\u2212') (ha : isDigit a = true)
    (hb : isDigit b = true) {rest digits : List Char}
    (hloose : rest.dropWhile (fun c => c == ':' || isBlank c) = digits)
    (hstrict : loose = false → afterPrefix? [':'] rest = some digits) {minutes : Nat}
    (hminutes : offsetMinutes? digits = some (minutes, []))
    (hday : (digitsValue [a, b] * 3600 + minutes * 60 : Int) < secondsPerDay) :
    signedOffset? loose (sign :: a :: b :: rest) =
      some (if sign = '+' then (digitsValue [a, b] * 3600 + minutes * 60 : Int)
        else -(digitsValue [a, b] * 3600 + minutes * 60), []) := by
  rw [signedOffset?, if_pos ⟨hsign, ha, hb⟩]
  cases loose with
  | false =>
    simp only [Bool.false_eq_true, if_false, hstrict rfl, Option.bind_eq_bind, Option.bind_some]
    rw [hminutes, Option.bind_some, if_pos hday]
    rfl
  | true =>
    simp only [if_true, hloose, Option.bind_eq_bind, Option.bind_some]
    rw [hminutes, Option.bind_some, if_pos hday]
    rfl

/-- The hours and the minutes of an offset are read with a colon between them, or loosely. -/
theorem signedOffset?_text (z : Offset) {loose : Bool} {between : List Char}
    (h : between = [':'] ∨ loose = true ∧ between = []) :
    signedOffset? loose (z.text between) = some (z.seconds, []) := by
  have hlt := z.lt_day
  obtain ⟨a, b, hab, ha, hb, hhours⟩ := exists_padded_two (by omega : z.minutes / 60 < 100)
  obtain ⟨c, d, hcd, hc, -⟩ := exists_padded_two (by omega : z.minutes % 60 < 100)
  have hminutes : offsetMinutes? [c, d] = some (z.minutes % 60, []) :=
    hcd ▸ offsetMinutes?_padded (Nat.mod_lt _ (by decide))
  have hsign : z.sign = '+' ∨ z.sign = '-' ∨ z.sign = '\u2212' := z.sign_cases.imp_right Or.inl
  have hcolon : c ≠ ':' := ne_of_isDigit hc (by decide)
  have hloose : (between ++ [c, d]).dropWhile (fun c => c == ':' || isBlank c) = [c, d] := by
    rcases h with rfl | ⟨-, rfl⟩ <;> simp [hcolon, isBlank_of_isDigit hc]
  have hstrict : loose = false → afterPrefix? [':'] (between ++ [c, d]) = some [c, d] := by
    rintro rfl
    rcases h with rfl | ⟨hloose, -⟩
    · rfl
    · cases hloose
  have hday : (digitsValue [a, b] * 3600 + (z.minutes % 60 : Nat) * 60 : Int) < secondsPerDay := by
    rw [hhours, secondsPerDay]
    omega
  rw [Offset.text, hab, hcd, List.cons_append, List.cons_append, List.nil_append,
    signedOffset?_of_parts hsign ha hb hloose hstrict hminutes hday, hhours, Offset.sign,
    Offset.seconds]
  cases z.behind <;> simp <;> omega

section Read

variable (z : Offset) {style : OffsetStyle} (hword : style.word = false) (r : Reading)

theorem trimStart_offset (between : List Char) : trimStart (z.text between) = z.text between := by
  have hblank : isBlank z.sign = false := by
    rcases z.sign_cases with hsign | hsign <;> rw [hsign] <;> decide
  exact List.dropWhile_cons_of_neg (by simp [hblank])

include hword

/-- A sign is not a `Z`. -/
theorem offset?_text (between : List Char) : offset? style r (z.text between) =
    (signedOffset? style.loose (z.text between)).map fun (s, rest) =>
      ({ r with offset := s }, rest) := by
  have hzulu : (style.zulu && (z.sign == 'Z' || z.sign == 'z')) = false := by
    rcases z.sign_cases with hsign | hsign <;> rw [hsign] <;> exact Bool.and_false _
  rw [Offset.text, offset?]
  simp only [hword, Bool.false_and, Bool.false_eq_true, if_false, hzulu]

theorem read?_offset {between : List Char}
    (h : between = [':'] ∨ style.loose = true ∧ between = []) :
    (Item.offset style).read? r (z.text between) = some ({ r with offset := z.seconds }, []) := by
  rw [Item.read?, offset?_text z hword, signedOffset?_text z h, Option.map_some]

theorem read?_offset_compact (hstrict : style.loose = false) :
    (Item.offset style).read? r (z.text []) = none := by
  have hlt := z.lt_day
  obtain ⟨a, b, hab, -⟩ := exists_padded_two (by omega : z.minutes / 60 < 100)
  obtain ⟨c, d, hcd, hc, -⟩ := exists_padded_two (by omega : z.minutes % 60 < 100)
  have hcolon : afterPrefix? [':'] [c, d] = none := by
    have hne : (':' == c) = false := beq_eq_false_iff_ne.mpr (ne_of_isDigit hc (by decide)).symm
    rw [afterPrefix?, hne]
    rfl
  have hnone : signedOffset? false (z.text []) = none := by
    rw [Offset.text, hab, hcd, List.nil_append, List.cons_append, List.cons_append,
      List.nil_append, signedOffset?]
    simp only [Bool.false_eq_true, if_false, hcolon, Option.bind_eq_bind, Option.bind_none,
      ite_self]
  rw [Item.read?, offset?_text z hword, hstrict, hnone, Option.map_none]

end Read

/-- What a layout reads of a date and a time at an offset. -/
def Reading.shown (c : Instant.Civil) (offset : Int) : Reading where
  year := c.date.year
  month := c.date.month
  day := c.date.day
  hour := c.hour
  minute := c.minute
  second := c.second
  nanos := c.nanos
  offset := offset

end Layout
end LogLens
