/-
Reading instants as they are shown.

An instant is shown to the millisecond.  The text is read as an instant with as many milliseconds
since 1970 (`Stamp.parse_toMillisText`): the layouts read number after number what was written
(`readItems?_clock`), the date exists, and a leap second is put back where it came from.  The text
is no number, so a literal of a query that shows an instant is that instant.
-/
import LogLens.Proofs.Time.Parts
import LogLens.Proofs.Time.Placement

namespace LogLens

namespace Layout

/-! ## Date and time -/

/-- What a layout reads of a date and a time, in thousandths of a second. -/
def Reading.ofCivil (c : Instant.Civil) : Reading where
  year := c.date.year
  month := c.date.month
  day := c.date.day
  hour := c.hour
  minute := c.minute
  second := c.second
  nanos := c.nanos / 1000000 * 1000000

/-- The text of a date and a time behind the year, and what follows it. -/
def clockText (c : Instant.Civil) (rest : List Char) : List Char :=
  '-' :: ((Instant.padded 2 c.date.month).toList ++
  '-' :: ((Instant.padded 2 c.date.day).toList ++
  'T' :: ((Instant.padded 2 c.hour).toList ++
  ':' :: ((Instant.padded 2 c.minute).toList ++
  ':' :: ((Instant.padded 2 c.second).toList ++
  '.' :: ((Instant.padded 3 (c.nanos / 1000000)).toList ++ rest))))))

/-- The items that a layout has for it. -/
def clockItems (number : Part → Item) (gap : List Char) : List Item :=
  [.oneOf ['-'], number .month, .oneOf ['-'], number .day, .oneOf gap, number .hour, .oneOf [':'],
    number .minute, .oneOf [':'], number .second, .fraction]

theorem readItems?_clock {number : Part → Item} (hnumber : number = .strict ∨ number = .number)
    {gap : List Char} (hgap : 'T' ∈ gap) (items : List Item) {c : Instant.Civil} (hc : InRange c)
    {rest : List Char} (hrest : ∀ c ∈ rest.head?, isDigit c = false) :
    readItems? (clockItems number gap ++ items) { year := c.date.year } (clockText c rest) =
      readItems? items (Reading.ofCivil c) rest := by
  have hread : ∀ {part : Part}, part ≠ .year → ∀ (r : Reading) rest,
      (number part).read? r (part.text c ++ rest) = some (r.put c part, rest) :=
    fun hpart => read?_part (hc.fits hpart) hnumber
  show readItems? (clockItems number gap ++ items) _ ('-' :: (Part.month.text c ++
    '-' :: (Part.day.text c ++ 'T' :: (Part.hour.text c ++ ':' :: (Part.minute.text c ++
    ':' :: (Part.second.text c ++ '.' :: ((Instant.padded 3 (c.nanos / 1000000)).toList ++
    rest))))))) = _
  simp only [clockItems, List.cons_append, List.nil_append]
  rw [readItems?_cons (read?_oneOf List.mem_cons_self),
    readItems?_cons (hread (by decide) _ _),
    readItems?_cons (read?_oneOf List.mem_cons_self),
    readItems?_cons (hread (by decide) _ _),
    readItems?_cons (read?_oneOf hgap),
    readItems?_cons (hread (by decide) _ _),
    readItems?_cons (read?_oneOf List.mem_cons_self),
    readItems?_cons (hread (by decide) _ _),
    readItems?_cons (read?_oneOf List.mem_cons_self),
    readItems?_cons (hread (by decide) _ _),
    readItems?_cons (read?_fraction hc.small.2.2.2.2.2 hrest)]
  rfl

/-! ## The instant of the reading -/

theorem ofLocal?_civil (t : Instant) (second nanos : Nat) (offset : Int) :
    Instant.ofLocal? t.civil.date t.civil.hour t.civil.minute second nanos offset =
      Instant.of? (t.seconds - t.seconds % 60 + second - offset) nanos := by
  have hnumber := CalendarDate.dayNumber_ofDayNumber (t.seconds / secondsPerDay)
  have hdate : t.civil.date = CalendarDate.ofDayNumber (t.seconds / secondsPerDay) := rfl
  have hhour : t.civil.hour = (t.seconds % secondsPerDay).toNat / 3600 := rfl
  have hminute : t.civil.minute = (t.seconds % secondsPerDay).toNat / 60 % 60 := rfl
  rw [Instant.ofLocal?, hdate, hnumber, hhour, hminute]
  refine congrArg (Instant.of? · nanos) ?_
  rw [secondsPerDay]
  omega

theorem civil_second (t : Instant) :
    t.nanos < nanosPerSecond ∧ t.civil.second = (t.seconds % 60).toNat ∧
        t.civil.nanos = t.nanos ∨
      nanosPerSecond ≤ t.nanos ∧ t.civil.second = (t.seconds % 60).toNat + 1 ∧
        t.civil.nanos = t.nanos - nanosPerSecond := by
  have hminute : (t.seconds % secondsPerDay).toNat % 60 = (t.seconds % 60).toNat := by
    rw [secondsPerDay]
    omega
  simp only [Instant.civil, hminute]
  split <;> omega

/-- The date and the time of an instant lead back to its milliseconds. -/
theorem instant?_ofCivil (t : Instant) :
    ∃ t', (Reading.ofCivil t.civil).instant? = some t' ∧ t'.millis = t.millis := by
  have hfirst := t.first_le
  have hlast := t.le_last
  have hnanos := t.nanos_lt
  have hsecond := civil_second t
  have hof : ∀ (seconds : Int) (nanos : Nat), Instant.firstSecond ≤ seconds →
      seconds ≤ Instant.lastSecond → nanos < 2 * nanosPerSecond →
      seconds * 1000 + (nanos / 1000000 : Nat) = t.millis →
      ∃ t', Instant.of? seconds nanos = some t' ∧ t'.millis = t.millis := by
    intro seconds nanos hfirst hlast hnanos hmillis
    obtain ⟨t', ht', hseconds, hnanos'⟩ := Instant.exists_of? hfirst hlast hnanos
    exact ⟨t', ht', by rw [Instant.millis, hseconds, hnanos', hmillis]⟩
  rw [Reading.instant?]
  simp only [Reading.ofCivil, t.of?_civil, Option.bind_eq_bind, Option.bind_some, ofLocal?_civil]
  generalize t.civil.second = second at *
  generalize t.civil.nanos = nanos at *
  simp only [Instant.firstSecond, Instant.lastSecond, nanosPerSecond, Instant.millis] at *
  -- second 60 is the leap second behind second 59; any other leap second is shown as the next one
  split <;> refine hof _ _ ?_ ?_ ?_ ?_ <;> omega

end Layout

/-- The instant is on a whole millisecond and not in a leap second. -/
structure Instant.WholeMillis (t : Instant) : Prop where
  nanos_mod : t.nanos % 1000000 = 0
  nanos_lt : t.nanos < nanosPerSecond

namespace Layout

theorem instant?_wholeMillis {t : Instant} (h : t.WholeMillis) :
    (Reading.ofCivil t.civil).instant? = some t := by
  obtain ⟨hmod, hlt⟩ := h
  obtain ⟨-, hsecond, hnanos⟩ | ⟨hleap, -, -⟩ := civil_second t
  · have hplace : t.seconds - t.seconds % 60 + (t.seconds % 60).toNat = t.seconds := by omega
    have hmillis : t.nanos / 1000000 * 1000000 = t.nanos := by omega
    rw [Reading.instant?]
    simp only [Reading.ofCivil, t.of?_civil, Option.bind_eq_bind, Option.bind_some, ofLocal?_civil,
      hsecond, hnanos, hmillis, hplace, Int.sub_zero]
    rw [if_neg (by omega), t.of?_self]
  · omega

/-! ## The text of an instant -/

/-- The sign of a year that has not four digits. -/
def yearSign (year : Int) : List Char :=
  if 0 ≤ year ∧ year ≤ 9999 then [] else if year < 0 then ['-'] else ['+']

theorem toList_yearText (year : Int) : (Instant.yearText year).toList =
    yearSign year ++ (Instant.padded 4 year.natAbs).toList := by
  rw [Instant.yearText, yearSign]
  split
  · have hnat : year.toNat = year.natAbs := by omega
    rw [hnat, List.nil_append]
  · split <;> simp

theorem toList_toMillisText (t : Instant) : t.toMillisText.toList =
    yearSign t.civil.date.year ++ ((Instant.padded 4 t.civil.date.year.natAbs).toList ++
      clockText t.civil ['Z']) := by
  simp [Instant.toMillisText, Instant.written, clockText, toList_yearText]

/-! ## Years -/

/-- A sign begins a year of any number of digits. -/
theorem number?_signed (r : Reading) (rest : List Char) :
    number? .year r ('-' :: rest) = ((digits? rest.length rest).map fun (ds, rest) =>
        ({ r with year := -(digitsValue ds : Int) }, rest)) ∧
      number? .year r ('+' :: rest) = ((digits? rest.length rest).map fun (ds, rest) =>
        ({ r with year := digitsValue ds }, rest)) :=
  ⟨rfl, rfl⟩

theorem read?_signedYear {year : Int} (h : ¬(0 ≤ year ∧ year ≤ 9999)) {rest : List Char}
    (hrest : ∀ c ∈ rest.head?, isDigit c = false) :
    (Item.number .year).read? {}
        (yearSign year ++ ((Instant.padded 4 year.natAbs).toList ++ rest)) =
      some ({ year }, rest) := by
  have hdigits := digits?_append rest (padded_ne_nil 4 year.natAbs) isDigit_of_mem_padded
    (List.length_append ▸ Nat.le_add_right _ rest.length) (Or.inr hrest)
  rw [yearSign, if_neg h]
  by_cases hnegative : year < 0
  · have hyear : -(year.natAbs : Int) = year := by omega
    rw [if_pos hnegative, List.singleton_append, Item.read?, (number?_signed _ _).1, hdigits]
    simp only [Option.map_some, digitsValue_padded, hyear]
  · have hyear : (year.natAbs : Int) = year := by omega
    rw [if_neg hnegative, List.singleton_append, Item.read?, (number?_signed _ _).2, hdigits]
    simp only [Option.map_some, digitsValue_padded, hyear]

/-! ## Both layouts -/

/-- Four digits of a year make the text one of the strict layout. -/
theorem read?_rfc3339 (t : Instant) (h : 0 ≤ t.civil.date.year ∧ t.civil.date.year ≤ 9999) :
    read? rfc3339 t.toMillisText.toList = (Reading.ofCivil t.civil).instant? := by
  have hitems : rfc3339 = .strict .year :: (clockItems .strict ['T', 't', ' '] ++
      [.offset { zulu := true, word := false, loose := false }]) := rfl
  have hsign : yearSign t.civil.date.year = [] := if_pos h
  have hplain : Plain t.civil := ⟨inRange_civil t, h⟩
  have hyear : ∀ rest, (Item.strict .year).read? {}
      ((Instant.padded 4 t.civil.date.year.natAbs).toList ++ rest) =
        some ({ year := t.civil.date.year }, rest) :=
    read?_part (hplain.fits .year) (Or.inl rfl) {}
  have hread : readItems? rfc3339 {} t.toMillisText.toList = some (Reading.ofCivil t.civil) := by
    rw [toList_toMillisText, hsign, List.nil_append, hitems,
      readItems?_cons (hyear _),
      readItems?_clock (Or.inl rfl) (by simp) _ (inRange_civil t) (by simp; decide)]
    rfl
  rw [read?, hread]
  rfl

/-- With any other year and with an offset it is one of the first layout behind the strict one. -/
theorem findSome?_withOffset (t : Instant)
    (h : ¬(0 ≤ t.civil.date.year ∧ t.civil.date.year ≤ 9999)) (layouts : List (List Item)) :
    (Stamp.withOffset ++ layouts).findSome? (read? · (yearSign t.civil.date.year ++
      ((Instant.padded 4 t.civil.date.year.natAbs).toList ++
        clockText t.civil "+00:00".toList))) = (Reading.ofCivil t.civil).instant? := by
  obtain ⟨t', ht', -⟩ := instant?_ofCivil t
  have hlayouts : ∃ more, Stamp.withOffset = (.number .year :: (clockItems .number ['T'] ++
      [.blank, .offset { zulu := false, word := false, loose := true }])) :: more := ⟨_, rfl⟩
  obtain ⟨more, hmore⟩ := hlayouts
  have hread : readItems? (.number .year :: (clockItems .number ['T'] ++
      [.blank, .offset { zulu := false, word := false, loose := true }])) {}
      (yearSign t.civil.date.year ++ ((Instant.padded 4 t.civil.date.year.natAbs).toList ++
        clockText t.civil "+00:00".toList)) = some (Reading.ofCivil t.civil) := by
    rw [readItems?_cons (read?_signedYear h (by simp [clockText]; decide)),
      readItems?_clock (Or.inr rfl) (by simp) _ (inRange_civil t) (by simp; decide)]
    rfl
  rw [hmore, List.cons_append, List.findSome?_cons, read?, hread, Option.bind_eq_bind,
    Option.bind_some, ht']

/-- A sign is no digit of a strict year. -/
theorem read?_rfc3339_signed {year : Int} (h : ¬(0 ≤ year ∧ year ≤ 9999)) (cs : List Char) :
    read? rfc3339 (yearSign year ++ cs) = none := by
  rw [yearSign, if_neg h]
  split <;> rfl

end Layout

namespace Stamp

open Layout

/-! ## Characters of the text -/

theorem clockText_append (c : Instant.Civil) (rest : List Char) :
    clockText c rest = clockText c [] ++ rest := by
  simp [clockText]

theorem comma_notMem_toMillisText (t : Instant) : ',' ∉ t.toMillisText.toList := by
  have hsign : ∀ year, ',' ∉ yearSign year := by
    intro year
    rw [yearSign]
    split
    · simp
    · split <;> simp
  rw [toList_toMillisText, clockText]
  simp [comma_notMem_padded, hsign]

theorem getLast?_toMillisText (t : Instant) : t.toMillisText.toList.getLast? = some 'Z' := by
  rw [toList_toMillisText, clockText_append]
  simp

/-- The text begins with a sign or a digit. -/
theorem head?_toMillisText {t : Instant} {c : Char} (hc : c ∈ t.toMillisText.toList.head?) :
    isDigit c = true ∨ c = '+' ∨ c = '-' := by
  rw [toList_toMillisText, yearSign] at hc
  split at hc
  · rw [List.nil_append, List.head?_append_of_ne_nil _ (padded_ne_nil _ _)] at hc
    exact Or.inl (isDigit_of_mem_padded c (List.mem_of_mem_head? hc))
  · have hsign : '-' = c ∨ '+' = c := by
      split at hc
      · exact Or.inl (by simpa using hc)
      · exact Or.inr (by simpa using hc)
    rcases hsign with rfl | rfl
    · exact Or.inr (Or.inr rfl)
    · exact Or.inr (Or.inl rfl)

/-! ## Reading the text -/

theorem solid_toMillisText (t : Instant) : Solid t.toMillisText.toList := by
  refine solid_of_ends (fun c hc => ?_) (Or.inr (getLast?_toMillisText t))
  rcases head?_toMillisText hc with hdigit | rfl | rfl
  · exact edge_of_isDigit hdigit (by decide)
  · decide
  · decide

/-- The text is read as the date and the time that it shows. -/
theorem parse_toMillisText_eq (t reference : Instant) :
    parse t.toMillisText reference = .ok (Reading.ofCivil t.civil).instant? := by
  obtain ⟨t', ht', -⟩ := instant?_ofCivil t
  have hinner := inner_of_around (solid_toMillisText t) (.refl _)
  have hz : 'Z' ∈ t.toMillisText.toList := List.mem_of_getLast? (getLast?_toMillisText t)
  rw [ht']
  refine parse_of_recognized hinner (.of_mem hz (by decide) (by decide)) reference ?_
  by_cases hyear : 0 ≤ t.civil.date.year ∧ t.civil.date.year ≤ 9999
  · exact Or.inl (by rw [read?_rfc3339 t hyear, ht'])
  · have hstrict : read? rfc3339 t.toMillisText.toList = none := by
      rw [toList_toMillisText]
      exact read?_rfc3339_signed hyear _
    have hnormal : numericOffset (pointFraction t.toMillisText.toList) =
        yearSign t.civil.date.year ++ ((Instant.padded 4 t.civil.date.year.natAbs).toList ++
          clockText t.civil "+00:00".toList) := by
      rw [pointFraction_eq_self (comma_notMem_toMillisText t), toList_toMillisText,
        clockText_append, ← List.append_assoc, ← List.append_assoc, numericOffset_concat,
        clockText_append _ "+00:00".toList]
      simp
    refine Or.inr ⟨hstrict, ?_⟩
    rw [hnormal, List.append_assoc, findSome?_withOffset t hyear, ht']

/-- An instant that is shown is read with the same milliseconds. -/
theorem parse_toMillisText (t reference : Instant) :
    ∃ t', parse t.toMillisText reference = .ok (some t') ∧ t'.millis = t.millis := by
  obtain ⟨t', ht', hmillis⟩ := instant?_ofCivil t
  exact ⟨t', by rw [parse_toMillisText_eq, ht'], hmillis⟩

/-- An instant on a whole millisecond is read as itself. -/
theorem parse_wholeMillis {t : Instant} (h : t.WholeMillis) (reference : Instant) :
    parse t.toMillisText reference = .ok (some t) := by
  rw [parse_toMillisText_eq, instant?_wholeMillis h]

end Stamp

/-! ## The text is no number -/

namespace Reading

theorem equalsIgnoringCase_eq_false {word : List Char} (h : '-' ∈ word) {name : List Char}
    (hname : '-' ∉ name.map Char.toLower) : equalsIgnoringCase word name = false := by
  rw [equalsIgnoringCase, beq_eq_false_iff_ne]
  intro heq
  have hmem : Char.toLower '-' ∈ word.map Char.toLower := List.mem_map_of_mem h
  rw [heq] at hmem
  exact hname hmem

/-- Digits with a hyphen behind them are no number. -/
theorem binary64?_hyphen {negative : Bool} {cs ds rest : List Char}
    (hsign : sign cs = (negative, ds ++ '-' :: rest)) (hds : ∀ c ∈ ds, isDigit c = true) :
    binary64? cs = none := by
  have htake : (ds ++ '-' :: rest).takeWhile isDigit = ds := by
    rw [List.takeWhile_append_of_pos hds]
    simp [isDigit]
  have hdrop : (ds ++ '-' :: rest).dropWhile isDigit = '-' :: rest := by
    rw [List.dropWhile_append_of_pos hds]
    simp [isDigit]
  have hparts : parts? cs = none := by
    rw [parts?, hsign]
    simp [htake, hdrop, fraction]
  have hword : ∀ {name : List Char}, '-' ∉ name.map Char.toLower →
      equalsIgnoringCase (ds ++ '-' :: rest) name = false :=
    fun hname => equalsIgnoringCase_eq_false (by simp) hname
  rw [binary64?, hparts, hsign]
  simp only [hword (by decide : '-' ∉ "inf".toList.map Char.toLower),
    hword (by decide : '-' ∉ "infinity".toList.map Char.toLower),
    hword (by decide : '-' ∉ "nan".toList.map Char.toLower)]
  rfl

theorem sign_digits {ds rest : List Char} (hne : ds ≠ []) (hds : ∀ c ∈ ds, isDigit c = true) :
    sign (ds ++ rest) = (false, ds ++ rest) := by
  obtain ⟨c, ds, rfl⟩ := List.exists_cons_of_ne_nil hne
  have hc := hds c List.mem_cons_self
  rw [List.cons_append, sign]
  · rintro _ hcons
    obtain ⟨rfl, -⟩ := List.cons.inj hcons
    exact absurd hc (by decide)
  · rintro _ hcons
    obtain ⟨rfl, -⟩ := List.cons.inj hcons
    exact absurd hc (by decide)

end Reading

theorem parseNumber?_toMillisText (t : Instant) : parseNumber? t.toMillisText = none := by
  have hsolid := Stamp.solid_toMillisText t
  have htrim := trim_eq_self hsolid.ne_nil (fun c hc => (hsolid.head c hc).1)
    fun c hc => (hsolid.last c hc).1
  have hsign : ∃ negative rest, Reading.sign t.toMillisText.toList =
      (negative, (Instant.padded 4 t.civil.date.year.natAbs).toList ++ '-' :: rest) := by
    obtain ⟨rest, hrest⟩ : ∃ rest, Layout.clockText t.civil ['Z'] = '-' :: rest := ⟨_, rfl⟩
    rw [Layout.toList_toMillisText, Layout.yearSign, hrest]
    split
    · rw [List.nil_append]
      exact ⟨false, rest, Reading.sign_digits (padded_ne_nil _ _) isDigit_of_mem_padded⟩
    · split
      · exact ⟨true, rest, by rw [List.singleton_append, Reading.sign]⟩
      · exact ⟨false, rest, by rw [List.singleton_append, Reading.sign]⟩
  obtain ⟨negative, rest, hsign⟩ := hsign
  have hnone := Reading.binary64?_hyphen hsign isDigit_of_mem_padded
  rw [parseNumber?, htrim]
  simp [hnone]

/-- A literal that shows an instant is one with the same milliseconds. -/
theorem Query.coerce_toMillisText (t reference : Instant) :
    ∃ t', coerce t.toMillisText reference = .ok (.date t') ∧ t'.millis = t.millis := by
  obtain ⟨t', ht', hmillis⟩ := Stamp.parse_toMillisText t reference
  refine ⟨t', ?_, hmillis⟩
  rw [coerce, parseNumber?_toMillisText, ht']
  rfl

end LogLens
