/-
Stamps at the start of a text.

The text of an instant, with whatever fraction of a second, is taken as a whole for a stamp.
Shorter stamps in it, without the offset or some of the digits, leave a character of the text itself
behind (`isStamp_written`), and a level word is never taken for a stamp
(`leadingStamp_of_isLevelWord`).
-/
import LogLens.Proofs.Header.LevelWords
import LogLens.Proofs.Time.MillisText

namespace LogLens

open Pattern Layout

namespace Stamp

/-- Neither white space nor a closing bracket, one of which stands behind every stamp. -/
structure Tight (c : Char) : Prop where
  blank : isBlank c = false
  bracket : c ≠ ']'

theorem tight_of_letter {c : Char} (h : Header.Letter c) : Tight c := by
  refine ⟨h.blank, ?_⟩
  rintro rfl
  exact h.mark (by decide)

/-! ## Digits -/

theorem tight_of_isDigit {c : Char} (h : isDigit c = true) : Tight c :=
  ⟨isBlank_of_isDigit h, ne_of_isDigit h (by decide)⟩

/-- A number of a fixed width is as many digits. -/
theorem times_padded {width n : Nat} (hwidth : 0 < width) (hn : n < 10 ^ width) (rest : List Char) :
    times width isAnyDigit ((Instant.padded width n).toList ++ rest) = [rest] :=
  times_append (length_padded hwidth hn)
    (fun c hc => isAnyDigit_of_isDigit (isDigit_of_mem_padded c hc)) rest

theorem exists_padded_four {n : Nat} (hn : n < 10000) : ∃ a b c d,
    (Instant.padded 4 n).toList = [a, b, c, d] ∧ ∀ x ∈ [a, b, c, d], isDigit x = true := by
  have hlength : (Instant.padded 4 n).toList.length = 4 := length_padded (by decide) hn
  obtain ⟨a, b, c, d, h⟩ := List.length_eq_four.mp hlength
  exact ⟨a, b, c, d, h, h ▸ isDigit_of_mem_padded⟩

/-! ## The parts of a written instant -/

theorem dashedDate_append {c : Instant.Civil} (hc : InRange c) {year : Nat} (hyear : year < 10000)
    (rest : List Char) :
    dashedDate ((Instant.padded 4 year).toList ++ '-' :: ((Instant.padded 2 c.date.month).toList ++
      '-' :: ((Instant.padded 2 c.date.day).toList ++ rest))) = [rest] := by
  obtain ⟨hmonth, hday, -⟩ := hc.small
  rw [dashedDate, fourDigits, twoDigits,
    inOrder_of_single (times_padded (by decide) hyear _),
    inOrder_of_single (char_self _ _), inOrder_of_single (times_padded (by decide) hmonth _),
    inOrder_of_single (char_self _ _), inOrder_of_single (times_padded (by decide) hday _)]
  rfl

theorem clockPattern_append {c : Instant.Civil} (hc : InRange c) (rest : List Char) :
    clockPattern ((Instant.padded 2 c.hour).toList ++ ':' :: ((Instant.padded 2 c.minute).toList ++
      ':' :: ((Instant.padded 2 c.second).toList ++ rest))) = [rest] := by
  obtain ⟨-, -, hhour, hminute, hsecond, -⟩ := hc.small
  rw [clockPattern, twoDigits, inOrder_of_single (times_padded (by decide) hhour _),
    inOrder_of_single (char_self _ _), inOrder_of_single (times_padded (by decide) hminute _),
    inOrder_of_single (char_self _ _), inOrder_of_single (times_padded (by decide) hsecond _)]
  rfl

/-- A fraction of a second: nothing, or a point and digits. -/
inductive IsFraction : List Char → Prop
  | absent : IsFraction []
  | digits {ds : List Char} (hne : ds ≠ []) (hds : ∀ d ∈ ds, isDigit d = true) :
      IsFraction ('.' :: ds)

theorem isFraction_padded (width n : Nat) : IsFraction ('.' :: (Instant.padded width n).toList) :=
  .digits (padded_ne_nil width n) isDigit_of_mem_padded

/-- A fraction may break off behind any of its digits, or may be left out with its point. -/
theorem prefers_fractionPattern {fraction marks rest : List Char} (hfraction : IsFraction fraction)
    (hmarks : '.' ∈ marks) (hrest : ∀ c ∈ rest.head?, isAnyDigit c = false ∧ c ∉ marks) :
    Prefers (fractionPattern marks (fraction ++ rest)) rest
      fun c => isDigit c = true ∨ c = '.' := by
  cases hfraction with
  | absent =>
    have hnone : one marks.contains rest = [] := by
      cases rest with
      | nil => rfl
      | cons c rest => exact one_of_neg (by simpa using (hrest c rfl).2) rest
    rw [List.nil_append, fractionPattern, maybe_of_none (seq_of_none hnone)]
    exact .of_single rfl
  | digits hne hdigits =>
    obtain ⟨d, ds, rfl⟩ := List.exists_cons_of_ne_nil hne
    have hmany := prefers_many
      (fun c hc => isAnyDigit_of_isDigit (hdigits c (List.mem_cons_of_mem d hc)))
      fun c hc => (hrest c hc).1
    rw [List.cons_append, fractionPattern, maybe,
      seq_of_single (one_of_pos (List.contains_iff_mem.mpr hmarks) _), oneOrMore, List.cons_append,
      seq_of_single (one_of_pos (isAnyDigit_of_isDigit (hdigits d List.mem_cons_self)) _)]
    refine Prefers.append (hmany.mono fun c hc => ?_) fun other hother => ?_
    · exact Or.inl (hdigits c (List.mem_cons_of_mem d hc))
    · exact ⟨_, _, List.mem_singleton.mp hother, Or.inr rfl⟩

/-- The offset of a stamp, or nothing. -/
def offsetPattern : Pattern :=
  .maybe (.anyOf [.char 'Z', .inOrder [plusOrMinus, twoDigits, .maybe (.char ':'), twoDigits]])

theorem prefers_offsetPattern (rest : List Char) :
    Prefers (offsetPattern ('Z' :: rest)) rest Tight := by
  have hsigned :
      inOrder [plusOrMinus, twoDigits, .maybe (.char ':'), twoDigits] ('Z' :: rest) = [] :=
    inOrder_of_none (one_of_neg (by decide) rest)
  rw [offsetPattern, maybe, anyOf_cons, char_self, anyOf_of_none hsigned]
  refine Prefers.append (.of_single rfl) fun other hother => ?_
  exact ⟨_, _, List.mem_singleton.mp hother, by decide, by decide⟩

theorem offsetPattern_of_fraction {c : Char} (hc : isDigit c = true ∨ c = '.') (cs : List Char) :
    offsetPattern (c :: cs) = [c :: cs] := by
  have hz : c ≠ 'Z' := by
    rcases hc with hc | rfl
    · exact ne_of_isDigit hc (by decide)
    · decide
  have hsign : (c == '+' || c == '-') = false := by
    rw [Bool.or_eq_false_iff, beq_eq_false_iff_ne, beq_eq_false_iff_ne]
    rcases hc with hc | rfl
    · exact ⟨ne_of_isDigit hc (by decide), ne_of_isDigit hc (by decide)⟩
    · decide
  have hsigned : inOrder [plusOrMinus, twoDigits, .maybe (.char ':'), twoDigits] (c :: cs) = [] :=
    inOrder_of_none (one_of_neg hsign cs)
  rw [offsetPattern]
  refine maybe_of_none ?_
  rw [anyOf_of_none (char_of_ne hz cs), anyOf_of_none hsigned]
  rfl

/-- No name of a month begins with a digit. -/
theorem not_month_of_isDigit {c : Char} (hc : isDigit c = true) (cs : List Char) :
    ∀ name ∈ monthNames, ¬ name.toList <+: c :: cs := by
  intro name hname hprefix
  have hletter : ∀ name ∈ monthNames,
      name.toList.head?.any (fun x => !isDigit x) = true := by decide
  have hhead := hletter name hname
  cases hw : name.toList with
  | nil =>
    rw [hw] at hhead
    cases hhead
  | cons x w =>
    rw [hw] at hhead hprefix
    obtain ⟨rfl, -⟩ := List.cons_prefix_cons.mp hprefix
    simp [hc] at hhead

theorem months_of_not_prefix {cs : List Char} (h : ∀ name ∈ monthNames, ¬ name.toList <+: cs) :
    anyOf (monthNames.map fun name => exactly name.toList) cs = [] := by
  rw [anyOf, List.flatMap_map]
  exact List.flatMap_eq_nil_iff.mpr fun name hname => exactly_of_not_prefix (h name hname)

/-- Behind four digits and a hyphen stands a time with dashes or a bare date. -/
theorem textual_of_digits {a b c d : Char} (h : ∀ x ∈ [a, b, c, d], isDigit x = true)
    (rest : List Char) : textual (a :: b :: c :: d :: '-' :: rest) =
      inOrder [dashedDate, dateTimeGap, clockPattern, fractionPattern ['.', ','], offsetPattern]
        (a :: b :: c :: d :: '-' :: rest) ++ dashedDate (a :: b :: c :: d :: '-' :: rest) := by
  have hany : ∀ x ∈ [a, b] ++ [c, d], isAnyDigit x = true :=
    fun x hx => isAnyDigit_of_isDigit (h x hx)
  have hslash : ∀ x ∈ [a, b, c, d], x ≠ '/' :=
    fun x hx => ne_of_isDigit (h x hx) (by decide)
  have hfour : fourDigits (a :: b :: c :: d :: '-' :: rest) = ['-' :: rest] := by
    show fourDigits (([a, b] ++ [c, d]) ++ '-' :: rest) = _
    exact times_append rfl hany _
  have htwo : twoDigits (a :: b :: c :: d :: '-' :: rest) = [c :: d :: '-' :: rest] := by
    show twoDigits ([a, b] ++ c :: d :: '-' :: rest) = _
    exact times_append rfl (List.forall_mem_append.mp hany).1 _
  have hsome : oneOrTwo isAnyDigit (a :: b :: c :: d :: '-' :: rest) =
      [c :: d :: '-' :: rest, b :: c :: d :: '-' :: rest] :=
    oneOrTwo_of_pos (hany a (by simp)) (hany b (by simp)) _
  have hshort : ∀ ps, inOrder (oneOrTwo isAnyDigit :: .char '/' :: ps)
      (a :: b :: c :: d :: '-' :: rest) = [] := by
    intro ps
    rw [inOrder_cons, hsome, List.flatMap_cons, inOrder_of_none (char_of_ne (hslash c (by simp)) _),
      List.flatMap_cons, inOrder_of_none (char_of_ne (hslash b (by simp)) _)]
    rfl
  have hmonth := months_of_not_prefix
    (not_month_of_isDigit (h a (by simp)) (b :: c :: d :: '-' :: rest))
  rw [textual, anyOf_cons,
    anyOf_of_none ((inOrder_of_single hfour).trans (inOrder_of_none (char_of_ne (by decide) _))),
    anyOf_of_none (hshort _),
    anyOf_of_none
      ((inOrder_of_single htwo).trans (inOrder_of_none (char_of_ne (hslash c (by simp)) _))),
    anyOf_of_none (inOrder_of_none hmonth), anyOf_cons]
  exact congrArg _ (List.append_nil _)

/-! ## Written instants -/

/-- The text of a date and a time behind the year and up to the seconds, and what follows it. -/
def secondsText (c : Instant.Civil) (rest : List Char) : List Char :=
  '-' :: ((Instant.padded 2 c.date.month).toList ++
  '-' :: ((Instant.padded 2 c.date.day).toList ++
  'T' :: ((Instant.padded 2 c.hour).toList ++
  ':' :: ((Instant.padded 2 c.minute).toList ++
  ':' :: ((Instant.padded 2 c.second).toList ++ rest)))))

/-- Four digits are no count of seconds. -/
theorem epochPattern_digits {year : Nat} (hyear : year < 10000) (c : Instant.Civil)
    (rest : List Char) :
    epochPattern ((Instant.padded 4 year).toList ++ secondsText c rest) = [] := by
  have hlength : (Instant.padded 4 year).toList.length < 10 := by
    rw [length_padded (by decide) hyear]
    decide
  exact inOrder_of_none (times_of_short hlength (by decide) _)

section Written

variable {c : Instant.Civil} (hc : InRange c) {year : Nat} (hyear : year < 10000)
  {fraction : List Char} (hfraction : IsFraction fraction)

include hc hyear hfraction

/-- The form with dashes takes the whole text first. -/
theorem prefers_dashed (rest : List Char) :
    Prefers (inOrder [dashedDate, dateTimeGap, clockPattern, fractionPattern ['.', ','],
      offsetPattern] ((Instant.padded 4 year).toList ++ secondsText c (fraction ++ 'Z' :: rest)))
      rest Tight := by
  have hprefers : Prefers (fractionPattern ['.', ','] (fraction ++ 'Z' :: rest)) ('Z' :: rest)
      fun d => isDigit d = true ∨ d = '.' :=
    prefers_fractionPattern hfraction (by decide) (by simp; decide)
  rw [secondsText, inOrder_of_single (dashedDate_append hc hyear _), dateTimeGap,
    inOrder_of_single (one_of_pos (by decide) _), inOrder_of_single (clockPattern_append hc _),
    inOrder_cons]
  refine hprefers.flatMap ?_ fun d hd cs other hother => ?_
  · rw [inOrder_cons]
    exact (prefers_offsetPattern rest).flatMap (.of_single rfl) fun d hd cs other hother =>
      ⟨d, cs, List.mem_singleton.mp hother, hd⟩
  · rw [inOrder_of_single (offsetPattern_of_fraction hd cs)] at hother
    refine ⟨d, cs, List.mem_singleton.mp hother, ?_⟩
    rcases hd with hd | rfl
    · exact tight_of_isDigit hd
    · exact ⟨by decide, by decide⟩

/-- Of the other forms only the bare date matches. -/
theorem prefers_textual (rest : List Char) :
    Prefers (textual ((Instant.padded 4 year).toList ++ secondsText c (fraction ++ 'Z' :: rest)))
      rest Tight := by
  have hdashed := prefers_dashed hc hyear hfraction rest
  obtain ⟨tail, hdate⟩ : ∃ tail, dashedDate ((Instant.padded 4 year).toList ++
      secondsText c (fraction ++ 'Z' :: rest)) = ['T' :: tail] :=
    ⟨_, dashedDate_append hc hyear _⟩
  obtain ⟨a, b, d, e, hpadded, hdigits⟩ := exists_padded_four hyear
  obtain ⟨clock, hclock⟩ : ∃ clock, secondsText c (fraction ++ 'Z' :: rest) = '-' :: clock :=
    ⟨_, rfl⟩
  have htext : (Instant.padded 4 year).toList ++ secondsText c (fraction ++ 'Z' :: rest) =
      a :: b :: d :: e :: '-' :: clock := by
    rw [hpadded, hclock]
    rfl
  rw [htext] at hdashed hdate ⊢
  rw [textual_of_digits hdigits, hdate]
  refine hdashed.append fun other hother => ?_
  exact ⟨'T', tail, List.mem_singleton.mp hother, by decide, by decide⟩

end Written

/-- A text that is taken for a stamp, in front of a level or behind it, whatever follows. -/
structure IsStamp (stamp : List Char) : Prop where
  digit : BeginsWith (isDigit · = true) stamp
  textual : ∀ rest, Prefers (textual (stamp ++ rest)) rest Tight
  leading : ∀ rest, Prefers (Header.leadingStamp (stamp ++ rest)) rest Tight

theorem IsStamp.exists_cons {stamp : List Char} (h : IsStamp stamp) (rest : List Char) :
    ∃ c cs, stamp ++ rest = c :: cs ∧ isDigit c = true := by
  obtain ⟨c, cs, rfl, hc⟩ := h.digit
  exact ⟨c, cs ++ rest, rfl, hc⟩

section Text

variable {t : Instant} (hyear : 0 ≤ t.year ∧ t.year ≤ 9999)

include hyear

theorem toList_written (fraction : String) : (Instant.written t.civil fraction).toList =
    (Instant.padded 4 t.year.natAbs).toList ++ secondsText t.civil (fraction.toList ++ ['Z']) := by
  have hsign : yearSign t.civil.date.year = [] := if_pos hyear
  simp [Instant.written, secondsText, toList_yearText, hsign, Instant.year]

/-- An instant that is written at the start of a text is its stamp. -/
theorem isStamp_written {fraction : String} (hfraction : IsFraction fraction.toList) :
    IsStamp (Instant.written t.civil fraction).toList := by
  have hlt : t.year.natAbs < 10000 := by omega
  have hc := inRange_civil t
  have htext : ∀ rest, (Instant.written t.civil fraction).toList ++ rest =
      (Instant.padded 4 t.year.natAbs).toList ++
        secondsText t.civil (fraction.toList ++ 'Z' :: rest) := by
    intro rest
    rw [toList_written hyear]
    simp [secondsText]
  refine ⟨?_, fun rest => ?_, fun rest => ?_⟩
  · obtain ⟨a, b, c, d, hpadded, hdigits⟩ := exists_padded_four hlt
    rw [toList_written hyear, hpadded]
    exact ⟨a, _, rfl, hdigits a (by simp)⟩
  · rw [htext]
    exact prefers_textual hc hlt hfraction rest
  · rw [htext, Header.leadingStamp, anyOf_cons, anyOf_of_none (epochPattern_digits hlt _ _)]
    exact (prefers_textual hc hlt hfraction rest).append (List.forall_mem_nil _)

theorem isStamp_toMillisText : IsStamp t.toMillisText.toList := by
  refine isStamp_written hyear ?_
  rw [String.toList_append]
  exact isFraction_padded 3 _

end Text

/-! ## Level words -/

theorem not_month_of_isLevelWord {k : List Char} (h : Header.IsLevelWord k) (rest : List Char) :
    ∀ name ∈ monthNames, ¬ name.toList <+: k ++ rest := by
  intro name hname hprefix
  obtain ⟨w, hw, hk⟩ := h
  have hnone : ∀ w ∈ Header.levelWords, ∀ name ∈ monthNames,
      name.toList.length ≤ w.toList.length ∧ ¬ name.toList.map Char.toUpper <+: w.toList := by
    decide +kernel
  obtain ⟨hlength, hnot⟩ := hnone w hw name hname
  rw [← hk, List.length_map] at hlength
  have hstart := List.prefix_of_prefix_length_le hprefix (List.prefix_append k rest) hlength
  exact hnot (hk ▸ hstart.map Char.toUpper)

/-- Stamps begin with digits or with the name of a month. -/
theorem leadingStamp_of_isLevelWord {k : List Char} (h : Header.IsLevelWord k) (rest : List Char) :
    Header.leadingStamp (k ++ rest) = [] := by
  have hmonth := months_of_not_prefix (not_month_of_isLevelWord h rest)
  obtain ⟨c, cs, rfl, hc⟩ := h.exists_cons
  have hdigits : ∀ n, times (n + 1) isAnyDigit (c :: (cs ++ rest)) = [] := by
    intro n
    show times (n + 1) isAnyDigit ([] ++ c :: (cs ++ rest)) = []
    exact times_of_short (Nat.succ_pos n) hc.digit _
  have hsome : oneOrTwo isAnyDigit (c :: (cs ++ rest)) = [] :=
    seq_of_none (one_of_neg hc.digit (cs ++ rest))
  have hfour : fourDigits (c :: (cs ++ rest)) = [] := hdigits 3
  have htwo : twoDigits (c :: (cs ++ rest)) = [] := hdigits 1
  have hdate : dashedDate (c :: (cs ++ rest)) = [] := inOrder_of_none hfour
  have hcount : epochPattern (c :: (cs ++ rest)) = [] := inOrder_of_none (hdigits 9)
  rw [List.cons_append] at hmonth ⊢
  rw [Header.leadingStamp, anyOf_cons, anyOf_of_none hcount, textual,
    anyOf_of_none (inOrder_of_none hdate), anyOf_of_none (inOrder_of_none hfour),
    anyOf_of_none (inOrder_of_none hsome), anyOf_of_none (inOrder_of_none htwo),
    anyOf_of_none (inOrder_of_none hmonth), anyOf_of_none hdate]
  rfl

end Stamp
end LogLens
