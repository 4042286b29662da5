/-
Renderings of an instant.

A clock at some offset from universal time shows an instant as a date and a time (`Shows`), and
these can be written in many ways (`Rendering`).  Each of the texts is read as the instant
(`parse_rendering`): the layouts are tried in their order, and the ones in front of a text's own
layout fail on it (`stamped_otherForm`, `stamped_otherGap`).
-/
import LogLens.Proofs.Time.MillisText

namespace LogLens
namespace Stamp

open Layout

/-! ## Renderings -/

/-- When it is `t`, and no leap second, clocks with the offset show the date and the time of
`shown`, in a year of four digits. -/
structure Shows (z : Offset) (t shown : Instant) : Prop where
  seconds : shown.seconds = t.seconds + z.seconds
  nanos : shown.nanos = t.nanos
  nanos_lt : t.nanos < nanosPerSecond
  year : 0 ≤ shown.year ∧ shown.year ≤ 9999

/-- `±HH:MM` or `±HHMM`, without an offset also `Z` or nothing. -/
inductive ZoneText (z : Offset) : List Char → Prop
  | colon : ZoneText z (z.text [':'])
  | compact : ZoneText z (z.text [])
  | zulu (h : z.minutes = 0) : ZoneText z ['Z']
  | absent (h : z.minutes = 0) : ZoneText z []

/-- The ways to write a date and a time that clocks with an offset show. -/
inductive Rendering (z : Offset) (c : Instant.Civil) : List Char → Prop
  /-- `YYYY-MM-DD HH:MM:SS` with a fraction and an offset. -/
  | dashed {gap : Char} {fraction zone : List Char} (hgap : gap ∈ ['T', ' '])
      (hfraction : FractionText ['.', ','] c.nanos fraction) (hzone : ZoneText z zone) :
      Rendering z c (DateForm.dashed.text c ++ gap :: (timeText c ++ (fraction ++ zone)))
  /-- `YYYY/MM/DD HH:MM:SS` and `MM/DD/YYYY HH:MM:SS` with a fraction. -/
  | slashed {form : DateForm} {gap : Char} {fraction : List Char} (hform : form ≠ .dashed)
      (hgap : gap ∈ ['T', ' ']) (hfraction : FractionText ['.'] c.nanos fraction)
      (hz : z.minutes = 0) : Rendering z c (form.text c ++ gap :: (timeText c ++ fraction))
  /-- `DD/Mon/YYYY:HH:MM:SS ±HHMM`. -/
  | web (hwhole : c.nanos = 0) :
      Rendering z c (webDateText c ++ ':' :: (timeText c ++ ' ' :: z.text []))
  /-- `YYYY-MM-DD`. -/
  | date (hz : z.minutes = 0)
      (hmidnight : c.hour = 0 ∧ c.minute = 0 ∧ c.second = 0 ∧ c.nanos = 0) :
      Rendering z c (DateForm.dashed.text c)

/-! ## What is shown is the instant -/

section Shown

variable {z : Offset} {t shown : Instant} (h : Shows z t shown)

include h

theorem Shows.plain : Plain shown.civil := ⟨inRange_civil shown, h.year⟩

theorem Shows.instant? : (Reading.shown shown.civil z.seconds).instant? = some t := by
  have hwhole : shown.nanos < nanosPerSecond := h.nanos ▸ h.nanos_lt
  obtain ⟨-, hsecond, hnanos⟩ | ⟨hleap, -, -⟩ := civil_second shown
  · have hplace : shown.seconds - shown.seconds % 60 + (shown.seconds % 60).toNat - z.seconds =
        t.seconds := by
      have hseconds := h.seconds
      omega
    rw [Reading.instant?]
    simp only [Reading.shown, shown.of?_civil, Option.bind_eq_bind, Option.bind_some,
      ofLocal?_civil, hsecond, hnanos, h.nanos, hplace]
    rw [if_neg (by omega), t.of?_self]
  · omega

end Shown

theorem seconds_eq_zero {z : Offset} (h : z.minutes = 0) : z.seconds = 0 := by
  rw [Offset.seconds, h]
  split <;> rfl

/-! ## Layouts -/

def looseOffset : Item := .offset { zulu := false, word := false, loose := true }

/-- A layout for a date and a time of one form. -/
def stamped (form : DateForm) (gap : Char) (tail : List Item) : List Item :=
  form.items ++ (gapItems gap ++ clock ++ tail)

theorem layouts_eq : withOffset ++ withoutOffset ++ dateOnly =
    [stamped .dashed 'T' [.fraction, .blank, looseOffset],
      stamped .dashed ' ' [.fraction, .blank, looseOffset],
      webDate ++ (literal ":" ++ (clock ++ [.blank, looseOffset])),
      stamped .dashed 'T' [.fraction], stamped .dashed ' ' [.fraction],
      stamped .yearFirst ' ' [.fraction], stamped .yearFirst 'T' [.fraction],
      stamped .monthFirst ' ' [.fraction], stamped .monthFirst 'T' [.fraction],
      webDate ++ (literal ":" ++ clock), DateForm.dashed.items, DateForm.yearFirst.items] :=
  rfl

theorem read?_of_none {items : List Item} {cs : List Char} (h : readItems? items {} cs = none) :
    read? items cs = none := by
  rw [read?, h]
  rfl

theorem read?_of_some {items : List Item} {cs : List Char} {r : Reading} {t : Instant}
    (h : readItems? items {} cs = some r) (ht : r.instant? = some t) : read? items cs = some t := by
  rw [read?, h]
  exact ht

section Stamped

variable {c : Instant.Civil} (hc : Plain c) {gap : Char} (hgap : gap ∈ ['T', ' '])
  (tail : List Item) (rest : List Char)

theorem stamped_nil (form : DateForm) (hc : Plain c) :
    read? (stamped form gap tail) (form.text c) = none := by
  have htext : form.text c = form.text c ++ [] := (List.append_nil _).symm
  refine read?_of_none ?_
  rw [htext, stamped, readItems?_form hc form, readItems?_gap_nil]

include hc

theorem stamped_otherForm {form other : DateForm} (hne : form ≠ other)
    (hfirst : form = .yearFirst → other ≠ .monthFirst) :
    read? (stamped form gap tail) (other.text c ++ rest) = none :=
  read?_of_none (readItems?_otherForm hc hne hfirst _ _ _)

theorem webDate_form (form : DateForm) (more : List Item) :
    read? (webDate ++ more) (form.text c ++ rest) = none :=
  read?_of_none (readItems?_webDate_form hc form _ _ _)

include hgap

theorem readItems?_stamped (form : DateForm) :
    readItems? (stamped form gap tail) {} (form.text c ++ gap :: (timeText c ++ rest)) =
      readItems? tail ((({} : Reading).dated c).timed c) rest := by
  rw [stamped, readItems?_form hc, readItems?_gap hgap _ _ hc]

theorem stamped_otherGap (form : DateForm) {other : Char} (hother : other ∈ ['T', ' '])
    (hne : gap ≠ other) :
    read? (stamped form gap tail) (form.text c ++ other :: rest) = none := by
  refine read?_of_none ?_
  rw [stamped, readItems?_form hc, readItems?_otherGap hgap _ _ hother hne]

theorem stamped_yearFirst (g : Char) :
    read? (stamped .yearFirst g tail) (DateForm.monthFirst.text c ++ gap :: rest) = none :=
  read?_of_none (readItems?_yearFirst hc hgap g _ _ _)

end Stamped

/-! ## Behind the time -/

/-- A comma is the only other mark of a fraction. -/
theorem fractionText_cases {nanos : Nat} {fraction : List Char}
    (h : FractionText ['.', ','] nanos fraction) : FractionText ['.'] nanos fraction ∨
      ∃ d ds, fraction = ',' :: d :: ds ∧ isDigit d = true ∧
        FractionText ['.'] nanos ('.' :: d :: ds) := by
  cases h with
  | whole hzero => exact Or.inl (.whole hzero)
  | digits hmark hne hlength hds hvalue =>
    simp only [List.mem_cons, List.not_mem_nil, or_false] at hmark
    rcases hmark with rfl | rfl
    · exact Or.inl (.digits List.mem_cons_self hne hlength hds hvalue)
    · obtain ⟨d, ds, rfl⟩ := List.exists_cons_of_ne_nil hne
      exact Or.inr ⟨d, ds, rfl, hds d List.mem_cons_self,
        .digits List.mem_cons_self hne hlength hds hvalue⟩

section Tail

variable {c : Instant.Civil} {z : Offset} {fraction : List Char}

theorem head?_text (between : List Char) :
    ∀ d ∈ (z.text between).head?, isDigit d = false ∧ d ≠ '.' := by
  intro d hd
  obtain rfl : z.sign = d := Option.some.inj hd
  rcases z.sign_cases with hsign | hsign <;> rw [hsign] <;> decide

theorem head?_zoneText {zone : List Char} (h : ZoneText z zone) :
    ∀ d ∈ zone.head?, isDigit d = false ∧ d ≠ '.' := by
  cases h with
  | colon => exact head?_text _
  | compact => exact head?_text _
  | zulu =>
    intro d hd
    obtain rfl : 'Z' = d := Option.some.inj hd
    decide
  | absent =>
    intro d hd
    cases hd

section Point

variable (hfraction : FractionText ['.'] c.nanos fraction)

include hfraction

/-- Behind the time a loose offset is read with its sign and all of its digits. -/
theorem readItems?_looseTail {between : List Char} (hbetween : between = [':'] ∨ between = []) :
    readItems? [.fraction, .blank, looseOffset] ((({} : Reading).dated c).timed c)
      (fraction ++ z.text between) = some (Reading.shown c z.seconds) := by
  have hread : ∀ r, looseOffset.read? r (z.text between) =
      some ({ r with offset := z.seconds }, []) := by
    intro r
    exact read?_offset z rfl r (hbetween.imp_right fun h => ⟨rfl, h⟩)
  rw [readItems?_fraction hfraction rfl _ (head?_text between), readItems?_blank,
    trimStart_offset, readItems?_cons (hread _)]
  rfl

theorem readItems?_looseTail_nil :
    readItems? [.fraction, .blank, looseOffset] ((({} : Reading).dated c).timed c) fraction =
      none := by
  have hread := readItems?_fraction hfraction (r := (({} : Reading).dated c).timed c) rfl
    [.blank, looseOffset] (fun d hd => nomatch hd : ∀ d ∈ ([] : List Char).head?, _)
  rw [List.append_nil] at hread
  rw [hread]
  rfl

theorem readItems?_fractionTail :
    readItems? [.fraction] ((({} : Reading).dated c).timed c) fraction =
      some (Reading.shown c 0) := by
  have hread := readItems?_fraction hfraction (r := (({} : Reading).dated c).timed c) rfl
    [] (fun d hd => nomatch hd : ∀ d ∈ ([] : List Char).head?, _)
  rw [List.append_nil] at hread
  rw [hread]
  rfl

end Point

/-- The strict layout reads what is right or nothing. -/
theorem readItems?_strictTail (hfraction : FractionText ['.', ','] c.nanos fraction)
    {zone : List Char} (hzone : ZoneText z zone) {r : Option Reading}
    (hr : readItems? [.fraction, .offset { zulu := true, word := false, loose := false }]
      ((({} : Reading).dated c).timed c) (fraction ++ zone) = r) :
    r = some (Reading.shown c z.seconds) ∨ r = none := by
  subst hr
  rcases fractionText_cases hfraction with hpoint | ⟨d, ds, rfl, -, -⟩
  · rw [readItems?_fraction hpoint rfl _ (head?_zoneText hzone)]
    cases hzone with
    | colon =>
      refine Or.inl ?_
      rw [readItems?_cons (read?_offset z rfl _ (Or.inl rfl))]
      rfl
    | compact => exact Or.inr (readItems?_of_none (read?_offset_compact z rfl _ rfl) _)
    | zulu hz =>
      rw [seconds_eq_zero hz]
      exact Or.inl rfl
    | absent => exact Or.inr rfl
  · -- neither a fraction nor an offset begins with a comma
    have hsigned : ∀ rest, signedOffset? false (',' :: rest) = none := by
      intro rest
      unfold signedOffset?
      split
      · rename_i sign a b more heq
        obtain ⟨rfl, -⟩ := List.cons.inj heq
        exact if_neg fun h => absurd h.1 (by decide)
      · rfl
    have hoffset : ∀ r rest, (Item.offset { zulu := true, word := false, loose := false }).read? r
        (',' :: rest) = none := by
      intro r rest
      rw [Item.read?, offset?, hsigned]
      rfl
    exact Or.inr ((readItems?_cons rfl).trans (readItems?_of_none (hoffset _ _) _))

end Tail

/-! ## Layouts in their order -/

section Order

variable {c : Instant.Civil} (hc : Plain c) {z : Offset} {t : Instant}
  (ht : (Reading.shown c z.seconds).instant? = some t) {gap : Char} (hgap : gap ∈ ['T', ' '])
  {fraction : List Char} (hfraction : FractionText ['.'] c.nanos fraction)

include hc ht hgap hfraction

theorem findSome?_offset {between : List Char} (hbetween : between = [':'] ∨ between = []) :
    (withOffset ++ withoutOffset ++ dateOnly).findSome?
      (read? · (DateForm.dashed.text c ++ gap :: (timeText c ++ (fraction ++ z.text between)))) =
      some t := by
  have hown : read? (stamped .dashed gap [.fraction, .blank, looseOffset])
      (DateForm.dashed.text c ++ gap :: (timeText c ++ (fraction ++ z.text between))) = some t := by
    refine read?_of_some ?_ ht
    rw [readItems?_stamped hc hgap, readItems?_looseTail hfraction hbetween]
  rw [layouts_eq]
  simp only [List.mem_cons, List.not_mem_nil, or_false] at hgap
  rcases hgap with rfl | rfl
  · simp only [List.findSome?_cons, hown]
  · have hT : 'T' ∈ ['T', ' '] := by simp
    have hspace : ' ' ∈ ['T', ' '] := by simp
    have hother := stamped_otherGap hc hT [.fraction, .blank, looseOffset]
      (timeText c ++ (fraction ++ z.text between)) .dashed hspace (by decide)
    simp only [List.findSome?_cons, hother, hown]

theorem findSome?_naive (hz : z.minutes = 0) (form : DateForm) :
    (withOffset ++ withoutOffset ++ dateOnly).findSome?
      (read? · (form.text c ++ gap :: (timeText c ++ fraction))) = some t := by
  rw [seconds_eq_zero hz] at ht
  have hown : read? (stamped form gap [.fraction])
      (form.text c ++ gap :: (timeText c ++ fraction)) = some t := by
    refine read?_of_some ?_ ht
    rw [readItems?_stamped hc hgap, readItems?_fractionTail hfraction]
  have hweb : ∀ more, read? (webDate ++ more) (form.text c ++ gap :: (timeText c ++ fraction)) =
      none := webDate_form hc _ form
  have hzone : ∀ g ∈ ['T', ' '], read? (stamped .dashed g [.fraction, .blank, looseOffset])
      (form.text c ++ gap :: (timeText c ++ fraction)) = none := by
    intro g hg
    by_cases hform : form = .dashed
    · subst hform
      by_cases hsame : g = gap
      · subst hsame
        refine read?_of_none ?_
        rw [readItems?_stamped hc hgap, readItems?_looseTail_nil hfraction]
      · exact stamped_otherGap hc hg _ _ _ hgap hsame
    · exact stamped_otherForm hc _ _ (Ne.symm hform) (by simp)
  have hT := hzone 'T' (by simp)
  have hspace := hzone ' ' (by simp)
  have hgaps : ∀ g ∈ ['T', ' '], g ≠ gap → read? (stamped form g [.fraction])
      (form.text c ++ gap :: (timeText c ++ fraction)) = none :=
    fun g hg hne => stamped_otherGap hc hg _ _ _ hgap hne
  have hdashed : ∀ g, form ≠ .dashed → read? (stamped .dashed g [.fraction])
      (form.text c ++ gap :: (timeText c ++ fraction)) = none :=
    fun g hform => stamped_otherForm hc _ _ (Ne.symm hform) (by simp)
  have hyearFirst : ∀ g, form = .monthFirst → read? (stamped .yearFirst g [.fraction])
      (form.text c ++ gap :: (timeText c ++ fraction)) = none := by
    rintro g rfl
    exact stamped_yearFirst hc hgap _ _ g
  rw [layouts_eq]
  simp only [List.findSome?_cons, hT, hspace, hweb]
  simp only [List.mem_cons, List.not_mem_nil, or_false] at hgap
  cases form with
  | dashed =>
    rcases hgap with rfl | rfl
    · simp only [hown]
    · simp only [hgaps 'T' (by simp) (by decide), hown]
  | yearFirst =>
    simp only [hdashed _ (by decide)]
    rcases hgap with rfl | rfl
    · simp only [hgaps ' ' (by simp) (by decide), hown]
    · simp only [hown]
  | monthFirst =>
    simp only [hdashed _ (by decide), hyearFirst _ rfl]
    rcases hgap with rfl | rfl
    · simp only [hgaps ' ' (by simp) (by decide), hown]
    · simp only [hown]

end Order

theorem findSome?_web {c : Instant.Civil} (hc : Plain c) {z : Offset} {t : Instant}
    (ht : (Reading.shown c z.seconds).instant? = some t) (hwhole : c.nanos = 0) :
    (withOffset ++ withoutOffset ++ dateOnly).findSome?
      (read? · (webDateText c ++ ':' :: (timeText c ++ ' ' :: z.text []))) = some t := by
  have hdashed : ∀ gap tail, read? (stamped .dashed gap tail)
      (webDateText c ++ ':' :: (timeText c ++ ' ' :: z.text [])) = none :=
    fun gap tail => read?_of_none (readItems?_dashed_web hc _ _ _)
  have hown : read? (webDate ++ (literal ":" ++ (clock ++ [.blank, looseOffset])))
      (webDateText c ++ ':' :: (timeText c ++ ' ' :: z.text [])) = some t := by
    have hread : ∀ r, looseOffset.read? r (z.text []) = some ({ r with offset := z.seconds }, []) :=
      fun r => read?_offset z rfl r (Or.inr ⟨rfl, rfl⟩)
    have htrim : trimStart (' ' :: z.text []) = z.text [] :=
      (List.dropWhile_cons_of_pos (by decide)).trans (trimStart_offset z [])
    have hcolon : literal ":" = [.oneOf [':']] := rfl
    refine read?_of_some ?_ ht
    rw [readItems?_webDate hc, hcolon, List.singleton_append,
      readItems?_cons (read?_oneOf List.mem_cons_self), readItems?_timeText hc, readItems?_blank,
      htrim, readItems?_cons (hread _), Reading.shown, hwhole]
    rfl
  rw [layouts_eq]
  simp only [List.findSome?_cons, hdashed, hown]

theorem findSome?_date {c : Instant.Civil} (hc : Plain c) {z : Offset} {t : Instant}
    (ht : (Reading.shown c z.seconds).instant? = some t) (hz : z.minutes = 0)
    (hmidnight : c.hour = 0 ∧ c.minute = 0 ∧ c.second = 0 ∧ c.nanos = 0) :
    (withOffset ++ withoutOffset ++ dateOnly).findSome? (read? · (DateForm.dashed.text c)) =
      some t := by
  have hother : ∀ form gap tail, read? (stamped form gap tail) (DateForm.dashed.text c) = none := by
    intro form gap tail
    by_cases hform : form = .dashed
    · subst hform
      exact stamped_nil tail .dashed hc
    · have hnone : read? (stamped form gap tail) (DateForm.dashed.text c ++ []) = none :=
        stamped_otherForm hc tail [] hform (fun _ => by decide)
      rwa [List.append_nil] at hnone
  have hweb : ∀ more, read? (webDate ++ more) (DateForm.dashed.text c) = none := by
    intro more
    have hnone := webDate_form hc [] .dashed more
    rwa [List.append_nil] at hnone
  have hown : read? DateForm.dashed.items (DateForm.dashed.text c) = some t := by
    have hread := readItems?_form hc .dashed {} [] []
    have hshown : ({} : Reading).dated c = Reading.shown c z.seconds := by
      obtain ⟨hhour, hminute, hsecond, hnanos⟩ := hmidnight
      rw [Reading.shown, hhour, hminute, hsecond, hnanos, seconds_eq_zero hz]
      rfl
    rw [List.append_nil, List.append_nil, hshown] at hread
    exact read?_of_some hread ht
  rw [layouts_eq]
  simp only [List.findSome?_cons, hother, hweb, hown]

/-! ## The strict layout -/

section Strict

variable {c : Instant.Civil} (hc : Plain c)

include hc

theorem readItems?_rfc3339 {gap : Char} (hgap : gap ∈ ['T', ' ']) (rest : List Char) :
    readItems? rfc3339 {} (DateForm.dashed.text c ++ gap :: (timeText c ++ rest)) =
      readItems? [.fraction, .offset { zulu := true, word := false, loose := false }]
        ((({} : Reading).dated c).timed c) rest := by
  have hgap' : gap ∈ ['T', 't', ' '] := by
    simp only [List.mem_cons, List.not_mem_nil, or_false] at hgap ⊢
    rcases hgap with h | h <;> simp [h]
  rw [rfc3339, List.append_assoc, List.append_assoc, readItems?_strictDate hc,
    List.singleton_append, readItems?_cons (read?_oneOf hgap'), readItems?_strictTime hc]

/-- Two digits are no year for the strict layout. -/
theorem rfc3339_short {part : Part} (hpart : part.width = 2) {other : Char}
    (hother : isDigit other = false) (rest : List Char) :
    read? rfc3339 (part.text c ++ other :: rest) = none := by
  have hlength := hc.length_text part
  have hdigits : digits? 4 (part.text c ++ other :: rest) = some (part.text c, other :: rest) := by
    refine digits?_append _ part.text_ne_nil Part.isDigit_of_mem_text (by omega) (Or.inr ?_)
    exact fun d hd => Option.some.inj hd ▸ hother
  have hyear : (Item.strict .year).read? {} (part.text c ++ other :: rest) = none := by
    have hwidth : Part.year.width = 4 := rfl
    have hne : ¬(part.text c).length = 4 := by omega
    rw [Item.read?, strict?, hwidth, hdigits, Option.bind_eq_bind, Option.bind_some]
    exact if_neg hne
  refine read?_of_none ?_
  obtain ⟨items, hitems⟩ : ∃ items, rfc3339 = .strict .year :: items := ⟨_, rfl⟩
  rw [hitems, readItems?_of_none hyear]

theorem rfc3339_slashed {form : DateForm} (hform : form ≠ .dashed) (rest : List Char) :
    read? rfc3339 (form.text c ++ rest) = none := by
  cases form with
  | dashed => exact absurd rfl hform
  | yearFirst =>
    refine read?_of_none ?_
    simp only [DateForm.text, partsText, List.append_assoc, List.cons_append]
    rw [rfc3339, List.append_assoc, List.append_assoc]
    exact readItems?_separator (by decide) (read?_part (hc.fits .year) (Or.inl rfl) _ _) _
  | monthFirst =>
    simp only [DateForm.text, partsText, List.append_assoc, List.cons_append]
    exact rfc3339_short hc rfl (by decide) _

theorem rfc3339_date : read? rfc3339 (DateForm.dashed.text c) = none := by
  have hread := readItems?_strictDate hc {} ([.oneOf ['T', 't', ' ']] ++
    (separated ':' (.strict .hour) (.strict .minute) (.strict .second) ++
      [.fraction, .offset { zulu := true, word := false, loose := false }])) []
  rw [List.append_nil] at hread
  refine read?_of_none ?_
  rw [rfc3339, List.append_assoc, List.append_assoc, hread]
  exact readItems?_of_none rfl _

end Strict

/-! ## Commas -/

section Comma

variable {c : Instant.Civil}

theorem comma_notMem_part (part : Part) : ',' ∉ part.text c := comma_notMem_padded _ _

theorem comma_notMem_partsText {separator : Char} (h : ',' ≠ separator) (x y z : Part) :
    ',' ∉ partsText c separator x y z := by
  simp [partsText, comma_notMem_part, h]

theorem comma_notMem_form (form : DateForm) : ',' ∉ form.text c := by
  cases form <;> exact comma_notMem_partsText (by decide) _ _ _

theorem comma_notMem_timeText : ',' ∉ timeText c := comma_notMem_partsText (by decide) _ _ _

theorem comma_ne_gap {gap : Char} (h : gap ∈ ['T', ' ']) : ',' ≠ gap := by
  rintro rfl
  exact absurd h (by decide)

theorem comma_notMem_offset (z : Offset) {between : List Char} (h : ',' ∉ between) :
    ',' ∉ z.text between := by
  have hsign : ',' ≠ z.sign := by
    rcases z.sign_cases with hsign | hsign <;> rw [hsign] <;> decide
  simp [Offset.text, comma_notMem_padded, hsign, h]

theorem comma_notMem_zoneText {z : Offset} {zone : List Char} (h : ZoneText z zone) :
    ',' ∉ zone := by
  cases h with
  | colon => exact comma_notMem_offset z (by decide)
  | compact => exact comma_notMem_offset z List.not_mem_nil
  | zulu => decide
  | absent => exact List.not_mem_nil

theorem comma_notMem_fraction {nanos : Nat} {fraction : List Char}
    (h : FractionText ['.'] nanos fraction) : ',' ∉ fraction := by
  cases h with
  | whole => exact List.not_mem_nil
  | digits hmark _ _ hds =>
    rw [List.mem_singleton.mp hmark]
    exact List.not_mem_cons_of_ne_of_not_mem (by decide) fun h => absurd (hds ',' h) (by decide)

/-- The comma behind the time becomes a point. -/
theorem pointFraction_comma (hc : Plain c) {before : List Char} (hbefore : ',' ∉ before) {d : Char}
    (hd : isDigit d = true) (rest : List Char) :
    pointFraction (before ++ (timeText c ++ ',' :: d :: rest)) =
      before ++ (timeText c ++ '.' :: d :: rest) := by
  have hlength : (timeText c).length = 8 := by
    simp only [timeText, partsText, List.length_append, List.length_cons, hc.length_text]
    rfl
  induction before with
  | nil =>
    have htwo : ∀ (part : Part) (rest : List Char), part.width = 2 →
        Pattern.times 2 isAnyDigit (part.text c ++ rest) = [rest] := fun part rest hpart =>
      Pattern.times_append ((hc.length_text part).trans hpart)
        (fun d hd => isAnyDigit_of_isDigit (Part.isDigit_of_mem_text d hd)) rest
    have hmatch : commaFraction (timeText c ++ ',' :: d :: rest) = [rest] := by
      simp only [timeText, partsText, List.append_assoc, List.cons_append]
      rw [commaFraction, Pattern.inOrder_of_single (htwo .hour _ rfl),
        Pattern.inOrder_of_single (Pattern.char_self _ _),
        Pattern.inOrder_of_single (htwo .minute _ rfl),
        Pattern.inOrder_of_single (Pattern.char_self _ _),
        Pattern.inOrder_of_single (htwo .second _ rfl),
        Pattern.inOrder_of_single (Pattern.char_self _ _),
        Pattern.inOrder_of_single (Pattern.one_of_pos (isAnyDigit_of_isDigit hd) _)]
      rfl
    have htake : (timeText c ++ ',' :: d :: rest).take 8 = timeText c := List.take_left' hlength
    have hdrop : (timeText c ++ ',' :: d :: rest).drop 9 = d :: rest := by
      rw [List.drop_append, List.drop_eq_nil_of_le (by omega), hlength]
      rfl
    rw [List.nil_append, List.nil_append, pointFraction_of_ne_nil (by rw [hmatch]; simp), htake,
      hdrop]
  | cons x before ih =>
    have heighth : (x :: (before ++ (timeText c ++ ',' :: d :: rest)))[8]? ≠ some ',' := by
      have hwithin : 8 < (x :: before ++ timeText c).length := by
        rw [List.length_append, List.length_cons, hlength]
        omega
      rw [← List.cons_append, ← List.append_assoc, List.getElem?_append_left hwithin]
      intro hcomma
      rcases List.mem_append.mp (List.mem_of_getElem? hcomma) with hmem | hmem
      · exact hbefore hmem
      · exact comma_notMem_timeText hmem
    rw [List.cons_append, pointFraction_cons heighth,
      ih fun h => hbefore (List.mem_cons_of_mem x h), List.cons_append]

end Comma

/-! ## Ends of the texts -/

namespace EndsInDigit

variable {c : Instant.Civil}

theorem partsText (separator : Char) (x y z : Part) :
    EndsInDigit (Layout.partsText c separator x y z) :=
  (((of_digits z.text_ne_nil Part.isDigit_of_mem_text).cons _).append _).cons _ |>.append _

theorem fraction {marks : List Char} {nanos : Nat} {cs : List Char}
    (h : FractionText marks nanos cs) : EndsInDigit (timeText c ++ cs) := by
  cases h with
  | whole =>
    rw [List.append_nil]
    exact partsText ':' _ _ _
  | digits _ hne _ hds => exact ((of_digits hne hds).cons _).append _

theorem offset (z : Offset) (between : List Char) : EndsInDigit (z.text between) :=
  (((of_digits (padded_ne_nil _ _) isDigit_of_mem_padded).append _).append _).cons _

end EndsInDigit

section Texts

variable {z : Offset} {c : Instant.Civil} {text : List Char}

theorem head?_part (part : Part) (rest : List Char) :
    ∀ d ∈ (part.text c ++ rest).head?, isBlank d = false ∧ d ≠ '[' := by
  intro d hd
  rw [List.head?_append_of_ne_nil _ part.text_ne_nil] at hd
  exact edge_of_isDigit (Part.isDigit_of_mem_text d (List.mem_of_mem_head? hd)) (by decide)

theorem head?_form (form : DateForm) (rest : List Char) :
    ∀ d ∈ (form.text c ++ rest).head?, isBlank d = false ∧ d ≠ '[' := by
  cases form <;> simp only [DateForm.text, partsText, List.append_assoc] <;> exact head?_part _ _

theorem Rendering.solid (h : Rendering z c text) : Solid text := by
  cases h with
  | dashed hgap hfraction hzone =>
    refine solid_of_ends (head?_form .dashed _) ?_
    cases hzone with
    | colon => exact Or.inl (((((EndsInDigit.offset z _).append _).append _).cons _).append _)
    | compact => exact Or.inl (((((EndsInDigit.offset z _).append _).append _).cons _).append _)
    | zulu =>
      refine Or.inr ?_
      rw [← List.append_assoc (timeText c), ← List.cons_append, ← List.append_assoc,
        List.getLast?_concat]
    | absent =>
      rw [List.append_nil]
      exact Or.inl (((EndsInDigit.fraction hfraction).cons _).append _)
  | slashed hform hgap hfraction =>
    exact solid_of_ends (head?_form _ _)
      (Or.inl (((EndsInDigit.fraction hfraction).cons _).append _))
  | web =>
    have hlast := EndsInDigit.offset z []
    refine solid_of_ends ?_ (Or.inl ((((hlast.cons _).append _).cons _).append _))
    rw [webDateText, List.append_assoc]
    exact head?_part .day _
  | date =>
    refine solid_of_ends ?_ (Or.inl (EndsInDigit.partsText '-' _ _ _))
    have hhead := head?_form (c := c) .dashed []
    rwa [List.append_nil] at hhead

theorem Rendering.noCount (h : Rendering z c text) : NoCount text := by
  have hdashed : '-' ∈ DateForm.dashed.text c := by simp [DateForm.text, partsText]
  have hslash : ∀ form, form ≠ .dashed → '/' ∈ DateForm.text c form := by
    intro form hform
    cases form <;> first | exact absurd rfl hform | simp [DateForm.text, partsText]
  cases h with
  | dashed => exact .of_mem (List.mem_append_left _ hdashed) (by decide) (by decide)
  | slashed hform => exact .of_mem (List.mem_append_left _ (hslash _ hform)) (by decide) (by decide)
  | web =>
    have hmem : '/' ∈ webDateText c := by simp [webDateText]
    exact .of_mem (List.mem_append_left _ hmem) (by decide) (by decide)
  | date => exact .of_mem hdashed (by decide) (by decide)

end Texts

/-! ## Reading a rendering -/

section Recognized

variable {z : Offset} {c : Instant.Civil} (hc : Plain c) {t : Instant}
  (ht : (Reading.shown c z.seconds).instant? = some t) {gap : Char} (hgap : gap ∈ ['T', ' '])

include hc

/-- A comma before the fraction is a point for all layouts but the strict one. -/
theorem exists_pointFraction {fraction zone : List Char}
    (hfraction : FractionText ['.', ','] c.nanos fraction) (hzone : ZoneText z zone)
    (hgap : gap ∈ ['T', ' ']) : ∃ fraction', FractionText ['.'] c.nanos fraction' ∧
      pointFraction (DateForm.dashed.text c ++ gap :: (timeText c ++ (fraction ++ zone))) =
        DateForm.dashed.text c ++ gap :: (timeText c ++ (fraction' ++ zone)) := by
  have hbefore : ',' ∉ DateForm.dashed.text c ++ [gap] := by
    simp [comma_notMem_form, comma_ne_gap hgap]
  rcases fractionText_cases hfraction with hpoint | ⟨d, ds, rfl, hd, hpoint⟩
  · refine ⟨fraction, hpoint, pointFraction_eq_self ?_⟩
    have hrest : ',' ∉ timeText c ++ (fraction ++ zone) := by
      simp [comma_notMem_timeText, comma_notMem_fraction hpoint, comma_notMem_zoneText hzone]
    rw [← List.singleton_append, ← List.append_assoc]
    exact fun h => (List.mem_append.mp h).elim hbefore hrest
  · refine ⟨'.' :: d :: ds, hpoint, ?_⟩
    have hcomma := pointFraction_comma hc hbefore hd (ds ++ zone)
    simpa only [List.append_assoc, List.cons_append, List.nil_append] using hcomma

include ht

theorem recognized_dashed {fraction zone : List Char} (hgap : gap ∈ ['T', ' '])
    (hfraction : FractionText ['.', ','] c.nanos fraction) (hzone : ZoneText z zone) :
    Recognized (DateForm.dashed.text c ++ gap :: (timeText c ++ (fraction ++ zone))) t := by
  have hstrict := readItems?_rfc3339 hc hgap (fraction ++ zone)
  rcases readItems?_strictTail hfraction hzone hstrict.symm with hread | hread
  · exact Or.inl (read?_of_some hread ht)
  refine Or.inr ⟨read?_of_none hread, ?_⟩
  obtain ⟨fraction', hfraction', hpoint⟩ := exists_pointFraction hc hfraction hzone hgap
  rw [hpoint]
  have hoffset : ∀ (z : Offset) between, EndsInDigit (DateForm.dashed.text c ++ gap ::
      (timeText c ++ (fraction' ++ z.text between))) := fun z between =>
    ((((EndsInDigit.offset z between).append _).append _).cons _).append _
  cases hzone with
  | colon =>
    rw [(hoffset z _).numericOffset_eq]
    exact findSome?_offset hc ht hgap hfraction' (Or.inl rfl)
  | compact =>
    rw [(hoffset z _).numericOffset_eq]
    exact findSome?_offset hc ht hgap hfraction' (Or.inr rfl)
  | zulu hz =>
    have hzero : (Offset.mk false 0 (by decide)).seconds = z.seconds := (seconds_eq_zero hz).symm
    have htext : "+00:00".toList = (Offset.mk false 0 (by decide)).text [':'] := by decide +kernel
    have hnormal : numericOffset
        (DateForm.dashed.text c ++ gap :: (timeText c ++ (fraction' ++ ['Z']))) =
        DateForm.dashed.text c ++ gap ::
          (timeText c ++ (fraction' ++ (Offset.mk false 0 (by decide)).text [':'])) := by
      have hconcat := numericOffset_concat
        (DateForm.dashed.text c ++ gap :: (timeText c ++ fraction'))
      simpa only [List.append_assoc, List.cons_append, htext] using hconcat
    rw [hnormal]
    exact findSome?_offset hc (hzero ▸ ht) hgap hfraction' (Or.inl rfl)
  | absent hz =>
    have hlast : EndsInDigit (DateForm.dashed.text c ++ gap :: (timeText c ++ fraction')) :=
      ((EndsInDigit.fraction hfraction').cons _).append _
    rw [List.append_nil, hlast.numericOffset_eq]
    exact findSome?_naive hc ht hgap hfraction' hz .dashed

theorem Rendering.recognized {text : List Char} (h : Rendering z c text) : Recognized text t := by
  have hnormal : ∀ {cs : List Char}, ',' ∉ cs → EndsInDigit cs →
      numericOffset (pointFraction cs) = cs := by
    intro cs hcomma hlast
    rw [pointFraction_eq_self hcomma, hlast.numericOffset_eq]
  cases h with
  | dashed hgap hfraction hzone => exact recognized_dashed hc ht hgap hfraction hzone
  | slashed hform hgap hfraction hz =>
    rename_i form gap fraction
    refine Or.inr ⟨rfc3339_slashed hc hform _, ?_⟩
    have hcomma : ',' ∉ form.text c ++ gap :: (timeText c ++ fraction) := by
      simp [comma_notMem_form, comma_notMem_timeText, comma_notMem_fraction hfraction,
        comma_ne_gap hgap]
    rw [hnormal hcomma (((EndsInDigit.fraction hfraction).cons _).append _)]
    exact findSome?_naive hc ht hgap hfraction hz form
  | web hwhole =>
    have hdate : ∀ rest, webDateText c ++ rest = Part.day.text c ++
        '/' :: (monthName c.date.month ++ '/' :: (Part.year.text c ++ rest)) := by
      intro rest
      simp only [webDateText, List.append_assoc, List.cons_append]
    have hstrict : read? rfc3339 (webDateText c ++ ':' :: (timeText c ++ ' ' :: z.text [])) =
        none := by
      rw [hdate]
      exact rfc3339_short hc rfl (by decide) _
    have hcomma : ',' ∉ webDateText c ++ ':' :: (timeText c ++ ' ' :: z.text []) := by
      have hoffset : ',' ∉ z.text [] := comma_notMem_offset z List.not_mem_nil
      simp [webDateText, comma_notMem_part, comma_notMem_monthName hc.month,
        comma_notMem_timeText, hoffset]
    have hlast : EndsInDigit (webDateText c ++ ':' :: (timeText c ++ ' ' :: z.text [])) :=
      ((((EndsInDigit.offset z []).cons _).append _).cons _).append _
    refine Or.inr ⟨hstrict, ?_⟩
    rw [hnormal hcomma hlast]
    exact findSome?_web hc ht hwhole
  | date hz hmidnight =>
    refine Or.inr ⟨rfc3339_date hc, ?_⟩
    rw [hnormal (comma_notMem_form .dashed) (EndsInDigit.partsText '-' _ _ _)]
    exact findSome?_date hc ht hz hmidnight

end Recognized

/-- Every rendering of an instant is read as the instant, also with white space or brackets around
it. -/
theorem parse_rendering {z : Offset} {t shown : Instant} (hshows : Shows z t shown)
    {text : List Char} (hrendering : Rendering z shown.civil text) {s : String}
    (haround : Around text s.toList) (reference : Instant) : parse s reference = .ok (some t) :=
  parse_of_recognized (inner_of_around hrendering.solid haround) hrendering.noCount reference
    (hrendering.recognized hshows.plain hshows.instant?)

/-- A quarter of a second past midnight, as a clock in brackets shows it half past five. -/
theorem parse_rendering_brackets :
    let t : Instant := ⟨1709164800, 250000000, by decide, by decide, by decide⟩
    let shown : Instant := ⟨1709184600, 250000000, by decide, by decide, by decide⟩
    let z : Offset := ⟨false, 330, by decide⟩
    let text := "2024-02-29 05:30:00,250+0530".toList
    Shows z t shown ∧ Rendering z shown.civil text ∧
      Around text " [2024-02-29 05:30:00,250+0530]".toList ∧
      parse " [2024-02-29 05:30:00,250+0530]" Instant.earliest = .ok (some t) := by
  intro t shown z text
  have hshows : Shows z t shown := ⟨by decide, rfl, by decide, by decide +kernel⟩
  have hdigits : ∀ d ∈ ['2', '5', '0'], isDigit d = true := List.all_eq_true.mp rfl
  have hfraction : FractionText ['.', ','] shown.civil.nanos [',', '2', '5', '0'] :=
    .digits (by decide) (List.cons_ne_nil _ _) (by decide) hdigits (by decide +kernel)
  have htext : text = DateForm.dashed.text shown.civil ++
      ' ' :: (timeText shown.civil ++ ([',', '2', '5', '0'] ++ z.text [])) := by
    decide +kernel
  have hrendering : Rendering z shown.civil text :=
    htext ▸ .dashed (by decide) hfraction .compact
  have haround : Around text " [2024-02-29 05:30:00,250+0530]".toList :=
    Or.inr ⟨text, ⟨[], [], List.forall_mem_nil _, List.forall_mem_nil _, by simp⟩,
      ⟨[' '], [], List.forall_mem_singleton.mpr (by decide), List.forall_mem_nil _, rfl⟩⟩
  exact ⟨hshows, hrendering, haround, parse_rendering hshows hrendering haround _⟩

end Stamp
end LogLens
