/-
Filters that ask for an instant.

An instant can stand in a value as a date or as a text that is read as one (`Denotes`).  A filter
for equality holds between two of them when they are the same instant, except that two dates are
compared as numbers, to the millisecond (`passes_instant_iff`): of two dates within a millisecond
each passes the filter for the other (`passes_other_instant`).
-/
import LogLens.Proofs.Query.Facet
import LogLens.Proofs.Query.TimestampFilter

namespace LogLens

open Query

theorem Instant.WholeMillis.millis_eq_iff {a b : Instant} (ha : a.WholeMillis)
    (hb : b.WholeMillis) : a.millis = b.millis ↔ a = b := by
  rw [le_antisymm_iff, ha.millis_le_iff hb, hb.millis_le_iff ha, ← le_antisymm_iff]

namespace Match

/-- The value is the instant, or a text that is read as the instant and not as a number. -/
inductive Denotes (now t : Instant) : FieldValue → Prop
  | date : Denotes now t (.date t)
  | text {s : String} (hnumber : parseNumber? s = none) (hstamp : Stamp.parse? s now = some t) :
      Denotes now t (.text s)

def IsDate (v : FieldValue) : Prop := ∃ t, v = .date t

variable {now a b : Instant} {caseSensitive : Bool}

section Denotes

variable {v actual expected : FieldValue}

theorem Denotes.instant? (h : Denotes now a v) : instant? now v = some a := by
  cases h with
  | date => rfl
  | text _ hstamp => exact hstamp

theorem Denotes.number?_of_not_date (h : Denotes now a v) (hv : ¬IsDate v) : v.number? = none := by
  cases h with
  | date => exact absurd ⟨a, rfl⟩ hv
  | text hnumber _ => exact hnumber

theorem Denotes.eq_date (h : Denotes now a v) (hv : IsDate v) : v = .date a := by
  obtain ⟨t, rfl⟩ := hv
  cases h
  rfl

/-- No level is an instant. -/
theorem not_denotes_level (level : Level) : ¬Denotes now a (.text level.name) := by
  intro h
  cases h with
  | text _ hstamp =>
    rw [Stamp.parse?, (plain_of_coerce (coerce_level level now)).2] at hstamp
    cases hstamp

/-! ## Two values -/

theorem valuesEqual_dates (a b : Instant) :
    valuesEqual now caseSensitive (.date a) (.date b) = true ↔ a.millis = b.millis :=
  Binary64.numEq_ofInt_iff a.natAbs_millis_lt b.natAbs_millis_lt

/-- Unless both are dates, one of them is no number, and the instants themselves are compared. -/
theorem valuesEqual_instants (ha : Denotes now a actual) (hb : Denotes now b expected)
    (hdates : ¬(IsDate actual ∧ IsDate expected)) :
    valuesEqual now caseSensitive actual expected = true ↔ a = b := by
  have hvalues : valuesEqual now caseSensitive actual expected = (a == b) := by
    rw [valuesEqual, ha.instant?, hb.instant?]
    by_cases hactual : IsDate actual
    · rw [hb.number?_of_not_date fun hexpected => hdates ⟨hactual, hexpected⟩]
      cases actual.number? <;> rfl
    · rw [ha.number?_of_not_date hactual]
  rw [hvalues, beq_iff_eq]

/-! ## Filters -/

/-- What an entry shows as an instant is compared as a value; only levels are compared otherwise. -/
theorem passes_equals {e : Entry} {field : String} (hfield : e.field? field = some actual)
    (ha : Denotes now a actual) :
    passes now caseSensitive e ⟨field, .equals, .scalar expected, false⟩ =
      valuesEqual now caseSensitive actual expected := by
  have hlevel : field ≠ "level" := by
    rintro rfl
    obtain rfl : .text e.level.name = actual := Option.some.inj hfield
    exact not_denotes_level e.level ha
  rw [passes, hfield]
  simp only [if_neg hlevel, Bool.bne_false]
  rfl

/-- A filter for equality between two values that denote instants holds when these are the same,
for two dates to the millisecond; so on whole milliseconds, and for all other values, it holds
exactly when the instants are the same. -/
theorem passes_instant_iff {e : Entry} {field : String} (hfield : e.field? field = some actual)
    (ha : Denotes now a actual) (hb : Denotes now b expected) (caseSensitive : Bool) :
    let passed := passes now caseSensitive e ⟨field, .equals, .scalar expected, false⟩
    (IsDate actual ∧ IsDate expected → (passed = true ↔ a.millis = b.millis)) ∧
      ((IsDate actual ∧ IsDate expected → a.WholeMillis ∧ b.WholeMillis) →
        (passed = true ↔ a = b)) := by
  intro passed
  have hpassed : passed = valuesEqual now caseSensitive actual expected :=
    passes_equals hfield ha
  have hdates : IsDate actual ∧ IsDate expected → (passed = true ↔ a.millis = b.millis) := by
    rintro ⟨hactual, hexpected⟩
    rw [hpassed, ha.eq_date hactual, hb.eq_date hexpected, valuesEqual_dates]
  refine ⟨hdates, fun hmillis => ?_⟩
  by_cases hboth : IsDate actual ∧ IsDate expected
  · obtain ⟨hwhole, hwhole'⟩ := hmillis hboth
    rw [hdates hboth, hwhole.millis_eq_iff hwhole']
  · rw [hpassed, valuesEqual_instants ha hb hboth]

end Denotes

/-- An entry of a tenth of a millisecond past noon passes the filter for the time that a clock with
another offset shows then. -/
theorem passes_instant_iff_offset :
    let t : Instant := ⟨1759320000, 100000, by decide, by decide, by decide⟩
    let e : Entry := { timestamp := t, level := .info, message := "", file := "a.log", raw := "" }
    let shown : FieldValue := .text "2025-10-01T14:00:00.0001+02:00"
    e.field? "timestamp" = some (.date t) ∧ Denotes .earliest t (.date t) ∧
      Denotes .earliest t shown ∧
      passes .earliest true e ⟨"timestamp", .equals, .scalar shown, false⟩ = true := by
  intro t e shown
  have hshown : Denotes .earliest t shown := .text (by decide +kernel) (by decide +kernel)
  have hfield : e.field? "timestamp" = some (.date t) := rfl
  have hiff := (passes_instant_iff hfield .date hshown true).2
  refine ⟨hfield, .date, hshown, (hiff ?_).mpr rfl⟩
  rintro ⟨-, t', ht'⟩
  simp only [shown, reduceCtorEq] at ht'

/-- The instants differ by a tenth of a millisecond, and as dates they count as equal; as a text the
other one does not. -/
theorem passes_other_instant :
    let a : Instant := ⟨1759320000, 100000, by decide, by decide, by decide⟩
    let b : Instant := ⟨1759320000, 200000, by decide, by decide, by decide⟩
    let e : Entry := { timestamp := a, level := .info, message := "", file := "a.log", raw := "" }
    let passed (expected : FieldValue) : Bool :=
      passes .earliest true e ⟨"timestamp", .equals, .scalar expected, false⟩
    a ≠ b ∧ passed (.date b) = true ∧ passed (.text "2025-10-01T12:00:00.0002Z") = false := by
  decide +kernel

end Match
end LogLens
