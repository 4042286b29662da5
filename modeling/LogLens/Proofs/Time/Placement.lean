/-
When times without a year can be placed.

The year of such a time is found by looking one day ahead of the reference.  As long as that day is
in the representable years, reading a timestamp never fails, and neither does anything that reads
timestamps: it finds an instant or it finds none.
-/
import Mathlib
import LogLens.Document
import LogLens.Query.Parser

namespace LogLens

/-! ## Readings that do not fail -/

namespace Placement

variable {ε α β : Type}

theorem bind_isOk {x : Except ε α} {f : α → Except ε β} (hx : ∃ a, x = .ok a)
    (hf : ∀ a, ∃ b, f a = .ok b) : ∃ b, x >>= f = .ok b := by
  obtain ⟨a, rfl⟩ := hx
  exact hf a

theorem findSomeM?_isOk {f : α → Except ε (Option β)} (hf : ∀ a, ∃ b, f a = .ok b) (l : List α) :
    ∃ b, l.findSomeM? f = .ok b := by
  induction l with
  | nil => exact ⟨none, rfl⟩
  | cons a l ih =>
    rw [List.findSomeM?]
    refine bind_isOk (hf a) fun found => ?_
    cases found with
    | none => exact ih
    | some b => exact ⟨some b, rfl⟩

end Placement

open Placement

/-! ## The reference -/

/-- The day after the instant is in the representable years. -/
def Instant.HasNextDay (t : Instant) : Prop := t.seconds + secondsPerDay ≤ Instant.lastSecond

instance (t : Instant) : Decidable t.HasNextDay :=
  inferInstanceAs (Decidable (t.seconds + secondsPerDay ≤ Instant.lastSecond))

theorem Instant.exists_of? {seconds : Int} {nanos : Nat} (hfirst : firstSecond ≤ seconds)
    (hlast : seconds ≤ lastSecond) (hnanos : nanos < 2 * nanosPerSecond) :
    ∃ t, of? seconds nanos = some t ∧ t.seconds = seconds ∧ t.nanos = nanos :=
  ⟨_, dif_pos ⟨hfirst, hlast, hnanos⟩, rfl, rfl⟩

theorem Instant.HasNextDay.later? {t : Instant} (h : t.HasNextDay) :
    ∃ next, t.later? secondsPerDay.toNat = some next := by
  have hspan : ((secondsPerDay.toNat : Nat) : Int) = secondsPerDay := rfl
  have hfirst := t.first_le
  have hnanos := t.nanos_lt
  have hday : t.seconds + secondsPerDay ≤ lastSecond := h
  have hlater : firstSecond ≤ t.seconds + (secondsPerDay.toNat : Nat) := by
    rw [hspan]
    simp only [secondsPerDay]
    omega
  rw [Instant.later?, if_neg (by decide)]
  split
  · obtain ⟨next, hnext, -⟩ := exists_of? hlater (hspan ▸ hday) hnanos
    exact ⟨next, hnext⟩
  · have hrest : t.nanos - nanosPerSecond < 2 * nanosPerSecond := by omega
    obtain ⟨next, hnext, -⟩ := exists_of? hlater (hspan ▸ hday) hrest
    exact ⟨next, hnext⟩

namespace Stamp

variable {reference : Instant}

theorem inferYear_isOk (h : reference.HasNextDay) (t : Yearless) :
    ∃ found, inferYear t reference = .ok found := by
  obtain ⟨next, hnext⟩ := h.later?
  rw [inferYear]
  cases t.inYear? reference.year with
  | none => exact ⟨none, rfl⟩
  | some candidate => exact ⟨_, by rw [hnext]⟩

theorem parse_isOk (h : reference.HasNextDay) (s : String) :
    ∃ found, parse s reference = .ok found := by
  rw [parse]
  dsimp only
  split
  · exact ⟨_, rfl⟩
  split
  · exact ⟨_, rfl⟩
  split
  · exact ⟨_, rfl⟩
  split
  · exact ⟨_, rfl⟩
  split
  · exact inferYear_isOk h _
  · exact ⟨_, rfl⟩

theorem find_isOk (h : reference.HasNextDay) (s : String) :
    ∃ found, find s reference = .ok found :=
  findSomeM?_isOk (fun found => parse_isOk h (String.ofList found)) _

end Stamp

/-! ## Lines and literals -/

theorem Query.coerce_isOk {reference : Instant} (h : reference.HasNextDay) (literal : String) :
    ∃ v, coerce literal reference = .ok v := by
  rw [coerce]
  split
  · exact ⟨_, rfl⟩
  · refine bind_isOk (Stamp.parse_isOk h literal) fun found => ?_
    cases found with
    | none => exact ⟨_, rfl⟩
    | some t => exact ⟨_, rfl⟩

theorem Header.Cut.header_isOk {reference : Instant} (h : reference.HasNextDay) (cut : Cut) :
    ∃ header, cut.header reference = .ok header := by
  rw [Cut.header]
  cases cut.stamp with
  | none => exact ⟨_, rfl⟩
  | some stamp =>
    exact bind_isOk (Stamp.parse_isOk h (String.ofList stamp)) fun timestamp => ⟨_, rfl⟩

theorem Header.ofLine_isOk {reference : Instant} (h : reference.HasNextDay) (line : String) :
    ∃ found, ofLine line reference = .ok found := by
  rw [ofLine]
  split
  · rename_i cut shape _
    exact bind_isOk (cut.header_isOk h) fun header => ⟨(header, some shape), rfl⟩
  · refine bind_isOk ?_ fun header => ⟨(header, none), rfl⟩
    exact bind_isOk (Stamp.find_isOk h line) fun timestamp => ⟨_, rfl⟩

theorem Structured.timestampMember_isOk {reference : Instant} (h : reference.HasNextDay)
    (members : Members) : ∃ found, timestampMember members reference = .ok found := by
  refine findSomeM?_isOk (fun name => ?_) timestampNames
  cases Json.member? members name with
  | none => exact ⟨none, rfl⟩
  | some j =>
    refine bind_isOk ?_ fun found => ⟨found.map (name, ·), rfl⟩
    cases j with
    | text s => exact Stamp.parse_isOk h s
    | _ => exact ⟨_, rfl⟩

end LogLens
