/-
A filter and its negation.

On a record that has the field, a filter and the filter turned around answer differently; on one
that lacks it, both pass, unless they ask for the field itself (`passes_negated`).  So of the
records that a query finds, one more filter keeps some and its negation keeps the others, and
records without the field are kept by both (`negation_covers`).
-/
import LogLens.Proofs.Index.Scan

namespace LogLens

open Index Query

/-! ## One record -/

namespace Match

variable (now : Instant) (caseSensitive : Bool) (e : Entry) (f : Filter)

/-- The entry passes a filter because it has no such field. -/
def passesVacuously : Bool := f.operator ≠ .present && (e.field? f.field).isNone

theorem passes_of_vacuously (h : passesVacuously e f = true) :
    passes now caseSensitive e f = true := by
  rw [passesVacuously, Bool.and_eq_true, decide_eq_true_eq, Option.isNone_iff_eq_none] at h
  rw [passes, h.2]
  exact if_neg h.1

/-- Turning a filter around turns its answer around, where the answer is not vacuous. -/
theorem passes_negated : passes now caseSensitive e f.negated =
    (passesVacuously e f || !passes now caseSensitive e f) := by
  show passes now caseSensitive e { f with negate := !f.negate } = _
  rw [passes, passes, passesVacuously]
  cases e.field? f.field with
  | none => by_cases h : f.operator = .present <;> simp [h]
  | some actual => cases f.negate <;> simp

theorem passes_or_negated :
    (passes now caseSensitive e f || passes now caseSensitive e f.negated) = true := by
  rw [passes_negated]
  cases passes now caseSensitive e f <;> simp

theorem passes_and_negated :
    (passes now caseSensitive e f && passes now caseSensitive e f.negated) =
      passesVacuously e f := by
  rw [passes_negated]
  cases h : passesVacuously e f with
  | true => simp [passes_of_vacuously now caseSensitive e f h]
  | false => simp

end Match

/-- Two filters of a list that miss nothing count twice what both keep. -/
theorem length_filter_add_length_filter {α : Type} {p q : α → Bool} (l : List α)
    (h : ∀ a ∈ l, (p a || q a) = true) :
    (l.filter p).length + (l.filter q).length =
      l.length + (l.filter fun a => p a && q a).length := by
  induction l with
  | nil => rfl
  | cons a l ih =>
    have hrest := ih fun b hb => h b (List.mem_cons_of_mem a hb)
    have hfirst := h a List.mem_cons_self
    cases hp : p a <;> cases hq : q a <;> simp [hp, hq] at hfirst ⊢ <;> omega

/-! ## All records -/

namespace LogIndex

/-- The query with one more filter. -/
def withFilter (q : SearchQuery) (f : Filter) : SearchQuery :=
  { q with filters := q.filters ++ [f] }

theorem matches_withFilter {rules : IndexRules} {q : SearchQuery} {f : Filter} {now : Instant}
    {r : Record} : Matches rules (withFilter q f) now r ↔
      Matches rules q now r ∧ Match.passes now q.caseSensitive r.toEntry f = true := by
  constructor
  · intro h
    refine ⟨⟨h.inTime, fun g hg => ?_, h.words, h.verbatim⟩, ?_⟩
    · exact h.filters g (List.mem_append_left [f] hg)
    · exact h.filters f (List.mem_append_right q.filters (List.mem_singleton_self f))
  · rintro ⟨h, hf⟩
    refine ⟨h.inTime, fun g hg => ?_, h.words, h.verbatim⟩
    rcases List.mem_append.mp hg with hg | hg
    · exact h.filters g hg
    · rw [List.mem_singleton.mp hg]
      exact hf

/-- One more filter keeps those of the records that pass it. -/
theorem SearchesFor.withFilter {rules : IndexRules} {history : List Change} {q : SearchQuery}
    {now : Instant} {whole kept : List Record} {f : Filter}
    (hwhole : SearchesFor rules history q now whole)
    (hkept : SearchesFor rules history (withFilter q f) now kept) :
    kept.Perm (whole.filter fun r => Match.passes now q.caseSensitive r.toEntry f) := by
  refine (List.perm_ext_iff_of_nodup hkept.nodup (hwhole.nodup.filter _)).mpr fun r => ?_
  rw [hkept.mem_iff, List.mem_filter, hwhole.mem_iff, matches_withFilter, and_assoc]

/-- Of the records that a query finds, a filter keeps some and its negation all the others.  Both
keep the records that lack the field, and none when the filter asks for the field itself. -/
theorem negation_covers (rules : IndexRules) (history : List Change) {q : SearchQuery}
    (hlimit : q.limit = none) (f : Filter) (now : Instant) :
    ∃ whole kept turned : List Record, SearchesFor rules history q now whole ∧
      SearchesFor rules history (withFilter q f) now kept ∧
      SearchesFor rules history (withFilter q f.negated) now turned ∧
      (∀ r, r ∈ whole ↔ r ∈ kept ∨ r ∈ turned) ∧
      (∀ r, r ∈ kept ∧ r ∈ turned ↔
        r ∈ whole ∧ f.operator ≠ .present ∧ r.toEntry.field? f.field = none) ∧
      kept.length + turned.length = whole.length +
        if f.operator = .present then 0
        else (whole.filter fun r => (r.toEntry.field? f.field).isNone).length := by
  obtain ⟨whole, hwhole⟩ := exists_searchesFor rules history hlimit now
  obtain ⟨kept, hkept⟩ := exists_searchesFor rules history (q := withFilter q f) hlimit now
  obtain ⟨turned, hturned⟩ :=
    exists_searchesFor rules history (q := withFilter q f.negated) hlimit now
  have hkeptPerm := hwhole.withFilter hkept
  have hturnedPerm := hwhole.withFilter hturned
  refine ⟨whole, kept, turned, hwhole, hkept, hturned, fun r => ?_, fun r => ?_, ?_⟩
  · have hcover := Match.passes_or_negated now q.caseSensitive r.toEntry f
    rw [hkeptPerm.mem_iff, hturnedPerm.mem_iff, List.mem_filter, List.mem_filter, ← and_or_left,
      ← Bool.or_eq_true, hcover]
    exact (and_iff_left rfl).symm
  · have hboth := Match.passes_and_negated now q.caseSensitive r.toEntry f
    rw [hkeptPerm.mem_iff, hturnedPerm.mem_iff, List.mem_filter, List.mem_filter, ← and_and_left,
      ← Bool.and_eq_true, hboth, Match.passesVacuously, Bool.and_eq_true, decide_eq_true_eq,
      Option.isNone_iff_eq_none]
  · have hcount := length_filter_add_length_filter whole fun r _ =>
      Match.passes_or_negated now q.caseSensitive r.toEntry f
    simp only [Match.passes_and_negated] at hcount
    rw [hkeptPerm.length_eq, hturnedPerm.length_eq, hcount]
    by_cases hpresent : f.operator = .present <;> simp [Match.passesVacuously, hpresent]

/-- One of two records has the field that is asked for, and another value in it. -/
theorem negation_covers_missing :
    let user : Record :=
      { timestamp := Instant.latest, level := .info, message := "up", file := "a.log", raw := "up",
        fields := Dict.ofList [("user", .text "ann")], id := 1 }
    let other : Record := { user with fields := Dict.empty, id := 2 }
    let ix := after {} [.add [user, other]]
    let f : Filter := ⟨"user", .equals, .scalar (.text "bob"), false⟩
    ∃ whole kept turned, ix.search? {} Instant.earliest = .ok whole ∧
      ix.search? (withFilter {} f) Instant.earliest = .ok kept ∧
      ix.search? (withFilter {} f.negated) Instant.earliest = .ok turned ∧
      (∀ r, r ∈ whole.records ↔ r ∈ kept.records ∨ r ∈ turned.records) ∧
      (∀ r, r ∈ kept.records ∧ r ∈ turned.records ↔
        r ∈ whole.records ∧ r.toEntry.field? "user" = none) ∧
      kept.total + turned.total = whole.total +
        (whole.records.filter fun r => (r.toEntry.field? "user").isNone).length := by
  intro user other ix f
  have hwordless : termsOf "" = [] := by decide
  obtain ⟨whole, kept, turned, hwhole, hkept, hturned, hcover, hboth, htotal⟩ :=
    negation_covers {} [.add [user, other]] (q := {}) rfl f Instant.earliest
  obtain ⟨result, hresult, hperm, hlength⟩ :=
    hwhole.exists_answer (Or.inr fun r _ => textScore_ne_nan hwordless r)
  obtain ⟨result', hresult', hperm', hlength'⟩ :=
    hkept.exists_answer (Or.inr fun r _ => textScore_ne_nan hwordless r)
  obtain ⟨result'', hresult'', hperm'', hlength''⟩ :=
    hturned.exists_answer (Or.inr fun r _ => textScore_ne_nan hwordless r)
  refine ⟨result, result', result'', hresult, hresult', hresult'', fun r => ?_, fun r => ?_, ?_⟩
  · rw [hperm.mem_iff, hperm'.mem_iff, hperm''.mem_iff, hcover]
  · rw [hperm.mem_iff, hperm'.mem_iff, hperm''.mem_iff, hboth]
    exact and_congr_right fun _ => and_iff_right (by decide)
  · rw [hlength, hlength', hlength'', (hperm.filter _).length_eq]
    exact htotal

end LogIndex
end LogLens
