/-
Filters on the time of a record.

A filter compares times as numbers, namely as milliseconds since 1970, while the time range of a
query compares them as instants.  Every representable instant has fewer than `2 ^ 53` milliseconds,
so on whole milliseconds the two orders are one (`compare?_millis`).  Therefore a filter on the
range from one instant to another selects what the time range with these ends selects, in the same
order (`timestampRange_eq_window`).
-/
import LogLens.Proofs.Index.Search
import LogLens.Proofs.Number.Order
import LogLens.Proofs.Time.MillisText
import LogLens.Proofs.Time.Order

namespace LogLens

open Index Query

/-! ## Milliseconds -/

namespace Instant

theorem natAbs_millis_lt (t : Instant) : t.millis.natAbs < 2 ^ 53 := by
  have hfirst := t.first_le
  have hlast := t.le_last
  have hnanos := t.nanos_lt
  simp only [firstSecond, lastSecond, nanosPerSecond] at hfirst hlast hnanos
  rw [millis]
  omega

variable {a b : Instant}

theorem WholeMillis.millis_lt_iff (ha : a.WholeMillis) (hb : b.WholeMillis) :
    a.millis < b.millis ↔ a < b := by
  obtain ⟨hmod, hlt⟩ := ha
  obtain ⟨hmod', hlt'⟩ := hb
  rw [nanosPerSecond] at hlt hlt'
  rw [lt_def, millis, millis]
  omega

theorem WholeMillis.millis_le_iff (ha : a.WholeMillis) (hb : b.WholeMillis) :
    a.millis ≤ b.millis ↔ a ≤ b := by
  rw [← Int.not_lt, hb.millis_lt_iff ha, not_lt]

/-- Whole milliseconds compare as instants and as numbers alike. -/
theorem compare?_millis (ha : a.WholeMillis) (hb : b.WholeMillis) :
    (Binary64.ofInt a.millis).compare? (Binary64.ofInt b.millis) = some (Ord.compare a b) := by
  rw [Binary64.compare?_ofInt a.natAbs_millis_lt b.natAbs_millis_lt]
  rcases lt_trichotomy a b with h | rfl | h
  · rw [compare_lt_iff_lt.mpr h, compare_lt_iff_lt.mpr ((ha.millis_lt_iff hb).mpr h)]
  · rw [compare_eq_iff_eq.mpr rfl, compare_eq_iff_eq.mpr rfl]
  · rw [compare_gt_iff_gt.mpr h, compare_gt_iff_gt.mpr ((hb.millis_lt_iff ha).mpr h)]

theorem WholeMillis.le_latest (h : a.WholeMillis) : a ≤ latest := by
  have hlast := a.le_last
  have hnanos := h.nanos_lt
  show a.seconds < lastSecond ∨ a.seconds = lastSecond ∧ a.nanos ≤ nanosPerSecond - 1
  omega

theorem earliest_le (t : Instant) : earliest ≤ t := by
  have hfirst := t.first_le
  show firstSecond < t.seconds ∨ firstSecond = t.seconds ∧ 0 ≤ t.nanos
  omega

end Instant

/-! ## Filters -/

namespace Match

variable {now : Instant} {caseSensitive : Bool} {e : Entry} {a b : Instant}

theorem comparable?_date (t : Instant) :
    comparable? now (.date t) = some (Binary64.ofInt t.millis) := rfl

/-- Whether a record passes a comparison with an instant depends on the order of the instants. -/
theorem passes_timestamp {op : Operator} (hop : op ∈ [Operator.gt, .gte, .lt, .lte])
    (he : e.timestamp.WholeMillis) (ha : a.WholeMillis) :
    passes now caseSensitive e ⟨"timestamp", op, .scalar (.date a), false⟩ =
      holds op (Ord.compare e.timestamp a) := by
  have hcompare := Instant.compare?_millis he ha
  have hevaluate : evaluate now caseSensitive (.date e.timestamp) op (.scalar (.date a)) =
      holds op (Ord.compare e.timestamp a) := by
    simp only [List.mem_cons, List.not_mem_nil, or_false] at hop
    rcases hop with rfl | rfl | rfl | rfl <;>
      simp only [evaluate, comparable?_date, hcompare, Option.map_some, Option.getD_some]
  show (evaluate now caseSensitive (.date e.timestamp) op (.scalar (.date a)) != false) = _
  rw [Bool.bne_false, hevaluate]

theorem passes_timestamp_between (he : e.timestamp.WholeMillis) (ha : a.WholeMillis)
    (hb : b.WholeMillis) :
    passes now caseSensitive e (.between "timestamp" (.date a) (.date b)) =
      (TimeRange.mk a b none).contains e.timestamp := by
  have hlow : (Binary64.ofInt a.millis).numLe (Binary64.ofInt e.timestamp.millis) =
      decide (a ≤ e.timestamp) := by
    rw [Bool.eq_iff_iff, Binary64.numLe_ofInt_iff a.natAbs_millis_lt e.timestamp.natAbs_millis_lt,
      ha.millis_le_iff he, decide_eq_true_eq]
  have hhigh : (Binary64.ofInt e.timestamp.millis).numLe (Binary64.ofInt b.millis) =
      decide (e.timestamp ≤ b) := by
    rw [Bool.eq_iff_iff, Binary64.numLe_ofInt_iff e.timestamp.natAbs_millis_lt b.natAbs_millis_lt,
      he.millis_le_iff hb, decide_eq_true_eq]
  show (evaluate now caseSensitive (.date e.timestamp) .range (.range (.date a) (.date b)) != false)
    = _
  simp only [evaluate, comparable?_date, hlow, hhigh, Bool.bne_false]
  rfl

end Match

/-! ## Searches -/

namespace LogIndex

/-- Over all of time, the filter on a range and the time range let the same slots through, with the
same scores. -/
theorem hit?_between {slot : Slot} (hslot : slot.record.timestamp.WholeMillis) {a b : Instant}
    (ha : a.WholeMillis) (hb : b.WholeMillis) (q : SearchQuery) (now : Instant)
    (scores : Option Scores) :
    hit? { q with
        timeRange := .all, filters := q.filters ++ [.between "timestamp" (.date a) (.date b)] }
        now scores slot =
      hit? { q with timeRange := ⟨a, b, none⟩ } now scores slot := by
  have hall : TimeRange.all.contains slot.record.timestamp = true := by
    rw [TimeRange.contains, Bool.and_eq_true, decide_eq_true_eq, decide_eq_true_eq]
    exact ⟨Instant.earliest_le _, hslot.le_latest⟩
  have hpasses : Match.passesAll now q.caseSensitive slot.record.toEntry
      (q.filters ++ [.between "timestamp" (.date a) (.date b)]) =
      ((TimeRange.mk a b none).contains slot.record.timestamp &&
        Match.passesAll now q.caseSensitive slot.record.toEntry q.filters) := by
    rw [Match.passesAll, List.all_append, List.all_cons, List.all_nil, Bool.and_true,
      Match.passes_timestamp_between hslot ha hb, Bool.and_comm, Match.passesAll]
  simp only [hit?, verbatimTerms, hall, hpasses, Bool.true_and]

/-- On records and ends at whole milliseconds, the filter on a range of time answers as the time
range does, whichever end is the later one and in whatever order the slots are walked, and a
comparison with an instant holds when the instants compare so. -/
theorem timestampRange_eq_window (rules : IndexRules) (history : List Change)
    (hmillis : ∀ r ∈ live history, r.timestamp.WholeMillis) {a b : Instant} (ha : a.WholeMillis)
    (hb : b.WholeMillis) (q : SearchQuery) (now : Instant) :
    (∀ walk, walk.Perm (after rules history).slots.values →
      (after rules history).searchAlong? { q with
        timeRange := .all, filters := q.filters ++ [.between "timestamp" (.date a) (.date b)] }
        now walk =
      (after rules history).searchAlong? { q with timeRange := ⟨a, b, none⟩ } now walk) ∧
    ∀ r ∈ live history, ∀ caseSensitive,
      let passes (op : Operator) : Bool :=
        Match.passes now caseSensitive r.toEntry ⟨"timestamp", op, .scalar (.date a), false⟩
      (passes .gt = true ↔ a < r.timestamp) ∧ (passes .gte = true ↔ a ≤ r.timestamp) ∧
        (passes .lt = true ↔ r.timestamp < a) ∧ (passes .lte = true ↔ r.timestamp ≤ a) := by
  constructor
  · intro walk hwalk
    obtain ⟨slots, h, hlive⟩ := exists_holds rules history
    have hranked : ∀ scores, ranked { q with
        timeRange := .all, filters := q.filters ++ [.between "timestamp" (.date a) (.date b)] }
        now scores walk = ranked { q with timeRange := ⟨a, b, none⟩ } now scores walk := by
      intro scores
      rw [ranked, ranked]
      refine congrArg (fun hits => StableSort.sort betterFirst hits >>= StableSort.sort newerFirst)
        (List.filterMap_congr fun slot hslot => ?_)
      have hlives : slot.record ∈ live history :=
        hlive ▸ List.mem_map_of_mem ((hwalk.trans h.values_perm).mem_iff.mp hslot)
      exact hit?_between (hmillis _ hlives) ha hb q now scores
    rw [h.searchAlong?_eq, h.searchAlong?_eq, hranked]
    rfl
  · intro r hr caseSensitive passes
    have hpasses : ∀ op ∈ [Operator.gt, .gte, .lt, .lte],
        passes op = Match.holds op (Ord.compare r.timestamp a) :=
      fun op hop => Match.passes_timestamp hop (hmillis r hr) ha
    rw [hpasses .gt (by decide), hpasses .gte (by decide), hpasses .lt (by decide),
      hpasses .lte (by decide)]
    simp only [Match.holds, beq_iff_eq, bne_iff_ne, ne_eq, compare_gt_iff_gt, compare_lt_iff_lt,
      not_lt, and_self]

/-- Of the first instant of all, the start of 1970 and the last millisecond of all, the first one is
in a range that ends a millisecond before 1970. -/
theorem timestampRange_eq_window_ends :
    let up (t : Instant) (id : RecordId) : Record :=
      { timestamp := t, level := .info, message := "up", file := "a.log", raw := "up", id }
    let before : Instant := ⟨-1, 999000000, by decide, by decide, by decide⟩
    let origin : Instant := ⟨0, 0, by decide, by decide, by decide⟩
    let final : Instant := ⟨Instant.lastSecond, 999000000, by decide, by decide, by decide⟩
    let history : List Change := [.add [up Instant.earliest 1, up origin 2], .add [up final 3]]
    (∀ r ∈ live history, r.timestamp.WholeMillis) ∧ Instant.earliest.WholeMillis ∧
      before.WholeMillis ∧
        (after {} history).search? { text := "up", timeRange := .all, filters :=
          [.between "timestamp" (.date Instant.earliest) (.date before)] } Instant.earliest =
            .ok { records := [up Instant.earliest 1], total := 1 } ∧
        (after {} history).search? { text := "up", timeRange := ⟨Instant.earliest, before, none⟩ }
          Instant.earliest = .ok { records := [up Instant.earliest 1], total := 1 } := by
  intro up before origin final history
  have hlive : live history = [up Instant.earliest 1, up origin 2, up final 3] := by decide
  have hearliest : Instant.earliest.WholeMillis := ⟨by decide, by decide⟩
  have hbefore : before.WholeMillis := ⟨by decide, by decide⟩
  have horigin : origin.WholeMillis := ⟨by decide, by decide⟩
  have hfinal : final.WholeMillis := ⟨by decide, by decide⟩
  have hmillis : ∀ r ∈ live history, r.timestamp.WholeMillis := by
    rw [hlive]
    simp only [List.forall_mem_cons]
    exact ⟨hearliest, horigin, hfinal, List.forall_mem_nil _⟩
  obtain ⟨hsame, -⟩ :=
    timestampRange_eq_window {} history hmillis hearliest hbefore { text := "up" } Instant.earliest
  have hfound : (after {} history).search?
      { text := "up", timeRange := ⟨Instant.earliest, before, none⟩ } Instant.earliest =
        .ok { records := [up Instant.earliest 1], total := 1 } := by
    decide +kernel
  exact ⟨hmillis, hearliest, hbefore, (hsame _ (.refl _)).trans hfound, hfound⟩

end LogIndex
end LogLens
