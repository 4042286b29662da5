/-
A search of the index is a scan of the live records.

A search without a limit lists the live records that match, each of them once, and counts them
(`SearchesFor`).  One thing can keep it from that: a score that is NaN is neither better nor worse
than any other, so the hits need not fit into an order, and a sort of more than twenty of them may
notice this and break off.
-/
import LogLens.Proofs.Index.Ranking

namespace LogLens

open Index

namespace LogIndex

/-- These are the records that a search is for, and this is what comes of it: it lists them in some
order and counts them, or it breaks off, and then there are more than twenty, one of them with a
score that is NaN. -/
structure SearchesFor (rules : IndexRules) (history : List Change) (q : SearchQuery)
    (now : Instant) (found : List Record) : Prop where
  nodup : found.Nodup
  mem_iff : ∀ r, r ∈ found ↔ r ∈ live history ∧ Matches rules q now r
  /-- The slots may be walked in any order. -/
  outcome : ∀ walk, walk.Perm (after rules history).slots.values →
    (∃ result, (after rules history).searchAlong? q now walk = .ok result ∧
      result.records.Perm found ∧ result.total = found.length) ∨
    (after rules history).searchAlong? q now walk = .error .unordered ∧ 20 < found.length ∧
      ∃ r ∈ found, textScore rules q r = some .nan

namespace Holds

variable {rules : IndexRules} {ix : LogIndex} {slots : List Slot}

/-- If the hits fit into no order, then there are many of them, and a score is to blame. -/
theorem nan_of_unordered (h : Holds rules ix slots) {q : SearchQuery} {now : Instant}
    {walk : List Slot} (hwalk : walk.Perm ix.slots.values) {e : Disorder}
    (herror : ranked q now (ix.text.search? q.text q.fuzzy) walk = .error e) :
    20 < (walk.filterMap (hit? q now (ix.text.search? q.text q.fuzzy))).length ∧
      ∃ a ∈ walk.filterMap (hit? q now (ix.text.search? q.text q.fuzzy)), a.score = .nan := by
  constructor
  · by_contra hfew
    obtain ⟨hits, hhits⟩ := exists_ranked_of_length_le (Nat.le_of_not_lt hfew)
    cases herror.symm.trans hhits
  · by_contra hnan
    have hseq := ((hwalk.map (·.seq)).nodup_iff).mpr h.nodup_seq_values
    obtain ⟨hits, hhits, -⟩ := exists_ranked hseq fun a ha hscore => hnan ⟨a, ha, hscore⟩
    cases herror.symm.trans hhits

end Holds

theorem exists_searchesFor (rules : IndexRules) (history : List Change) {q : SearchQuery}
    (hlimit : q.limit = none) (now : Instant) :
    ∃ found, SearchesFor rules history q now found := by
  obtain ⟨slots, h, hlive⟩ := exists_holds rules history
  refine ⟨(live history).filter fun r => (score? rules q now r).isSome,
    (live_ids_nodup history).of_map.filter _, fun r => ?_, fun walk hwalk => ?_⟩
  · rw [List.mem_filter, isSome_score?_iff]
  · rw [← hlive]
    have hperm := h.hits_perm q now hwalk
    cases hranked : ranked q now ((after rules history).text.search? q.text q.fuzzy) walk with
    | ok hits =>
      have hrecords := h.ranked_records_perm hwalk hranked
      refine Or.inl ⟨_, h.searchAlong?_of_ranked hranked, ?_, hrecords.length_eq⟩
      simpa only [answer, hlimit] using hrecords
    | error e =>
      obtain ⟨hmany, a, ha, hnan⟩ := h.nan_of_unordered hwalk hranked
      rw [← List.length_map (·.slot.record), hperm.length_eq] at hmany
      refine Or.inr ⟨?_, hmany, a.slot.record, ?_, ?_⟩
      · rw [h.searchAlong?_eq, hranked]
        rfl
      · exact hperm.mem_iff.mp (List.mem_map_of_mem ha)
      · rw [(h.textScore_of_hit hwalk ha).2, hnan]

namespace SearchesFor

variable {rules : IndexRules} {history : List Change} {q : SearchQuery} {now : Instant}
  {found : List Record}

theorem length_le (h : SearchesFor rules history q now found) :
    found.length ≤ (live history).length :=
  (h.nodup.subperm fun r hr => ((h.mem_iff r).mp hr).1).length_le

/-- A search for few records answers, and so does one without a NaN among the scores. -/
theorem exists_answer (h : SearchesFor rules history q now found)
    (hcalm : found.length ≤ 20 ∨ ∀ r ∈ found, textScore rules q r ≠ some .nan) :
    ∃ result, (after rules history).search? q now = .ok result ∧ result.records.Perm found ∧
      result.total = found.length := by
  rcases h.outcome _ (.refl _) with hanswer | ⟨-, hmany, r, hr, hnan⟩
  · exact hanswer
  · rcases hcalm with hfew | hnumeric
    · exact absurd hfew (by omega)
    · exact absurd hnan (hnumeric r hr)

end SearchesFor

/-- Without words every score is zero. -/
theorem textScore_ne_nan {rules : IndexRules} {q : SearchQuery} (h : termsOf q.text = [])
    (r : Record) : textScore rules q r ≠ some .nan := by
  rw [textScore, if_pos h]
  decide

/-- A search without a limit lists the live records that match, each of them once, in whatever order
the slots are walked.  It breaks off at most over more than twenty records with a NaN among their
scores. -/
theorem searchAlong?_scans (rules : IndexRules) (history : List Change) (q : SearchQuery)
    (now : Instant) (hlimit : q.limit = none) {walk : List Slot}
    (hwalk : walk.Perm (after rules history).slots.values) :
    ∃ found : List Record, found.Nodup ∧
      (∀ r, r ∈ found ↔ r ∈ live history ∧ Matches rules q now r) ∧
      ((∃ result, (after rules history).searchAlong? q now walk = .ok result ∧
          result.records.Perm found) ∨
        (after rules history).searchAlong? q now walk = .error .unordered ∧
          20 < found.length ∧ ∃ r ∈ found, textScore rules q r = some .nan) := by
  obtain ⟨found, hfound⟩ := exists_searchesFor rules history hlimit now
  refine ⟨found, hfound.nodup, hfound.mem_iff, (hfound.outcome walk hwalk).imp_left ?_⟩
  intro hanswer
  obtain ⟨result, hresult, hperm, -⟩ := hanswer
  exact ⟨result, hresult, hperm⟩

/-- A record that was replaced under its identifier is not found, the new one is. -/
theorem search?_finds_replacement :
    let old : Record :=
      { timestamp := Instant.earliest, level := .info, message := "disk is full", file := "a.log",
        raw := "disk is full", id := 1 }
    let new : Record := { old with message := "disk is fine" }
    let q : SearchQuery := { filters := [⟨"file", .startsWith, .scalar (.text "a"), false⟩] }
    q.limit = none ∧
      ∃ result, (after {} [.add [old], .add [new], .remove [2, 2]]).search? q Instant.earliest =
          .ok result ∧
        result.records = [new] := by
  intro old new q
  have hlive : live [.add [old], .add [new], .remove [2, 2]] = [new] := by decide
  obtain ⟨found, hnodup, hmem, houtcome⟩ :=
    searchAlong?_scans {} [.add [old], .add [new], .remove [2, 2]] q Instant.earliest rfl (.refl _)
  have hfound : found.Perm [new] := by
    refine (List.perm_ext_iff_of_nodup hnodup (List.nodup_singleton new)).mpr fun r => ?_
    rw [hmem, hlive, List.mem_singleton]
    refine ⟨And.left, fun heq => ⟨heq, ?_⟩⟩
    have hwords : termsOf "" = [] := by decide
    rw [heq, matches_iff]
    exact ⟨by decide, fun word hword => absurd (hwords ▸ hword) List.not_mem_nil⟩
  rcases houtcome with ⟨result, hresult, hperm⟩ | ⟨-, hmany, -⟩
  · exact ⟨rfl, result, hresult, List.perm_singleton.mp (hperm.trans hfound)⟩
  · rw [hfound.length_eq] at hmany
    exact absurd hmany (by decide)

/-- Of twenty-one records every other one has a score that is the sum of both infinities. -/
theorem search?_breaks_off :
    let rules : IndexRules :=
      { messageBoost := .ofDecimal false 1 308, labelBoost := .ofDecimal true 1 308 }
    let up (i : Nat) : Record :=
      { timestamp := Instant.earliest, level := .info, file := "", raw := ""
        id := Fin.ofNat _ (2 * i % 21)
        message := if i % 2 = 1 then "x x" else if i < 10 then "" else "x"
        service := if i % 2 = 1 then some "x x" else if i < 10 then some "x" else none }
    (after rules [.add ((List.range 21).map up)]).search? { text := "x" } Instant.earliest =
      .error .unordered := by
  decide +kernel

end LogIndex
end LogLens
