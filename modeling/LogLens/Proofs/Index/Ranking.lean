/-
The order of an answer.

Two stable sorts, by score and then by time, order the hits lexicographically: the newer record
first, of equally old ones the better score, of equally good ones the one that was added first.  As
long as no score is NaN this order is strict.  Then both sorts come to an end, and the answer
depends neither on the order in which the slots are walked nor on how the index came to hold its
records.
-/
import LogLens.Proofs.Index.Search
import LogLens.Proofs.Number.Order
import LogLens.Proofs.Order.Quicksort
import LogLens.Proofs.Order.StableSort
import LogLens.Proofs.Time.Order

namespace LogLens

open Index

namespace LogIndex

/-! ## The order of hits -/

/-- The place of a hit by its score, of equally good ones by its number. -/
def Hit.rank (a : Hit) : Int ×ₗ Nat := toLex (-a.score.place, a.slot.seq)

theorem Hit.rank_lt_iff {a b : Hit} : a.rank < b.rank ↔
    b.score.place < a.score.place ∨ a.score.place = b.score.place ∧ a.slot.seq < b.slot.seq := by
  rw [Hit.rank, Hit.rank, Prod.Lex.toLex_lt_toLex, neg_lt_neg_iff, neg_inj]

theorem betterFirst_iff {a b : Hit} (ha : a.score ≠ .nan) (hb : b.score ≠ .nan) :
    betterFirst a b = true ↔ a.rank < b.rank := by
  rw [betterFirst, Hit.rank_lt_iff, Binary64.compare?_eq hb ha]
  rcases lt_trichotomy b.score.place a.score.place with h | h | h
  · simp [compare_lt_iff_lt.mpr h, h]
  · simp [h]
  · simp [compare_gt_iff_gt.mpr h, h.not_gt, h.ne]

/-- One hit stands before another in an answer. -/
def Ahead (a b : Hit) : Prop :=
  b.slot.record.timestamp < a.slot.record.timestamp ∨
    a.slot.record.timestamp = b.slot.record.timestamp ∧
      (b.score.place < a.score.place ∨ a.score.place = b.score.place ∧ a.slot.seq < b.slot.seq)

/-- By score and number, hits with different numbers come out in strict order. -/
theorem exists_sort_betterFirst {hits : List Hit} (hseq : (hits.map (·.slot.seq)).Nodup)
    (hnan : ∀ a ∈ hits, a.score ≠ .nan) :
    ∃ sorted, StableSort.sort betterFirst hits = .ok sorted ∧ sorted.Perm hits ∧
      sorted.Pairwise fun a b => a.rank < b.rank := by
  have hkey : StableSort.ByKey betterFirst Hit.rank hits :=
    fun a ha b hb => betterFirst_iff (hnan a ha) (hnan b hb)
  have hbefore : hits.Pairwise fun a b => [a, b].Sublist hits :=
    List.pairwise_iff_forall_sublist.mpr fun h => h
  obtain ⟨sorted, hsorted, hperm, hahead⟩ :=
    StableSort.exists_sort (fun _ _ => Order.not_sublist_swap hseq.of_map) hkey hbefore
  have hseq' : (sorted.map (·.slot.seq)).Nodup := (hperm.map _).nodup_iff.mpr hseq
  refine ⟨sorted, hsorted, hperm,
    (hahead.and (List.pairwise_map.mp hseq')).imp fun {a b} hab => ?_⟩
  rcases hab.1 with hlt | heq
  · exact hlt
  · exact absurd (congrArg (fun rank => (ofLex rank).2) heq.1) hab.2

/-- The order of an answer is the one by time, refined by the one by score. -/
theorem ahead_iff {a b : Hit} : Ahead a b ↔
    StableSort.Ahead (fun a : Hit => OrderDual.toDual a.slot.record.timestamp)
      (fun a b => a.rank < b.rank) a b := by
  rw [Ahead, StableSort.Ahead, OrderDual.toDual_lt_toDual, OrderDual.toDual_inj, Hit.rank_lt_iff]

/-- The second sort makes the order of an answer out of the strict order by score. -/
theorem exists_sort_newerFirst {hits : List Hit}
    (hrank : hits.Pairwise fun a b => a.rank < b.rank) :
    ∃ sorted, StableSort.sort newerFirst hits = .ok sorted ∧ sorted.Perm hits ∧
      sorted.Pairwise Ahead := by
  have hkey : StableSort.ByKey newerFirst
      (fun a => OrderDual.toDual a.slot.record.timestamp) hits :=
    fun a _ b _ => by rw [newerFirst, decide_eq_true_eq, OrderDual.toDual_lt_toDual]
  obtain ⟨sorted, hsorted, hperm, hahead⟩ :=
    StableSort.exists_sort (fun _ _ => lt_asymm) hkey hrank
  exact ⟨sorted, hsorted, hperm, hahead.imp ahead_iff.mpr⟩

theorem Ahead.asymm {a b : Hit} (hab : Ahead a b) : ¬ Ahead b a := by
  intro hba
  exact StableSort.Ahead.asymm (fun _ _ => lt_asymm) (ahead_iff.mp hab) (ahead_iff.mp hba)

/-! ## The hits of a search -/

theorem slot_of_hit? {q : SearchQuery} {now : Instant} {scores : Option Scores} {slot : Slot}
    {a : Hit} (h : hit? q now scores slot = some a) : a.slot = slot := by
  simp only [hit?] at h
  split at h
  · cases scores with
    | none =>
      rw [← Option.some.inj h]
    | some scores =>
      obtain ⟨score, -, rfl⟩ := Option.map_eq_some_iff.mp h
      rfl
  · exact absurd h (by simp)

theorem nodup_seq_hits {q : SearchQuery} {now : Instant} {scores : Option Scores}
    {slots : List Slot} (h : (slots.map (·.seq)).Nodup) :
    ((slots.filterMap (hit? q now scores)).map (·.slot.seq)).Nodup := by
  refine List.Pairwise.map _ (fun _ _ hne => hne) ?_
  refine List.Pairwise.filterMap _ (fun s t hne a ha b hb => ?_) (List.pairwise_map.mp h)
  rw [slot_of_hit? ha, slot_of_hit? hb]
  exact hne

section

variable {q : SearchQuery} {now : Instant} {scores : Option Scores} {walk : List Slot}

/-- Sorting loses no hit and makes none up. -/
theorem ranked_perm {hits : List Hit} (h : ranked q now scores walk = .ok hits) :
    hits.Perm (walk.filterMap (hit? q now scores)) := by
  rw [ranked] at h
  cases hsort : StableSort.sort betterFirst (walk.filterMap (hit? q now scores)) with
  | error e =>
    rw [hsort] at h
    cases h
  | ok sorted =>
    rw [hsort] at h
    exact (StableSort.sort_perm h).trans (StableSort.sort_perm hsort)

theorem mem_ranked {hits : List Hit} (h : ranked q now scores walk = .ok hits) {a : Hit} :
    a ∈ hits ↔ a ∈ walk.filterMap (hit? q now scores) :=
  (ranked_perm h).mem_iff

/-- Up to twenty hits are sorted, whatever their scores. -/
theorem exists_ranked_of_length_le (h : (walk.filterMap (hit? q now scores)).length ≤ 20) :
    ∃ hits, ranked q now scores walk = .ok hits := by
  obtain ⟨sorted, hsorted⟩ : ∃ sorted, StableSort.sort betterFirst _ = .ok sorted :=
    StableSort.exists_sort_of_length_le h
  have hlength := (StableSort.sort_perm hsorted).length_eq
  rw [ranked, hsorted]
  exact StableSort.exists_sort_of_length_le (hlength.trans_le h)

/-- Without NaN the two sorts of an answer order the hits lexicographically. -/
theorem exists_ranked (hseq : (walk.map (·.seq)).Nodup)
    (hnan : ∀ a ∈ walk.filterMap (hit? q now scores), a.score ≠ .nan) :
    ∃ hits, ranked q now scores walk = .ok hits ∧ hits.Pairwise Ahead := by
  obtain ⟨sorted, hsorted, -, hrank⟩ := exists_sort_betterFirst (nodup_seq_hits hseq) hnan
  obtain ⟨hits, hhits, -, hahead⟩ := exists_sort_newerFirst hrank
  refine ⟨hits, ?_, hahead⟩
  rw [ranked, hsorted]
  exact hhits

/-- The answer does not depend on the order in which the slots are walked. -/
theorem ranked_eq_of_perm {slots : List Slot} (h : walk.Perm slots)
    (hseq : (slots.map (·.seq)).Nodup)
    (hnan : ∀ a ∈ slots.filterMap (hit? q now scores), a.score ≠ .nan) :
    ranked q now scores walk = ranked q now scores slots := by
  have hperm := h.filterMap (hit? q now scores)
  obtain ⟨hits, hhits, hahead⟩ := exists_ranked ((h.map (·.seq)).nodup_iff.mpr hseq)
    fun a ha => hnan a (hperm.mem_iff.mp ha)
  obtain ⟨hits', hhits', hahead'⟩ := exists_ranked hseq hnan
  rw [hhits, hhits']
  have hsame := (ranked_perm hhits).trans (hperm.trans (ranked_perm hhits').symm)
  exact congrArg Except.ok
    (Order.eq_of_perm_of_pairwise (fun a b => Ahead.asymm) hsame hahead hahead')

end

/-! ## The order of records -/

/-- No word score of the query is NaN. -/
def NumericScores (ix : LogIndex) (q : SearchQuery) : Prop :=
  ∀ scores, ix.text.search? q.text q.fuzzy = some scores →
    ∀ id score, scores.get? id = some score → score ≠ .nan

theorem numericScores_iff {ix : LogIndex} {q : SearchQuery} :
    NumericScores ix q ↔ ((ix.text.search? q.text q.fuzzy).all fun scores =>
      scores.entries.all fun e => e.2 ≠ .nan) = true := by
  simp only [NumericScores, Option.all_eq_true_iff_get, List.all_eq_true, decide_eq_true_eq]
  constructor
  · intro h hsome e he
    exact h _ (Option.some_get hsome).symm e.1 e.2 (Dict.get?_eq_some_iff.mpr he)
  · intro h scores hs id score hscore
    have hsome : (ix.text.search? q.text q.fuzzy).isSome = true := by rw [hs]; rfl
    refine h hsome (id, score) ?_
    simpa [hs] using Dict.get?_eq_some_iff.mp hscore

instance (ix : LogIndex) (q : SearchQuery) : Decidable (NumericScores ix q) :=
  decidable_of_iff' _ numericScores_iff

/-- Without words there are no scores. -/
theorem numericScores_of_wordless {ix : LogIndex} {q : SearchQuery} (h : termsOf q.text = []) :
    NumericScores ix q := by
  intro scores hs
  rw [TextIndex.search?_eq_none_iff.mpr h] at hs
  exact absurd hs (by simp)

/-- One record stands before another in an answer: it is newer, or as old with a better score, or
as old with an equal score and was added earlier. -/
def Precedes (rules : IndexRules) (q : SearchQuery) (added : List Record) (a b : Record) : Prop :=
  b.timestamp < a.timestamp ∨ a.timestamp = b.timestamp ∧
    ∃ s t, textScore rules q a = some s ∧ textScore rules q b = some t ∧
      (t.numLt s = true ∨ t.numEq s = true ∧ [a, b].Sublist added)

theorem Precedes.asymm {rules : IndexRules} {q : SearchQuery} {added : List Record}
    (hnodup : added.Nodup) {a b : Record} (hab : Precedes rules q added a b) :
    ¬ Precedes rules q added b a := by
  intro hba
  rcases hab with hab | hab
  · rcases hba with hba | hba
    · exact lt_asymm hab hba
    · exact hab.ne hba.1
  · rcases hba with hba | hba
    · exact hba.ne hab.1
    · obtain ⟨s, t, hs, ht, hst⟩ := hab.2
      obtain ⟨t', s', ht', hs', hts⟩ := hba.2
      obtain rfl := Option.some.inj (hs.symm.trans hs')
      obtain rfl := Option.some.inj (ht.symm.trans ht')
      rcases hst with hst | ⟨hst, hsub⟩
      · have hplace := Binary64.place_lt_of_numLt hst
        rcases hts with hts | ⟨hts, -⟩
        · exact lt_asymm hplace (Binary64.place_lt_of_numLt hts)
        · exact hplace.ne (Binary64.place_eq_of_numEq hts).symm
      · have hplace := Binary64.place_eq_of_numEq hst
        rcases hts with hts | ⟨-, hsub'⟩
        · exact (Binary64.place_lt_of_numLt hts).ne hplace.symm
        · exact Order.not_sublist_swap hnodup hsub hsub'

theorem NumericScores.ne_nan {ix : LogIndex} {q : SearchQuery} (h : NumericScores ix q)
    {now : Instant} {walk : List Slot} {a : Hit}
    (ha : a ∈ walk.filterMap (hit? q now (ix.text.search? q.text q.fuzzy))) : a.score ≠ .nan := by
  obtain ⟨slot, -, hslot⟩ := List.mem_filterMap.mp ha
  simp only [hit?] at hslot
  split at hslot
  · cases hs : ix.text.search? q.text q.fuzzy with
    | none =>
      rw [hs] at hslot
      rw [← Option.some.inj hslot]
      show Binary64.zero ≠ .nan
      decide
    | some scores =>
      rw [hs] at hslot
      obtain ⟨score, hscore, rfl⟩ := Option.map_eq_some_iff.mp hslot
      exact h scores hs slot.record.id score hscore
  · exact absurd hslot (by simp)

namespace Holds

variable {rules : IndexRules} {ix : LogIndex} {slots : List Slot}

theorem nodup_seq_values (h : Holds rules ix slots) : (ix.slots.values.map (·.seq)).Nodup := by
  rw [(h.values_perm.map (·.seq)).nodup_iff]
  exact List.pairwise_map.mpr (h.ascending.imp fun hlt => hlt.ne)

/-- Numbers ascend with the order of adding. -/
theorem sublist_of_seq_lt (h : Holds rules ix slots) {a b : Slot} (ha : a ∈ slots) (hb : b ∈ slots)
    (hlt : a.seq < b.seq) : [a.record, b.record].Sublist (slots.map (·.record)) := by
  have hne : a ≠ b := by
    intro heq
    exact hlt.ne (congrArg Slot.seq heq)
  rcases Order.sublist_pair_or_swap ha hb hne with hsub | hsub
  · exact hsub.map (·.record)
  · have := List.pairwise_iff_forall_sublist.mp h.ascending hsub
    omega

/-- A hit has the score that its record, the rules and the query give it. -/
theorem textScore_of_hit (h : Holds rules ix slots) {q : SearchQuery} {now : Instant}
    {walk : List Slot} (hwalk : walk.Perm ix.slots.values) {a : Hit}
    (ha : a ∈ walk.filterMap (hit? q now (ix.text.search? q.text q.fuzzy))) :
    a.slot ∈ slots ∧ textScore rules q a.slot.record = some a.score := by
  obtain ⟨slot, hslot, hhit⟩ := List.mem_filterMap.mp ha
  have hmem := (hwalk.trans h.values_perm).mem_iff.mp hslot
  rw [h.hit?_eq q now hmem] at hhit
  obtain ⟨score, hscore, rfl⟩ := Option.map_eq_some_iff.mp hhit
  refine ⟨hmem, ?_⟩
  rw [score?] at hscore
  split at hscore
  · exact hscore
  · exact absurd hscore (by simp)

/-- Whatever a search sorts are the live records with a score. -/
theorem ranked_records_perm (h : Holds rules ix slots) {q : SearchQuery} {now : Instant}
    {walk : List Slot} (hwalk : walk.Perm ix.slots.values) {hits : List Hit}
    (hhits : ranked q now (ix.text.search? q.text q.fuzzy) walk = .ok hits) :
    (hits.map (·.slot.record)).Perm
      ((slots.map (·.record)).filter fun r => (score? rules q now r).isSome) :=
  ((ranked_perm hhits).map _).trans (h.hits_perm q now hwalk)

/-- Without NaN a search has hits, in the order of their records. -/
theorem exists_hits (h : Holds rules ix slots) {q : SearchQuery} (now : Instant)
    (hnum : NumericScores ix q) :
    ∃ hits, ranked q now (ix.text.search? q.text q.fuzzy) ix.slots.values = .ok hits ∧
      (hits.map (·.slot.record)).Pairwise (Precedes rules q (slots.map (·.record))) := by
  have hnan : ∀ a ∈ ix.slots.values.filterMap (hit? q now (ix.text.search? q.text q.fuzzy)),
      a.score ≠ .nan := fun a ha => hnum.ne_nan ha
  obtain ⟨hits, hhits, hahead⟩ := exists_ranked h.nodup_seq_values hnan
  refine ⟨hits, hhits, ?_⟩
  refine List.pairwise_map.mpr (List.Pairwise.imp_of_mem (fun {a b} ha hb hab => ?_) hahead)
  have ha' := (mem_ranked hhits).mp ha
  have hb' := (mem_ranked hhits).mp hb
  obtain ⟨hslot, hscore⟩ := h.textScore_of_hit (.refl _) ha'
  obtain ⟨hslot', hscore'⟩ := h.textScore_of_hit (.refl _) hb'
  rcases hab with hnewer | ⟨htime, hbetter⟩
  · exact Or.inl hnewer
  · refine Or.inr ⟨htime, a.score, b.score, hscore, hscore', ?_⟩
    rw [Binary64.numLt_iff (hnum.ne_nan hb') (hnum.ne_nan ha'),
      Binary64.numEq_iff (hnum.ne_nan hb') (hnum.ne_nan ha')]
    rcases hbetter with hlt | ⟨heq, hseq⟩
    · exact Or.inl hlt
    · exact Or.inr ⟨heq.symm, h.sublist_of_seq_lt hslot hslot' hseq⟩

/-- Two indexes that hold the same records in the same order of adding give the same answers. -/
theorem search?_eq_of_records_eq {ix' : LogIndex} {slots' : List Slot}
    (h : Holds rules ix slots) (h' : Holds rules ix' slots')
    (hsame : slots.map (·.record) = slots'.map (·.record)) {q : SearchQuery} (now : Instant)
    (hnum : NumericScores ix q) : ix.search? q now = ix'.search? q now := by
  have htext : ix.text = ix'.text := by
    rw [h.text, h'.text, hsame]
  have hnum' : NumericScores ix' q := by
    intro scores hs
    exact hnum scores (htext ▸ hs)
  have hnodup : (slots.map (·.record)).Nodup := h.distinct_ids.of_map
  obtain ⟨hits, hhits, hpair⟩ := h.exists_hits now hnum
  obtain ⟨hits', hhits', hpair'⟩ := h'.exists_hits now hnum'
  have hperm := h.ranked_records_perm (.refl _) hhits
  have hperm' := h'.ranked_records_perm (.refl _) hhits'
  rw [← hsame] at hperm' hpair'
  rw [search?, search?, h.searchAlong?_of_ranked hhits, h'.searchAlong?_of_ranked hhits']
  refine congrArg (fun records => Except.ok (answer q records)) ?_
  exact Order.eq_of_perm_of_pairwise (fun a b => Precedes.asymm hnodup)
    (hperm.trans hperm'.symm) hpair hpair'

end Holds

theorem live_add {records : List Record} (h : (records.map (·.id)).Nodup) :
    live [.add records] = records := by
  show lasting ((records.map Event.put) ++ []) = records
  rw [List.append_nil]
  induction records with
  | nil => rfl
  | cons r records ih =>
    rw [List.map_cons, List.nodup_cons] at h
    have hlast : (records.map Event.put).any (·.ends r.id) = false := by
      rw [List.any_map, List.any_eq_false]
      intro r' hr' hends
      exact h.1 (List.mem_map.mpr ⟨r', hr', by simpa [Event.ends] using hends⟩)
    rw [List.map_cons, lasting, ih h.2, Event.added,
      List.filter_cons_of_pos (by rw [hlast, Bool.not_false]), List.filter_nil,
      List.singleton_append]

/-- As long as no score is NaN a search answers.  The order of the answer is strict, and it follows
from the live records, the order in which they were added last, the rules and the query.  Neither
the walk over the slots nor what the index held before has a part in it. -/
theorem search?_ordered (rules : IndexRules) (history : List Change) (q : SearchQuery)
    (now : Instant) (hnum : NumericScores (after rules history) q) :
    let ix := after rules history
    let scores := ix.text.search? q.text q.fuzzy
    ∃ hits, ranked q now scores ix.slots.values = .ok hits ∧
    ix.search? q now = .ok (answer q (hits.map (·.slot.record))) ∧
    (∀ r, r ∈ hits.map (·.slot.record) ↔ r ∈ live history ∧ Matches rules q now r) ∧
    (hits.map (·.slot.record)).Pairwise (Precedes rules q (live history)) ∧
    (∀ walk, walk.Perm ix.slots.values → ranked q now scores walk = .ok hits) ∧
    (∀ a ∈ hits, textScore rules q a.slot.record = some a.score) ∧
    ix.search? q now = ((empty rules).add (live history)).search? q now := by
  intro ix scores
  obtain ⟨slots, h, hlive⟩ := exists_holds rules history
  obtain ⟨slots', h', hlive'⟩ := exists_holds rules [.add (live history)]
  have hsame : slots.map (·.record) = slots'.map (·.record) := by
    rw [hlive, hlive', live_add (live_ids_nodup history)]
  obtain ⟨hits, hhits, hpair⟩ := h.exists_hits now hnum
  refine ⟨hits, hhits, h.searchAlong?_of_ranked hhits, fun r => ?_, hlive ▸ hpair, ?_, ?_, ?_⟩
  · rw [(h.ranked_records_perm (.refl _) hhits).mem_iff, List.mem_filter, isSome_score?_iff, hlive]
  · intro walk hwalk
    rw [← hhits]
    exact ranked_eq_of_perm hwalk h.nodup_seq_values fun a ha => hnum.ne_nan ha
  · intro a ha
    exact (h.textScore_of_hit (.refl _) ((mem_ranked hhits).mp ha)).2
  · exact h.search?_eq_of_records_eq h' hsame now hnum

/-- What was cleared, replaced or removed leaves no trace in an answer. -/
theorem search?_after_clear :
    let one : Record :=
      { timestamp := Instant.earliest, level := .info, message := "disk", file := "a.log",
        raw := "disk", id := 2 }
    let two : Record := { one with message := "disk disk", id := 1 }
    let history : List Change := [.add [two], .clear, .add [two, one, two], .remove [3]]
    NumericScores (after {} history) { text := "disk" } ∧
      (after {} history).search? { text := "disk" } Instant.earliest =
        ((empty {}).add [one, two]).search? { text := "disk" } Instant.earliest := by
  intro one two history
  have hnum : NumericScores (after {} history) { text := "disk" } := by decide +kernel
  have hlive : live history = [one, two] := by decide
  obtain ⟨-, -, -, -, -, -, -, hfresh⟩ :=
    search?_ordered {} history { text := "disk" } Instant.earliest hnum
  exact ⟨hnum, hlive ▸ hfresh⟩

end LogIndex
end LogLens
