/-
What a history of changes leaves in an index.

A record is live when it was added under its identifier last and nothing has taken it out since
(`mem_live_iff`).  After any history the index holds one slot for each live record, with sequence
numbers that ascend in the order of adding, the text index that the live records alone would have
made, and the statistics of what they show (`Holds`).  Each single event keeps this up, and a
history is a sequence of events.
-/
import LogLens.Proofs.Index.Postings
import LogLens.Proofs.Index.Tallies
import LogLens.Index.LogIndex

namespace LogLens
namespace LogIndex

open Index

/-! ## Changes and events -/

/-- A change that a user of an index makes. -/
inductive Change where
  | add (records : List Record)
  | remove (ids : List RecordId)
  | clear

def apply (ix : LogIndex) : Change → LogIndex
  | .add records => ix.add records
  | .remove ids => (ix.remove ids).1
  | .clear => ix.clear

/-- The index that a history of changes leads to. -/
def after (rules : IndexRules) (history : List Change) : LogIndex :=
  history.foldl apply (empty rules)

/-- What a change does to one record, or to all of them. -/
inductive Event where
  | put (r : Record)
  | drop (id : RecordId)
  | wipe

/-- The events of a change, in order. -/
def Change.events : Change → List Event
  | .add records => records.map .put
  | .remove ids => ids.map .drop
  | .clear => [.wipe]

namespace Event

/-- Whether the event takes out a record with the given identifier. -/
def ends (id : RecordId) : Event → Bool
  | put r => r.id == id
  | drop id' => id' == id
  | wipe => true

/-- The record that the event adds. -/
def added : Event → List Record
  | put r => [r]
  | drop _ => []
  | wipe => []

end Event

/-- The records that are added and not taken out later, in the order of adding. -/
def lasting : List Event → List Record
  | [] => []
  | e :: rest => (e.added.filter fun r => !rest.any (·.ends r.id)) ++ lasting rest

/-- The live records after a history, in the order in which they were added last. -/
def live (history : List Change) : List Record :=
  lasting (history.flatMap Change.events)

theorem mem_lasting_iff {events : List Event} {r : Record} :
    r ∈ lasting events ↔
      ∃ before later, events = before ++ .put r :: later ∧ ∀ e ∈ later, e.ends r.id = false := by
  induction events with
  | nil => simp [lasting]
  | cons e rest ih =>
    have hhead : (r ∈ e.added.filter fun r => !rest.any (·.ends r.id)) ↔
        e = .put r ∧ ∀ e' ∈ rest, e'.ends r.id = false := by
      rw [List.mem_filter]
      cases e with
      | put r' =>
        simp only [Event.added, List.mem_singleton, Event.put.injEq, Bool.not_eq_true',
          List.any_eq_false, Bool.not_eq_true]
        exact and_congr_left' eq_comm
      | drop id => simp [Event.added]
      | wipe => simp [Event.added]
    rw [lasting, List.mem_append, hhead, ih]
    constructor
    · intro h
      rcases h with ⟨rfl, h⟩ | ⟨before, later, rfl, h⟩
      · exact ⟨[], rest, rfl, h⟩
      · exact ⟨e :: before, later, rfl, h⟩
    · intro h
      obtain ⟨before, later, heq, h⟩ := h
      cases before with
      | nil =>
        obtain ⟨rfl, rfl⟩ := List.cons.inj heq
        exact Or.inl ⟨rfl, h⟩
      | cons e' before =>
        obtain ⟨rfl, rfl⟩ := List.cons.inj heq
        exact Or.inr ⟨before, later, rfl, h⟩

/-- A record is live when it was added last under its identifier and not taken out since. -/
theorem mem_live_iff {history : List Change} {r : Record} :
    r ∈ live history ↔ ∃ before later, history.flatMap Change.events = before ++ .put r :: later ∧
      ∀ e ∈ later, e.ends r.id = false :=
  mem_lasting_iff

theorem lasting_concat (events : List Event) (e : Event) :
    lasting (events ++ [e]) = ((lasting events).filter fun r => !e.ends r.id) ++ e.added := by
  induction events with
  | nil => simp [lasting]
  | cons e' events ih =>
    rw [List.cons_append, lasting, ih, lasting, List.filter_append, List.append_assoc,
      List.filter_filter]
    refine congrArg (· ++ _) (List.filter_congr fun r _ => ?_)
    simp [Bool.and_comm]

/-! ## Events one after the other -/

def step (ix : LogIndex) : Event → LogIndex
  | .put r => ix.addOne r
  | .drop id => ix.removeOne id
  | .wipe => ix.clear

theorem fst_remove (ix : LogIndex) (ids : List RecordId) :
    (ix.remove ids).1 = ids.foldl removeOne ix := by
  induction ids generalizing ix with
  | nil => rfl
  | cons id ids ih => exact ih (ix.removeOne id)

theorem apply_eq (ix : LogIndex) (c : Change) : ix.apply c = c.events.foldl step ix := by
  cases c with
  | add records =>
    show records.foldl addOne ix = (records.map Event.put).foldl step ix
    rw [List.foldl_map]
    rfl
  | remove ids =>
    show (ix.remove ids).1 = (ids.map Event.drop).foldl step ix
    rw [fst_remove, List.foldl_map]
    rfl
  | clear => rfl

theorem after_eq (rules : IndexRules) (history : List Change) :
    after rules history = (history.flatMap Change.events).foldl step (empty rules) := by
  rw [List.foldl_flatMap]
  exact List.foldl_ext _ _ _ fun ix c _ => apply_eq ix c

/-! ## The state that records leave -/

/-- The index holds the given slots, whose records were added in this order, and nothing else. -/
structure Holds (rules : IndexRules) (ix : LogIndex) (slots : List Slot) : Prop where
  sameRules : ix.rules = rules
  /-- An identifier belongs to one record at most. -/
  distinct : (slots.map (·.record.id)).Nodup
  /-- Later records have greater numbers. -/
  ascending : slots.Pairwise fun a b => a.seq < b.seq
  below : ∀ slot ∈ slots, slot.seq < ix.nextSeq
  held : ∀ id slot, ix.slots.get? id = some slot ↔ slot ∈ slots ∧ slot.record.id = id
  text : ix.text = TextIndex.ofRecords rules (slots.map (·.record))
  stats : FieldStats.Tallies ix.stats (slots.flatMap fun slot => shown slot.record.toEntry)

namespace Holds

variable {rules : IndexRules} {ix : LogIndex} {slots : List Slot}

theorem distinct_ids (h : Holds rules ix slots) :
    ((slots.map (·.record)).map (·.id)).Nodup := by
  rw [List.map_map]
  exact h.distinct

theorem eq_of_id_eq (h : Holds rules ix slots) {a b : Slot} (ha : a ∈ slots) (hb : b ∈ slots)
    (hid : a.record.id = b.record.id) : a = b :=
  List.inj_on_of_nodup_map h.distinct ha hb hid

theorem empty : Holds rules (LogIndex.empty rules) [] where
  sameRules := rfl
  distinct := List.nodup_nil
  ascending := List.Pairwise.nil
  below := fun _ hslot => absurd hslot List.not_mem_nil
  held := fun id slot => by simp [LogIndex.empty, Dict.get?_empty]
  text := rfl
  stats := FieldStats.tallies_empty

/-- A slot and the other slots are all the slots. -/
theorem perm_cons_filter (h : Holds rules ix slots) {slot : Slot} (hslot : slot ∈ slots) :
    slots.Perm (slot :: slots.filter (·.record.id ≠ slot.record.id)) := by
  have hnodup : slots.Nodup := h.distinct.of_map
  refine (List.perm_ext_iff_of_nodup hnodup ?_).mpr fun a => ?_
  · rw [List.nodup_cons]
    exact ⟨by simp, hnodup.filter _⟩
  · simp only [List.mem_cons, List.mem_filter, decide_eq_true_eq]
    constructor
    · intro ha
      by_cases hid : a.record.id = slot.record.id
      · exact Or.inl (h.eq_of_id_eq ha hslot hid)
      · exact Or.inr ⟨ha, hid⟩
    · intro ha
      rcases ha with rfl | ha
      · exact hslot
      · exact ha.1

theorem map_filter_record (slots : List Slot) (id : RecordId) :
    (slots.filter (·.record.id ≠ id)).map (·.record) =
      (slots.map (·.record)).filter (·.id ≠ id) := by
  rw [List.filter_map]
  rfl

theorem drop (h : Holds rules ix slots) (id : RecordId) :
    Holds rules (ix.removeOne id) (slots.filter (·.record.id ≠ id)) := by
  cases hget : ix.slots.get? id with
  | none =>
    have hself : slots.filter (·.record.id ≠ id) = slots := by
      refine List.filter_eq_self.mpr fun slot hslot => ?_
      rw [decide_eq_true_eq]
      intro hid
      rw [(h.held id slot).mpr ⟨hslot, hid⟩] at hget
      exact absurd hget (by simp)
    rw [hself]
    simpa only [removeOne, hget] using h
  | some slot =>
    obtain ⟨hslot, rfl⟩ := (h.held id slot).mp hget
    have hremove : ix.removeOne slot.record.id =
        { ix with
          slots := ix.slots.erase slot.record.id
          text := ix.text.remove slot.record.id
          stats := FieldStats.removeEntry ix.stats slot.record.toEntry } := by
      simp only [removeOne, hget]
    rw [hremove]
    have hsub := List.filter_sublist (p := fun s : Slot => s.record.id ≠ slot.record.id)
      (l := slots)
    refine ⟨h.sameRules, h.distinct.sublist (hsub.map _), h.ascending.sublist hsub,
      fun s hs => h.below s (hsub.subset hs), fun id' s => ?_, ?_, ?_⟩
    · rw [Dict.get?_erase, List.mem_filter, decide_eq_true_eq]
      by_cases hid : id' = slot.record.id
      · rw [if_pos hid, hid]
        constructor
        · intro hs
          exact absurd hs (by simp)
        · intro hs
          exact absurd hs.2 hs.1.2
      · rw [if_neg hid, h.held]
        constructor
        · intro hs
          exact ⟨⟨hs.1, fun heq => hid (hs.2.symm.trans heq)⟩, hs.2⟩
        · intro hs
          exact ⟨hs.1.1, hs.2⟩
    · show ix.text.remove slot.record.id = _
      rw [h.text, TextIndex.remove_ofRecords rules h.distinct_ids, map_filter_record]
    · refine FieldStats.Tallies.removeEntry (h.stats.perm ?_)
      exact (h.perm_cons_filter hslot).flatMap_right _

theorem put (h : Holds rules ix slots) (r : Record) :
    Holds rules (ix.addOne r) (slots.filter (·.record.id ≠ r.id) ++ [⟨ix.nextSeq, r⟩]) := by
  have h' := h.drop r.id
  have hseq : (ix.removeOne r.id).nextSeq = ix.nextSeq := by
    rw [removeOne]
    cases ix.slots.get? r.id <;> rfl
  have hnew : ∀ slot ∈ slots.filter (·.record.id ≠ r.id), slot.record.id ≠ r.id := by
    intro slot hslot
    simpa using (List.mem_filter.mp hslot).2
  refine ⟨h'.sameRules, ?_, ?_, fun slot hslot => ?_, fun id slot => ?_, ?_, ?_⟩
  · rw [List.map_append, List.map_singleton, List.nodup_append]
    refine ⟨h'.distinct, List.nodup_singleton _, fun a ha b hb => ?_⟩
    obtain ⟨slot, hslot, rfl⟩ := List.mem_map.mp ha
    rw [List.mem_singleton.mp hb]
    exact hnew slot hslot
  · refine List.pairwise_append.mpr ⟨h'.ascending, List.pairwise_singleton _ _, fun a ha b hb => ?_⟩
    rw [List.mem_singleton.mp hb]
    exact hseq ▸ h'.below a ha
  · show slot.seq < (ix.removeOne r.id).nextSeq + 1
    rcases List.mem_append.mp hslot with hslot | hslot
    · exact Nat.lt_succ_of_lt (h'.below slot hslot)
    · rw [List.mem_singleton.mp hslot, hseq]
      exact Nat.lt_succ_self _
  · show ((ix.removeOne r.id).slots.insert r.id ⟨(ix.removeOne r.id).nextSeq, r⟩).get? id = _ ↔ _
    rw [Dict.get?_insert, hseq, List.mem_append, List.mem_singleton]
    by_cases hid : id = r.id
    · rw [if_pos hid, hid, Option.some.injEq]
      constructor
      · intro hs
        exact ⟨Or.inr hs.symm, by rw [← hs]⟩
      · intro hs
        rcases hs.1 with hslot | hslot
        · exact absurd hs.2 (hnew slot hslot)
        · exact hslot.symm
    · rw [if_neg hid, h'.held]
      constructor
      · intro hs
        exact ⟨Or.inl hs.1, hs.2⟩
      · intro hs
        rcases hs.1 with hslot | hslot
        · exact ⟨hslot, hs.2⟩
        · rw [hslot] at hs
          exact absurd hs.2.symm hid
  · show (ix.removeOne r.id).text.insert r = _
    rw [h'.text, List.map_append, List.map_singleton, TextIndex.ofRecords_concat]
  · refine (h'.stats.addEntry r.toEntry).perm ?_
    rw [List.flatMap_append, List.flatMap_singleton]
    exact List.perm_append_comm

theorem wipe (h : Holds rules ix slots) : Holds rules ix.clear [] where
  sameRules := h.sameRules
  distinct := List.nodup_nil
  ascending := List.Pairwise.nil
  below := fun _ hslot => absurd hslot List.not_mem_nil
  held := fun id slot => by simp [clear, Dict.get?_empty]
  text := by
    show ({ rules := ix.text.rules } : TextIndex) = _
    rw [h.text, TextIndex.rules_ofRecords]
    rfl
  stats := FieldStats.tallies_empty

/-- One event keeps up the state, and changes the records as it says. -/
theorem step (h : Holds rules ix slots) (e : Event) :
    ∃ slots', Holds rules (ix.step e) slots' ∧
      slots'.map (·.record) = ((slots.map (·.record)).filter fun r => !e.ends r.id) ++ e.added := by
  cases e with
  | put r =>
    refine ⟨_, h.put r, ?_⟩
    rw [List.map_append, map_filter_record]
    refine congrArg (· ++ _) (List.filter_congr fun r' _ => ?_)
    simp [Event.ends, eq_comm, Bool.beq_eq_decide_eq]
  | drop id =>
    refine ⟨_, h.drop id, ?_⟩
    rw [map_filter_record, Event.added, List.append_nil]
    refine List.filter_congr fun r' _ => ?_
    simp [Event.ends, eq_comm, Bool.beq_eq_decide_eq]
  | wipe =>
    refine ⟨[], h.wipe, ?_⟩
    simp [Event.ends, Event.added]

end Holds

theorem exists_holds_events (rules : IndexRules) (events : List Event) :
    ∃ slots, Holds rules (events.foldl step (empty rules)) slots ∧
      slots.map (·.record) = lasting events := by
  induction events using List.reverseRecOn with
  | nil => exact ⟨[], Holds.empty, rfl⟩
  | append_singleton events e ih =>
    obtain ⟨slots, h, hlive⟩ := ih
    obtain ⟨slots', h', hlive'⟩ := h.step e
    refine ⟨slots', ?_, ?_⟩
    · rw [List.foldl_append]
      exact h'
    · rw [hlive', hlive, lasting_concat]

/-- After any history the index holds the live records. -/
theorem exists_holds (rules : IndexRules) (history : List Change) :
    ∃ slots, Holds rules (after rules history) slots ∧ slots.map (·.record) = live history := by
  rw [after_eq]
  exact exists_holds_events rules _

theorem live_ids_nodup (history : List Change) : ((live history).map (·.id)).Nodup := by
  obtain ⟨slots, h, hlive⟩ := exists_holds {} history
  rw [← hlive]
  exact h.distinct_ids

end LogIndex
end LogLens
