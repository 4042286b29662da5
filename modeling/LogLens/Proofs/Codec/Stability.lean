/-
Values that were read once.

A value that was decoded from a text holds finite numbers, counts of at most 64 bits and no text
that reads as an instant, because a date would have been made of it.  So it is among those that
come back as they were, and reading what is written for it gives it again.
-/
import LogLens.Proofs.Codec.RoundTrip
import LogLens.Proofs.Number.Integers

namespace LogLens
namespace Json

/-! ## Parts of documents -/

theorem exists_of_mem_mapM {α β : Type} {f : α → Option β} {l : List α} {l' : List β}
    (h : l.mapM f = some l') {y : β} (hy : y ∈ l') : ∃ x ∈ l, f x = some y := by
  induction l generalizing l' with
  | nil =>
    obtain rfl := Option.some.inj h
    cases hy
  | cons x rest ih =>
    rw [List.mapM_cons] at h
    obtain ⟨y', hy', h⟩ := Option.bind_eq_some_iff.mp h
    obtain ⟨ys, hys, h⟩ := Option.bind_eq_some_iff.mp h
    obtain rfl := Option.some.inj h
    rcases List.mem_cons.mp hy with rfl | hy
    · exact ⟨x, List.mem_cons_self .., hy'⟩
    · obtain ⟨x', hx', hfx⟩ := ih hys hy
      exact ⟨x', List.mem_cons_of_mem _ hx', hfx⟩

theorem numbers_item_subset {items : List Json} {j : Json} (h : j ∈ items) :
    j.numbers ⊆ (Json.array items).numbers := by
  rw [numbers_array]
  exact fun n hn => List.mem_flatMap.mpr ⟨j, h, hn⟩

theorem numbers_member_subset {members : List (String × Json)} {m : String × Json}
    (h : m ∈ members) : m.2.numbers ⊆ (Json.object members).numbers := by
  rw [numbers_object]
  exact fun n hn => List.mem_flatMap.mpr ⟨m, h, hn⟩

/-- What is given for a part stands in the document. -/
theorem numbers_part_subset {names : List String} {surplus : Bool} {j part : Json}
    {parts : List (Option Json)} (h : parts? names surplus j = some parts)
    (hpart : some part ∈ parts) : part.numbers ⊆ j.numbers := by
  cases j with
  | object members =>
    obtain ⟨name, -, hname⟩ := exists_of_mem_mapM h hpart
    unfold part? at hname
    split at hname
    · cases hname
    · rename_i m hfilter
      obtain rfl : m.2 = part := Option.some.inj (Option.some.inj hname)
      have hm : m ∈ members.filter (·.1 == name) := by
        rw [hfilter]
        exact List.mem_singleton_self m
      exact numbers_member_subset (List.mem_of_mem_filter hm)
    · cases hname
  | array items =>
    rw [parts?] at h
    split at h
    · obtain rfl := Option.some.inj h
      obtain ⟨i, -, hi⟩ := List.mem_map.mp hpart
      exact numbers_item_subset (List.mem_of_getElem? hi)
    · cases h
  | _ => cases h

/-! ## Plain values -/

theorem isFinite_of_toBinary64? {j : Json} {x : Binary64} (h : toBinary64? j = some x)
    (hj : AllFinite j.numbers) : x.isFinite = true := by
  unfold toBinary64? at h
  split at h
  · rename_i n
    split at h
    · rename_i hword
      obtain rfl := Option.some.inj h
      rw [isWord, Bool.and_eq_true, decide_eq_true_eq, decide_eq_true_eq] at hword
      have hlow : -2 ^ 64 < Reader.minSigned := by decide
      have hhigh : Reader.maxWord < 2 ^ 64 := by decide
      exact Binary64.isFinite_ofInt (by omega)
    · cases h
  · rename_i x'
    obtain rfl := Option.some.inj h
    exact hj (.real x') (by simp [numbers])
  · cases h

theorem le_of_toNat? {j : Json} {n : Nat} (h : toNat? j = some n) : n ≤ Reader.maxWord := by
  unfold toNat? at h
  split at h
  · split at h
    · rename_i hword
      obtain rfl := Option.some.inj h
      have hmax := hword.2
      rw [isWord, Bool.and_eq_true, decide_eq_true_eq, decide_eq_true_eq] at hmax
      omega
    · cases h
  · cases h

/-! ## Lists, dictionaries and parts that may be missing -/

section Compound

variable {α : Type} {f : Json → Option α}

theorem exists_of_mem_toList? {j : Json} {l : List α} (h : toList? f j = some l) {v : α}
    (hv : v ∈ l) : ∃ item, item.numbers ⊆ j.numbers ∧ f item = some v := by
  unfold toList? at h
  split at h
  · obtain ⟨item, hitem, hf⟩ := exists_of_mem_mapM h hv
    exact ⟨item, numbers_item_subset hitem, hf⟩
  · cases h

theorem exists_of_mem_toDict? {j : Json} {d : Dict String α} (h : toDict? f j = some d) {v : α}
    (hv : v ∈ d.values) : ∃ item, item.numbers ⊆ j.numbers ∧ f item = some v := by
  unfold toDict? at h
  split at h
  · obtain ⟨pairs, hpairs, rfl⟩ := Option.map_eq_some_iff.mp h
    obtain ⟨k, hk⟩ := Dict.mem_values_iff.mp hv
    rw [Dict.get?_ofList, Option.map_eq_some_iff] at hk
    obtain ⟨pair, hpair, rfl⟩ := hk
    obtain ⟨m, hm, hf⟩ := exists_of_mem_mapM hpairs
      (List.mem_reverse.mp (List.mem_of_find?_eq_some hpair))
    obtain ⟨w, hw, rfl⟩ := Option.map_eq_some_iff.mp hf
    exact ⟨m.2, numbers_member_subset hm, hw⟩
  · cases h

theorem orDefault?_eq_some_iff {default v : α} {part : Option Json} :
    orDefault? f default part = some v ↔
      part = none ∧ default = v ∨ ∃ j, part = some j ∧ f j = some v := by
  cases part <;> simp [orDefault?]

theorem eq_some_of_toOption? {j : Json} {v : α} (h : toOption? f j = some (some v)) :
    f j = some v := by
  unfold toOption? at h
  split at h
  · cases h
  · obtain ⟨w, hw, hv⟩ := Option.map_eq_some_iff.mp h
    obtain rfl := Option.some.inj hv
    exact hw

theorem le_of_count {part : Option Json} {count : Option Nat}
    (h : orDefault? (toOption? toNat?) none part = some count) :
    ∀ n ∈ count, n ≤ Reader.maxWord := by
  rintro n rfl
  rcases orDefault?_eq_some_iff.mp h with ⟨-, hnone⟩ | ⟨j, -, hj⟩
  · cases hnone
  · exact le_of_toNat? (eq_some_of_toOption? hj)

end Compound

end Json

open Json

/-! ## Field values -/

/-- Finite, and no text that stands for an instant. -/
def FieldValue.Settled (v : FieldValue) : Prop := v.isFinite = true ∧ v.dated = v

theorem FieldValue.settled_of_ofJson? {j : Json} {v : FieldValue} (h : ofJson? j = some v)
    (hj : AllFinite j.numbers) : v.Settled := by
  cases j with
  | null => cases h
  | bool b =>
    obtain rfl := Option.some.inj h
    exact ⟨rfl, rfl⟩
  | number n =>
    cases hx : toBinary64? (.number n) with
    | none =>
      rw [ofJson?, hx] at h
      cases h
    | some x =>
      rw [ofJson?, hx] at h
      obtain rfl := Option.some.inj h
      exact ⟨isFinite_of_toBinary64? hx hj, rfl⟩
  | text s =>
    cases ht : toInstant? (.text s) with
    | none =>
      rw [ofJson?, ht] at h
      obtain rfl := Option.some.inj h
      exact ⟨rfl, by rw [dated, ht]; rfl⟩
    | some t =>
      rw [ofJson?, ht] at h
      obtain rfl := Option.some.inj h
      exact ⟨rfl, rfl⟩
  | array items => cases h
  | object members => cases h

namespace Query

theorem Operand.settled_of_ofJson? {j : Json} {o : Operand} (h : ofJson? j = some o)
    (hj : AllFinite j.numbers) : ∀ v ∈ o.values, v.Settled := by
  unfold ofJson? at h
  split at h
  · rename_i v hv
    obtain rfl := Option.some.inj h
    simpa [values] using FieldValue.settled_of_ofJson? hv hj
  · rename_i low high _
    obtain ⟨v, hv, h⟩ := Option.bind_eq_some_iff.mp h
    obtain ⟨w, hw, h⟩ := Option.bind_eq_some_iff.mp h
    obtain rfl := Option.some.inj h
    have hlow := FieldValue.settled_of_ofJson? hv (hj.subset (numbers_item_subset (by simp)))
    have hhigh := FieldValue.settled_of_ofJson? hw (hj.subset (numbers_item_subset (by simp)))
    simp [values, hlow, hhigh]
  · obtain rfl := Option.some.inj h
    simp [values]
  · cases h

theorem Filter.settled_of_ofJson? {j : Json} {f : Filter} (h : ofJson? j = some f)
    (hj : AllFinite j.numbers) : ∀ v ∈ f.operand.values, v.Settled := by
  obtain ⟨parts, hparts, h⟩ := Option.bind_eq_some_iff.mp h
  split at h
  · rename_i field operator value negate
    obtain ⟨_, _, h⟩ := Option.bind_eq_some_iff.mp h
    obtain ⟨_, _, h⟩ := Option.bind_eq_some_iff.mp h
    obtain ⟨operand, hoperand, h⟩ := Option.bind_eq_some_iff.mp h
    obtain ⟨_, _, h⟩ := Option.bind_eq_some_iff.mp h
    obtain rfl := Option.some.inj h
    obtain ⟨part, rfl, hpart⟩ := Option.bind_eq_some_iff.mp hoperand
    exact Operand.settled_of_ofJson? hpart (hj.subset (numbers_part_subset hparts (by simp)))
  · cases h

end Query

/-- The values of a query that was read, and its limit. -/
theorem SearchQuery.settled_of_ofJson? {j : Json} {q : SearchQuery} (h : ofJson? j = some q)
    (hj : AllFinite j.numbers) :
    (∀ v ∈ q.values, v.Settled) ∧ ∀ n ∈ q.limit, n ≤ Reader.maxWord := by
  obtain ⟨parts, hparts, h⟩ := Option.bind_eq_some_iff.mp h
  split at h
  · rename_i text filters timeRange fuzzy caseSensitive aggregateBy limit
    obtain ⟨_, _, h⟩ := Option.bind_eq_some_iff.mp h
    obtain ⟨found, hfilters, h⟩ := Option.bind_eq_some_iff.mp h
    obtain ⟨_, _, h⟩ := Option.bind_eq_some_iff.mp h
    obtain ⟨_, _, h⟩ := Option.bind_eq_some_iff.mp h
    obtain ⟨_, _, h⟩ := Option.bind_eq_some_iff.mp h
    obtain ⟨_, _, h⟩ := Option.bind_eq_some_iff.mp h
    obtain ⟨count, hlimit, h⟩ := Option.bind_eq_some_iff.mp h
    obtain rfl := Option.some.inj h
    refine ⟨fun v hv => ?_, le_of_count hlimit⟩
    obtain ⟨f, hf, hv⟩ := List.mem_flatMap.mp hv
    rcases orDefault?_eq_some_iff.mp hfilters with ⟨-, rfl⟩ | ⟨part, rfl, hpart⟩
    · cases hf
    · obtain ⟨item, hitem, hread⟩ := exists_of_mem_toList? hpart hf
      have hsub := List.Subset.trans hitem (numbers_part_subset hparts (by simp))
      exact Query.Filter.settled_of_ofJson? hread (hj.subset hsub) v hv
  · cases h

/-- The fields of a record that was read, and its line. -/
theorem Record.settled_of_ofJson? {j : Json} {r : Record} (h : ofJson? j = some r)
    (hj : AllFinite j.numbers) :
    (∀ v ∈ r.fields.values, v.Settled) ∧ ∀ n ∈ r.line, n ≤ Reader.maxWord := by
  obtain ⟨parts, hparts, h⟩ := Option.bind_eq_some_iff.mp h
  split at h
  · rename_i id timestamp level message file raw fields source service host line
    obtain ⟨_, _, h⟩ := Option.bind_eq_some_iff.mp h
    obtain ⟨_, _, h⟩ := Option.bind_eq_some_iff.mp h
    obtain ⟨_, _, h⟩ := Option.bind_eq_some_iff.mp h
    obtain ⟨_, _, h⟩ := Option.bind_eq_some_iff.mp h
    obtain ⟨_, _, h⟩ := Option.bind_eq_some_iff.mp h
    obtain ⟨_, _, h⟩ := Option.bind_eq_some_iff.mp h
    obtain ⟨found, hfields, h⟩ := Option.bind_eq_some_iff.mp h
    obtain ⟨_, _, h⟩ := Option.bind_eq_some_iff.mp h
    obtain ⟨_, _, h⟩ := Option.bind_eq_some_iff.mp h
    obtain ⟨_, _, h⟩ := Option.bind_eq_some_iff.mp h
    obtain ⟨count, hline, h⟩ := Option.bind_eq_some_iff.mp h
    obtain rfl := Option.some.inj h
    refine ⟨fun v hv => ?_, le_of_count hline⟩
    rcases orDefault?_eq_some_iff.mp hfields with ⟨-, rfl⟩ | ⟨part, rfl, hpart⟩
    · cases hv
    · obtain ⟨item, hitem, hread⟩ := exists_of_mem_toDict? hpart hv
      have hsub := List.Subset.trans hitem (numbers_part_subset hparts (by simp))
      exact FieldValue.settled_of_ofJson? hread (hj.subset hsub)
  · cases h

/-! ## Reading again -/

/-- What is read from a text is read again from what is written for it, if the texts of its numbers
and instants are. -/
def Stable {α : Type} (toJson : α → Json) (ofJson? : Json → Option α) (readsBack : α → Prop) :
    Prop :=
  ∀ s v, readAs? ofJson? s = some v → readsBack v → readAs? ofJson? (toJson v).compact = some v

theorem stable_of_decodes {α : Type} {toJson : α → Json} {ofJson? : Json → Option α}
    {readsBack : α → Prop}
    (h : ∀ j v, ofJson? j = some v → AllFinite j.numbers → readsBack v →
      Decodes ofJson? (toJson v) v) : Stable toJson ofJson? readsBack := by
  intro s v hv hback
  obtain ⟨j, hj, hdecoded⟩ := Option.bind_eq_some_iff.mp hv
  exact (h j v hdecoded (allFinite_parseAsWritten? hj) hback).ofText

/-- Decoding is stable: a value of any type that was read from a text, whatever its form, is written
as a text that is read as the same value. -/
theorem decoded_stable :
    Stable FieldValue.toJson FieldValue.ofJson? FieldValue.ReadsBack ∧
    Stable Query.Operand.toJson Query.Operand.ofJson? (fun o => ∀ v ∈ o.values, v.ReadsBack) ∧
    Stable Query.Filter.toJson Query.Filter.ofJson?
      (fun f => ∀ v ∈ f.operand.values, v.ReadsBack) ∧
    Stable Query.TimeRange.toJson Query.TimeRange.ofJson?
      (fun r => r.start.ReadsBack ∧ r.finish.ReadsBack) ∧
    Stable SearchQuery.toJson SearchQuery.ofJson? SearchQuery.ReadsBack ∧
    Stable Record.toJson Record.ofJson? Record.ReadsBack := by
  refine ⟨stable_of_decodes fun j v hv hj hback => ?value,
    stable_of_decodes fun j o ho hj hback => ?operand,
    stable_of_decodes fun j f hf hj hback => ?filter,
    stable_of_decodes fun j r hr hj hback => ?timeRange,
    stable_of_decodes fun j q hq hj hback => ?query,
    stable_of_decodes fun j r hr hj hback => ?record⟩
  case value =>
    obtain ⟨hfinite, hdated⟩ := FieldValue.settled_of_ofJson? hv hj
    simpa only [hdated] using FieldValue.decodes hfinite hback
  case operand =>
    have hsettled := Query.Operand.settled_of_ofJson? ho hj
    have hdated := Query.Operand.dated_eq_self_iff.mpr fun v hv => (hsettled v hv).2
    simpa only [hdated] using Query.Operand.decodes (fun v hv => (hsettled v hv).1) hback
  case filter =>
    have hsettled := Query.Filter.settled_of_ofJson? hf hj
    have hdated := Query.Filter.dated_eq_self_iff.mpr fun v hv => (hsettled v hv).2
    simpa only [hdated] using Query.Filter.decodes (fun v hv => (hsettled v hv).1) hback
  case timeRange => exact Query.TimeRange.decodes hback.1 hback.2
  case query =>
    obtain ⟨hsettled, hlimit⟩ := SearchQuery.settled_of_ofJson? hq hj
    have hdated := SearchQuery.dated_eq_self_iff.mpr fun v hv => (hsettled v hv).2
    simpa only [hdated] using SearchQuery.decodes hback (fun v hv => (hsettled v hv).1) hlimit
  case record =>
    obtain ⟨hsettled, hline⟩ := Record.settled_of_ofJson? hr hj
    have hdated := Record.dated_eq_self_iff.mpr fun v hv => (hsettled v hv).2
    simpa only [hdated] using Record.decodes hback (fun v hv => (hsettled v hv).1) hline

/-- A query with an unknown member, a filter by position, and a date with an offset. -/
theorem decoded_stable_query :
    let s := "\x7b\"x\":[1e999],\"limit\":3,\"filters\":[[\"a\",\"exists\",null]," ++
      "\x7b\"value\":[\"2025-10-01T12:00:00+02:00\",0.5],\"operator\":\"range\"," ++
      "\"field\":\"at\"\x7d]\x7d"
    let t : Instant := ⟨1759312800, 0, by decide, by decide, by decide⟩
    let half : Binary64 := Binary64.ofRatio false 1 2
    let q : SearchQuery :=
      { filters := [⟨"a", .present, .absent, false⟩,
          ⟨"at", .range, .range (.date t) (.number half), false⟩], limit := some 3 }
    readAs? SearchQuery.ofJson? s = some q ∧ q.ReadsBack ∧
      readAs? SearchQuery.ofJson? q.toJson.compact = some q := by
  intro s t half q
  have hhalf : (JsonNumber.real (Binary64.ofRatio false 1 2)).ReadsBack := rfl
  have ht : t.ReadsBack := by
    unfold Instant.ReadsBack
    decide +kernel
  have hread : readAs? SearchQuery.ofJson? s = some q := by decide +kernel
  have hvalues : q.values = [.date t, .number half] := rfl
  have hback : q.ReadsBack := by
    refine ⟨?_, Instant.readsBack_earliest, Instant.readsBack_latest⟩
    simp only [hvalues, List.forall_mem_cons]
    exact ⟨ht, fun _ => hhalf, by simp⟩
  exact ⟨hread, hback, decoded_stable.2.2.2.2.1 s q hread hback⟩

end LogLens
