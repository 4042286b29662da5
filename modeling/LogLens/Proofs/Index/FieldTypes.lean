/-
Types of fields after entries were added and removed.

The type of a field is that of the value added last while this value is remembered, and is read off
the texts at hand otherwise.  A value is forgotten when its text goes, so what is remembered is
always shown by some entry that is held (`Remembers`).  That entry need not carry the value itself:
a number and a text can be shown alike, and then the type outlives the numbers
(`type_outlives_number`).  Where no value of another type is shown like it, the type is that of a
value that is held (`type_follows_held`).
-/
import LogLens.Proofs.Index.Tallies

namespace LogLens
namespace Index

/-- The type of a single value. -/
def typeOf : FieldValue → FieldType
  | .number _ => .number
  | .bool _ => .bool
  | .date _ => .date
  | .text _ => .text

/-- The values under one name. -/
def valuesOf (name : String) (values : List (String × FieldValue)) : List FieldValue :=
  (values.filter (·.1 = name)).map (·.2)

theorem mem_valuesOf {name : String} {v : FieldValue} {values : List (String × FieldValue)} :
    v ∈ valuesOf name values ↔ (name, v) ∈ values := by
  simp only [valuesOf, List.mem_map, List.mem_filter, decide_eq_true_eq]
  constructor
  · intro h
    obtain ⟨f, ⟨hf, rfl⟩, rfl⟩ := h
    exact hf
  · intro h
    exact ⟨(name, v), ⟨h, rfl⟩, rfl⟩

theorem textsOf_flatMap_shown (name : String) (entries : List Entry) :
    textsOf name (entries.flatMap shown) =
      (valuesOf name (entries.flatMap observed)).map FieldValue.display := by
  have hshown : entries.flatMap shown =
      (entries.flatMap observed).map fun f => (f.1, f.2.display) := by
    rw [List.map_flatMap]
    rfl
  rw [hshown, textsOf, valuesOf, List.filter_map, List.map_map, List.map_map]
  rfl

/-! ## Types -/

namespace FieldStat

/-- Only the set of texts counts. -/
theorem typeOfTexts_congr {texts texts' : List String} (h : ∀ s, s ∈ texts ↔ s ∈ texts')
    (now : Instant) : typeOfTexts texts now = typeOfTexts texts' now := by
  have hall : ∀ p : String → Bool, texts.all p = texts'.all p := by
    intro p
    rw [Bool.eq_iff_iff, List.all_eq_true, List.all_eq_true]
    simp only [h]
  simp only [typeOfTexts, hall]

theorem type_of_last {s : FieldStat} {v : FieldValue} (h : s.last = some v)
    (hv : typeOf v ≠ .text) (now : Instant) : s.type now = typeOf v := by
  rw [type, h]
  cases v with
  | text => exact absurd rfl hv
  | _ => rfl

theorem type_of_texts {s : FieldStat} (h : ∀ v, s.last = some v → typeOf v = .text)
    (now : Instant) : s.type now = typeOfTexts s.counts.keys now := by
  rw [type]
  cases hlast : s.last with
  | none => rfl
  | some v =>
    have hv := h v hlast
    cases v with
    | text => rfl
    | _ => cases hv

/-- Removing a value leaves what was remembered, unless its text goes. -/
theorem last_remove {s : FieldStat} {v u : FieldValue} {n : Nat}
    (hn : s.counts.get? v.display = some n) (hu : (s.remove v).last = some u) :
    s.last = some u ∧ (n = 1 → u.display ≠ v.display) := by
  simp only [remove, hn] at hu
  by_cases hone : n = 1
  · rw [if_pos hone, Option.filter_eq_some_iff] at hu
    exact ⟨hu.1, fun _ => of_decide_eq_true hu.2⟩
  · rw [if_neg hone] at hu
    exact ⟨hu, fun h => absurd h hone⟩

end FieldStat

namespace FieldStats

/-! ## What is remembered -/

/-- What is remembered of a field is the value that was added last, and its text is still shown. -/
structure Remembers (stats : FieldStats) (added : List (String × FieldValue))
    (pairs : List (String × String)) : Prop where
  tallies : Tallies stats pairs
  last : ∀ {name : String} {s : FieldStat} {v : FieldValue}, Dict.get? stats name = some s →
    s.last = some v → (valuesOf name added).getLast? = some v ∧ (name, v.display) ∈ pairs

variable {stats : FieldStats} {added : List (String × FieldValue)} {pairs : List (String × String)}

theorem remembers_empty : Remembers Dict.empty [] [] :=
  ⟨tallies_empty, fun h => absurd h (by simp [Dict.get?_empty])⟩

theorem Remembers.perm {pairs' : List (String × String)} (h : Remembers stats added pairs)
    (hperm : pairs.Perm pairs') : Remembers stats added pairs' :=
  ⟨h.tallies.perm hperm, fun hs hv => (h.last hs hv).imp_right hperm.mem_iff.mp⟩

/-! ## Single values -/

theorem Remembers.addValue (h : Remembers stats added pairs) (name : String) (v : FieldValue) :
    Remembers (FieldStats.addValue stats name v) (added ++ [(name, v)])
      ((name, v.display) :: pairs) := by
  refine ⟨h.tallies.addValue name v, fun {name' s u} hs hu => ?_⟩
  rw [FieldStats.addValue, Dict.get?_alter] at hs
  by_cases hname : name' = name
  · subst hname
    rw [if_pos rfl] at hs
    obtain rfl := Option.some.inj hs
    obtain rfl := Option.some.inj hu
    exact ⟨by simp [valuesOf], List.mem_cons_self⟩
  · rw [if_neg hname] at hs
    have hvalues : valuesOf name' (added ++ [(name, v)]) = valuesOf name' added := by
      simp [valuesOf, Ne.symm hname]
    rw [hvalues]
    exact (h.last hs hu).imp_right (List.mem_cons_of_mem _)

/-- When the text of a value that is removed is not shown any more, no value of this text is
remembered. -/
theorem Remembers.removeValue {name : String} {v : FieldValue}
    (h : Remembers stats added ((name, v.display) :: pairs)) :
    Remembers (FieldStats.removeValue stats name v) added pairs := by
  refine ⟨h.tallies.removeValue, fun {name' s u} hs hu => ?_⟩
  rw [FieldStats.removeValue, Dict.get?_alter] at hs
  by_cases hname : name' = name
  · subst hname
    obtain ⟨s', n, hs', hn, -⟩ := h.tallies.counted List.mem_cons_self
    rw [if_pos rfl, hs', Option.map_some, Option.filter_eq_some_iff] at hs
    obtain rfl := Option.some.inj hs.1
    obtain ⟨hlast, hgone⟩ := FieldStat.last_remove hn hu
    obtain ⟨hadded, hmem⟩ := h.last hs' hlast
    refine ⟨hadded, ?_⟩
    rcases List.mem_cons.mp hmem with heq | hmem
    · have hdisplay : u.display = v.display := congrArg Prod.snd heq
      have hcount : n = (textsOf name' pairs).count v.display + 1 := by
        rw [h.tallies.counts_eq hs', textsOf_cons_self, Dict.get?_countAll,
          if_pos List.mem_cons_self, List.count_cons_self] at hn
        exact (Option.some.inj hn).symm
      have hpos : 0 < (textsOf name' pairs).count v.display :=
        Nat.pos_of_ne_zero fun hzero => hgone (by rw [hcount, hzero]) hdisplay
      rw [hdisplay]
      exact mem_textsOf.mp (List.count_pos_iff.mp hpos)
    · exact hmem
  · rw [if_neg hname] at hs
    obtain ⟨hadded, hmem⟩ := h.last hs hu
    refine ⟨hadded, (List.mem_cons.mp hmem).resolve_left fun heq => ?_⟩
    exact hname (congrArg Prod.fst heq)

/-! ## Entries -/

theorem Remembers.foldl_addValue (h : Remembers stats added pairs)
    (values : List (String × FieldValue)) :
    Remembers (values.foldl (fun stats f => FieldStats.addValue stats f.1 f.2) stats)
      (added ++ values) ((values.map fun f => (f.1, f.2.display)) ++ pairs) := by
  induction values generalizing stats added pairs with
  | nil =>
    rw [List.append_nil]
    exact h
  | cons f values ih =>
    rw [List.append_cons]
    exact (ih (h.addValue f.1 f.2)).perm List.perm_middle

theorem Remembers.addEntry (h : Remembers stats added pairs) (e : Entry) :
    Remembers (FieldStats.addEntry stats e) (added ++ observed e) (shown e ++ pairs) := by
  rw [addEntry_eq]
  exact h.foldl_addValue (observed e)

theorem Remembers.foldl_removeValue {values : List (String × FieldValue)}
    (h : Remembers stats added ((values.map fun f => (f.1, f.2.display)) ++ pairs)) :
    Remembers (values.foldl (fun stats f => FieldStats.removeValue stats f.1 f.2) stats) added
      pairs := by
  induction values generalizing stats with
  | nil => exact h
  | cons f values ih => exact ih h.removeValue

theorem Remembers.removeEntry {e : Entry} (h : Remembers stats added (shown e ++ pairs)) :
    Remembers (FieldStats.removeEntry stats e) added pairs :=
  h.foldl_removeValue

/-! ## Histories -/

/-- An entry is counted, or one that was counted is taken away. -/
inductive Change where
  | add (e : Entry)
  | remove (e : Entry)

def apply (stats : FieldStats) : Change → FieldStats
  | .add e => addEntry stats e
  | .remove e => removeEntry stats e

/-- The statistics that a history of changes leads to. -/
def after (history : List Change) : FieldStats := history.foldl apply Dict.empty

/-- The entries that are held after a change; only what is held can be removed. -/
def hold? (entries : List Entry) : Change → Option (List Entry)
  | .add e => some (e :: entries)
  | .remove e => if e ∈ entries then some (entries.erase e) else none

/-- The entries that were added and not removed since. -/
def held? (history : List Change) : Option (List Entry) := history.foldlM hold? []

/-- The values that a history adds, in order. -/
def addedValues (history : List Change) : List (String × FieldValue) :=
  history.flatMap fun
    | .add e => observed e
    | .remove _ => []

theorem Remembers.apply {entries entries' : List Entry}
    (h : Remembers stats added (entries.flatMap shown)) {c : Change}
    (hheld : hold? entries c = some entries') :
    Remembers (FieldStats.apply stats c) (added ++ addedValues [c]) (entries'.flatMap shown) := by
  cases c with
  | add e =>
    obtain rfl := Option.some.inj hheld
    have hadded : addedValues [.add e] = observed e := List.append_nil _
    rw [hadded]
    exact h.addEntry e
  | remove e =>
    rw [hold?, Option.ite_none_right_eq_some] at hheld
    obtain ⟨he, heq⟩ := hheld
    obtain rfl := Option.some.inj heq
    have hadded : addedValues [.remove e] = [] := rfl
    rw [hadded, List.append_nil]
    exact (h.perm ((List.perm_cons_erase he).flatMap_right shown)).removeEntry

theorem Remembers.run {history : List Change} {entries entries' : List Entry}
    (h : Remembers stats added (entries.flatMap shown))
    (hheld : history.foldlM hold? entries = some entries') :
    Remembers (history.foldl FieldStats.apply stats) (added ++ addedValues history)
      (entries'.flatMap shown) := by
  induction history generalizing stats added entries with
  | nil =>
    obtain rfl := Option.some.inj hheld
    have hadded : addedValues [] = [] := rfl
    rw [hadded, List.append_nil]
    exact h
  | cons c history ih =>
    rw [List.foldlM_cons] at hheld
    obtain ⟨between, hbetween, hrest⟩ := Option.bind_eq_some_iff.mp hheld
    have hadded : addedValues (c :: history) = addedValues [c] ++ addedValues history := by
      rw [← List.singleton_append, addedValues, List.flatMap_append]
      rfl
    rw [hadded, ← List.append_assoc]
    exact ih (h.apply hbetween) hrest

theorem remembers_after {history : List Change} {entries : List Entry}
    (h : held? history = some entries) :
    Remembers (after history) (addedValues history) (entries.flatMap shown) := by
  have hempty : Remembers Dict.empty [] (([] : List Entry).flatMap shown) := remembers_empty
  exact hempty.run h

/-! ## Suggested types -/

/-- The type that is suggested for a field comes from the value added last, which is remembered
while its text is shown, or else from all texts.  When nothing of another type is shown like a
remembered value, its type is one that an entry at hand carries, and a field of texts has the type
of these texts. -/
theorem type_follows_held {history : List Change} {entries : List Entry}
    (hheld : held? history = some entries) (limit : Nat) (now : Instant) :
    ∀ g ∈ suggestions (after history) limit now,
      let values := valuesOf g.field (entries.flatMap observed)
      let texts := (values.map FieldValue.display).dedup
      let latest := (valuesOf g.field (addedValues history)).getLast?
      ∃ s, Dict.get? (after history) g.field = some s ∧ g.type = s.type now ∧
        (∀ v, s.last = some v → latest = some v ∧ v.display ∈ texts) ∧
        ((∀ v, s.last = some v →
            ∀ w ∈ values, w.display = v.display → typeOf w = typeOf v) →
          (∀ v, s.last = some v → typeOf v ≠ .text →
            g.type = typeOf v ∧
              ∃ e ∈ entries, ∃ w, (g.field, w) ∈ observed e ∧ typeOf w = typeOf v) ∧
          ((∀ w ∈ values, typeOf w = .text) → g.type = FieldStat.typeOfTexts texts now)) := by
  intro g hg values texts latest
  have h := remembers_after hheld
  obtain ⟨⟨name, s⟩, hentry, rfl⟩ := List.mem_map.mp hg
  have hs : Dict.get? (after history) name = some s := Dict.get?_eq_some_iff.mpr hentry
  have htexts : textsOf name (entries.flatMap shown) = values.map FieldValue.display :=
    textsOf_flatMap_shown name entries
  have hlast : ∀ v, s.last = some v → latest = some v ∧ v.display ∈ texts := by
    intro v hv
    obtain ⟨hadded, hmem⟩ := h.last hs hv
    exact ⟨hadded, List.mem_dedup.mpr (htexts ▸ mem_textsOf.mpr hmem)⟩
  refine ⟨s, hs, rfl, hlast, fun hsame => ?_⟩
  -- some value at hand is shown like the remembered one, and so is of its type
  have hcarried : ∀ v, s.last = some v → ∃ w ∈ values, typeOf w = typeOf v := by
    intro v hv
    obtain ⟨w, hw, hdisplay⟩ := List.mem_map.mp (List.mem_dedup.mp (hlast v hv).2)
    exact ⟨w, hw, hsame v hv w hw hdisplay⟩
  constructor
  · intro v hv htype
    refine ⟨FieldStat.type_of_last hv htype now, ?_⟩
    obtain ⟨w, hw, hwv⟩ := hcarried v hv
    obtain ⟨e, he, hmem⟩ := List.mem_flatMap.mp (mem_valuesOf.mp hw)
    exact ⟨e, he, w, hmem, hwv⟩
  · intro htext
    have hremembered : ∀ v, s.last = some v → typeOf v = .text := by
      intro v hv
      obtain ⟨w, hw, hwv⟩ := hcarried v hv
      rw [← hwv, htext w hw]
    refine (FieldStat.type_of_texts hremembered now).trans (FieldStat.typeOfTexts_congr ?_ now)
    intro text
    rw [h.tallies.counts_eq hs, Dict.mem_keys_countAll, htexts, List.mem_dedup]

/-- An entry with one field of its own. -/
def coded (code : FieldValue) : Entry where
  timestamp := .earliest
  level := .info
  message := "up"
  file := "a.log"
  raw := "up"
  fields := Dict.ofList [("code", code)]

/-- The text goes, and the number that came after it stays. -/
theorem type_follows_held_number :
    let seven : FieldValue := .number (Binary64.ofNat 7)
    let history : List Change :=
      [.add (coded (.text "E42")), .add (coded seven), .remove (coded (.text "E42"))]
    held? history = some [coded seven] ∧
      ∃ g ∈ suggestions (after history) 10 .earliest, g.field = "code" ∧ g.type = .number ∧
        ∃ e ∈ [coded seven], ∃ w, (g.field, w) ∈ observed e ∧ typeOf w = .number := by
  intro seven history
  have hheld : held? history = some [coded seven] := by decide +kernel
  obtain ⟨g, hg, hfield⟩ : ∃ g ∈ suggestions (after history) 10 .earliest, g.field = "code" := by
    decide +kernel
  obtain ⟨s, hs, -, -, hfollows⟩ := type_follows_held hheld 10 .earliest g hg
  rw [hfield] at hs hfollows
  have hlast : Dict.get? (after history) "code" =
      some ⟨Dict.ofList [("7", 1)], some seven⟩ := by
    decide +kernel
  obtain rfl := Option.some.inj (hlast.symm.trans hs)
  have hsame : ∀ v, some seven = some v → ∀ w ∈ valuesOf "code" ([coded seven].flatMap observed),
      w.display = v.display → typeOf w = typeOf v := by
    intro v hv
    obtain rfl := Option.some.inj hv
    decide +kernel
  obtain ⟨htype, hcarried⟩ := (hfollows hsame).1 seven rfl (by decide)
  exact ⟨hheld, g, hg, hfield, htype, hfield ▸ hcarried⟩

/-- A number and a text are shown alike.  When the number is gone, the field is still one of
numbers, although only texts are left and not all of them can be read as numbers. -/
theorem type_outlives_number :
    let seven : FieldValue := .number (Binary64.ofNat 7)
    let history : List Change := [.add (coded (.text "7")), .add (coded (.text "E42")),
      .add (coded seven), .remove (coded seven)]
    let entries : List Entry := [coded (.text "E42"), coded (.text "7")]
    held? history = some entries ∧
      (∀ w ∈ valuesOf "code" (entries.flatMap observed), typeOf w = .text) ∧
      FieldStat.typeOfTexts ["7", "E42"] .earliest = .text ∧
      ∃ g ∈ suggestions (after history) 10 .earliest, g.field = "code" ∧ g.type = .number := by
  decide +kernel

end FieldStats
end Index
end LogLens
