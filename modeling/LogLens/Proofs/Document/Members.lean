/-
What becomes of the members of an object.

Time, level and message are each looked up under a list of names, and the first member that is
accepted there is used up (`FirstAccepted`).  What is accepted differs: a time has to be read from
the member, a level is made of any text or number, and a message of anything but `null`.  A member
that is passed over stays with the rest, and of the rest every member but `null` becomes a field
(`Divides`).  So no member of an object is lost (`entry_divides`).
-/
import LogLens.Proofs.Dict.Lookup
import LogLens.Proofs.Time.Placement

namespace LogLens
namespace Structured

open Placement

/-! ## What a member says -/

inductive SaysTime (reference : Instant) : Json → Instant → Prop
  | text {s : String} {t : Instant} (h : Stamp.parse s reference = .ok (some t)) :
      SaysTime reference (.text s) t
  | number {n : JsonNumber} {t : Instant} (h : Stamp.ofEpoch? n.toBinary64 = some t) :
      SaysTime reference (.number n) t

inductive SaysLevel : Json → Level → Prop
  | text (s : String) : SaysLevel (.text s) (Level.ofWord s)
  | number (n : JsonNumber) : SaysLevel (.number n) (Level.ofNumber n.toBinary64)

/-- Whatever is no text says its own JSON text, `null` apart. -/
inductive SaysMessage : Json → String → Prop
  | text (s : String) : SaysMessage (.text s) s
  | bool (b : Bool) : SaysMessage (.bool b) (Json.bool b).compact
  | number (n : JsonNumber) : SaysMessage (.number n) (Json.number n).compact
  | array (items : List Json) : SaysMessage (.array items) (Json.array items).compact
  | object (members : Members) : SaysMessage (.object members) (Json.object members).compact

/-- Single values keep their type, and nested ones become their JSON text. -/
inductive SaysField : Json → FieldValue → Prop
  | bool (b : Bool) : SaysField (.bool b) (.bool b)
  | number (n : JsonNumber) : SaysField (.number n) (.number n.toBinary64)
  | text (s : String) : SaysField (.text s) (.text s)
  | array (items : List Json) : SaysField (.array items) (.text (Json.array items).compact)
  | object (members : Members) : SaysField (.object members) (.text (Json.object members).compact)

theorem timestampOf_iff {reference : Instant} {j : Json} {t : Instant} :
    timestampOf reference j = .ok (some t) ↔ SaysTime reference j t := by
  constructor
  · intro h
    cases j with
    | text s => exact .text h
    | number n => exact .number (Except.ok.inj h)
    | _ => cases h
  · rintro (h | h)
    · exact h
    · exact congrArg _ h

theorem levelOf_iff (j : Json) (level : Level) : levelOf j = some level ↔ SaysLevel j level := by
  constructor
  · intro h
    cases j with
    | text s => exact Option.some.inj h ▸ .text s
    | number n => exact Option.some.inj h ▸ .number n
    | _ => cases h
  · rintro (s | n) <;> rfl

theorem messageOf_iff (j : Json) (s : String) : messageOf j = some s ↔ SaysMessage j s := by
  constructor
  · intro h
    cases j with
    | null => cases h
    | bool b => exact Option.some.inj h ▸ .bool b
    | number n => exact Option.some.inj h ▸ .number n
    | text s => exact Option.some.inj h ▸ .text s
    | array items => exact Option.some.inj h ▸ .array items
    | object members => exact Option.some.inj h ▸ .object members
  · rintro (s | b | n | items | members) <;> rfl

theorem fieldOf_iff {j : Json} {v : FieldValue} : fieldOf j = some v ↔ SaysField j v := by
  constructor
  · intro h
    cases j with
    | null => cases h
    | bool b => exact Option.some.inj h ▸ .bool b
    | number n => exact Option.some.inj h ▸ .number n
    | text s => exact Option.some.inj h ▸ .text s
    | array items => exact Option.some.inj h ▸ .array items
    | object members => exact Option.some.inj h ▸ .object members
  · rintro (b | n | s | items | members) <;> rfl

/-! ## The first member that is accepted -/

/-- `found` is the first of the names whose member is accepted, with what the member says. -/
inductive FirstAccepted {α : Type} (members : Members) (accepts : Json → α → Prop)
    (names : List String) : Option (String × α) → Prop
  | found {before after : List String} {name : String} {j : Json} {a : α}
      (hnames : names = before ++ name :: after)
      (hbefore : ∀ other ∈ before, ∀ j a, (other, j) ∈ members → ¬accepts j a)
      (hmember : (name, j) ∈ members) (haccepts : accepts j a) :
      FirstAccepted members accepts names (some (name, a))
  | missing (hnames : ∀ name ∈ names, ∀ j a, (name, j) ∈ members → ¬accepts j a) :
      FirstAccepted members accepts names none

theorem FirstAccepted.name_mem {α : Type} {members : Members} {accepts : Json → α → Prop}
    {names : List String} {found : Option (String × α)}
    (h : FirstAccepted members accepts names found) : ∀ name ∈ found.map (·.1), name ∈ names := by
  intro name hname
  cases h with
  | found hnames _ _ _ =>
    obtain rfl := Option.some.inj hname
    simp [hnames]
  | missing => cases hname

/-- A search that can fail ends at the first element that does not answer with nothing. -/
theorem findSomeM?_cases {α β ε : Type} (f : α → Except ε (Option β)) (l : List α) :
    (l.findSomeM? f = .ok none ∧ ∀ a ∈ l, f a = .ok none) ∨
    ∃ before a after, l = before ++ a :: after ∧ (∀ b ∈ before, f b = .ok none) ∧
      f a ≠ .ok none ∧ l.findSomeM? f = f a := by
  induction l with
  | nil => exact Or.inl ⟨rfl, List.forall_mem_nil _⟩
  | cons a l ih =>
    rw [List.findSomeM?]
    cases ha : f a with
    | error e => exact Or.inr ⟨[], a, l, rfl, List.forall_mem_nil _, by simp [ha], ha.symm⟩
    | ok found =>
      cases found with
      | some b => exact Or.inr ⟨[], a, l, rfl, List.forall_mem_nil _, by simp [ha], ha.symm⟩
      | none =>
        rcases ih with ⟨hnone, hall⟩ | ⟨before, a', after, rfl, hbefore, hne, hfound⟩
        · exact Or.inl ⟨hnone, List.forall_mem_cons.mpr ⟨ha, hall⟩⟩
        · exact Or.inr ⟨a :: before, a', after, rfl, List.forall_mem_cons.mpr ⟨ha, hbefore⟩, hne,
            hfound⟩

/-- Pairs that are made of pairs with the same names keep the order of the names. -/
theorem filterMap_names_sublist {α β : Type} {f : String × α → Option (String × β)}
    (hf : ∀ m p, f m = some p → p.1 = m.1) (l : List (String × α)) :
    ((l.filterMap f).map (·.1)).Sublist (l.map (·.1)) := by
  induction l with
  | nil => exact .slnil
  | cons m l ih =>
    cases hm : f m with
    | none =>
      rw [List.filterMap_cons_none hm]
      exact .cons _ ih
    | some p =>
      rw [List.filterMap_cons_some hm, List.map_cons, List.map_cons, hf m p hm]
      exact .cons_cons _ ih

section Members

variable {members : Members} (hmembers : (members.map (·.1)).Nodup)

include hmembers

theorem member?_eq_some_iff {name : String} {j : Json} :
    Json.member? members name = some j ↔ (name, j) ∈ members := by
  rw [Json.member?, Option.map_eq_some_iff]
  constructor
  · rintro ⟨m, hm, rfl⟩
    have hname : m.1 = name := by simpa using List.find?_some hm
    exact hname ▸ List.mem_of_find?_eq_some hm
  · intro hmem
    have hfound : (members.find? (·.1 == name)).isSome := by
      rw [List.find?_isSome]
      exact ⟨(name, j), hmem, by simp⟩
    obtain ⟨m, hm⟩ := Option.isSome_iff_exists.mp hfound
    have hname : m.1 = name := by simpa using List.find?_some hm
    have heq : m = (name, j) :=
      List.inj_on_of_nodup_map hmembers (List.mem_of_find?_eq_some hm) hmem hname
    exact ⟨m, hm, by rw [heq]⟩

theorem firstMember?_accepted {α : Type} {f : Json → Option α} {accepts : Json → α → Prop}
    (hf : ∀ j a, f j = some a ↔ accepts j a) (names : List String) :
    FirstAccepted members accepts names (firstMember? members names f) := by
  have hnone : ∀ {name}, ((Json.member? members name).bind f).map (name, ·) = none →
      ∀ j a, (name, j) ∈ members → ¬accepts j a := by
    intro name hname j a hmem haccepts
    rw [(member?_eq_some_iff hmembers).mpr hmem, Option.bind_some, (hf j a).mpr haccepts] at hname
    cases hname
  cases hfound : firstMember? members names f with
  | none =>
    refine .missing fun name hname => ?_
    exact hnone (List.findSome?_eq_none_iff.mp hfound name hname)
  | some found =>
    obtain ⟨before, name, after, hnames, hname, hbefore⟩ := List.findSome?_eq_some_iff.mp hfound
    obtain ⟨a, ha, rfl⟩ := Option.map_eq_some_iff.mp hname
    obtain ⟨j, hj, ha⟩ := Option.bind_eq_some_iff.mp ha
    exact .found hnames (fun other hother => hnone (hbefore other hother))
      ((member?_eq_some_iff hmembers).mp hj) ((hf j a).mp ha)

/-- What is found of the time is the first member that says one, and nothing is found only where a
text is a time that cannot be placed. -/
theorem timestampMember_accepted (reference : Instant) :
    (∃ found, timestampMember members reference = .ok found ∧
      FirstAccepted members (SaysTime reference) timestampNames found) ∨
    timestampMember members reference = .error ⟨⟩ ∧
      ∃ name ∈ timestampNames, ∃ s, (name, .text s) ∈ members ∧
        Stamp.parse s reference = .error ⟨⟩ := by
  obtain ⟨f, hmember, hvalue, habsent⟩ : ∃ f : String → Except Stamp.OutOfRange _,
      timestampMember members reference = timestampNames.findSomeM? f ∧
      (∀ {name j}, (name, j) ∈ members →
        f name = (timestampOf reference j).map (·.map (name, ·))) ∧
      ∀ {name}, Json.member? members name = none → f name = .ok none := by
    refine ⟨_, rfl, fun {name j} hmem => ?_, fun {name} hname => ?_⟩
    · simp only [(member?_eq_some_iff hmembers).mpr hmem]
      cases timestampOf reference j <;> rfl
    · simp only [hname]
      rfl
  rw [hmember]
  have hnone : ∀ {name}, f name = .ok none → ∀ j t, (name, j) ∈ members →
      ¬SaysTime reference j t := by
    intro name hname j t hmem hsays
    rw [hvalue hmem, timestampOf_iff.mpr hsays] at hname
    cases hname
  rcases findSomeM?_cases f timestampNames with ⟨hfound, hall⟩ |
    ⟨before, name, after, hnames, hbefore, hne, hfound⟩
  · exact Or.inl ⟨none, hfound, .missing fun name hname => hnone (hall name hname)⟩
  · rw [hfound]
    cases hj : Json.member? members name with
    | none => exact absurd (habsent hj) hne
    | some j =>
      have hmem := (member?_eq_some_iff hmembers).mp hj
      rw [hvalue hmem] at hne ⊢
      cases htime : timestampOf reference j with
      | error e =>
        refine Or.inr ⟨rfl, name, by simp [hnames], ?_⟩
        cases j with
        | text s => exact ⟨s, hmem, htime⟩
        | _ => cases htime
      | ok found =>
        cases found with
        | none =>
          rw [htime] at hne
          exact absurd rfl hne
        | some t =>
          refine Or.inl ⟨some (name, t), rfl, ?_⟩
          exact .found hnames (fun other hother => hnone (hbefore other hother)) hmem
            (timestampOf_iff.mp htime)

/-! ## Fields -/

/-- The fields are the members that are not used up, but those that are `null`. -/
theorem get?_fieldsOf (used : List String) {name : String} {v : FieldValue} :
    (fieldsOf members used).get? name = some v ↔
      name ∉ used ∧ ∃ j, (name, j) ∈ members ∧ SaysField j v := by
  have hkept : ∀ {m : String × Json} {p : String × FieldValue},
      (if used.contains m.1 then none else (fieldOf m.2).map (m.1, ·)) = some p ↔
        m.1 ∉ used ∧ p.1 = m.1 ∧ SaysField m.2 p.2 := by
    intro m p
    by_cases hused : m.1 ∈ used
    · simp [hused]
    · simp only [List.contains_iff_mem, hused, if_false, Option.map_eq_some_iff, fieldOf_iff,
        not_false_eq_true, true_and, Prod.ext_iff]
      constructor
      · rintro ⟨w, hw, hname, rfl⟩
        exact ⟨hname.symm, hw⟩
      · rintro ⟨hname, hw⟩
        exact ⟨p.2, hw, hname.symm, rfl⟩
  have hnames := hmembers.sublist
    (filterMap_names_sublist (fun m p h => (hkept.mp h).2.1) members)
  rw [fieldsOf, Dict.get?_ofList_eq_some_iff hnames, List.mem_filterMap]
  constructor
  · rintro ⟨m, hmem, hm⟩
    obtain ⟨hused, rfl, hsays⟩ := hkept.mp hm
    exact ⟨hused, m.2, hmem, hsays⟩
  · rintro ⟨hused, j, hmem, hsays⟩
    exact ⟨(name, j), hmem, hkept.mpr ⟨hused, rfl, hsays⟩⟩

end Members

/-! ## Whole objects -/

/-- The names of the members that gave time, level and message. -/
def usedNames (timestamp : Option (String × Instant)) (level : Option (String × Level))
    (message : Option (String × String)) : List String :=
  (timestamp.map (·.1)).toList ++ (level.map (·.1)).toList ++ (message.map (·.1)).toList

/-- How the members of an object are divided up, and what the entry makes of each part. -/
structure Divides (members : Members) (reference : Instant)
    (timestamp : Option (String × Instant)) (level : Option (String × Level))
    (message : Option (String × String)) (e : Entry) : Prop where
  timestamp_first : FirstAccepted members (SaysTime reference) timestampNames timestamp
  level_first : FirstAccepted members SaysLevel levelNames level
  message_first : FirstAccepted members SaysMessage messageNames message
  /-- No member is used up twice. -/
  used_nodup : (usedNames timestamp level message).Nodup
  timestamp_eq : e.timestamp = (timestamp.map (·.2)).getD reference
  level_eq : e.level = (level.map (·.2)).getD .info
  message_eq : e.message = (message.map (·.2)).getD (Json.object members).compact
  /-- The fields are the rest of the members, but those that are `null`. -/
  fields_iff : ∀ name v, e.fields.get? name = some v ↔
    name ∉ usedNames timestamp level message ∧ ∃ j, (name, j) ∈ members ∧ SaysField j v
  /-- Every member is used up, is `null`, or is a field. -/
  kept : ∀ name j, (name, j) ∈ members →
    name ∈ usedNames timestamp level message ∨ j = .null ∨
      ∃ v, SaysField j v ∧ e.fields.get? name = some v

theorem exists_saysField {j : Json} (h : j ≠ .null) : ∃ v, SaysField j v := by
  cases j with
  | null => exact absurd rfl h
  | bool b => exact ⟨_, .bool b⟩
  | number n => exact ⟨_, .number n⟩
  | text s => exact ⟨_, .text s⟩
  | array items => exact ⟨_, .array items⟩
  | object members => exact ⟨_, .object members⟩

theorem nodup_usedNames {timestamp : Option (String × Instant)} {level : Option (String × Level)}
    {message : Option (String × String)}
    (htimestamp : ∀ name ∈ timestamp.map (·.1), name ∈ timestampNames)
    (hlevel : ∀ name ∈ level.map (·.1), name ∈ levelNames)
    (hmessage : ∀ name ∈ message.map (·.1), name ∈ messageNames) :
    (usedNames timestamp level message).Nodup := by
  have hone : ∀ o : Option String, o.toList.Nodup := by
    intro o
    cases o <;> simp
  have hlevelApart : ∀ name ∈ timestampNames, name ∉ levelNames := by decide
  have hmessageApart : ∀ name ∈ timestampNames ++ levelNames, name ∉ messageNames := by decide
  rw [usedNames, List.nodup_append', List.nodup_append']
  refine ⟨⟨hone _, hone _, fun name hname hother => ?_⟩, hone _, fun name hname hother => ?_⟩
  · exact hlevelApart name (htimestamp name (Option.mem_toList.mp hname))
      (hlevel name (Option.mem_toList.mp hother))
  · refine hmessageApart name ?_ (hmessage name (Option.mem_toList.mp hother))
    rcases List.mem_append.mp hname with hname | hname
    · exact List.mem_append_left _ (htimestamp name (Option.mem_toList.mp hname))
    · exact List.mem_append_right _ (hlevel name (Option.mem_toList.mp hname))

/-- The members of an object are divided up between the parts of its entry, and none is lost.  There
is no entry only when a text under one of the names of the time is a time without a year that would
have to be placed from the last representable day. -/
theorem entry_divides {members : Members} (hmembers : (members.map (·.1)).Nodup)
    (raw file : String) (reference : Instant) (line : Option Nat) :
    (∃ e timestamp level message, entry members raw file reference line = .ok e ∧
      Divides members reference timestamp level message e ∧ e.raw = raw ∧ e.file = file) ∨
    entry members raw file reference line = .error ⟨⟩ ∧ ¬reference.HasNextDay ∧
      ∃ name ∈ timestampNames, ∃ s, (name, .text s) ∈ members ∧
        Stamp.parse s reference = .error ⟨⟩ := by
  rcases timestampMember_accepted hmembers reference with
    ⟨timestamp, htimestamp, hfirst⟩ | ⟨herror, name, hname, s, hmem, hs⟩
  · have hlevel := firstMember?_accepted hmembers levelOf_iff levelNames
    have hmessage := firstMember?_accepted hmembers messageOf_iff messageNames
    have hfields := fun name v => @get?_fieldsOf members hmembers
      (usedNames timestamp (firstMember? members levelNames levelOf)
        (firstMember? members messageNames messageOf)) name v
    refine Or.inl ⟨_, timestamp, firstMember? members levelNames levelOf,
      firstMember? members messageNames messageOf, by rw [entry, htimestamp]; rfl, ?_, rfl, rfl⟩
    exact
      { timestamp_first := hfirst
        level_first := hlevel
        message_first := hmessage
        used_nodup := nodup_usedNames hfirst.name_mem hlevel.name_mem hmessage.name_mem
        timestamp_eq := rfl
        level_eq := rfl
        message_eq := rfl
        fields_iff := hfields
        kept := by
          intro name j hmem
          refine or_iff_not_imp_left.mpr fun hused => or_iff_not_imp_left.mpr fun hnull => ?_
          obtain ⟨v, hv⟩ := exists_saysField hnull
          exact ⟨v, hv, (hfields name v).mpr ⟨hused, j, hmem, hv⟩⟩ }
  · refine Or.inr ⟨by rw [entry, herror]; rfl, fun hday => ?_, name, hname, s, hmem, hs⟩
    obtain ⟨found, hfound⟩ := Stamp.parse_isOk hday s
    exact absurd (hfound.symm.trans hs) (by simp)

/-- Members that are passed over become fields: a time that cannot be read, a level that is no word,
a message that is `null` no field at all, and the second of two messages. -/
theorem entry_divides_passedOver :
    let members : Members := [("level", .bool true), ("message", .null), ("msg", .array [.null]),
      ("severity", .text "warning"), ("text", .text "up"), ("time", .text "yesterday"),
      ("ts", .number (.integer 1759320000))]
    (members.map (·.1)).Nodup ∧
    ∃ e timestamp level message, entry members "raw" "a.log" .earliest none = .ok e ∧
      Divides members .earliest timestamp level message e ∧ e.raw = "raw" ∧ e.file = "a.log" := by
  intro members
  have hmembers : (members.map (·.1)).Nodup := by decide
  exact ⟨hmembers, (entry_divides hmembers "raw" "a.log" .earliest none).resolve_right
    fun herror => herror.2.1 (by decide)⟩

/-- On the last representable day an object with a time without a year makes no entry. -/
theorem entry_lastDay :
    let members : Members := [("message", .text "up"), ("timestamp", .text "Oct  1 12:00:00")]
    (members.map (·.1)).Nodup ∧
      ¬∃ e, entry members "raw" "a.log" .latest none = .ok e := by
  intro members
  have herror : (entry members "raw" "a.log" .latest none).toOption = none := by decide +kernel
  refine ⟨by decide, ?_⟩
  rintro ⟨e, he⟩
  rw [he] at herror
  cases herror

end Structured
end LogLens
