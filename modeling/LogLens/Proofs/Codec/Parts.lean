/-
Documents that are read as they were written.

A document is read as a value when its decoder takes it and the numbers in it survive their texts;
then its compact text is read as that value, too (`Decodes.ofText`).  Lists, dictionaries, values
that may be missing and the parts of structures are read when what they are made of is.
-/
import LogLens.Codec.Writer
import LogLens.Codec.Reader
import LogLens.Proofs.Dict.Lookup
import LogLens.Proofs.Json.Values

namespace LogLens

/-! ## Lists and dictionaries -/

theorem bind_of_eq_some {α β : Type} {o : Option α} {a : α} (h : o = some a) (f : α → Option β) :
    o.bind f = f a := by
  rw [h, Option.bind_some]

theorem map_eq_self_iff {α : Type} {f : α → α} {l : List α} :
    l.map f = l ↔ ∀ x ∈ l, f x = x := by
  rw [← List.map_inj_left, List.map_id']

/-- The dictionary with every value replaced. -/
def Dict.mapValues {α β γ : Type} [Key α] (d : Dict α β) (f : β → γ) : Dict α γ where
  entries := d.entries.map fun e => (e.1, f e.2)
  ascending := List.pairwise_map.mpr d.ascending

theorem Dict.mapValues_eq_self_iff {α β : Type} [Key α] {d : Dict α β} {f : β → β} :
    d.mapValues f = d ↔ ∀ v ∈ d.values, f v = v := by
  have hentries : d.mapValues f = d ↔ (d.mapValues f).entries = d.entries :=
    ⟨congrArg Dict.entries, Dict.entries_injective⟩
  rw [hentries, mapValues, map_eq_self_iff, values, List.forall_mem_map]
  simp only [Prod.ext_iff, true_and]

theorem Dict.ofList_mapValues {α β γ : Type} [Key α] [DecidableEq α] (d : Dict α β) (f : β → γ) :
    Dict.ofList (d.entries.map fun e => (e.1, f e.2)) = d.mapValues f :=
  Dict.entries_injective (Dict.entries_ofList (d.mapValues f).ascending)

namespace Json

/-! ## Documents -/

/-- Reads a text as a value of a type. -/
def readAs? {α : Type} (ofJson? : Json → Option α) (s : String) : Option α :=
  (parseAsWritten? s).bind ofJson?

/-- The numbers in a document are read as they are written. -/
def Readable (j : Json) : Prop := ∀ n ∈ j.numbers, n.ReadsBack

/-- A document that is read as a value, also from its text. -/
structure Decodes {α : Type} (ofJson? : Json → Option α) (j : Json) (v : α) : Prop where
  readable : j.Readable
  decoded : ofJson? j = some v

section Decodes

variable {α β : Type} {f : Json → Option α}

theorem Decodes.ofText {j : Json} {v : α} (h : Decodes f j v) : readAs? f j.compact = some v := by
  rw [readAs?, parseAsWritten?_compact j h.readable, Option.bind_some, h.decoded]

theorem readable_text (s : String) : (Json.text s).Readable := by
  simp [Readable, numbers]

theorem readable_null : Json.null.Readable := by
  simp [Readable, numbers]

theorem readable_array {items : List Json} :
    (Json.array items).Readable ↔ ∀ j ∈ items, j.Readable := by
  simp only [Readable, numbers_array, List.mem_flatMap]
  exact ⟨fun h j hj n hn => h n ⟨j, hj, hn⟩, fun h n ⟨j, hj, hn⟩ => h j hj n hn⟩

theorem readable_object {members : List (String × Json)} :
    (Json.object members).Readable ↔ ∀ m ∈ members, m.2.Readable := by
  simp only [Readable, numbers_object, List.mem_flatMap]
  exact ⟨fun h m hm n hn => h n ⟨m, hm, hn⟩, fun h n ⟨m, hm, hn⟩ => h m hm n hn⟩

theorem decodes_text (s : String) : Decodes toText? (.text s) s := ⟨readable_text s, rfl⟩

theorem decodes_bool (b : Bool) : Decodes toBool? (.bool b) b :=
  ⟨by simp [Readable, numbers], rfl⟩

theorem decodes_nat {n : Nat} (h : n ≤ Reader.maxWord) : Decodes toNat? (.nat n) n where
  readable := by simpa [Readable, nat, numbers] using readsBack_integer h
  decoded := by
    have hword : isWord n = true := by
      rw [isWord, Bool.and_eq_true, decide_eq_true_eq, decide_eq_true_eq]
      have hsigned : Reader.minSigned ≤ 0 := by decide
      omega
    simp [nat, toNat?, hword]

theorem decodes_choice {ofName? : String → Option α} {name : String} {v : α}
    (h : ofName? name = some v) : Decodes (toChoice? ofName?) (.text name) v :=
  ⟨readable_text name, h⟩

theorem Decodes.option {j : Json} {v : α} (h : Decodes f j v) (hj : j ≠ .null) :
    Decodes (toOption? f) j (some v) where
  readable := h.readable
  decoded := by
    cases j with
    | null => exact absurd rfl hj
    | _ => simp only [toOption?, h.decoded, Option.map_some]

theorem decodes_null : Decodes (toOption? f) .null none := ⟨readable_null, rfl⟩

theorem mapM_eq_some_map {g : β → Option α} {h : β → α} {l : List β}
    (hl : ∀ x ∈ l, g x = some (h x)) : l.mapM g = some (l.map h) := by
  induction l with
  | nil => rfl
  | cons x rest ih =>
    rw [List.mapM_cons, hl x (List.mem_cons_self ..),
      ih fun y hy => hl y (List.mem_cons_of_mem _ hy)]
    rfl

theorem decodes_list {g : β → Json} {h : β → α} {l : List β}
    (hl : ∀ x ∈ l, Decodes f (g x) (h x)) :
    Decodes (toList? f) (.list g l) (l.map h) where
  readable := by
    rw [list, readable_array]
    simpa using fun x hx => (hl x hx).readable
  decoded := by
    rw [list, toList?, List.mapM_map]
    exact mapM_eq_some_map fun x hx => (hl x hx).decoded

theorem decodes_dict {g : β → Json} {h : β → α} {d : Dict String β}
    (hd : ∀ v ∈ d.values, Decodes f (g v) (h v)) :
    Decodes (toDict? f) (.dict g d) (d.mapValues h) where
  readable := by
    rw [dict, readable_object]
    intro m hm
    obtain ⟨e, he, rfl⟩ := List.mem_map.mp hm
    exact (hd e.2 (List.mem_map_of_mem he)).readable
  decoded := by
    have hpairs : ∀ e ∈ d.entries, (f (g e.2)).map (e.1, ·) = some (e.1, h e.2) := by
      intro e he
      rw [(hd e.2 (List.mem_map_of_mem he)).decoded, Option.map_some]
    rw [dict, toDict?, List.mapM_map]
    exact (congrArg (Option.map Dict.ofList) (mapM_eq_some_map hpairs)).trans
      (congrArg some (Dict.ofList_mapValues d h))

end Decodes

/-! ## Parts of structures -/

/-- A part of a structure, written or left out, that is read as a value. -/
structure DecodesPart {α : Type} (read : Option Json → Option α) (part : Option Json) (v : α) :
    Prop where
  readable : ∀ j ∈ part, j.Readable
  decoded : read part = some v

section Parts

variable {α β : Type} {f : Json → Option α}

theorem Decodes.required {j : Json} {v : α} (h : Decodes f j v) :
    DecodesPart (required? f) (some j) v :=
  ⟨by simpa using h.readable, h.decoded⟩

theorem Decodes.given {j : Json} {v : α} (h : Decodes f j v) (default : α) :
    DecodesPart (orDefault? f default) (some j) v :=
  ⟨by simpa using h.readable, h.decoded⟩

theorem decodesPart_missing (f : Json → Option α) (default : α) :
    DecodesPart (orDefault? f default) none default :=
  ⟨by simp, rfl⟩

theorem decodesPart_optional {g : α → Json} {value : Option α}
    (h : ∀ x ∈ value, Decodes f (g x) x ∧ g x ≠ .null) :
    DecodesPart (orDefault? (toOption? f) none) (value.map g) value := by
  cases value with
  | none => exact decodesPart_missing _ _
  | some x => exact ((h x rfl).1.option (h x rfl).2).given none

/-- The members of an object for the parts that are written. -/
def membersOf (parts : List (String × Option Json)) : List (String × Json) :=
  parts.flatMap fun part => Json.optional part.1 id part.2

theorem optional_some (name : String) (j : Json) : optional name id (some j) = [(name, j)] := rfl

theorem optional_map (name : String) (g : α → Json) (value : Option α) :
    optional name id (value.map g) = optional name g value := by
  cases value <;> rfl

theorem readable_written {parts : List (String × Option Json)}
    (h : ∀ part ∈ parts, ∀ j ∈ part.2, j.Readable) : (Json.object (membersOf parts)).Readable := by
  rw [readable_object]
  intro m hm
  obtain ⟨part, hpart, hm⟩ := List.mem_flatMap.mp hm
  simp only [optional, id_eq, Option.mem_toList, Option.map_eq_some_iff] at hm
  obtain ⟨j, hj, rfl⟩ := hm
  exact h part hpart j hj

theorem filter_optional (name name' : String) (value : Option Json) :
    (optional name id value).filter (·.1 == name') =
      if name = name' then optional name id value else [] := by
  cases value with
  | none => simp [optional]
  | some j => simp [optional, List.filter_cons]

theorem filter_written_eq_nil {parts : List (String × Option Json)} {name : String}
    (h : name ∉ parts.map (·.1)) : (membersOf parts).filter (·.1 == name) = [] := by
  rw [List.filter_eq_nil_iff]
  intro m hm
  obtain ⟨part, hpart, hm⟩ := List.mem_flatMap.mp hm
  simp only [optional, id_eq, Option.mem_toList, Option.map_eq_some_iff] at hm
  obtain ⟨j, -, rfl⟩ := hm
  rw [beq_iff_eq]
  rintro rfl
  exact h (List.mem_map_of_mem hpart)

theorem part?_written {parts : List (String × Option Json)} (hnames : (parts.map (·.1)).Nodup)
    {part : String × Option Json} (h : part ∈ parts) :
    part? (membersOf parts) part.1 = some part.2 := by
  have hfilter : (membersOf parts).filter (·.1 == part.1) = optional part.1 id part.2 := by
    induction parts with
    | nil => cases h
    | cons first rest ih =>
      rw [List.map_cons, List.nodup_cons] at hnames
      rw [membersOf, List.flatMap_cons, List.filter_append, filter_optional]
      rcases List.mem_cons.mp h with rfl | h
      · rw [if_pos rfl]
        exact (congrArg _ (filter_written_eq_nil hnames.1)).trans (List.append_nil _)
      · have hne : first.1 ≠ part.1 := fun heq => hnames.1 (heq ▸ List.mem_map_of_mem h)
        rw [if_neg hne, List.nil_append]
        exact ih hnames.2 h
  rw [part?, hfilter]
  cases part.2 <;> rfl

/-- The parts of a structure are found in the object that was written for them. -/
theorem parts?_written (parts : List (String × Option Json)) {names : List String} {surplus : Bool}
    (h : parts.map (·.1) = names) (hnames : names.Nodup) :
    parts? names surplus (.object (membersOf parts)) = some (parts.map (·.2)) := by
  subst h
  rw [parts?, List.mapM_map]
  exact mapM_eq_some_map fun part hpart => part?_written hnames hpart

end Parts
end Json
end LogLens
