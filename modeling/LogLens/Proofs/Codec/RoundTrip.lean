/-
Records and queries that are written and read again.

A field value is written without a mark of its type, so it comes back as the first type that takes
it.  For numbers, truth values and dates that is their own type.  A text comes back as a date when
it reads as an instant, and as itself otherwise (`FieldValue.dated`); nothing else changes.

That the text of a finite number or of an instant is read as it was written is assumed of those
that occur (`ReadsBack`).
-/
import LogLens.Proofs.Codec.Identifier
import LogLens.Proofs.Codec.Parts

namespace LogLens

open Json

/-- The text of an instant is read as that instant. -/
def Instant.ReadsBack (t : Instant) : Prop := toInstant? (.instant t) = some t

theorem Instant.ReadsBack.decodes {t : Instant} (h : t.ReadsBack) :
    Decodes toInstant? (.instant t) t :=
  ⟨readable_text _, h⟩

theorem Instant.readsBack_earliest : Instant.earliest.ReadsBack := by
  unfold ReadsBack
  decide +kernel

theorem Instant.readsBack_latest : Instant.latest.ReadsBack := by
  unfold ReadsBack
  decide +kernel

theorem RecordId.decodes (id : RecordId) : Decodes RecordId.ofJson? (.text id.text) id where
  readable := readable_text _
  decoded := by rw [RecordId.ofJson?, toText?, Option.bind_some, RecordId.ofText?_text]

theorem Level.decodes (level : Level) : Decodes Level.ofJson? level.toJson level :=
  decodes_choice (by cases level <;> decide)

/-! ## Field values -/

namespace FieldValue

/-- What a value is read as: texts of instants are taken for dates. -/
def dated : FieldValue → FieldValue
  | text s => ((toInstant? (.text s)).map date).getD (text s)
  | v => v

def isFinite : FieldValue → Bool
  | number x => x.isFinite
  | _ => true

/-- The text of a finite number or of an instant is read as it was written. -/
def ReadsBack : FieldValue → Prop
  | number x => x.isFinite = true → (JsonNumber.real x).ReadsBack
  | date t => t.ReadsBack
  | _ => True

theorem dated_eq_self_iff {v : FieldValue} :
    v.dated = v ↔ ∀ s, v = text s → toInstant? (.text s) = none := by
  cases v with
  | text s =>
    cases h : toInstant? (.text s) <;> simp [dated, h]
  | _ => simp [dated]

theorem decodes {v : FieldValue} (hfinite : v.isFinite = true) (h : v.ReadsBack) :
    Decodes ofJson? v.toJson v.dated := by
  cases v with
  | number x =>
    refine ⟨?_, rfl⟩
    simpa [toJson, real, Readable, numbers] using h hfinite
  | bool b => exact ⟨(decodes_bool b).readable, rfl⟩
  | date t =>
    refine ⟨readable_text _, ?_⟩
    rw [toJson, ofJson?, h]
    rfl
  | text s =>
    refine ⟨readable_text s, ?_⟩
    rw [toJson, ofJson?, dated]
    cases toInstant? (.text s) <;> rfl

end FieldValue

namespace Query

/-! ## Filters -/

namespace Operand

def values : Operand → List FieldValue
  | scalar v => [v]
  | range low high => [low, high]
  | absent => []

def dated : Operand → Operand
  | scalar v => scalar v.dated
  | range low high => range low.dated high.dated
  | absent => absent

theorem dated_eq_self_iff {o : Operand} : o.dated = o ↔ ∀ v ∈ o.values, v.dated = v := by
  cases o <;> simp [dated, values]

theorem decodes {o : Operand} (hfinite : ∀ v ∈ o.values, v.isFinite = true)
    (h : ∀ v ∈ o.values, v.ReadsBack) : Decodes ofJson? o.toJson o.dated := by
  cases o with
  | scalar v =>
    have hv := FieldValue.decodes (hfinite v (by simp [values])) (h v (by simp [values]))
    refine ⟨hv.readable, ?_⟩
    simp only [toJson, ofJson?, hv.decoded]
    rfl
  | range low high =>
    have hlow := FieldValue.decodes (hfinite low (by simp [values])) (h low (by simp [values]))
    have hhigh := FieldValue.decodes (hfinite high (by simp [values])) (h high (by simp [values]))
    refine ⟨readable_array.mpr (by simp [hlow.readable, hhigh.readable]), ?_⟩
    have hnone : FieldValue.ofJson? (.array [low.toJson, high.toJson]) = none := rfl
    simp only [toJson, ofJson?, hnone, hlow.decoded, hhigh.decoded]
    rfl
  | absent => exact ⟨readable_null, rfl⟩

end Operand

theorem Operator.decodes (op : Operator) : Decodes Operator.ofJson? op.toJson op :=
  decodes_choice (by cases op <;> decide)

theorem Preset.decodes (p : Preset) : Decodes Preset.ofJson? p.toJson p :=
  decodes_choice (by cases p <;> decide)

namespace Filter

def dated (f : Filter) : Filter := { f with operand := f.operand.dated }

theorem dated_eq_self_iff {f : Filter} : f.dated = f ↔ ∀ v ∈ f.operand.values, v.dated = v := by
  rw [← Operand.dated_eq_self_iff]
  cases f
  simp [dated]

/-- The parts of a filter as they are written. -/
def parts (f : Filter) : List (String × Option Json) := [
  ("field", some (.text f.field)),
  ("operator", some f.operator.toJson),
  ("value", some f.operand.toJson),
  ("negate", some (.bool f.negate))]

theorem toJson_eq (f : Filter) : f.toJson = .object (membersOf f.parts) := rfl

theorem decodes {f : Filter} (hfinite : ∀ v ∈ f.operand.values, v.isFinite = true)
    (h : ∀ v ∈ f.operand.values, v.ReadsBack) : Decodes ofJson? f.toJson f.dated := by
  have hfield := (decodes_text f.field).required
  have hoperator := f.operator.decodes.required
  have hoperand := (Operand.decodes hfinite h).required
  have hnegate := (decodes_bool f.negate).given false
  refine ⟨toJson_eq f ▸ readable_written ?_, ?_⟩
  · simp only [parts, List.forall_mem_cons]
    exact ⟨hfield.readable, hoperator.readable, hoperand.readable, hnegate.readable, by simp⟩
  · rw [toJson_eq, ofJson?, parts?_written f.parts]
    · simp only [parts, List.map_cons, List.map_nil, Option.bind_eq_bind, Option.bind_some,
        hfield.decoded, hoperator.decoded, hoperand.decoded, hnegate.decoded]
      rfl
    · rfl
    · decide

end Filter

/-! ## Ranges of time -/

namespace TimeRange

/-- The parts of a range as they are written. -/
def parts (r : TimeRange) : List (String × Option Json) := [
  ("from", some (.instant r.start)),
  ("to", some (.instant r.finish)),
  ("preset", r.preset.map Preset.toJson)]

theorem toJson_eq (r : TimeRange) : r.toJson = .object (membersOf r.parts) := by
  simp [toJson, parts, membersOf, optional_map, optional_some]

theorem decodes {r : TimeRange} (hstart : r.start.ReadsBack) (hfinish : r.finish.ReadsBack) :
    Decodes ofJson? r.toJson r := by
  have hfrom := hstart.decodes.required
  have hto := hfinish.decodes.required
  have hpreset : DecodesPart (orDefault? (toOption? Preset.ofJson?) none)
      (r.preset.map Preset.toJson) r.preset :=
    decodesPart_optional fun p _ => ⟨p.decodes, by simp [Preset.toJson]⟩
  refine ⟨toJson_eq r ▸ readable_written ?_, ?_⟩
  · simp only [parts, List.forall_mem_cons]
    exact ⟨hfrom.readable, hto.readable, hpreset.readable, by simp⟩
  · rw [toJson_eq, ofJson?, parts?_written r.parts]
    · simp only [parts, List.map_cons, List.map_nil, Option.bind_eq_bind, Option.bind_some,
        hfrom.decoded, hto.decoded, hpreset.decoded]
      rfl
    · rfl
    · decide

end TimeRange
end Query

/-! ## Queries -/

namespace SearchQuery

/-- The values that the filters of a query compare with. -/
def values (q : SearchQuery) : List FieldValue := q.filters.flatMap (·.operand.values)

def dated (q : SearchQuery) : SearchQuery := { q with filters := q.filters.map Query.Filter.dated }

/-- The texts of the finite numbers and of the instants in a query are read as they were written. -/
structure ReadsBack (q : SearchQuery) : Prop where
  values : ∀ v ∈ q.values, v.ReadsBack
  start : q.timeRange.start.ReadsBack
  finish : q.timeRange.finish.ReadsBack

theorem dated_eq_self_iff {q : SearchQuery} : q.dated = q ↔ ∀ v ∈ q.values, v.dated = v := by
  have hfilters : q.dated = q ↔ q.filters.map Query.Filter.dated = q.filters := by
    cases q
    simp [dated]
  rw [hfilters, map_eq_self_iff]
  simp only [values, List.forall_mem_flatMap, Query.Filter.dated_eq_self_iff]

/-- The parts of a query as they are written. -/
def parts (q : SearchQuery) : List (String × Option Json) := [
  ("text", some (.text q.text)),
  ("filters", some (.list Query.Filter.toJson q.filters)),
  ("time_range", some q.timeRange.toJson),
  ("fuzzy", some (.bool q.fuzzy)),
  ("case_sensitive", some (.bool q.caseSensitive)),
  ("aggregate_by", some (.list .text q.aggregateBy)),
  ("limit", some (.orNull .nat q.limit))]

theorem toJson_eq (q : SearchQuery) : q.toJson = .object (membersOf q.parts) := rfl

theorem decodes {q : SearchQuery} (h : q.ReadsBack)
    (hfinite : ∀ v ∈ q.values, v.isFinite = true)
    (hlimit : ∀ n ∈ q.limit, n ≤ Reader.maxWord) : Decodes ofJson? q.toJson q.dated := by
  have htext := (decodes_text q.text).given ""
  have hfilters : Decodes (toList? Query.Filter.ofJson?) (.list Query.Filter.toJson q.filters)
      (q.filters.map Query.Filter.dated) :=
    decodes_list fun f hf => Query.Filter.decodes
      (fun v hv => hfinite v (List.mem_flatMap.mpr ⟨f, hf, hv⟩))
      (fun v hv => h.values v (List.mem_flatMap.mpr ⟨f, hf, hv⟩))
  have htimeRange := (Query.TimeRange.decodes h.start h.finish).given Query.TimeRange.all
  have hfuzzy := (decodes_bool q.fuzzy).given false
  have hcase := (decodes_bool q.caseSensitive).given false
  have haggregate : Decodes (toList? toText?) (.list .text q.aggregateBy) q.aggregateBy := by
    simpa using decodes_list (h := id) fun s (_ : s ∈ q.aggregateBy) => decodes_text s
  have hlimit : Decodes (toOption? toNat?) (.orNull .nat q.limit) q.limit := by
    cases hq : q.limit with
    | none => exact decodes_null
    | some n => exact (decodes_nat (hlimit n hq)).option (by simp [nat])
  replace hfilters := hfilters.given []
  replace haggregate := haggregate.given []
  replace hlimit := hlimit.given none
  refine ⟨toJson_eq q ▸ readable_written ?_, ?_⟩
  · simp only [parts, List.forall_mem_cons]
    exact ⟨htext.readable, hfilters.readable, htimeRange.readable, hfuzzy.readable,
      hcase.readable, haggregate.readable, hlimit.readable, by simp⟩
  · rw [toJson_eq, ofJson?, parts?_written q.parts]
    · simp only [parts, List.map_cons, List.map_nil, Option.bind_eq_bind, Option.bind_some,
        htext.decoded, hfilters.decoded, htimeRange.decoded, hfuzzy.decoded, hcase.decoded,
        haggregate.decoded, hlimit.decoded]
      rfl
    · rfl
    · decide

end SearchQuery

/-! ## Records -/

namespace Record

def dated (r : Record) : Record := { r with fields := r.fields.mapValues FieldValue.dated }

/-- The texts of the finite numbers and of the instants in a record are read as they were
written. -/
structure ReadsBack (r : Record) : Prop where
  values : ∀ v ∈ r.fields.values, v.ReadsBack
  timestamp : r.timestamp.ReadsBack

theorem dated_eq_self_iff {r : Record} :
    r.dated = r ↔ ∀ v ∈ r.fields.values, v.dated = v := by
  rw [← Dict.mapValues_eq_self_iff]
  obtain ⟨entry, id⟩ := r
  cases entry
  simp [dated]

/-- The parts of a record as they are written. -/
def parts (r : Record) : List (String × Option Json) := [
  ("id", some (.text r.id.text)),
  ("timestamp", some (.instant r.timestamp)),
  ("level", some r.level.toJson),
  ("message", some (.text r.message)),
  ("file", some (.text r.file)),
  ("raw", some (.text r.raw)),
  ("fields", if r.fields.isEmpty then none else some (.dict FieldValue.toJson r.fields)),
  ("source", r.source.map .text),
  ("service", r.service.map .text),
  ("host", r.host.map .text),
  ("line_number", r.line.map .nat)]

theorem toJson_eq (r : Record) : r.toJson = .object (membersOf r.parts) := by
  simp only [toJson, parts, membersOf, List.flatMap_cons, List.flatMap_nil, optional_map,
    optional_some]
  split <;> simp [Json.optional]

theorem decodes {r : Record} (h : r.ReadsBack)
    (hfinite : ∀ v ∈ r.fields.values, v.isFinite = true)
    (hline : ∀ n ∈ r.line, n ≤ Reader.maxWord) : Decodes ofJson? r.toJson r.dated := by
  have hid := (RecordId.decodes r.id).required
  have htimestamp := h.timestamp.decodes.required
  have hlevel := (Level.decodes r.level).required
  have hmessage := (decodes_text r.message).required
  have hfile := (decodes_text r.file).required
  have hraw := (decodes_text r.raw).required
  have hfields : DecodesPart (orDefault? (toDict? FieldValue.ofJson?) Dict.empty)
      (if r.fields.isEmpty then none else some (.dict FieldValue.toJson r.fields))
      (r.fields.mapValues FieldValue.dated) := by
    split
    · rename_i hempty
      have hentries : r.fields.entries = [] := List.isEmpty_iff.mp hempty
      have hsame : r.fields.mapValues FieldValue.dated = Dict.empty :=
        Dict.entries_injective (by simp [Dict.mapValues, Dict.empty, hentries])
      exact hsame ▸ decodesPart_missing _ _
    · exact (decodes_dict fun v hv => FieldValue.decodes (hfinite v hv) (h.values v hv)).given _
  have hlabel (value : Option String) :
      DecodesPart (orDefault? (toOption? toText?) none) (value.map .text) value :=
    decodesPart_optional fun s _ => ⟨decodes_text s, by simp⟩
  have hsource := hlabel r.source
  have hservice := hlabel r.service
  have hhost := hlabel r.host
  have hline : DecodesPart (orDefault? (toOption? toNat?) none) (r.line.map .nat) r.line :=
    decodesPart_optional fun n hn => ⟨decodes_nat (hline n hn), by simp [nat]⟩
  refine ⟨toJson_eq r ▸ readable_written ?_, ?_⟩
  · simp only [parts, List.forall_mem_cons]
    exact ⟨hid.readable, htimestamp.readable, hlevel.readable, hmessage.readable, hfile.readable,
      hraw.readable, hfields.readable, hsource.readable, hservice.readable, hhost.readable,
      hline.readable, by simp⟩
  · rw [toJson_eq, ofJson?, parts?_written r.parts]
    · rw [Option.bind_eq_bind, Option.bind_some]
      dsimp only [parts, List.map_cons, List.map_nil]
      -- One part after the other: simplifying them together would visit the later ones each time.
      refine (bind_of_eq_some hid.decoded _).trans ?_
      refine (bind_of_eq_some htimestamp.decoded _).trans ?_
      refine (bind_of_eq_some hlevel.decoded _).trans ?_
      refine (bind_of_eq_some hmessage.decoded _).trans ?_
      refine (bind_of_eq_some hfile.decoded _).trans ?_
      refine (bind_of_eq_some hraw.decoded _).trans ?_
      refine (bind_of_eq_some hfields.decoded _).trans ?_
      refine (bind_of_eq_some hsource.decoded _).trans ?_
      refine (bind_of_eq_some hservice.decoded _).trans ?_
      refine (bind_of_eq_some hhost.decoded _).trans ?_
      exact bind_of_eq_some hline.decoded _
    · rfl
    · decide

end Record

/-! ## Round trips -/

/-- Records and queries come back from their texts as they were, but for texts of instants. -/
theorem readAs?_written :
    (∀ r : Record, r.ReadsBack → (∀ v ∈ r.fields.values, v.isFinite = true) →
      (∀ n ∈ r.line, n ≤ Reader.maxWord) →
        readAs? Record.ofJson? r.toJson.compact = some r.dated ∧
        (r.dated = r ↔ ∀ s, .text s ∈ r.fields.values → toInstant? (.text s) = none)) ∧
    (∀ q : SearchQuery, q.ReadsBack → (∀ v ∈ q.values, v.isFinite = true) →
      (∀ n ∈ q.limit, n ≤ Reader.maxWord) →
        readAs? SearchQuery.ofJson? q.toJson.compact = some q.dated ∧
        (q.dated = q ↔ ∀ s, .text s ∈ q.values → toInstant? (.text s) = none)) := by
  have htexts (values : List FieldValue) : (∀ v ∈ values, v.dated = v) ↔
      ∀ s, .text s ∈ values → toInstant? (.text s) = none := by
    simp only [FieldValue.dated_eq_self_iff]
    exact ⟨fun h s hs => h _ hs s rfl, fun h v hv s hs => h s (hs ▸ hv)⟩
  refine ⟨fun r h hfinite hline => ⟨(r.decodes h hfinite hline).ofText, ?_⟩,
    fun q h hfinite hlimit => ⟨(q.decodes h hfinite hlimit).ofText, ?_⟩⟩
  · rw [Record.dated_eq_self_iff, htexts]
  · rw [SearchQuery.dated_eq_self_iff, htexts]

/-- A record with a value of each type, and a query with a range of numbers. -/
theorem readAs?_written_half :
    let half : Binary64 := Binary64.ofRatio false 1 2
    let fields : Dict String FieldValue := Dict.ofList
      [("at", .date Instant.latest), ("ok", .bool true), ("share", .number half),
        ("text", .text "0.5")]
    let r : Record :=
      { timestamp := Instant.earliest, level := .warn, message := "up\n", file := "a.log",
        raw := "up", fields, host := some "h\"1", line := some 7, id := 1 }
    let q : SearchQuery :=
      { text := "up", filters := [⟨"share", .range, .range (.number half) (.text "x"), true⟩],
        limit := some 5 }
    (r.ReadsBack ∧ (∀ v ∈ r.fields.values, v.isFinite = true) ∧
        (∀ n ∈ r.line, n ≤ Reader.maxWord) ∧
        readAs? Record.ofJson? r.toJson.compact = some r) ∧
      (q.ReadsBack ∧ (∀ v ∈ q.values, v.isFinite = true) ∧
        (∀ n ∈ q.limit, n ≤ Reader.maxWord) ∧
        readAs? SearchQuery.ofJson? q.toJson.compact = some q) := by
  intro half fields r q
  have hhalf : (JsonNumber.real (Binary64.ofRatio false 1 2)).ReadsBack := rfl
  have hfields : r.fields.values =
      [.date Instant.latest, .bool true, .number half, .text "0.5"] := by
    decide +kernel
  have hvalues : q.values = [.number half, .text "x"] := rfl
  have hr : r.ReadsBack := by
    refine ⟨?_, Instant.readsBack_earliest⟩
    simp only [hfields, List.forall_mem_cons]
    exact ⟨Instant.readsBack_latest, trivial, fun _ => hhalf, trivial, by simp⟩
  have hq : q.ReadsBack := by
    refine ⟨?_, Instant.readsBack_earliest, Instant.readsBack_latest⟩
    simp only [hvalues, List.forall_mem_cons]
    exact ⟨fun _ => hhalf, trivial, by simp⟩
  have hrecord : ∀ v ∈ r.fields.values, v.isFinite = true := by decide +kernel
  have hquery : ∀ v ∈ q.values, v.isFinite = true := by decide +kernel
  have hline : ∀ n ∈ r.line, n ≤ Reader.maxWord := by decide
  have hlimit : ∀ n ∈ q.limit, n ≤ Reader.maxWord := by decide
  obtain ⟨hread, hsame⟩ := readAs?_written.1 r hr hrecord hline
  obtain ⟨hread', hsame'⟩ := readAs?_written.2 q hq hquery hlimit
  rw [hsame.mpr (by simp [hfields]; decide +kernel)] at hread
  rw [hsame'.mpr (by simp [hvalues]; decide +kernel)] at hread'
  exact ⟨⟨hr, hrecord, hline, hread⟩, hq, hquery, hlimit, hread'⟩

/-- A text that reads as an instant comes back as a date. -/
theorem text_comes_back_as_date :
    let stamp := "2025-10-01T12:00:00+02:00"
    let r : Record :=
      { timestamp := Instant.latest, level := .info, message := "up", file := "a.log", raw := "up",
        fields := Dict.ofList [("at", .text stamp)], id := 1 }
    r.ReadsBack ∧ ∃ r', readAs? Record.ofJson? r.toJson.compact = some r' ∧ r' ≠ r := by
  intro stamp r
  have hfields : r.fields.values = [.text stamp] := by decide +kernel
  have hback : r.ReadsBack :=
    ⟨by simp [hfields, FieldValue.ReadsBack], Instant.readsBack_latest⟩
  have hdate : r.dated ≠ r := by decide +kernel
  have hfinite : ∀ v ∈ r.fields.values, v.isFinite = true := by decide +kernel
  exact ⟨hback, r.dated, (r.decodes hback hfinite nofun).ofText, hdate⟩

end LogLens
