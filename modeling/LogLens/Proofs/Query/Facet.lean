/-
Asking for the value that a record shows in a field.

The query writes the value in quotes.  What is read between them is the shown text
(`quoted_escaped`), and a filter on that text passes the value it was shown for
(`valuesEqual_display`): as a number or an instant when the text can be read as one, else as the
same text.  So every shown value leads back to its record (`facet_finds`).  Two things are in the
way at the end of the representable years: near it a text may be a time that cannot be placed, and
the range of all instants leaves out the leap second behind the last second (`facet_loses`).
-/
import LogLens.Proofs.Index.Scan
import LogLens.Proofs.Query.Words
import LogLens.Proofs.Time.MillisText

namespace LogLens

open Index Query

/-! ## Values in quotes -/

namespace Query

open Token

/-- The text with a backslash before every double quote. -/
def escaped (cs : List Char) : List Char :=
  cs.flatMap fun c => if c = '"' then ['\\', '"'] else [c]

/-- The query for the records that show a value in a field. -/
def facet (field value : String) : String :=
  field ++ ":\"" ++ String.ofList (escaped value.toList) ++ "\""

theorem escaped_cons (c : Char) (cs : List Char) :
    escaped (c :: cs) = (if c = '"' then ['\\', '"'] else [c]) ++ escaped cs := rfl

theorem head?_escaped_ne {cs : List Char} (hne : cs ≠ []) (more : List Char) :
    (escaped cs ++ more).head? ≠ some '"' := by
  obtain ⟨c, cs, rfl⟩ := List.exists_cons_of_ne_nil hne
  by_cases hc : c = '"' <;> simp [escaped_cons, hc]

/-- A text that does not end in a backslash is read back from its quotes. -/
theorem quoted_escaped {cs : List Char} (h : cs.getLast? ≠ some '\\') (rest : List Char) :
    quoted (escaped cs ++ '"' :: rest) = (cs, rest) := by
  induction cs with
  | nil => rfl
  | cons c cs ih =>
    have hrest : cs.getLast? ≠ some '\\' := by
      intro hlast
      have hne : cs ≠ [] := by
        rintro rfl
        cases hlast
      exact h (by rwa [List.getLast?_cons_of_ne_nil hne])
    by_cases hc : c = '"'
    · have htext : escaped (c :: cs) ++ '"' :: rest =
          '\\' :: '"' :: (escaped cs ++ '"' :: rest) := by
        rw [escaped_cons, if_pos hc]
        rfl
      rw [htext, quoted, ih hrest, hc]
    · have htext : escaped (c :: cs) ++ '"' :: rest = c :: (escaped cs ++ '"' :: rest) := by
        rw [escaped_cons, if_neg hc]
        rfl
      -- a backslash is not the last character, and what comes next is escaped itself
      have hescape : c = '\\' → (escaped cs ++ '"' :: rest).head? ≠ some '"' := by
        rintro rfl
        refine head?_escaped_ne ?_ _
        rintro rfl
        exact h rfl
      rw [htext, quoted_cons hc hescape, ih hrest]

theorem tokenize_facet {field value : String} (hfield : PlainWord field)
    (hvalue : value.toList.getLast? ≠ some '\\') :
    tokenize (facet field value) = [.field field, .operator .colon, .value value] := by
  have htext : (facet field value).toList =
      field.toList ++ ':' :: '"' :: (escaped value.toList ++ ['"']) := by
    simp [facet]
  rw [tokenize_eq_scan, htext, hfield.scan_field, scan_quote, quoted_escaped hvalue, scan_nil,
    String.ofList_toList]

/-- The query asks for the value that the shown text is read as. -/
theorem parse_facet {field value : String} (hfield : PlainWord field)
    (hvalue : value.toList.getLast? ≠ some '\\') (reference : Instant) :
    parse (facet field value) reference = do
      let v ← coerce value reference
      return ⟨[⟨field, .equals, .scalar v, false⟩], []⟩ := by
  have hliteral : Literal.ofToken? (.value value) = some (.phrase value) := rfl
  have hsegments : segments [.field field, .operator .colon, .value value] =
      [.condition field [.colon] (.phrase value)] :=
    segments_condition [] field .colon hliteral
  rw [parse, tokenize_facet hfield hvalue, hsegments, ofSegments, condition, comparison]
  cases coerce value reference <;> rfl

end Query

/-! ## Literals of shown values -/

/-- A text that names no time without a year is read without the reference. -/
theorem Stamp.parse_eq_of_yearless {s : String}
    (h : (yearless? (numericOffset (pointFraction (inner s)))).isNone = true)
    (reference reference' : Instant) : parse s reference = parse s reference' := by
  rw [parse, parse]
  simp only [Option.isNone_iff_eq_none.mp h]

namespace Query

/-- What a literal can be. -/
theorem coerce_cases {literal : String} {reference : Instant} {v : FieldValue}
    (h : coerce literal reference = .ok v) :
    (∃ n, parseNumber? literal = some n ∧ v = .number n) ∨
      parseNumber? literal = none ∧
        ((∃ t, Stamp.parse literal reference = .ok (some t) ∧ v = .date t) ∨
          Stamp.parse literal reference = .ok none ∧ v = .text literal) := by
  rw [coerce] at h
  cases hnumber : parseNumber? literal with
  | some n =>
    simp only [hnumber] at h
    exact Or.inl ⟨n, rfl, (Except.ok.inj h).symm⟩
  | none =>
    simp only [hnumber] at h
    cases hstamp : Stamp.parse literal reference with
    | error e =>
      rw [hstamp] at h
      cases h
    | ok found =>
      rw [hstamp] at h
      cases found with
      | some t => exact Or.inr ⟨rfl, Or.inl ⟨t, rfl, (Except.ok.inj h).symm⟩⟩
      | none => exact Or.inr ⟨rfl, Or.inr ⟨rfl, (Except.ok.inj h).symm⟩⟩

/-- Words that stand for themselves whenever they are read. -/
theorem coerce_word {s : String} (reference : Instant)
    (hs : s ∈ ["NaN", "inf", "-inf", "true", "false"] ++ Level.all.map Level.name) :
    coerce s reference = .ok (.text s) := by
  have hfixed : ∀ s ∈ ["NaN", "inf", "-inf", "true", "false"] ++ Level.all.map Level.name,
      (Stamp.yearless? (Stamp.numericOffset (Stamp.pointFraction (Stamp.inner s)))).isNone = true ∧
        coerce s Instant.earliest = .ok (.text s) := by
    decide +kernel
  obtain ⟨hyearless, hcoerce⟩ := hfixed s hs
  rw [coerce] at hcoerce ⊢
  rwa [Stamp.parse_eq_of_yearless hyearless reference Instant.earliest]

theorem coerce_level (level : Level) (reference : Instant) :
    coerce level.name reference = .ok (.text level.name) := by
  have hmem : level.name ∈ Level.all.map Level.name := by cases level <;> simp [Level.all]
  exact coerce_word reference (List.mem_append_right _ hmem)

/-- What stands for itself is neither a number nor a time. -/
theorem plain_of_coerce {s : String} {reference : Instant}
    (h : coerce s reference = .ok (.text s)) :
    parseNumber? s = none ∧ Stamp.parse s reference = .ok none := by
  obtain ⟨n, -, hv⟩ | ⟨hnumber, ⟨t, -, hv⟩ | ⟨hstamp, -⟩⟩ := coerce_cases h
  · cases hv
  · cases hv
  · exact ⟨hnumber, hstamp⟩

end Query

/-! ## Values against what they are shown as -/

theorem Binary64.numEq_self {x : Binary64} (h : x ≠ .nan) : x.numEq x = true :=
  (numEq_iff h h).mpr rfl

theorem parseNumber?_ne_nan {s : String} {n : Binary64} (h : parseNumber? s = some n) :
    n ≠ .nan := by
  rw [parseNumber?] at h
  split at h
  · rintro rfl
    exact absurd (Option.mem_filter_iff.mp h).2 (by decide)
  · cases h

namespace Match

variable {now : Instant} {caseSensitive : Bool}

/-- A value passes the text it is shown as, when that text is neither a number nor an instant. -/
theorem valuesEqual_text {x : FieldValue} (h : coerce x.display now = .ok (.text x.display)) :
    valuesEqual now caseSensitive x (.text x.display) = true := by
  obtain ⟨n, -, hv⟩ | ⟨hnumber, ⟨t, -, hv⟩ | ⟨hstamp, -⟩⟩ := coerce_cases h
  · cases hv
  · cases hv
  · have hinstant : instant? now (.text x.display) = none := by
      simp [instant?, Stamp.parse?, hstamp]
    have hdisplay : (FieldValue.text x.display).display = x.display := rfl
    simp [valuesEqual, FieldValue.number?, hnumber, hinstant, hdisplay]

/-- A text is read as a number or an instant on both sides alike. -/
theorem valuesEqual_of_text {s : String} {v : FieldValue} (h : coerce s now = .ok v) :
    valuesEqual now caseSensitive (.text s) v = true := by
  obtain ⟨n, hnumber, rfl⟩ | ⟨hnumber, ⟨t, hstamp, rfl⟩ | ⟨-, rfl⟩⟩ := coerce_cases h
  · simp [valuesEqual, FieldValue.number?, hnumber,
      Binary64.numEq_self (parseNumber?_ne_nan hnumber)]
  · simp [valuesEqual, FieldValue.number?, hnumber, instant?, Stamp.parse?, hstamp]
  · exact valuesEqual_text h

/-- Instants are compared to the millisecond, and shown so. -/
theorem valuesEqual_of_date (t : Instant) {v : FieldValue}
    (h : coerce t.toMillisText now = .ok v) :
    valuesEqual now caseSensitive (.date t) v = true := by
  obtain ⟨t', ht', hmillis⟩ := coerce_toMillisText t now
  obtain rfl : .date t' = v := Except.ok.inj (ht'.symm.trans h)
  have hself : (Binary64.ofInt t.millis).numEq (Binary64.ofInt t.millis) = true :=
    Binary64.numEq_self (by simp [Binary64.ofInt, Binary64.ofRatio])
  simp [valuesEqual, FieldValue.number?, hmillis, hself]

/-- Numbers other than finite ones are shown as words. -/
theorem plain_of_not_finite {n : Binary64} (h : n.isFinite = false) :
    Notation.plain n ∈ ["NaN", "inf", "-inf"] := by
  cases n with
  | nan => simp [Notation.plain]
  | value negative rank =>
    have hrank : ¬rank.val < Binary64.infinityRank := by simpa [Binary64.isFinite] using h
    have hzero : rank.val ≠ 0 := by
      have hpos : 0 < Binary64.infinityRank := by decide
      omega
    rw [Notation.plain, if_neg hzero, if_neg hrank]
    cases negative <;> decide

/-- A value passes the literal that shows it. -/
theorem valuesEqual_display {x v : FieldValue}
    (hround : ∀ n, x = .number n → n.isFinite = true →
      parseNumber? (Notation.plain n) = some n)
    (h : coerce x.display now = .ok v) : valuesEqual now caseSensitive x v = true := by
  have hword : x.display ∈ ["NaN", "inf", "-inf", "true", "false"] →
      valuesEqual now caseSensitive x v = true := by
    intro hmem
    have htext := coerce_word now (List.mem_append_left (Level.all.map Level.name) hmem)
    obtain rfl : .text x.display = v := Except.ok.inj (htext.symm.trans h)
    exact valuesEqual_text h
  cases x with
  | text s => exact valuesEqual_of_text h
  | date t => exact valuesEqual_of_date t h
  | bool b => exact hword (by cases b <;> simp [FieldValue.display])
  | number n =>
    cases hfinite : n.isFinite with
    | false =>
      exact hword (List.mem_append_left ["true", "false"] (plain_of_not_finite hfinite))
    | true =>
      have hread := hround n rfl hfinite
      obtain ⟨m, hm, rfl⟩ | ⟨hnone, -⟩ := coerce_cases h
      · obtain rfl : n = m := Option.some.inj (hread.symm.trans hm)
        simp [valuesEqual, FieldValue.number?, Binary64.numEq_self (parseNumber?_ne_nan hread)]
      · exact absurd (hread.symm.trans hnone) (by simp)

theorem ofWord?_name (level : Level) : Level.ofWord? level.name = some level := by
  cases level <;> decide +kernel

/-- An entry passes the filter that shows one of its values. -/
theorem passes_display {e : Entry} {field : String} {x v : FieldValue}
    (hx : e.field? field = some x)
    (hround : ∀ n, x = .number n → n.isFinite = true →
      parseNumber? (Notation.plain n) = some n)
    (h : coerce x.display now = .ok v) :
    passes now caseSensitive e ⟨field, .equals, .scalar v, false⟩ = true := by
  have hplain : evaluate now caseSensitive x .equals (.scalar v) = true :=
    valuesEqual_display hround h
  have hlevel : field = "level" → evaluateLevel? e.level .equals (.scalar v) = some true := by
    rintro rfl
    obtain rfl : .text e.level.name = x := Option.some.inj hx
    obtain rfl : .text e.level.name = v := Except.ok.inj ((coerce_level e.level now).symm.trans h)
    simp [evaluateLevel?, level?, ofWord?_name]
  rw [passes, hx]
  simp only [hplain]
  split
  · rw [hlevel ‹_›]
    rfl
  · rfl

end Match

/-! ## The search for a shown value -/

namespace LogIndex

/-- A search for one filter over all of time asks for the records that pass it. -/
theorem matches_filter {rules : IndexRules} {f : Filter} {now : Instant} {caseSensitive : Bool}
    {r : Record} (htime : r.timestamp ≤ Instant.latest)
    (hf : Match.passes now caseSensitive r.toEntry f = true) :
    Matches rules { Parsed.search ⟨[f], []⟩ with caseSensitive } now r where
  inTime := by
    have hfirst := r.timestamp.first_le
    refine ⟨?_, htime⟩
    rcases Int.lt_or_eq_of_le hfirst with hlt | heq
    · exact Or.inl hlt
    · exact Or.inr ⟨heq, Nat.zero_le _⟩
  filters := by
    intro f' hf'
    obtain rfl := List.mem_singleton.mp hf'
    exact hf
  words := by
    have hwords : termsOf (joinWith " " []) = [] := by decide
    intro word hword
    exact absurd (hwords ▸ hword) List.not_mem_nil
  verbatim := by
    have hwords : splitTerms (joinWith " " []) = [] := by decide
    intro _ _ word hword
    exact absurd (hwords ▸ hword) List.not_mem_nil

/-- A value that a live record shows in a field leads back to the record. -/
theorem facet_finds (rules : IndexRules) (history : List Change) {r : Record}
    (hr : r ∈ live history) {field : String} (hfield : PlainWord field) {x : FieldValue}
    (hx : r.toEntry.field? field = some x) (hdisplay : x.display.toList.getLast? ≠ some '\\')
    (hround : ∀ n, x = .number n → n.isFinite = true →
      parseNumber? (Notation.plain n) = some n)
    {now : Instant} (hday : now.HasNextDay) (htime : r.timestamp ≤ Instant.latest)
    (caseSensitive : Bool) :
    ∃ p result, parse (facet field x.display) now = .ok p ∧
      (after rules history).search? { p.search with caseSensitive } now = .ok result ∧
      r ∈ result.records := by
  obtain ⟨v, hv⟩ := coerce_isOk hday x.display
  have hparse : parse (facet field x.display) now =
      .ok ⟨[⟨field, .equals, .scalar v, false⟩], []⟩ := by
    rw [parse_facet hfield hdisplay, hv]
    rfl
  have hwords : termsOf (joinWith " " []) = [] := by decide
  obtain ⟨found, hfound⟩ := exists_searchesFor rules history
    (q := { Parsed.search ⟨[⟨field, .equals, .scalar v, false⟩], []⟩ with caseSensitive }) rfl now
  obtain ⟨result, hresult, hperm, -⟩ :=
    hfound.exists_answer (Or.inr fun r' _ => textScore_ne_nan hwords r')
  exact ⟨_, result, hparse, hresult, hperm.mem_iff.mpr ((hfound.mem_iff r).mpr
    ⟨hr, matches_filter htime (Match.passes_display hx hround hv)⟩)⟩

/-- A message with quotes and the number of a line both lead back to the record. -/
theorem facet_finds_line :
    let r : Record :=
      { timestamp := Instant.earliest, level := .warn, message := "C:\\\"temp\" is full",
        file := "a.log", raw := "", line := some 42, id := 1 }
    (∃ p result, parse "message:\"C:\\\\\"temp\\\" is full\"" Instant.earliest = .ok p ∧
      (after {} [.add [r]]).search? { p.search with caseSensitive := true } Instant.earliest =
        .ok result ∧ r ∈ result.records) ∧
    ∃ p result, parse "line:\"42\"" Instant.earliest = .ok p ∧
      (after {} [.add [r]]).search? { p.search with caseSensitive := false } Instant.earliest =
        .ok result ∧ r ∈ result.records := by
  intro r
  have hr : r ∈ live [.add [r]] := by decide
  have htime : r.timestamp ≤ Instant.latest := by decide
  have hday : Instant.earliest.HasNextDay := by decide
  have hmessage : r.toEntry.field? "message" = some (.text "C:\\\"temp\" is full") := rfl
  have hline : r.toEntry.field? "line" = some (.number (Binary64.ofNat 42)) := rfl
  have hmessageText : facet "message" (FieldValue.text "C:\\\"temp\" is full").display =
      "message:\"C:\\\\\"temp\\\" is full\"" := by decide +kernel
  have hlineText : facet "line" (FieldValue.number (Binary64.ofNat 42)).display =
      "line:\"42\"" := by decide +kernel
  constructor
  · rw [← hmessageText]
    exact facet_finds {} _ hr (by decide +kernel) hmessage (by decide +kernel)
      (fun n hn => by cases hn) hday htime true
  · rw [← hlineText]
    refine facet_finds {} _ hr (by decide +kernel) hline (by decide +kernel) (fun n hn _ => ?_)
      hday htime false
    obtain rfl := FieldValue.number.inj hn
    decide +kernel

/-- The leap second behind the last second is in no range of time, and a time of day of which the
year is to be found on the last day cannot be placed. -/
theorem facet_loses :
    let r : Record :=
      { timestamp := ⟨Instant.lastSecond, nanosPerSecond, by decide, by decide, by decide⟩,
        level := .info, message := "up", file := "app.log", raw := "", id := 1 }
    r ∈ live [.add [r]] ∧ r.toEntry.field? "message" = some (.text "up") ∧
      (∃ p, parse (facet "message" "up") Instant.earliest = .ok p ∧
        (after {} [.add [r]]).search? p.search Instant.earliest = .ok {}) ∧
      parse (facet "message" "Oct 1 12:00:00") Instant.latest = .error ⟨⟩ := by
  intro r
  have hparse : parse (facet "message" "up") Instant.earliest =
      .ok ⟨[⟨"message", .equals, .scalar (.text "up"), false⟩], []⟩ := by decide +kernel
  refine ⟨by decide, rfl, ⟨_, hparse, by decide +kernel⟩, by decide +kernel⟩

end LogIndex

end LogLens
