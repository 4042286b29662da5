/-
An array and its elements line by line.

A document that is an array of objects, and the document that has each of the objects on a line of
its own, say the same.  An object makes the same entry in both readings (`parseLine_object`), so one
element more keeps the two batches in step, and the array is read like its lines to the end
(`addLines_compact`).
-/
import LogLens.Proofs.Document.Lines
import LogLens.Proofs.Json.Compact
import LogLens.Proofs.Text.Lines
import LogLens.Proofs.Text.Trim

namespace LogLens

/-! ## One object -/

namespace Json

section Text

variable (members : List (String × Json))

theorem head?_compact_object : (compact (.object members)).toList.head? = some '\x7b' := by
  rw [toList_compact_object]
  rfl

theorem getLast?_compact_object : (compact (.object members)).toList.getLast? = some '\x7d' := by
  rw [toList_compact_object, ← List.cons_append, List.getLast?_append]
  rfl

theorem compact_object_ne_nil : (compact (.object members)).toList ≠ [] := by
  rw [toList_compact_object]
  exact List.cons_ne_nil _ _

theorem isLine_compact_object : IsLine (compact (.object members)).toList where
  ne_nil := compact_object_ne_nil members
  newline := newline_notMem_compact (.object members)
  return_last := by
    rw [getLast?_compact_object]
    decide

theorem trim_compact_object :
    trim (compact (.object members)).toList = (compact (.object members)).toList := by
  refine trim_eq_self (compact_object_ne_nil members) (fun c hc => ?_) (fun c hc => ?_)
  · rw [head?_compact_object] at hc
    exact Option.some.inj hc ▸ by decide
  · rw [getLast?_compact_object] at hc
    exact Option.some.inj hc ▸ by decide

end Text

/-- The value is what its compact text is read as. -/
def ReadsBack (j : Json) : Prop := parse? (compact j) = some j

end Json

open Json

theorem looksStructured_compact_object (members : List (String × Json)) :
    Structured.looksStructured (compact (.object members)).toList = true := by
  rw [Structured.looksStructured, head?_compact_object, getLast?_compact_object]
  rfl

section Strict

variable {rules : ParserRules} (hstrict : rules.lenientJson = false) (reference : Instant)

include hstrict

/-- A line that holds an object says what the object says as an element. -/
theorem parseLine_object {members : List (String × Json)} (hback : ReadsBack (.object members))
    (file : String) (line : Nat) :
    parseLine rules reference (compact (.object members)) file line =
      Batch.parseElement reference (.object members) file line := by
  have htrim : trimText (compact (.object members)) = compact (.object members) := by
    rw [trimText, trim_compact_object, String.ofList_toList]
  have hblank : (compact (.object members)).isEmpty = false := by
    rw [Bool.eq_false_iff, ne_eq, String.isEmpty_iff, ← String.toList_inj]
    exact compact_object_ne_nil members
  have hdecode : Structured.decode (compact (.object members)) false = .ok members := by
    rw [Structured.decode, if_neg Bool.false_ne_true, hback]
  rw [parseLine, htrim, hstrict, hdecode, looksStructured_compact_object, hblank]
  rfl

end Strict

namespace Batch

/-! ## Element after element -/

/-- A change of what a batch says about its document, which no line or element looks at. -/
structure Framing (rules : ParserRules) (g : Batch → Batch) : Prop where
  fileName : ∀ b, (g b).fileName = b.fileName
  addOutcome : ∀ b outcome, (g b).addOutcome rules outcome = g (b.addOutcome rules outcome)

/-- The batch with further lines counted. -/
def count (n : Nat) (b : Batch) : Batch :=
  { b with totalLines := b.totalLines + n }

/-- The batch of a document of another size. -/
def sized (size : Nat) (b : Batch) : Batch :=
  { b with fileSize := size }

section Run

variable (rules : ParserRules) (reference : Instant)

/-- Outcomes change neither the number of lines nor the size. -/
theorem framing (lines size : Nat → Nat) : Framing rules fun b =>
    { b with totalLines := lines b.totalLines, fileSize := size b.fileSize } where
  fileName _ := rfl
  addOutcome b outcome := by
    cases outcome with
    | blank => rfl
    | entry e => rfl
    | failure f => by_cases hroom : b.failures.length < rules.maxErrors <;>
        simp [Batch.addOutcome, pushFailure, hroom]

theorem framing_count (n : Nat) : Framing rules (count n) := framing rules (· + n) id

theorem framing_sized (size : Nat) : Framing rules (sized size) := framing rules id fun _ => size

variable {rules} in
theorem Framing.addElements {g : Batch → Batch} (h : Framing rules g) (b : Batch) (first : Nat)
    (elements : List Json) : (g b).addElements rules reference first elements =
      (b.addElements rules reference first elements).map g := by
  induction elements generalizing b first with
  | nil => rfl
  | cons element elements ih =>
    rw [Batch.addElements, Batch.addElements, h.fileName]
    cases parseElement reference element b.fileName first with
    | error e => rfl
    | ok outcome =>
      show Batch.addElements rules reference ((g b).addOutcome rules outcome) _ _ = _
      rw [h.addOutcome]
      exact ih (b.addOutcome rules outcome) (first + 1)

/-- Objects add one entry each, and nothing else. -/
theorem exists_of_addElements {b b' : Batch} {first : Nat}
    {objects : List (List (String × Json))}
    (h : b.addElements rules reference first (objects.map .object) = .ok b') :
    ∃ entries, entries.length = objects.length ∧
      b' = { b with entries := b.entries ++ entries } := by
  induction objects generalizing b first with
  | nil => exact ⟨[], rfl, by rw [List.append_nil]; exact (Except.ok.inj h).symm⟩
  | cons members objects ih =>
    rw [List.map_cons, addElements, parseElement] at h
    cases hentry : Structured.entry members (compact (.object members)) b.fileName reference
        (some first) with
    | error e =>
      rw [hentry] at h
      cases h
    | ok e =>
      rw [hentry] at h
      obtain ⟨entries, hlength, rfl⟩ := ih h
      refine ⟨e :: entries, congrArg (· + 1) hlength, ?_⟩
      simp [addOutcome]

/-- No element is passed over: each makes an entry or a failure. -/
theorem outcome_of_parseElement {element : Json} {file : String} {line : Nat}
    {outcome : LineOutcome} (h : parseElement reference element file line = .ok outcome) :
    outcome.entry?.toList.length + outcome.failure?.toList.length = 1 := by
  cases element with
  | object members =>
    rw [parseElement] at h
    cases hentry : Structured.entry members (compact (.object members)) file reference
        (some line) with
    | error e =>
      rw [hentry] at h
      cases h
    | ok e =>
      rw [hentry] at h
      exact Except.ok.inj h ▸ rfl
  | _ => exact Except.ok.inj h ▸ rfl

theorem counts_of_addElements {b b' : Batch} {first : Nat} {elements : List Json}
    (h : b.addElements rules reference first elements = .ok b') :
    b'.fileName = b.fileName ∧ b'.totalLines = b.totalLines ∧
      b'.entries.length + b'.failureCount =
        b.entries.length + b.failureCount + elements.length := by
  induction elements generalizing b first with
  | nil => exact Except.ok.inj h ▸ ⟨rfl, rfl, rfl⟩
  | cons element elements ih =>
    rw [addElements] at h
    cases houtcome : parseElement reference element b.fileName first with
    | error e =>
      rw [houtcome] at h
      cases h
    | ok outcome =>
      rw [houtcome] at h
      obtain ⟨hfile, htotal, hcounts⟩ := ih h
      obtain ⟨hfile', htotal', hentries, hfailures⟩ := addOutcome_eq rules b outcome
      have hone := outcome_of_parseElement reference houtcome
      refine ⟨hfile.trans hfile', htotal.trans htotal', ?_⟩
      rw [hcounts, hentries, hfailures, List.length_append, List.length_cons]
      omega

/-- With a day after the reference every element says something. -/
theorem exists_parseElement {reference : Instant} (hday : reference.HasNextDay) (element : Json)
    (file : String) (line : Nat) :
    ∃ outcome, parseElement reference element file line = .ok outcome := by
  cases element with
  | object members =>
    obtain ⟨e, he, -⟩ :=
      Structured.exists_entry hday (compact (.object members)) file line members
    exact ⟨.entry e, by rw [parseElement, he]; rfl⟩
  | _ => exact ⟨_, rfl⟩

theorem addElements_isOk {reference : Instant} (hday : reference.HasNextDay) (b : Batch)
    (first : Nat) (elements : List Json) :
    ∃ b', b.addElements rules reference first elements = .ok b' := by
  induction elements generalizing b first with
  | nil => exact ⟨b, rfl⟩
  | cons element elements ih =>
    obtain ⟨outcome, houtcome⟩ := exists_parseElement hday element b.fileName first
    obtain ⟨b', hb'⟩ := ih (b.addOutcome rules outcome) (first + 1)
    refine ⟨b', ?_⟩
    rw [addElements, houtcome]
    exact hb'

theorem exists_addElements {reference : Instant} (hday : reference.HasNextDay) (b : Batch)
    (first : Nat) (objects : List (List (String × Json))) :
    ∃ b', b.addElements rules reference first (objects.map .object) = .ok b' :=
  addElements_isOk rules hday b first (objects.map .object)

variable {rules} (hstrict : rules.lenientJson = false)

include hstrict

/-- Reading the compact texts of objects as lines is reading the objects as elements, with the lines
counted one by one. -/
theorem addLines_compact (b : Batch) (first : Nat) {objects : List (List (String × Json))}
    (hback : ∀ members ∈ objects, ReadsBack (.object members)) :
    b.addLines rules reference first (objects.map fun members => compact (.object members)) =
      (b.addElements rules reference first (objects.map .object)).map (count objects.length) := by
  induction objects generalizing b first with
  | nil => rfl
  | cons members objects ih =>
    rw [List.map_cons, List.map_cons, addLines, addElements, addLine,
      parseLine_object hstrict reference (hback members List.mem_cons_self)]
    cases parseElement reference (.object members) b.fileName first with
    | error e => rfl
    | ok outcome =>
      show addLines rules reference ((b.count 1).addOutcome rules outcome) (first + 1) _ = _
      rw [(framing_count rules 1).addOutcome,
        ih _ _ fun m hm => hback m (List.mem_cons_of_mem members hm),
        (framing_count rules 1).addElements]
      show _ = (addElements rules reference (b.addOutcome rules outcome) (first + 1) _).map _
      cases addElements rules reference (b.addOutcome rules outcome) (first + 1)
          (objects.map .object) with
      | error e => rfl
      | ok b' =>
        refine congrArg Except.ok ?_
        simp only [count, List.length_cons, Nat.add_comm, Nat.add_left_comm]

end Run

end Batch

/-! ## Whole documents -/

/-- What is read as an array accounts for each of its elements; nothing else is read as one. -/
theorem cases_of_parseArray {rules : ParserRules} {reference : Instant} {text file : String}
    {found : Option Batch} (h : parseArray rules reference text file = .ok found) :
    arrayElements? text = none ∧ found = none ∨
      arrayElements? text ≠ none ∧ ∃ b, found = some b ∧ b.fileName = file ∧
        b.entries.length + b.failureCount = b.totalLines := by
  rw [parseArray] at h
  cases hitems : arrayElements? text with
  | none =>
    rw [hitems] at h
    exact Or.inl ⟨rfl, (Except.ok.inj h).symm⟩
  | some items =>
    rw [hitems] at h
    let start : Batch :=
      { fileName := file, fileSize := text.utf8ByteSize, totalLines := items.length }
    cases hread : start.addElements rules reference 1 items with
    | error e => cases (congrArg (Except.map some) hread).symm.trans h
    | ok b =>
      obtain ⟨hfile, htotal, hcounts⟩ := Batch.counts_of_addElements rules reference hread
      have hfound := Except.ok.inj ((congrArg (Except.map some) hread).symm.trans h)
      refine Or.inr ⟨Option.some_ne_none items, b, hfound.symm, hfile, ?_⟩
      rw [hcounts, htotal]
      exact Nat.zero_add _

/-- With a day after the reference every document is read. -/
theorem parseDocument_isOk (rules : ParserRules) {reference : Instant}
    (hday : reference.HasNextDay) (text file : String) :
    ∃ b, parseDocument rules reference text file = .ok b := by
  rw [parseDocument, parseArray]
  cases arrayElements? text with
  | none =>
    obtain ⟨b, outcomes, hb, -⟩ :=
      (Batch.accounts_nil rules file text.utf8ByteSize).addLines hday (textLines text)
    exact ⟨b, hb⟩
  | some items =>
    let start : Batch :=
      { fileName := file, fileSize := text.utf8ByteSize, totalLines := items.length }
    obtain ⟨b, hb⟩ := Batch.addElements_isOk rules hday start 1 items
    refine ⟨b, ?_⟩
    show (start.addElements rules reference 1 items).map some >>= _ = _
    rw [hb]
    rfl

/-- The objects in their compact texts, one a line. -/
def objectLines (closed : Bool) (objects : List (List (String × Json))) : String :=
  lineDocument closed (objects.map fun members => compact (.object members))

theorem textLines_objectLines (closed : Bool) (objects : List (List (String × Json))) :
    textLines (objectLines closed objects) =
      objects.map fun members => compact (.object members) := by
  refine textLines_lineDocument closed fun line hline => ?_
  obtain ⟨members, -, rfl⟩ := List.mem_map.mp hline
  exact isLine_compact_object members

/-- Lines of objects are no array: they begin with a brace. -/
theorem arrayElements?_objectLines (closed : Bool) (objects : List (List (String × Json))) :
    arrayElements? (objectLines closed objects) = none := by
  cases objects with
  | nil => rfl
  | cons members objects =>
    obtain ⟨rest, hrest⟩ := prefix_lineDocument closed (compact (.object members))
      (objects.map fun members => compact (.object members))
    rw [toList_compact_object, List.cons_append] at hrest
    rw [arrayElements?, objectLines, List.map_cons, ← hrest, head?_trim (by decide)]
    rfl

/-- A document that is an array of objects says what the lines of its objects say.  The batches
differ in the size of their documents only. -/
theorem parseDocument_objectLines {rules : ParserRules} (hstrict : rules.lenientJson = false)
    (reference : Instant) {text : String} (file : String) {objects : List (List (String × Json))}
    (hobjects : arrayElements? text = some (objects.map .object))
    (hback : ∀ members ∈ objects, ReadsBack (.object members)) (closed : Bool) :
    parseDocument rules reference (objectLines closed objects) file =
        (parseDocument rules reference text file).map
          (Batch.sized (objectLines closed objects).utf8ByteSize) ∧
      (∀ b, parseArray rules reference text file = .ok (some b) →
        parseDocument rules reference text file = .ok b ∧ b.failureCount = 0 ∧
          b.totalLines = objects.length ∧ b.entries.length = objects.length) ∧
      (reference.HasNextDay → ∃ b, parseArray rules reference text file = .ok (some b)) := by
  let start : Batch := { fileName := file, fileSize := text.utf8ByteSize }
  let read := start.addElements rules reference 1 (objects.map .object)
  have harray : parseArray rules reference text file =
      (read.map (Batch.count objects.length)).map some := by
    have hcount := (Batch.framing_count rules objects.length).addElements reference start 1
      (objects.map .object)
    have hstart : { start with totalLines := (objects.map Json.object).length } =
        start.count objects.length := by
      rw [List.length_map, Batch.count, Nat.zero_add]
    rw [parseArray, hobjects, ← hcount, ← hstart]
    rfl
  have hlines : parseDocument rules reference (objectLines closed objects) file =
      (read.map (Batch.count objects.length)).map
        (Batch.sized (objectLines closed objects).utf8ByteSize) := by
    have hsized := (Batch.framing_sized rules (objectLines closed objects).utf8ByteSize).addElements
      reference start 1 (objects.map .object)
    have hrun := Batch.addLines_compact reference hstrict
      (start.sized (objectLines closed objects).utf8ByteSize) 1 hback
    rw [hsized] at hrun
    rw [parseDocument, parseArray, arrayElements?_objectLines]
    show parseLines rules reference (objectLines closed objects) file = _
    rw [parseLines, textLines_objectLines]
    refine hrun.trans ?_
    show (read.map _).map _ = _
    cases read <;> rfl
  have htext : parseDocument rules reference text file = read.map (Batch.count objects.length) := by
    rw [parseDocument, harray]
    cases read <;> rfl
  refine ⟨hlines.trans (congrArg _ htext.symm), fun b hb => ?_, fun hday => ?_⟩
  · cases hread : read with
    | error e =>
      rw [harray, hread] at hb
      cases hb
    | ok b' =>
      rw [harray, hread] at hb
      obtain rfl : b'.count objects.length = b := Option.some.inj (Except.ok.inj hb)
      obtain ⟨entries, hlength, rfl⟩ := Batch.exists_of_addElements rules reference hread
      rw [htext, hread]
      exact ⟨rfl, rfl, Nat.zero_add _, hlength⟩
  · obtain ⟨b, hb⟩ := Batch.exists_addElements rules hday start 1 objects
    have hread : read = .ok b := hb
    rw [harray, hread]
    exact ⟨b.count objects.length, rfl⟩

/-- Objects whose texts hold line breaks, brackets and braces, in an array over several lines. -/
theorem parseDocument_objectLines_nested :
    let first := [("message", Json.text "up\n]\x7d"), ("n", .nat 1)]
    let second := [("items", .array [.bool true, .null, .object []]), ("ts", .text "[")]
    let text := "[\x7b\"n\": 1, \"message\": \"up\\n]\x7d\"\x7d,\n " ++
      "\x7b\"ts\":\"[\",\"items\":[true,\nnull,\x7b\x7d]\x7d]\n"
    let document := "\x7b\"message\":\"up\\n]\x7d\",\"n\":1\x7d\n" ++
      "\x7b\"items\":[true,null,\x7b\x7d],\"ts\":\"[\"\x7d\n"
    objectLines true [first, second] = document ∧
      ∃ b, parseDocument {} Instant.earliest text "a.log" = .ok b ∧
        parseDocument {} Instant.earliest document "a.log" = .ok (b.sized 61) ∧
        b.failureCount = 0 ∧ b.totalLines = 2 ∧ b.entries.length = 2 := by
  intro first second text document
  have hdocument : objectLines true [first, second] = document := by decide +kernel
  have hobjects : arrayElements? text = some ([first, second].map .object) := by
    unfold text first second
    rfl
  have hback : ∀ members ∈ [first, second], ReadsBack (.object members) := by
    intro members hmembers
    unfold ReadsBack
    rcases List.mem_pair.mp hmembers with hfirst | hsecond
    · rw [hfirst]
      unfold first
      rfl
    · rw [hsecond]
      unfold second
      rfl
  have hstrict : ({} : ParserRules).lenientJson = false := rfl
  obtain ⟨hsame, hread, hday⟩ :=
    parseDocument_objectLines hstrict Instant.earliest "a.log" hobjects hback true
  obtain ⟨b, hb⟩ := hday (by decide)
  obtain ⟨htext, hfailures, htotal, hentries⟩ := hread b hb
  have hsize : document.utf8ByteSize = 61 := by decide +kernel
  rw [hdocument, htext, hsize] at hsame
  exact ⟨hdocument, b, htext, hsame, hfailures, htotal, hentries⟩

end LogLens
