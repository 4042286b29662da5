/-
Chunks leave no trace.

A document that is read in chunks has the same report and leads to the same index as one that is
read as a whole and added at once.  Between two chunks the entries so far have gone to the index and
the rest of the batch is that of the whole reading (`between`); a chunk takes one such state to
the next (`addChunk_between`), and line numbers, kept failures and identifiers go on across it.
-/
import LogLens.Proofs.Index.Renaming
import LogLens.Ingest

namespace LogLens

/-! ## Lines one after the other -/

namespace Batch

/-- The batch with further entries in front of its own. -/
def prepend (front : List Entry) (b : Batch) : Batch :=
  { b with entries := front ++ b.entries }

theorem addOutcome_prepend (rules : ParserRules) (front : List Entry) (b : Batch)
    (outcome : LineOutcome) :
    (b.prepend front).addOutcome rules outcome = (b.addOutcome rules outcome).prepend front := by
  cases outcome with
  | blank => rfl
  | entry e => simp [addOutcome, prepend]
  | failure f =>
    by_cases h : b.failures.length < rules.maxErrors <;>
      simp [addOutcome, pushFailure, prepend, h]

theorem addLine_prepend (rules : ParserRules) (reference : Instant) (front : List Entry) (b : Batch)
    (raw : String) (line : Nat) :
    (b.prepend front).addLine rules reference raw line =
      (b.addLine rules reference raw line).map (prepend front) := by
  have hfile : (b.prepend front).fileName = b.fileName := rfl
  rw [addLine, addLine, hfile]
  cases parseLine rules reference raw b.fileName line with
  | error e => rfl
  | ok outcome =>
    refine congrArg Except.ok ?_
    exact addOutcome_prepend rules front { b with totalLines := b.totalLines + 1 } outcome

/-- Entries that are there already play no part in reading further lines. -/
theorem addLines_prepend (rules : ParserRules) (reference : Instant) (front : List Entry)
    (b : Batch) (first : Nat) (lines : List String) :
    (b.prepend front).addLines rules reference first lines =
      (b.addLines rules reference first lines).map (prepend front) := by
  induction lines generalizing b first with
  | nil => rfl
  | cons raw lines ih =>
    rw [addLines, addLines, addLine_prepend]
    cases b.addLine rules reference raw first with
    | error e => rfl
    | ok b' => exact ih b' (first + 1)

/-- Reading goes on where it stopped. -/
theorem addLines_append (rules : ParserRules) (reference : Instant) (b : Batch) (first : Nat)
    (lines lines' : List String) :
    b.addLines rules reference first (lines ++ lines') =
      (b.addLines rules reference first lines).bind fun b' =>
        b'.addLines rules reference (first + lines.length) lines' := by
  induction lines generalizing b first with
  | nil => rfl
  | cons raw lines ih =>
    rw [List.cons_append, addLines, addLines]
    cases b.addLine rules reference raw first with
    | error e => rfl
    | ok b' =>
      rw [List.length_cons, Nat.add_comm lines.length, ← Nat.add_assoc]
      exact ih b' (first + 1)

end Batch

namespace Ingest

open LogIndex

/-! ## Identifiers -/

theorem identify_append (ids : IdSupply) (first : Nat) (entries entries' : List Entry) :
    identify ids first (entries ++ entries') =
      identify ids first entries ++ identify ids (first + entries.length) entries' := by
  induction entries generalizing first with
  | nil => rfl
  | cons e entries ih =>
    rw [List.cons_append, identify, identify, ih, List.length_cons, Nat.add_comm entries.length,
      ← Nat.add_assoc, List.cons_append]

theorem toEntry_identify (ids : IdSupply) (first : Nat) (entries : List Entry) :
    (identify ids first entries).map (·.toEntry) = entries := by
  induction entries generalizing first with
  | nil => rfl
  | cons e entries ih => rw [identify, List.map_cons, ih]

theorem add_append (index : LogIndex) (records records' : List Record) :
    index.add (records ++ records') = (index.add records).add records' :=
  List.foldl_append

/-! ## Chunks of lines -/

section Lines

variable (rules : ParserRules) (reference : Instant) (ids : IdSupply) (index : LogIndex)

/-- The state between two chunks, from the batch that a whole reading has come to. -/
def between (b : Batch) (progress : List Progress) : State where
  index := index.add (identify ids 0 b.entries)
  batch := { b with entries := [] }
  indexed := b.entries.length
  progress := progress

/-- One chunk leads from one state between chunks to the next. -/
theorem addChunk_between (total : Nat) (b : Batch) (progress : List Progress) (first : Nat)
    (chunk : List String) :
    addChunk rules reference ids total (between ids index b progress) first chunk =
      (b.addLines rules reference first chunk).map fun b' =>
        between ids index b' (progress ++ [(between ids index b' []).report total]) := by
  have hfront : b = Batch.prepend b.entries { b with entries := [] } := by
    simp [Batch.prepend]
  have hlines : b.addLines rules reference first chunk =
      (Batch.addLines rules reference { b with entries := [] } first chunk).map
        (Batch.prepend b.entries) := by
    conv_lhs => rw [hfront]
    exact Batch.addLines_prepend rules reference b.entries { b with entries := [] } first chunk
  rw [hlines, addChunk]
  show (Batch.addLines rules reference { b with entries := [] } first chunk).bind _ = _
  cases Batch.addLines rules reference { b with entries := [] } first chunk with
  | error e => rfl
  | ok b' =>
    -- the entries of the chunk are named after those before them
    have hindex : index.add (identify ids 0 (b.entries ++ b'.entries)) =
        (index.add (identify ids 0 b.entries)).add (identify ids b.entries.length b'.entries) := by
      rw [identify_append, add_append, Nat.zero_add]
    have hnext : between ids index (b'.prepend b.entries) [] =
        { index := (index.add (identify ids 0 b.entries)).add
            (identify ids b.entries.length b'.entries)
          batch := { b' with entries := [] }
          indexed := b.entries.length + b'.entries.length
          progress := [] } := by
      simp only [between, Batch.prepend, hindex, List.length_append]
    show _ = Except.ok { between ids index (b'.prepend b.entries) [] with
      progress := progress ++ [(between ids index (b'.prepend b.entries) []).report total] }
    rw [hnext]
    rfl

/-- What is left of a state when its progress is forgotten. -/
def State.result (s : State) : LogIndex × Batch × Nat := (s.index, s.batch, s.indexed)

/-- All chunks together lead to the state behind the last line. -/
theorem addChunks_between (total size : Nat) (hsize : 0 < size) (n : Nat) (b : Batch)
    (progress : List Progress) (lines : List String) :
    (addChunks rules reference ids total size n (between ids index b progress)
        (chunksOf size lines)).map State.result =
      (b.addLines rules reference (n * size + 1) lines).map fun b' =>
        (between ids index b' []).result := by
  induction lines using chunksOf.induct size generalizing n b progress with
  | case1 => rw [chunksOf]; rfl
  | case2 raw rest ih =>
    let chunk := raw :: rest.take (size - 1)
    have hsplit : raw :: rest = chunk ++ rest.drop (size - 1) := by
      rw [List.cons_append, List.take_append_drop]
    -- only the last chunk is short, and behind it no line is left to be numbered
    have hnumber : ∀ b' : Batch,
        b'.addLines rules reference (n * size + 1 + chunk.length) (rest.drop (size - 1)) =
          b'.addLines rules reference ((n + 1) * size + 1) (rest.drop (size - 1)) := by
      intro b'
      by_cases hfull : size - 1 ≤ rest.length
      · have hlength : chunk.length = size := by
          rw [List.length_cons, List.length_take_of_le hfull]
          omega
        rw [hlength, Nat.succ_mul]
        congr 1
        omega
      · rw [List.drop_eq_nil_of_le (Nat.le_of_not_le hfull)]
        rfl
    rw [chunksOf, addChunks, addChunk_between, hsplit, Batch.addLines_append]
    cases Batch.addLines rules reference b (n * size + 1) chunk with
    | error e => rfl
    | ok b' =>
      refine (ih (n + 1) b' _).trans ?_
      rw [← hnumber]
      rfl

end Lines

theorem flatten_chunksOf {α : Type} (size : Nat) (l : List α) :
    (chunksOf size l).flatten = l := by
  induction l using chunksOf.induct size with
  | case1 => rw [chunksOf]; rfl
  | case2 a rest ih =>
    rw [chunksOf, List.flatten_cons, ih, List.cons_append, List.take_append_drop]

theorem ne_nil_of_mem_chunksOf {α : Type} {size : Nat} {l chunk : List α}
    (h : chunk ∈ chunksOf size l) : chunk ≠ [] := by
  induction l using chunksOf.induct size with
  | case1 =>
    rw [chunksOf] at h
    cases h
  | case2 a rest ih =>
    rw [chunksOf] at h
    rcases List.mem_cons.mp h with rfl | h
    · exact List.cons_ne_nil _ _
    · exact ih h

/-! ## Chunks of entries -/

/-- Entries that are added chunk by chunk are added one after the other. -/
theorem index_addParsed (ids : IdSupply) (b : Batch) (index : LogIndex) (indexed : Nat)
    (chunks : List (List Entry)) :
    (addParsed ids b index indexed chunks).1 =
      index.add (identify ids indexed chunks.flatten) := by
  induction chunks generalizing index indexed with
  | nil => rfl
  | cons chunk chunks ih =>
    rw [List.flatten_cons, identify_append, add_append]
    exact ih (index.add (identify ids indexed chunk)) (indexed + chunk.length)

/-! ## Whole documents -/

/-- What an ingestion comes to besides its progress. -/
def Outcome.result (o : Outcome) : Report × LogIndex := (o.report, o.index)

/-- What adding a whole batch at once comes to. -/
def atOnce (ids : IdSupply) (index : LogIndex) (b : Batch) : Report × LogIndex :=
  (Report.ofParsed b, index.add (identify ids 0 b.entries))

theorem result_parsed (size : Nat) (ids : IdSupply) (index : LogIndex) (b : Batch) :
    (parsed size ids index b).result = atOnce ids index b := by
  have hindex := index_addParsed ids b index 0 (chunksOf size b.entries)
  rw [flatten_chunksOf] at hindex
  rw [Outcome.result, atOnce, ← hindex]
  rfl

theorem result_lines (rules : ParserRules) {size : Nat} (hsize : 0 < size) (reference : Instant)
    (ids : IdSupply) (index : LogIndex) (text file : String) :
    (lines rules size reference ids index text file).map Outcome.result =
      (parseLines rules reference text file).map (atOnce ids index) := by
  let start : Batch := { fileName := file, fileSize := text.utf8ByteSize }
  let finish (last : LogIndex × Batch × Nat) : Report × LogIndex :=
    (Report.ofBatch last.2.1 last.2.2, last.1)
  let all := textLines text
  have hchunks := addChunks_between rules reference ids index all.length size hsize 0 start [] all
  rw [Nat.zero_mul, Nat.zero_add] at hchunks
  calc (lines rules size reference ids index text file).map Outcome.result
      = ((addChunks rules reference ids all.length size 0 (between ids index start [])
          (chunksOf size all)).map State.result).map finish := by
        show ((addChunks rules reference ids all.length size 0 (between ids index start [])
          (chunksOf size all)).bind _).map Outcome.result = _
        cases addChunks rules reference ids all.length size 0 (between ids index start [])
          (chunksOf size all) <;> rfl
    _ = ((start.addLines rules reference 1 all).map fun b' =>
          (between ids index b' []).result).map finish := by rw [hchunks]
    _ = (parseLines rules reference text file).map (atOnce ids index) := by
        show _ = (start.addLines rules reference 1 all).map (atOnce ids index)
        cases start.addLines rules reference 1 all <;> rfl

/-- Reading a document in chunks reports the same and leads to the same index as parsing it as a
whole and adding its entries at once. -/
theorem result_document (rules : ParserRules) (ingest : IngestRules) (reference : Instant)
    (ids : IdSupply) (index : LogIndex) (text file : String) :
    (document rules ingest reference ids index text file).map Outcome.result =
      (parseDocument rules reference text file).map (atOnce ids index) := by
  have hsize : 0 < ingest.chunkSize := Nat.lt_of_lt_of_le Nat.one_pos (Nat.le_max_right _ _)
  rw [document, parseDocument]
  cases parseArray rules reference text file with
  | error e => rfl
  | ok found =>
    cases found with
    | some b => exact congrArg Except.ok (result_parsed ingest.chunkSize ids index b)
    | none => exact result_lines rules hsize reference ids index text file

/-- Chunks of any size make no difference: to the report, to the index if the entries get the same
identifiers, and to the index but for the new identifiers if these are drawn anew. -/
theorem document_eq_parseDocument (rules : ParserRules) (ingest : IngestRules)
    (reference : Instant) (ids : IdSupply) (text file : String) :
    (∀ index, (document rules ingest reference ids index text file).map Outcome.result =
      (parseDocument rules reference text file).map (atOnce ids index)) ∧
    (∀ index ingest', (document rules ingest reference ids index text file).map Outcome.result =
      (document rules ingest' reference ids index text file).map Outcome.result) ∧
    ∀ indexRules history b records, parseDocument rules reference text file = .ok b →
      records.map (·.toEntry) = b.entries →
      (after indexRules history).Fresh (identify ids 0 b.entries) →
      (after indexRules history).Fresh records →
      ∃ o, document rules ingest reference ids (after indexRules history) text file = .ok o ∧
        o.report = Report.ofParsed b ∧
        SameButNew (after indexRules history) o.index ((after indexRules history).add records) := by
  refine ⟨fun index => result_document rules ingest reference ids index text file,
    fun index ingest' => ?_, fun indexRules history b records hparse hentries hids hfresh => ?_⟩
  · rw [result_document, result_document]
  · have hresult := result_document rules ingest reference ids (after indexRules history) text file
    rw [hparse] at hresult
    cases hdocument : document rules ingest reference ids (after indexRules history) text file with
    | error e =>
      rw [hdocument] at hresult
      exact absurd hresult (by simp [Except.map])
    | ok o =>
      rw [hdocument] at hresult
      obtain ⟨hreport, hindex⟩ := Prod.mk.inj (Except.ok.inj hresult)
      refine ⟨o, rfl, hreport, ?_⟩
      rw [hindex]
      refine sameButNew_add indexRules history ?_ hids hfresh
      rw [toEntry_identify, hentries]

/-- A failure in the second chunk of three, with a chunk size of 0. -/
theorem document_single_lines :
    let up : Entry :=
      { timestamp := Instant.earliest, level := .info, message := "up", file := "a.log",
        raw := "up", line := some 1 }
    let down : Entry := { up with message := "down", raw := "down", line := some 3 }
    let batch : Batch :=
      { entries := [up, down]
        failures := [⟨2, "\x7bx\x7d", "Invalid JSON: key must be a string at line 1 column 2"⟩]
        totalLines := 3, fileName := "a.log", fileSize := 11 }
    let index := after {} [.add [{ up with id := 7 }]]
    ∃ o, document {} { chunkLines := 0 } Instant.earliest (fun n => Fin.ofNat _ n) index
        "up\n\x7bx\x7d\ndown" "a.log" = .ok o ∧
      o.report = Report.ofParsed batch ∧
      SameButNew index o.index (index.add [{ up with id := 9 }, { down with id := 8 }]) := by
  intro up down batch index
  have hparse : parseDocument {} Instant.earliest "up\n\x7bx\x7d\ndown" "a.log" = .ok batch := by
    decide +kernel
  obtain ⟨-, -, hfresh⟩ := document_eq_parseDocument {} { chunkLines := 0 } Instant.earliest
    (fun n => Fin.ofNat _ n) "up\n\x7bx\x7d\ndown" "a.log"
  exact hfresh {} [.add [{ up with id := 7 }]] batch [{ up with id := 9 }, { down with id := 8 }]
    hparse rfl ⟨by decide, by decide⟩ ⟨by decide, by decide⟩

end Ingest
end LogLens
