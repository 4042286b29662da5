/-
What an ingestion reports on its way.

Each step of an ingestion reports how far it has come, and an ingestion without steps reports where
it stands (`shown`).  Lines count as processed when they are read, so every report accounts for its
lines (`Batch.Continues`).  An array is read as a whole before its first entry is added: its
failures are counted from the first report on, but of its elements only the entries added so far,
until the last report counts all of them (`Batch.stage`).  Either way the reports advance to the
end and come to what is returned (`Progress.Completes`).
-/
import LogLens.Proofs.Document.Arrays
import LogLens.Proofs.Ingest.Chunks

namespace LogLens

/-! ## Reports in their order -/

namespace Progress

/-- A report and a later one. -/
structure Before (p q : Progress) : Prop where
  processed : p.processed < q.processed
  indexed : p.indexed ≤ q.indexed
  errors : p.errors ≤ q.errors

/-- The reports on the way to an outcome. -/
structure Completes (calls : List Progress) (r : Report) : Prop where
  frame : ∀ p ∈ calls, p.fileName = r.fileName ∧ p.total = r.totalLines
  ascending : calls.Pairwise Before
  within : ∀ p ∈ calls, p.indexed ≤ p.processed ∧ p.processed ≤ p.total
  /-- The last report, and no other, is done, and says what the outcome says. -/
  ending : ∃ front last, calls = front ++ [last] ∧
    (∀ p ∈ front, p.isDone = false) ∧ last.isDone = true ∧
    last.processed = r.totalLines ∧ last.indexed = r.indexed ∧ last.errors = r.errorCount

/-- Reports that advance to the last line complete their ingestion: only the last one is done. -/
theorem completes_of_last {front : List Progress} {last : Progress} {r : Report}
    (hframe : ∀ p ∈ front ++ [last], p.fileName = r.fileName ∧ p.total = r.totalLines)
    (hascending : (front ++ [last]).Pairwise Before)
    (hindexed : ∀ p ∈ front ++ [last], p.indexed ≤ p.processed)
    (hprocessed : last.processed = r.totalLines) (hentries : last.indexed = r.indexed)
    (herrors : last.errors = r.errorCount) : Completes (front ++ [last]) r := by
  have hlast : last ∈ front ++ [last] := List.mem_append_right front (List.mem_singleton_self last)
  have hfront : ∀ p ∈ front, p.processed < p.total := by
    intro p hp
    have hbefore := (List.pairwise_append.mp hascending).2.2 p hp last (List.mem_singleton_self last)
    rw [(hframe p (List.mem_append_left [last] hp)).2, ← hprocessed]
    exact hbefore.processed
  have htotal : last.processed = last.total := hprocessed.trans (hframe last hlast).2.symm
  refine
    { frame := hframe
      ascending := hascending
      within := fun p hp => ⟨hindexed p hp, ?_⟩
      ending := ⟨front, last, rfl, fun p hp => ?_, ?_, hprocessed, hentries, herrors⟩ }
  · rcases List.mem_append.mp hp with hp | hp
    · exact (hfront p hp).le
    · rw [List.mem_singleton.mp hp, htotal]
  · exact decide_eq_false (hfront p hp).not_ge
  · exact decide_eq_true htotal.ge

end Progress

namespace Ingest

section Shown

variable {α : Type}

/-- Where the steps behind a start come to, or the start if there is no step. -/
def shown (start : α) : List α → List α
  | [] => [start]
  | a :: steps => a :: steps

theorem shown_sublist (start : α) (steps : List α) :
    (shown start steps).Sublist (start :: steps) := by
  cases steps with
  | nil => exact List.Sublist.refl [start]
  | cons a steps => exact List.sublist_cons_self start (a :: steps)

/-- Whatever is shown, where it all ends is shown last. -/
theorem exists_shown_concat {start : α} {steps : List α} {last : α}
    (h : (start :: steps).getLast? = some last) :
    ∃ front, shown start steps = front ++ [last] := by
  cases steps with
  | nil =>
    obtain rfl : start = last := Option.some.inj h
    exact ⟨[], rfl⟩
  | cons a steps =>
    rw [List.getLast?_cons_cons] at h
    exact List.getLast?_eq_some_iff.mp h

/-- Steps that advance to the outcome complete it. -/
theorem completes_shown {call : α → Progress} {start last : α} {steps : List α} {r : Report}
    (hlast : (start :: steps).getLast? = some last)
    (hascending : (start :: steps).Pairwise fun a a' => (call a).Before (call a'))
    (hsound : ∀ a ∈ start :: steps, (call a).fileName = r.fileName ∧
      (call a).total = r.totalLines ∧ (call a).indexed ≤ (call a).processed)
    (hend : (call last).processed = r.totalLines ∧ (call last).indexed = r.indexed ∧
      (call last).errors = r.errorCount) :
    Progress.Completes ((shown start steps).map call) r := by
  obtain ⟨front, hfront⟩ := exists_shown_concat hlast
  have hsub := shown_sublist start steps
  rw [hfront] at hsub
  have hmem : ∀ p ∈ front.map call ++ [call last], ∃ a ∈ start :: steps, call a = p := by
    intro p hp
    rw [← List.map_singleton, ← List.map_append] at hp
    obtain ⟨a, ha, rfl⟩ := List.mem_map.mp hp
    exact ⟨a, hsub.subset ha, rfl⟩
  rw [hfront, List.map_append, List.map_singleton]
  refine Progress.completes_of_last (fun p hp => ?_) ?_ (fun p hp => ?_) hend.1 hend.2.1 hend.2.2
  · obtain ⟨a, ha, rfl⟩ := hmem p hp
    exact ⟨(hsound a ha).1, (hsound a ha).2.1⟩
  · rw [← List.map_singleton, ← List.map_append, List.pairwise_map]
    exact hascending.sublist hsub
  · obtain ⟨a, ha, rfl⟩ := hmem p hp
    exact (hsound a ha).2.2

end Shown

end Ingest

/-! ## Lines -/

namespace Batch

/-- The second batch is the first one after `n` further lines. -/
structure Continues (n : Nat) (b b' : Batch) : Prop where
  fileName : b'.fileName = b.fileName
  totalLines : b'.totalLines = b.totalLines + n
  entries : b.entries.length ≤ b'.entries.length
  failures : b.failureCount ≤ b'.failureCount
  /-- No line makes more than one entry or failure. -/
  outcomes : b'.entries.length + b'.failureCount ≤ b.entries.length + b.failureCount + n

/-- The second batch is the first one after further lines, at least one. -/
def Later (b b' : Batch) : Prop := ∃ n, 0 < n ∧ Continues n b b'

namespace Continues

theorem refl (b : Batch) : Continues 0 b b := ⟨rfl, rfl, le_rfl, le_rfl, le_rfl⟩

theorem trans {m n : Nat} {b b' b'' : Batch} (h : Continues m b b') (h' : Continues n b' b'') :
    Continues (m + n) b b'' where
  fileName := h'.fileName.trans h.fileName
  totalLines := by rw [h'.totalLines, h.totalLines, Nat.add_assoc]
  entries := h.entries.trans h'.entries
  failures := h.failures.trans h'.failures
  outcomes := by
    have := h.outcomes
    have := h'.outcomes
    omega

end Continues

instance : IsTrans Batch Later where
  trans := by
    rintro b b' b'' ⟨m, hm, h⟩ ⟨n, -, h'⟩
    exact ⟨m + n, Nat.add_pos_left hm n, h.trans h'⟩

section Reading

variable {rules : ParserRules} {reference : Instant}

theorem continues_of_addLine {b b' : Batch} {raw : String} {line : Nat}
    (h : b.addLine rules reference raw line = .ok b') : Continues 1 b b' := by
  rw [addLine] at h
  cases houtcome : parseLine rules reference raw b.fileName line with
  | error e =>
    rw [houtcome] at h
    cases h
  | ok outcome =>
    rw [houtcome] at h
    obtain rfl := Except.ok.inj h
    obtain ⟨hfile, htotal, hentries, hfailures⟩ :=
      addOutcome_eq rules { b with totalLines := b.totalLines + 1 } outcome
    have hone : outcome.entry?.toList.length + outcome.failure?.toList.length ≤ 1 := by
      cases outcome with
      | blank => exact Nat.zero_le 1
      | entry e => exact le_rfl
      | failure f => exact le_rfl
    refine ⟨hfile, htotal, ?_, ?_, ?_⟩
    · rw [hentries, List.length_append]
      exact Nat.le_add_right _ _
    · rw [hfailures]
      exact Nat.le_add_right _ _
    · rw [hentries, hfailures, List.length_append]
      show b.entries.length + _ + (b.failureCount + _) ≤ _
      omega

theorem continues_of_addLines {b b' : Batch} {first : Nat} {lines : List String}
    (h : b.addLines rules reference first lines = .ok b') : Continues lines.length b b' := by
  induction lines generalizing b first with
  | nil => exact Except.ok.inj h ▸ .refl b
  | cons raw lines ih =>
    rw [addLines] at h
    cases hline : b.addLine rules reference raw first with
    | error e =>
      rw [hline] at h
      cases h
    | ok next =>
      rw [hline] at h
      rw [List.length_cons, Nat.add_comm]
      exact (continues_of_addLine hline).trans (ih h)

end Reading

/-- What is reported about a batch of so many lines in all. -/
def call (total : Nat) (b : Batch) : Progress where
  fileName := b.fileName
  processed := b.totalLines
  total := total
  indexed := b.entries.length
  errors := b.failureCount

theorem Later.before {b b' : Batch} (h : Later b b') (total : Nat) :
    (b.call total).Before (b'.call total) := by
  obtain ⟨n, hn, h⟩ := h
  refine ⟨?_, h.entries, h.failures⟩
  show b.totalLines < b'.totalLines
  rw [h.totalLines]
  exact Nat.lt_add_of_pos_right hn

/-- A batch of a document, from its beginning to some line. -/
structure Begins (file : String) (b : Batch) : Prop where
  fileName : b.fileName = file
  outcomes : b.entries.length + b.failureCount ≤ b.totalLines

theorem Begins.of_continues {file : String} {n : Nat} {b b' : Batch} (h : b.Begins file)
    (h' : Continues n b b') : b'.Begins file where
  fileName := h'.fileName.trans h.fileName
  outcomes := by
    have := h.outcomes
    have := h'.outcomes
    have := h'.totalLines
    omega

end Batch

namespace Ingest

section Lines

variable {rules : ParserRules} {reference : Instant} {ids : IdSupply} {index : LogIndex}

/-- Each chunk leads to a later batch and reports it. -/
theorem exists_of_addChunks {total size n : Nat} {b : Batch} {progress : List Progress} {s : State}
    {chunks : List (List String)} (hchunks : ∀ chunk ∈ chunks, chunk ≠ [])
    (h : addChunks rules reference ids total size n (between ids index b progress) chunks = .ok s) :
    ∃ steps last, (b :: steps).getLast? = some last ∧ (b :: steps).Pairwise Batch.Later ∧
      Batch.Continues chunks.flatten.length b last ∧
      s = between ids index last (progress ++ steps.map (Batch.call total)) := by
  induction chunks generalizing n b progress with
  | nil =>
    refine ⟨[], b, rfl, List.pairwise_singleton _ b, .refl b, ?_⟩
    rw [List.map_nil, List.append_nil]
    exact (Except.ok.inj h).symm
  | cons chunk chunks ih =>
    obtain ⟨hchunk, hchunks⟩ := List.forall_mem_cons.mp hchunks
    rw [addChunks, addChunk_between] at h
    cases hread : b.addLines rules reference (n * size + 1) chunk with
    | error e =>
      rw [hread] at h
      cases h
    | ok next =>
      rw [hread] at h
      obtain ⟨steps, last, hlast, hlater, hcontinues, hs⟩ := ih hchunks h
      have hnext := Batch.continues_of_addLines hread
      have hfirst : b.Later next := ⟨chunk.length, List.length_pos_iff.mpr hchunk, hnext⟩
      refine ⟨next :: steps, last, by rwa [List.getLast?_cons_cons], ?_, ?_, ?_⟩
      · exact List.pairwise_cons_cons_iff_of_trans.mpr ⟨hfirst, hlater⟩
      · rw [List.flatten_cons, List.length_append]
        exact hnext.trans hcontinues
      · rw [hs, List.map_cons, List.append_assoc]
        rfl

/-- The batch of a document of which nothing is read yet. -/
def unread (text file : String) : Batch := { fileName := file, fileSize := text.utf8ByteSize }

theorem begins_unread (text file : String) : (unread text file).Begins file := ⟨rfl, le_rfl⟩

theorem begins_of_later {text file : String} {steps : List Batch}
    (h : (unread text file :: steps).Pairwise Batch.Later) :
    ∀ b ∈ unread text file :: steps, b.Begins file := by
  intro b hb
  rcases List.mem_cons.mp hb with rfl | hb
  · exact begins_unread text file
  · obtain ⟨n, -, hcontinues⟩ := List.rel_of_pairwise_cons h hb
    exact (begins_unread text file).of_continues hcontinues

/-- Every line that makes an entry or a failure is processed. -/
theorem outcomes_le_processed {total : Nat} {text file : String} {steps batches : List Batch}
    (h : (unread text file :: steps).Pairwise Batch.Later)
    (hsub : batches.Sublist (unread text file :: steps)) :
    ∀ p ∈ batches.map (Batch.call total), p.indexed + p.errors ≤ p.processed := by
  intro p hp
  obtain ⟨b, hb, rfl⟩ := List.mem_map.mp hp
  exact (begins_of_later h b (hsub.subset hb)).outcomes

theorem lines_eq_map (size : Nat) (text file : String) :
    lines rules size reference ids index text file =
      (addChunks rules reference ids (textLines text).length size 0
        (between ids index (unread text file) []) (chunksOf size (textLines text))).map fun s =>
          { index := s.index
            report := Report.ofBatch s.batch s.indexed
            progress := if (textLines text).isEmpty then [(unread text file).call 0]
              else s.progress } :=
  rfl

/-- A document that is read line by line is reported batch by batch. -/
theorem exists_of_lines {size : Nat} {text file : String} {o : Outcome}
    (h : lines rules size reference ids index text file = .ok o) :
    ∃ steps last, (unread text file :: steps).getLast? = some last ∧
      (unread text file :: steps).Pairwise Batch.Later ∧
      Batch.Continues (textLines text).length (unread text file) last ∧
      o.progress = (shown (unread text file) steps).map (Batch.call (textLines text).length) ∧
      o.report = Report.ofParsed last := by
  rw [lines_eq_map] at h
  cases hs : addChunks rules reference ids (textLines text).length size 0
      (between ids index (unread text file) []) (chunksOf size (textLines text)) with
  | error e =>
    rw [hs] at h
    cases h
  | ok s =>
    rw [hs] at h
    obtain rfl := Except.ok.inj h
    obtain ⟨steps, last, hlast, hlater, hcontinues, rfl⟩ :=
      exists_of_addChunks (fun chunk hchunk => ne_nil_of_mem_chunksOf hchunk) hs
    rw [flatten_chunksOf] at hcontinues
    refine ⟨steps, last, hlast, hlater, hcontinues, ?_, rfl⟩
    -- there is a step exactly if there is a line
    cases steps with
    | nil =>
      obtain rfl : unread text file = last := Option.some.inj hlast
      have hnone : (textLines text).length = 0 := Nat.left_eq_add.mp hcontinues.totalLines
      rw [List.eq_nil_of_length_eq_zero hnone]
      rfl
    | cons step steps =>
      have hsome : textLines text ≠ [] := by
        intro hnil
        rw [hnil, chunksOf] at hs
        exact List.cons_ne_nil _ _ (congrArg State.progress (Except.ok.inj hs)).symm
      rw [List.isEmpty_eq_false_iff.mpr hsome]
      rfl

end Lines

end Ingest

/-! ## Arrays -/

namespace Batch

/-- What is reported about a batch of an array once so many of its entries are added. -/
def stage (b : Batch) (n : Nat) : Progress where
  fileName := b.fileName
  processed := if n = b.entries.length then b.totalLines else n
  total := b.totalLines
  indexed := n
  errors := b.failureCount

/-- The batch accounts for each element of its array. -/
def Complete (b : Batch) : Prop := b.entries.length + b.failureCount = b.totalLines

variable {b : Batch} {m n : Nat}

theorem processed_stage_of_lt (h : n < b.entries.length) : (b.stage n).processed = n :=
  if_neg h.ne

theorem processed_stage_self (b : Batch) : (b.stage b.entries.length).processed = b.totalLines :=
  if_pos rfl

theorem le_processed_stage (hb : b.Complete) (hn : n ≤ b.entries.length) :
    n ≤ (b.stage n).processed := by
  rcases hn.lt_or_eq with hn | rfl
  · exact (processed_stage_of_lt hn).ge
  · rw [processed_stage_self, ← hb]
    exact Nat.le_add_right _ _

theorem stage_before (hb : b.Complete) (hmn : m < n) (hn : n ≤ b.entries.length) :
    (b.stage m).Before (b.stage n) where
  processed := by
    rw [processed_stage_of_lt (hmn.trans_le hn)]
    exact hmn.trans_le (le_processed_stage hb hn)
  indexed := hmn.le
  errors := le_rfl

/-- Before the last entry is in, the failures are counted but not their elements. -/
theorem outcomes_stage (hb : b.Complete) (hn : n ≤ b.entries.length) :
    (b.stage n).indexed + (b.stage n).errors ≤ (b.stage n).total ∧
      ((b.stage n).indexed + (b.stage n).errors ≤ (b.stage n).processed ↔
        (b.stage n).isDone = true ∨ (b.stage n).errors = 0) := by
  have htotal : (b.stage n).indexed + (b.stage n).errors ≤ (b.stage n).total := by
    show n + b.failureCount ≤ b.totalLines
    rw [← hb]
    exact Nat.add_le_add_right hn _
  refine ⟨htotal, ?_⟩
  rw [Progress.isDone, decide_eq_true_iff]
  rcases hn.lt_or_eq with hn | rfl
  · rw [processed_stage_of_lt hn]
    show n + b.failureCount ≤ n ↔ b.totalLines ≤ n ∨ b.failureCount = 0
    rw [← hb]
    omega
  · rw [processed_stage_self]
    exact iff_of_true htotal (Or.inl le_rfl)

end Batch

namespace Ingest

/-- Each chunk of entries leads to a later stage and reports it. -/
theorem exists_of_addParsed (ids : IdSupply) (b : Batch) (index : LogIndex) (indexed : Nat)
    {chunks : List (List Entry)} (hchunks : ∀ chunk ∈ chunks, chunk ≠ []) :
    ∃ steps, (addParsed ids b index indexed chunks).2 = steps.map b.stage ∧
      (indexed :: steps).getLast? = some (indexed + chunks.flatten.length) ∧
      (indexed :: steps).Pairwise (· < ·) := by
  induction chunks generalizing index indexed with
  | nil => exact ⟨[], rfl, rfl, List.pairwise_singleton _ indexed⟩
  | cons chunk chunks ih =>
    obtain ⟨hchunk, hchunks⟩ := List.forall_mem_cons.mp hchunks
    obtain ⟨steps, hsteps, hlast, hascending⟩ :=
      ih (index.add (identify ids indexed chunk)) (indexed + chunk.length) hchunks
    refine ⟨(indexed + chunk.length) :: steps, ?_, ?_, ?_⟩
    · rw [List.map_cons, ← hsteps]
      rfl
    · rw [List.getLast?_cons_cons, hlast, List.flatten_cons, List.length_append, Nat.add_assoc]
    · have hfirst : indexed < indexed + chunk.length :=
        Nat.lt_add_of_pos_right (List.length_pos_iff.mpr hchunk)
      exact List.pairwise_cons_cons_iff_of_trans.mpr ⟨hfirst, hascending⟩

/-- An array is reported stage by stage, up to the last of its entries. -/
theorem exists_of_parsed (size : Nat) (ids : IdSupply) (index : LogIndex) (b : Batch) :
    ∃ steps, (parsed size ids index b).progress = (shown 0 steps).map b.stage ∧
      (0 :: steps).getLast? = some b.entries.length ∧ (0 :: steps).Pairwise (· < ·) ∧
      ∀ n ∈ 0 :: steps, n ≤ b.entries.length := by
  have hchunks : ∀ chunk ∈ chunksOf size b.entries, chunk ≠ [] :=
    fun chunk hchunk => ne_nil_of_mem_chunksOf hchunk
  obtain ⟨steps, hsteps, hlast, hascending⟩ := exists_of_addParsed ids b index 0 hchunks
  rw [flatten_chunksOf, Nat.zero_add] at hlast
  have hle : ∀ n ∈ 0 :: steps, n ≤ b.entries.length := by
    intro n hn
    have hmax := List.getLast?_eq_getLast_of_ne_nil (List.cons_ne_nil 0 steps)
    have hn := (hascending.imp Nat.le_of_lt).rel_getLast hn
    rwa [Option.some.inj (hmax.symm.trans hlast)] at hn
  refine ⟨steps, ?_, hlast, hascending, hle⟩
  show (if b.entries.isEmpty then _ else (addParsed ids b index 0 (chunksOf size b.entries)).2) = _
  rw [hsteps]
  -- there is a step exactly if there is an entry
  cases steps with
  | nil =>
    have hnone : 0 = b.entries.length := Option.some.inj hlast
    rw [if_pos (List.isEmpty_iff_length_eq_zero.mpr hnone.symm), shown, List.map_singleton,
      Batch.stage, if_pos hnone]
  | cons step steps =>
    have hstep : 0 < b.entries.length :=
      (List.rel_of_pairwise_cons hascending List.mem_cons_self).trans_le
        (hle step (List.mem_cons_of_mem 0 List.mem_cons_self))
    rw [List.isEmpty_eq_false_iff.mpr (List.length_pos_iff.mp hstep)]
    rfl

/-! ## Whole documents -/

open Progress

section Document

variable {rules : ParserRules} {ingest : IngestRules} {reference : Instant} {ids : IdSupply}
  {index : LogIndex} {text file : String} {o : Outcome}

theorem completes_lines {size : Nat}
    (h : lines rules size reference ids index text file = .ok o) :
    Completes o.progress o.report := by
  obtain ⟨steps, last, hlast, hlater, hcontinues, hprogress, hreport⟩ := exists_of_lines h
  have htotal : last.totalLines = (textLines text).length :=
    hcontinues.totalLines.trans (Nat.zero_add _)
  rw [hprogress, hreport]
  refine completes_shown hlast (hlater.imp fun hbb' => hbb'.before _) (fun b hb => ?_)
    ⟨rfl, rfl, rfl⟩
  have hbegins := begins_of_later hlater b hb
  exact ⟨hbegins.fileName.trans hcontinues.fileName.symm, htotal.symm,
    (Nat.le_add_right _ _).trans hbegins.outcomes⟩

theorem completes_parsed (size : Nat) (ids : IdSupply) (index : LogIndex) {b : Batch}
    (hb : b.Complete) :
    Completes (parsed size ids index b).progress (parsed size ids index b).report := by
  obtain ⟨steps, hprogress, hlast, hascending, hle⟩ := exists_of_parsed size ids index b
  rw [hprogress]
  refine completes_shown hlast ?_ (fun n hn => ⟨rfl, rfl, Batch.le_processed_stage hb (hle n hn)⟩)
    ⟨b.processed_stage_self, rfl, rfl⟩
  exact hascending.imp_of_mem fun _ hn hmn => Batch.stage_before hb hmn (hle _ hn)

/-- A document is read as an array or line by line. -/
theorem document_cases (h : document rules ingest reference ids index text file = .ok o) :
    (arrayElements? text ≠ none ∧ ∃ b, b.Complete ∧ o = parsed ingest.chunkSize ids index b) ∨
      arrayElements? text = none ∧
        lines rules ingest.chunkSize reference ids index text file = .ok o := by
  rw [document] at h
  cases harray : parseArray rules reference text file with
  | error e =>
    rw [harray] at h
    cases h
  | ok found =>
    rw [harray] at h
    rcases cases_of_parseArray harray with ⟨hnone, rfl⟩ | ⟨hsome, b, rfl, -, hb⟩
    · exact Or.inr ⟨hnone, h⟩
    · exact Or.inl ⟨hsome, b, hb, (Except.ok.inj h).symm⟩

theorem completes_document (h : document rules ingest reference ids index text file = .ok o) :
    Completes o.progress o.report := by
  rcases document_cases h with ⟨-, b, hb, rfl⟩ | ⟨-, h⟩
  · exact completes_parsed ingest.chunkSize ids index hb
  · exact completes_lines h

end Document

section Reports

variable (rules : ParserRules) (ingest : IngestRules) (reference : Instant) (ids : IdSupply)
  (index : LogIndex) (text file : String)

/-- Only a day that is out of range keeps a document from being ingested. -/
theorem document_ok_or_error :
    (∃ o, document rules ingest reference ids index text file = .ok o) ∨
    document rules ingest reference ids index text file = .error ⟨⟩ ∧ ¬reference.HasNextDay := by
  cases hdocument : document rules ingest reference ids index text file with
  | ok o => exact Or.inl ⟨o, rfl⟩
  | error e =>
    refine Or.inr ⟨rfl, fun hday => ?_⟩
    obtain ⟨b, hb⟩ := parseDocument_isOk rules hday text file
    have hresult := result_document rules ingest reference ids index text file
    rw [hdocument, hb] at hresult
    cases hresult

/-- The reports on a document advance to its end, which is reported last and once, whatever the
chunks; the ingestion breaks off only where the day after the reference is out of range. -/
theorem progress_completes :
    (∃ o, document rules ingest reference ids index text file = .ok o ∧
      Completes o.progress o.report) ∨
    document rules ingest reference ids index text file = .error ⟨⟩ ∧ ¬reference.HasNextDay := by
  refine (document_ok_or_error rules ingest reference ids index text file).imp_left ?_
  rintro ⟨o, ho⟩
  exact ⟨o, ho, completes_document ho⟩

/-- On the last representable day a plain line with a time without a year is never reported. -/
theorem progress_lastDay :
    ¬∃ o, document {} {} .latest (supplyFrom 0) (.empty {}) "Oct  1 12:00:00 up" "a.log" = .ok o ∧
      Completes o.progress o.report := by
  have herror : ((document {} {} .latest (supplyFrom 0) (.empty {}) "Oct  1 12:00:00 up" "a.log").map
      (·.progress)).toOption = none := by decide +kernel
  rintro ⟨o, ho, -⟩
  rw [ho] at herror
  cases herror

/-- What the first `k` chunks of a document that is read line by line lead to. -/
def firstChunks (rules : ParserRules) (size : Nat) (reference : Instant) (ids : IdSupply)
    (index : LogIndex) (text file : String) (k : Nat) : Except Stamp.OutOfRange State :=
  addChunks rules reference ids (textLines text).length size 0
    { index, batch := unread text file, indexed := 0, progress := [] }
    ((chunksOf size (textLines text)).take k)

/-- No more entries and failures are reported than lines, wherever the reading stops.  Of an array
no more are reported than it has elements; but they are more than the processed elements in every
report before the last if there is a failure. -/
theorem progress_counts :
    (∀ k s, firstChunks rules ingest.chunkSize reference ids index text file k = .ok s →
      ∀ p ∈ s.progress, p.indexed + p.errors ≤ p.processed) ∧
    ((∃ o, document rules ingest reference ids index text file = .ok o ∧
      (arrayElements? text = none → ∀ p ∈ o.progress, p.indexed + p.errors ≤ p.processed) ∧
      (arrayElements? text ≠ none → ∀ p ∈ o.progress, p.indexed + p.errors ≤ p.total ∧
        (p.indexed + p.errors ≤ p.processed ↔ p.isDone = true ∨ p.errors = 0))) ∨
    document rules ingest reference ids index text file = .error ⟨⟩ ∧
      ¬reference.HasNextDay) := by
  constructor
  · intro k s h
    have hchunks : ∀ chunk ∈ (chunksOf ingest.chunkSize (textLines text)).take k, chunk ≠ [] :=
      fun chunk hchunk => ne_nil_of_mem_chunksOf (List.mem_of_mem_take hchunk)
    have h : addChunks rules reference ids (textLines text).length ingest.chunkSize 0
        (between ids index (unread text file) [])
        ((chunksOf ingest.chunkSize (textLines text)).take k) = .ok s := h
    obtain ⟨steps, last, -, hlater, -, rfl⟩ := exists_of_addChunks hchunks h
    exact outcomes_le_processed hlater (List.sublist_cons_self _ steps)
  refine (document_ok_or_error rules ingest reference ids index text file).imp_left ?_
  rintro ⟨o, ho⟩
  refine ⟨o, ho, fun hlines => ?_, fun harray => ?_⟩
  · rcases document_cases ho with ⟨harray, -⟩ | ⟨-, h⟩
    · exact absurd hlines harray
    obtain ⟨steps, last, -, hlater, -, hprogress, -⟩ := exists_of_lines h
    rw [hprogress]
    exact outcomes_le_processed hlater (shown_sublist _ steps)
  · rcases document_cases ho with ⟨-, b, hb, rfl⟩ | ⟨hlines, -⟩
    · obtain ⟨steps, hprogress, -, -, hle⟩ := exists_of_parsed ingest.chunkSize ids index b
      rw [hprogress]
      intro p hp
      obtain ⟨n, hn, rfl⟩ := List.mem_map.mp hp
      exact Batch.outcomes_stage hb (hle n ((shown_sublist 0 steps).subset hn))
    · exact absurd hlines harray

/-- A failure in front of two objects that are added one by one. -/
theorem progress_counts_element :
    ∃ o p, document {} { chunkLines := 1 } .earliest (supplyFrom 0) (.empty {})
        "[5, \x7b\"msg\": \"one\"\x7d, \x7b\"msg\": \"two\"\x7d]" "a.json" = .ok o ∧
      p ∈ o.progress ∧ ¬p.indexed + p.errors ≤ p.processed := by
  have hprogress : (document {} { chunkLines := 1 } .earliest (supplyFrom 0) (.empty {})
      "[5, \x7b\"msg\": \"one\"\x7d, \x7b\"msg\": \"two\"\x7d]" "a.json").map (·.progress) =
        .ok [⟨"a.json", 1, 3, 1, 1⟩, ⟨"a.json", 3, 3, 2, 1⟩] := by decide +kernel
  cases ho : document {} { chunkLines := 1 } .earliest (supplyFrom 0) (.empty {})
      "[5, \x7b\"msg\": \"one\"\x7d, \x7b\"msg\": \"two\"\x7d]" "a.json" with
  | error e =>
    rw [ho] at hprogress
    cases hprogress
  | ok o =>
    rw [ho] at hprogress
    have hcalls : o.progress = _ := Except.ok.inj hprogress
    exact ⟨o, ⟨"a.json", 1, 3, 1, 1⟩, rfl, hcalls ▸ List.mem_cons_self, by decide⟩

end Reports
end Ingest
end LogLens
