/-
Ingestion: reading documents into the index chunk by chunk.

After every chunk the progress is reported.  Line numbers, the kept failures and their limit go on
from chunk to chunk, so the outcome does not depend on the size of the chunks.
-/
import LogLens.Index.LogIndex
import LogLens.LogFile

namespace LogLens

structure IngestRules where
  /-- Lines for each report of progress; 0 counts as 1. -/
  chunkLines : Nat := 5000
  deriving DecidableEq

/-- How many lines, or entries of an array, are taken at once. -/
def IngestRules.chunkSize (rules : IngestRules) : Nat := max rules.chunkLines 1

/-- How far an ingestion has come. -/
structure Progress where
  fileName : String
  /-- Lines so far, or elements of an array. -/
  processed : Nat
  total : Nat
  indexed : Nat
  errors : Nat
  deriving DecidableEq

/-- What an ingestion did. -/
structure Report where
  fileName : String
  fileSize : Nat
  totalLines : Nat
  indexed : Nat
  failures : List Failure
  droppedFailures : Nat
  deriving DecidableEq

namespace Progress

/-- The processed part of the whole; nothing to do counts as done. -/
def fraction (p : Progress) : Binary64 :=
  if p.total = 0 then Binary64.ofNat 1
  else (Binary64.ofNat p.processed).div (Binary64.ofNat p.total)

def isDone (p : Progress) : Bool := p.total ≤ p.processed

end Progress

namespace Report

def ofBatch (b : Batch) (indexed : Nat) : Report where
  fileName := b.fileName
  fileSize := b.fileSize
  totalLines := b.totalLines
  indexed := indexed
  failures := b.failures
  droppedFailures := b.droppedFailures

/-- The report of a batch all of whose entries were indexed. -/
def ofParsed (b : Batch) : Report := ofBatch b b.entries.length

def errorCount (r : Report) : Nat := r.failures.length + r.droppedFailures

end Report

namespace Ingest

/-- Identifiers for new records: the `n`-th one is drawn for the `n`-th record. -/
abbrev IdSupply := Nat → RecordId

/-- The identifier that holds the 122 bits of a number besides the marks of an identifier drawn at
random: a 4 in front of the lowest 76 bits, and the bits `10` in front of the lowest 62. -/
def randomId (bits : Nat) : RecordId :=
  let high := bits >>> 74
  let middle := (bits >>> 62) % 0x1000
  let low := bits % 0x4000000000000000
  let n := (16 * high + 4) <<< 76 + middle <<< 64 + 2 <<< 62 + low
  ⟨n % 0x100000000000000000000000000000000, Nat.mod_lt _ (by decide)⟩

/-- Identifiers from a number drawn at random, all different as far as there are any. -/
def supplyFrom (seed : Nat) : IdSupply := fun n =>
  randomId ((seed + n) % 0x4000000000000000000000000000000)

/-- Gives identifiers to entries, beginning with number `first` of the supply. -/
def identify (ids : IdSupply) : Nat → List Entry → List Record
  | _, [] => []
  | first, e :: rest => { e with id := ids first } :: identify ids (first + 1) rest

/-- Cuts a list into pieces of `n` elements, the last one maybe shorter; no piece is empty. -/
def chunksOf {α : Type} (n : Nat) : List α → List (List α)
  | [] => []
  | a :: rest => (a :: rest.take (n - 1)) :: chunksOf n (rest.drop (n - 1))
  termination_by l => l.length
  decreasing_by
    rw [List.length_drop, List.length_cons]
    omega

/-- The state between two chunks. -/
structure State where
  index : LogIndex
  /-- Everything but the entries, which are handed to the index. -/
  batch : Batch
  indexed : Nat
  progress : List Progress

def State.report (s : State) (total : Nat) : Progress where
  fileName := s.batch.fileName
  processed := s.batch.totalLines
  total := total
  indexed := s.indexed
  errors := s.batch.failureCount

/-- Reads one chunk of lines, numbered from `first`, and hands its entries to the index. -/
def addChunk (rules : ParserRules) (reference : Instant) (ids : IdSupply) (total : Nat) (s : State)
    (first : Nat) (chunk : List String) : Except Stamp.OutOfRange State := do
  let batch ← s.batch.addLines rules reference first chunk
  let next : State :=
    { index := s.index.add (identify ids s.indexed batch.entries)
      batch := { batch with entries := [] }
      indexed := s.indexed + batch.entries.length
      progress := [] }
  return { next with progress := s.progress ++ [next.report total] }

/-- Reads chunks of `size` lines one after the other, beginning with chunk number `n`; only the
last chunk may be shorter. -/
def addChunks (rules : ParserRules) (reference : Instant) (ids : IdSupply) (total size : Nat) :
    Nat → State → List (List String) → Except Stamp.OutOfRange State
  | _, s, [] => .ok s
  | n, s, chunk :: rest => do
    addChunks rules reference ids total size (n + 1)
      (← addChunk rules reference ids total s (n * size + 1) chunk) rest

/-- What an ingestion leaves behind. -/
structure Outcome where
  index : LogIndex
  report : Report
  progress : List Progress

/-- Reads a document line by line, in chunks of `size` lines. -/
def lines (rules : ParserRules) (size : Nat) (reference : Instant) (ids : IdSupply)
    (index : LogIndex) (text file : String) : Except Stamp.OutOfRange Outcome := do
  let all := textLines text
  let start : State :=
    { index, batch := { fileName := file, fileSize := text.utf8ByteSize }, indexed := 0,
      progress := [] }
  let last ← addChunks rules reference ids all.length size 0 start (chunksOf size all)
  return {
    index := last.index
    report := Report.ofBatch last.batch last.indexed
    progress := if all.isEmpty then [start.report 0] else last.progress }

/-- Hands the entries of a batch to the index chunk by chunk.  Progress counts entries, and all
elements once the last entry is in. -/
def addParsed (ids : IdSupply) (b : Batch) : LogIndex → Nat → List (List Entry) →
    LogIndex × List Progress
  | index, _, [] => (index, [])
  | index, indexed, chunk :: rest =>
    let done := indexed + chunk.length
    let (last, progress) := addParsed ids b (index.add (identify ids indexed chunk)) done rest
    (last,
      { fileName := b.fileName
        processed := if done = b.entries.length then b.totalLines else done
        total := b.totalLines
        indexed := done
        errors := b.failureCount } :: progress)

/-- Adds a batch that was read as a whole, in chunks of `size` entries. -/
def parsed (size : Nat) (ids : IdSupply) (index : LogIndex) (b : Batch) : Outcome :=
  let (last, progress) := addParsed ids b index 0 (chunksOf size b.entries)
  { index := last
    report := Report.ofBatch b b.entries.length
    progress :=
      if b.entries.isEmpty then
        [{ fileName := b.fileName, processed := b.totalLines, total := b.totalLines, indexed := 0,
           errors := b.failureCount }]
      else progress }

/-- Reads a document and adds its entries to the index. -/
def document (rules : ParserRules) (ingest : IngestRules) (reference : Instant) (ids : IdSupply)
    (index : LogIndex) (text file : String) : Except Stamp.OutOfRange Outcome := do
  match ← parseArray rules reference text file with
  | some batch => return parsed ingest.chunkSize ids index batch
  | none => lines rules ingest.chunkSize reference ids index text file

/-- Reads a file of the given bytes.  Its size is that on disk, before decoding. -/
def file (rules : ParserRules) (ingest : IngestRules) (reference : Instant) (ids : IdSupply)
    (index : LogIndex) (path : String) (bytes : List UInt8) : Except Stamp.OutOfRange Outcome := do
  let outcome ←
    document rules ingest reference ids index (Utf8.decodeLossy bytes) (LogFile.label path)
  return { outcome with report := { outcome.report with fileSize := bytes.length } }

end Ingest
end LogLens
