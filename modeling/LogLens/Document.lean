/-
Documents: whole log files.

A document is a JSON array, read element by element, or else a sequence of lines.  Lines that look
structured but cannot be decoded are failures; a batch keeps the first of them and counts the rest.
-/
import LogLens.Header
import LogLens.KeyValue
import LogLens.Structured

namespace LogLens

/-! ## Rules and results -/

structure ParserRules where
  /-- How many failures a batch keeps. -/
  maxErrors : Nat := 1000
  /-- Structured lines are in the relaxed notation. -/
  lenientJson : Bool := false
  /-- Pairs `key=value` in messages become fields. -/
  extractKeyValues : Bool := true
  deriving DecidableEq

/-- A line that looked structured but could not be decoded. -/
structure Failure where
  line : Nat
  raw : String
  reason : String
  deriving DecidableEq

def Failure.message (f : Failure) : String := "line " ++ toString f.line ++ ": " ++ f.reason

/-- What a document says. -/
structure Batch where
  entries : List Entry := []
  failures : List Failure := []
  /-- Failures that were not kept. -/
  droppedFailures : Nat := 0
  /-- Lines, or elements of an array. -/
  totalLines : Nat := 0
  fileName : String
  /-- Size of the document in bytes. -/
  fileSize : Nat
  deriving DecidableEq

namespace Batch

/-- Keeps a failure, or counts it when enough are kept. -/
def pushFailure (b : Batch) (f : Failure) (maxErrors : Nat) : Batch :=
  if b.failures.length < maxErrors then { b with failures := b.failures ++ [f] }
  else { b with droppedFailures := b.droppedFailures + 1 }

def failureCount (b : Batch) : Nat := b.failures.length + b.droppedFailures

end Batch

/-! ## Lines -/

/-- What one line contributes. -/
inductive LineOutcome where
  | blank
  | entry (e : Entry)
  | failure (f : Failure)

/-- Reads plain text: a header, and the fields in its message. -/
def plainEntry (rules : ParserRules) (reference : Instant) (trimmed raw file : String)
    (line : Nat) : Except Stamp.OutOfRange Entry := do
  let (header, _) ← Header.ofLine trimmed reference
  return {
    timestamp := header.timestamp.getD reference
    level := header.level
    message := header.message
    file, raw
    line := some line
    fields := if rules.extractKeyValues then KeyValue.fieldsOf header.message else Dict.empty }

/-- Reads one line.  A plain line is never a failure. -/
def parseLine (rules : ParserRules) (reference : Instant) (raw file : String) (line : Nat) :
    Except Stamp.OutOfRange LineOutcome := do
  let trimmed := trimText raw
  if trimmed.isEmpty then return .blank
  else if Structured.looksStructured trimmed.toList then
    match Structured.decode trimmed rules.lenientJson with
    | .ok members => return .entry (← Structured.entry members raw file reference (some line))
    | .error fault => return .failure ⟨line, raw, fault.message⟩
  else return .entry (← plainEntry rules reference trimmed raw file line)

namespace Batch

/-- Adds what one line contributes to a batch. -/
def addOutcome (rules : ParserRules) (b : Batch) : LineOutcome → Batch
  | .blank => b
  | .entry e => { b with entries := b.entries ++ [e] }
  | .failure f => b.pushFailure f rules.maxErrors

/-- Adds one line to a batch. -/
def addLine (rules : ParserRules) (reference : Instant) (b : Batch) (raw : String) (line : Nat) :
    Except Stamp.OutOfRange Batch := do
  let outcome ← parseLine rules reference raw b.fileName line
  return { b with totalLines := b.totalLines + 1 }.addOutcome rules outcome

/-- Adds lines to a batch, numbered from `first`. -/
def addLines (rules : ParserRules) (reference : Instant) :
    Batch → Nat → List String → Except Stamp.OutOfRange Batch
  | b, _, [] => .ok b
  | b, first, raw :: rest => do
    addLines rules reference (← b.addLine rules reference raw first) (first + 1) rest

/-- What one element of an array contributes. -/
def parseElement (reference : Instant) (element : Json) (file : String) (line : Nat) :
    Except Stamp.OutOfRange LineOutcome :=
  let raw := element.compact
  match element with
  | .object members => do
    return .entry (← Structured.entry members raw file reference (some line))
  | _ => .ok (.failure ⟨line, raw, Structured.Fault.elementNotAnObject.message⟩)

/-- Adds the elements of an array to a batch, numbered from `first`. -/
def addElements (rules : ParserRules) (reference : Instant) :
    Batch → Nat → List Json → Except Stamp.OutOfRange Batch
  | b, _, [] => .ok b
  | b, first, element :: rest => do
    let outcome ← parseElement reference element b.fileName first
    addElements rules reference (b.addOutcome rules outcome) (first + 1) rest

end Batch

/-! ## Whole documents -/

/-- The elements of a document that is a JSON array. -/
def arrayElements? (text : String) : Option (List Json) :=
  let cs := trim text.toList
  if cs.head? == some '[' && cs.getLast? == some ']' then
    match Json.parse? (String.ofList cs) with
    | some (.array items) => some items
    | _ => none
  else none

/-- Reads a document that is a JSON array; any other document is none. -/
def parseArray (rules : ParserRules) (reference : Instant) (text file : String) :
    Except Stamp.OutOfRange (Option Batch) :=
  (arrayElements? text).mapM fun items =>
    Batch.addElements rules reference
      { fileName := file, fileSize := text.utf8ByteSize, totalLines := items.length } 1 items

/-- Reads a document that is a sequence of lines. -/
def parseLines (rules : ParserRules) (reference : Instant) (text file : String) :
    Except Stamp.OutOfRange Batch :=
  Batch.addLines rules reference { fileName := file, fileSize := text.utf8ByteSize } 1
    (textLines text)

/-- Reads a document. -/
def parseDocument (rules : ParserRules) (reference : Instant) (text file : String) :
    Except Stamp.OutOfRange Batch := do
  match ← parseArray rules reference text file with
  | some batch => return batch
  | none => parseLines rules reference text file

end LogLens
