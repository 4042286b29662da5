/-
The index of log records.

It holds every record once, under its identifier, and keeps the text index and the field statistics
in step with the records.  A search narrows the records by time, by filters and by text; the answer
begins with the newest record, among equally old ones with the better match, and then with the one
that was added first.  Scores that are NaN fit into no such order; then a search may break off.
-/
import LogLens.Index.FieldStats
import LogLens.Index.TextIndex
import LogLens.Match
import LogLens.Order.StableSort
import LogLens.Query.Parser

namespace LogLens

open Index

/-- A record and the count of records that had been added before it. -/
structure Slot where
  seq : Nat
  record : Record
  deriving DecidableEq

structure LogIndex where
  rules : IndexRules
  slots : Dict RecordId Slot := Dict.empty
  nextSeq : Nat := 0
  text : TextIndex := { rules := rules }
  stats : FieldStats := Dict.empty
  deriving DecidableEq

/-- How often each value of each counted field occurs. -/
abbrev Aggregations := Dict String (Dict String Nat)

structure SearchResult where
  records : List Record := []
  /-- How many records match, shown or not. -/
  total : Nat := 0
  aggregations : Option Aggregations := none
  deriving DecidableEq

/-- Why a search could not be carried out. -/
inductive SearchError where
  /-- The text index lists a record that is not held. -/
  | danglingPosting (id : RecordId)
  /-- The order of the hits contradicts itself. -/
  | unordered
  deriving DecidableEq

structure IndexStats where
  totalEntries : Nat
  levelCounts : List (Level × Nat)
  fileCounts : Dict String Nat
  earliest : Option Instant
  latest : Option Instant
  distinctTerms : Nat
  fieldCount : Nat
  deriving DecidableEq

namespace LogIndex

/-! ## Records -/

def empty (rules : IndexRules) : LogIndex := { rules }

def size (ix : LogIndex) : Nat := ix.slots.size

def isEmpty (ix : LogIndex) : Bool := ix.slots.isEmpty

def get? (ix : LogIndex) (id : RecordId) : Option Record := (ix.slots.get? id).map (·.record)

/-- Takes a record out, if it is held. -/
def removeOne (ix : LogIndex) (id : RecordId) : LogIndex :=
  match ix.slots.get? id with
  | none => ix
  | some slot =>
    { ix with
      slots := ix.slots.erase id
      text := ix.text.remove id
      stats := FieldStats.removeEntry ix.stats slot.record.toEntry }

/-- Adds a record in place of the one with its identifier. -/
def addOne (ix : LogIndex) (r : Record) : LogIndex :=
  let ix := ix.removeOne r.id
  { ix with
    slots := ix.slots.insert r.id ⟨ix.nextSeq, r⟩
    nextSeq := ix.nextSeq + 1
    text := ix.text.insert r
    stats := FieldStats.addEntry ix.stats r.toEntry }

def add (ix : LogIndex) (records : List Record) : LogIndex :=
  records.foldl addOne ix

/-- Takes records out and counts those that were held. -/
def remove (ix : LogIndex) : List RecordId → LogIndex × Nat
  | [] => (ix, 0)
  | id :: rest =>
    let held := ix.slots.contains id
    let (ix, n) := (ix.removeOne id).remove rest
    (ix, n + if held then 1 else 0)

def clear (ix : LogIndex) : LogIndex :=
  { rules := ix.rules, text := ix.text.clear }

/-! ## Searching -/

/-- A record that matches, with its score. -/
structure Hit where
  slot : Slot
  score : Binary64

/-- Every term occurs in some indexed text of the entry, in the same case. -/
def containsVerbatim (e : Entry) (terms : List String) : Bool :=
  terms.all fun term => TextField.all.any fun field =>
    ((field.text? e).map fun s => occursIn term.toList s.toList).getD false

/-- The terms that have to occur in the same case. -/
def verbatimTerms (q : SearchQuery) : List String :=
  if q.caseSensitive && !q.fuzzy then splitTerms q.text else []

/-- The score of a slot that passes every test; `scores` are those of the query's text, if it has
words. -/
def hit? (q : SearchQuery) (now : Instant) (scores : Option Scores) (slot : Slot) : Option Hit :=
  let e := slot.record.toEntry
  if q.timeRange.contains e.timestamp && Match.passesAll now q.caseSensitive e q.filters &&
      containsVerbatim e (verbatimTerms q) then
    match scores with
    | none => some ⟨slot, Binary64.zero⟩
    | some scores => (scores.get? slot.record.id).map fun score => ⟨slot, score⟩
  else none

/-- The better match goes before the other, of equally good ones the one that was added first. -/
def betterFirst (a b : Hit) : Bool :=
  match b.score.compare? a.score with
  | some .lt => true
  | some .gt => false
  | _ => a.slot.seq < b.slot.seq

/-- The newer record goes before the other. -/
def newerFirst (a b : Hit) : Bool :=
  b.slot.record.timestamp < a.slot.record.timestamp

/-- The slots that match, in the order of an answer. -/
def ranked (q : SearchQuery) (now : Instant) (scores : Option Scores) (slots : List Slot) :
    Except Disorder (List Hit) := do
  let hits ← StableSort.sort betterFirst (slots.filterMap (hit? q now scores))
  StableSort.sort newerFirst hits

/-- Counts the values of the named fields. -/
def aggregate (records : List Record) (fields : List String) : Aggregations :=
  Dict.ofList (fields.map fun field =>
    (field, Dict.countAll (records.filterMap fun r =>
      (r.toEntry.field? field).map (·.display))))

/-- The answer to a query that the given records match, in this order. -/
def answer (q : SearchQuery) (records : List Record) : SearchResult where
  records := match q.limit with
    | some n => records.take n
    | none => records
  total := records.length
  aggregations :=
    if q.aggregateBy.isEmpty then none else some (aggregate records q.aggregateBy)

/-- Carries out a search at the time `now` that walks through the slots in the given order. -/
def searchAlong? (ix : LogIndex) (q : SearchQuery) (now : Instant) (walk : List Slot) :
    Except SearchError SearchResult :=
  let scores := ix.text.search? q.text q.fuzzy
  match (scores.map (·.keys)).bind fun ids => ids.find? fun id => !ix.slots.contains id with
  | some id => .error (.danglingPosting id)
  | none =>
    match ranked q now scores walk with
    | .ok hits => .ok (answer q (hits.map (·.slot.record)))
    | .error _ => .error .unordered

/-- Carries out a search; the slots are walked through by their identifiers. -/
def search? (ix : LogIndex) (q : SearchQuery) (now : Instant) : Except SearchError SearchResult :=
  ix.searchAlong? q now ix.slots.values

/-- A search that meets a dangling posting finds nothing; one whose hits have no order breaks
off. -/
def search (ix : LogIndex) (q : SearchQuery) (now : Instant) : Except Disorder SearchResult :=
  match ix.search? q now with
  | .ok result => .ok result
  | .error (.danglingPosting _) => .ok {}
  | .error .unordered => .error ⟨⟩

/-! ## Summaries -/

def suggestions (ix : LogIndex) (now : Instant) : List Suggestion :=
  FieldStats.suggestions ix.stats ix.rules.maxExamples now

def earlier (a b : Instant) : Instant := if a ≤ b then a else b

def later (a b : Instant) : Instant := if a ≤ b then b else a

/-- Joins all elements of a list, if there are any. -/
def joinAll? {α : Type} (join : α → α → α) : List α → Option α
  | [] => none
  | a :: rest => some (rest.foldl join a)

/-- A summary of the records.  Levels and files without records are left out. -/
def summary (ix : LogIndex) : IndexStats :=
  let entries := ix.slots.values.map (·.record.toEntry)
  let levelCount (level : Level) : Nat := entries.countP (·.level == level)
  { totalEntries := ix.size
    levelCounts := (Level.all.map fun level => (level, levelCount level)).filter (·.2 ≠ 0)
    fileCounts := Dict.countAll (entries.map (·.file))
    earliest := joinAll? earlier (entries.map (·.timestamp))
    latest := joinAll? later (entries.map (·.timestamp))
    distinctTerms := ix.text.termCount
    fieldCount := ix.stats.size }

end LogIndex
end LogLens
