/-
The text index: which records hold which terms.

For every term the index lists its occurrences, one for each attribute of a record that holds it.
A word of a query finds the terms it equals, the terms it begins, and, if asked to, the terms within
a small edit distance of it.
-/
import LogLens.Index.EditDistance
import LogLens.Index.Terms

namespace LogLens

structure IndexRules where
  messageBoost : Binary64 := Binary64.ofNat 2
  levelBoost : Binary64 := Binary64.ofDecimal false 15 (-1)
  /-- For file, source, service and host. -/
  labelBoost : Binary64 := Binary64.ofNat 1
  /-- Allowed edits for each character of a word. -/
  fuzziness : Binary64 := Binary64.ofDecimal false 2 (-1)
  maxEditDistance : Nat := 2
  /-- Shorter words begin no term. -/
  prefixMinLength : Nat := 2
  /-- How many example values a field shows. -/
  maxExamples : Nat := 10
  deriving DecidableEq

namespace IndexRules

def boost (rules : IndexRules) : Index.TextField → Binary64
  | .message => rules.messageBoost
  | .level => rules.levelBoost
  | _ => rules.labelBoost

/-- The edits that a word of the given length allows: at least one, unless the rules allow none. -/
def maxEdits (rules : IndexRules) (length : Nat) : Nat :=
  let scaled := (Binary64.ofNat length).mul rules.fuzziness
  let edits := match scaled with
    | .nan => 0
    | .value negative rank =>
      if negative then 0
      else if rank.val < Binary64.infinityRank then (Binary64.nearestInt false rank).toNat
      else rules.maxEditDistance
  min (max edits 1) rules.maxEditDistance

end IndexRules

namespace Index

/-- How often an attribute of a record holds a term. -/
structure Posting where
  id : RecordId
  field : TextField
  count : Nat
  deriving DecidableEq

structure TextIndex where
  rules : IndexRules
  /-- The occurrences of every term, in the order in which they were added. -/
  postings : Dict String (List Posting) := Dict.empty
  /-- The terms of every record, sorted and without repetitions. -/
  termsByRecord : Dict RecordId (List String) := Dict.empty
  deriving DecidableEq

abbrev Scores := Dict RecordId Binary64

namespace TextIndex

/-! ## Changes -/

/-- The terms of an attribute and how often it holds them. -/
def fieldCounts (e : Entry) (field : TextField) : Dict String Nat :=
  match field.text? e with
  | some s => Dict.countAll (termsOf s)
  | none => Dict.empty

/-- All occurrences in a record, by attribute and then by term. -/
def occurrences (r : Record) : List (String × Posting) :=
  TextField.all.flatMap fun field =>
    (fieldCounts r.toEntry field).entries.map fun (term, count) => (term, ⟨r.id, field, count⟩)

def addPosting (postings : Dict String (List Posting)) (p : String × Posting) :
    Dict String (List Posting) :=
  postings.alter p.1 fun list => some (list.getD [] ++ [p.2])

/-- The terms of a record, sorted and without repetitions. -/
def recordTerms (r : Record) : List String :=
  (Dict.ofList ((occurrences r).map fun p => (p.1, ()))).keys

def insert (ix : TextIndex) (r : Record) : TextIndex :=
  { ix with
    postings := (occurrences r).foldl addPosting ix.postings
    termsByRecord := ix.termsByRecord.insert r.id (recordTerms r) }

/-- Takes the occurrences of a record out of the list of one term. -/
def dropPostings (id : RecordId) (postings : Dict String (List Posting)) (term : String) :
    Dict String (List Posting) :=
  postings.alter term fun list =>
    match (list.getD []).filter (·.id ≠ id) with
    | [] => none
    | rest => some rest

def remove (ix : TextIndex) (id : RecordId) : TextIndex :=
  match ix.termsByRecord.get? id with
  | none => ix
  | some terms =>
    { ix with
      postings := terms.foldl (dropPostings id) ix.postings
      termsByRecord := ix.termsByRecord.erase id }

def clear (ix : TextIndex) : TextIndex := { rules := ix.rules }

/-- How many terms the index holds. -/
def termCount (ix : TextIndex) : Nat := ix.postings.size

/-! ## Scores -/

def exactWeight : Binary64 := Binary64.ofNat 1
def prefixWeight : Binary64 := Binary64.ofDecimal false 5 (-1)
def fuzzyWeight : Binary64 := Binary64.ofDecimal false 3 (-1)

/-- Adds what one occurrence is worth to the score of its record. -/
def addScore (rules : IndexRules) (weight : Binary64) (scores : Scores) (p : Posting) : Scores :=
  let worth := ((rules.boost p.field).mul weight).mul (Binary64.ofNat p.count)
  scores.alter p.id fun score => some ((score.getD Binary64.zero).add worth)

def addScores (rules : IndexRules) (weight : Binary64) (scores : Scores) (list : List Posting) :
    Scores :=
  list.foldl (addScore rules weight) scores

def startsWith (term word : String) : Bool := word.toList.isPrefixOf term.toList

/-- The entries behind a word that begin with it.  In ascending order they follow it at once. -/
def prefixEntries (ix : TextIndex) (word : String) : List (String × List Posting) :=
  (ix.postings.entries.dropWhile fun e => ¬ Key.lt word e.1).takeWhile fun e => startsWith e.1 word

def allowsPrefix (ix : TextIndex) (word : String) : Bool :=
  ix.rules.prefixMinLength ≤ word.length

/-- The entries within the edit distance that the word allows, without those it finds otherwise. -/
def fuzzyEntries (ix : TextIndex) (word : String) : List (String × List Posting) :=
  let edits := ix.rules.maxEdits word.length
  if edits = 0 then []
  else ix.postings.entries.filter fun e =>
    !(e.1 == word || (ix.allowsPrefix word && startsWith e.1 word)) &&
      (boundedDistance? word e.1 edits).isSome

/-- The records that hold a term which the word finds, with their scores: first the term itself,
then the terms it begins, then those near it. -/
def wordScores (ix : TextIndex) (word : String) (fuzzy : Bool) : Scores :=
  let scores := addScores ix.rules exactWeight Dict.empty ((ix.postings.get? word).getD [])
  let scores :=
    if ix.allowsPrefix word then
      (ix.prefixEntries word).foldl (fun s e => addScores ix.rules prefixWeight s e.2) scores
    else scores
  if fuzzy then
    (ix.fuzzyEntries word).foldl (fun s e => addScores ix.rules fuzzyWeight s e.2) scores
  else scores

/-- Keeps the records that both have a score for, and adds the scores. -/
def combine (current scores : Scores) : Scores :=
  Dict.ofList (current.entries.filterMap fun (id, score) =>
    (scores.get? id).map fun other => (id, score.add other))

/-- The records that all words find. -/
def allWords (ix : TextIndex) (fuzzy : Bool) : Scores → List String → Scores
  | current, [] => current
  | current, word :: rest =>
    if current.isEmpty then current
    else allWords ix fuzzy (combine current (ix.wordScores word fuzzy)) rest

/-- The records that all words of a text find, with their scores.  A text without words restricts
nothing and has no answer. -/
def search? (ix : TextIndex) (text : String) (fuzzy : Bool) : Option Scores :=
  match termsOf text with
  | [] => none
  | word :: rest => some (ix.allWords fuzzy (ix.wordScores word fuzzy) rest)

end TextIndex
end Index
end LogLens
