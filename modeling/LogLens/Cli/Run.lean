/-
Carrying out what a command line asks for.

Everything a run depends on but its arguments is given as a value, so that a run is a function.
-/
import LogLens.Cli.Command
import LogLens.Codec.Writer
import LogLens.Config.Load
import LogLens.Report.Text

namespace LogLens
namespace Cli

/-- What a run finds around it. -/
structure Surroundings where
  read : String → Except ReadError (List UInt8)
  now : Instant
  /-- Identifiers for the records of all files. -/
  ids : Ingest.IdSupply
  /-- Whether the output is shown on a terminal. -/
  terminal : Bool := false

/-- Why a command failed. -/
inductive Failure where
  | config (path : String) (e : ConfigError)
  | unparsed (file : String) (cause : ReadError)
  | notIngested (file : String) (cause : ReadError)
  /-- The value of an option is no instant. -/
  | noInstant (option : String) (value : String)
  /-- The time range ends before it starts. -/
  | emptyTimeRange
  /-- The clock is too near to an end of the representable years. -/
  | outOfRange
  /-- The scores of a search contradict each other. -/
  | unordered
  deriving DecidableEq

def Failure.message : Failure → String
  | config _ _ => "Failed to load config"
  | unparsed file _ => "Failed to parse '" ++ file ++ "'"
  | notIngested file _ => "Failed to ingest '" ++ file ++ "'"
  | noInstant option value =>
    "Unrecognized timestamp for " ++ option ++ ": '" ++ value ++ "'"
  | emptyTimeRange => "--from must not be later than --to"
  | outOfRange => "A time lies outside the representable years"
  | unordered => "The scores of the matches give no order"

/-- What lies behind a failure, if it has a cause of its own. -/
def Failure.cause? : Failure → Option String
  | config path e => some (e.message path)
  | unparsed file cause => some (LogFile.failureText file cause)
  | notIngested file cause => some (LogFile.failureText file cause)
  | _ => none

/-! ## Commands -/

/-- A result that hangs on placing times by the clock. -/
def placed {α : Type} : Except Stamp.OutOfRange α → Except Failure α
  | .ok a => .ok a
  | .error _ => .error .outOfRange

/-- A result that hangs on sorting the matches of a search. -/
def sorted {α : Type} : Except Disorder α → Except Failure α
  | .ok a => .ok a
  | .error _ => .error .unordered

/-- What a command finds out. -/
inductive Answer where
  | parsed (b : Batch) (records : List Record)
  | found (r : SearchResult)
  | known (l : List Index.Suggestion)
  | summed (s : IndexStats) (reports : List Report)

/-- Reads files into an index one after the other.  `drawn` identifiers are in use. -/
def ingestFiles (w : Surroundings) (c : Config) :
    LogIndex → Nat → List String → Except Failure (LogIndex × List Report)
  | index, _, [] => .ok (index, [])
  | index, drawn, file :: rest =>
    match w.read file with
    | .error cause => .error (.notIngested file cause)
    | .ok bytes => do
      let o ← placed
        (Ingest.file c.parser c.ingest w.now (fun n => w.ids (drawn + n)) index file bytes)
      let (index, reports) ← ingestFiles w c o.index (drawn + o.report.indexed) rest
      return (index, o.report :: reports)

/-- The index of all files. -/
def indexOf (w : Surroundings) (c : Config) (files : List String) :
    Except Failure (LogIndex × List Report) :=
  ingestFiles w c (.empty c.index) 0 files

def instantOf (w : Surroundings) (option : String) (default : Instant) :
    Option String → Except Failure Instant
  | none => .ok default
  | some value => do
    match ← placed (Stamp.parse value w.now) with
    | some t => return t
    | none => .error (.noInstant option value)

/-- The range that the options of a search name.  What is not bounded reaches over all of time. -/
def timeRangeOf (w : Surroundings) (s : Search) : Except Failure Query.TimeRange :=
  match s.last with
  | some preset => placed (Query.TimeRange.ofPreset preset w.now)
  | none =>
    if s.start.isNone ∧ s.finish.isNone then .ok .all
    else do
      let start ← instantOf w "--from" .earliest s.start
      let finish ← instantOf w "--to" .latest s.finish
      if finish < start then .error .emptyTimeRange else return ⟨start, finish, none⟩

def searchQuery (w : Surroundings) (s : Search) (range : Query.TimeRange) :
    Except Failure SearchQuery := do
  let parsed ← placed (Query.parse s.query w.now)
  return { parsed.search with
    timeRange := range
    fuzzy := s.fuzzy
    caseSensitive := s.caseSensitive
    aggregateBy := s.countBy
    limit := s.limit }

/-- Carries out a command. -/
def perform (w : Surroundings) (c : Config) : Command → Except Failure Answer
  | .parse file =>
    match w.read file with
    | .error cause => .error (.unparsed file cause)
    | .ok bytes => do
      let batch ← placed (LogFile.parse c.parser w.now file bytes)
      return .parsed batch (Ingest.identify w.ids 0 batch.entries)
  | .search s => do
    let range ← timeRangeOf w s
    let (index, _) ← indexOf w c s.files
    let result ← sorted (index.search (← searchQuery w s range) w.now)
    return .found result
  | .fields files => do
    let (index, _) ← indexOf w c files
    return .known (index.suggestions w.now)
  | .stats files => do
    let (index, reports) ← indexOf w c files
    return .summed index.summary reports

/-- Loads the configuration and carries out the command. -/
def answer (w : Surroundings) (i : Invocation) : Except Failure Answer :=
  match Config.load w.read i.settings.config with
  | .error e => .error (.config (i.settings.config.getD "") e)
  | .ok c => perform w c i.command

/-! ## Output -/

/-- The answer for people; `elapsed` is the time in nanoseconds that a search took. -/
def Answer.text (color : Bool) (elapsed : Nat) : Answer → String
  | parsed b _ => Report.ingest color (.ofParsed b)
  | found r => Report.search color elapsed r
  | known l => Report.fields color l
  | summed s _ => Report.stats color s

/-- The answer for programs. -/
def Answer.toJson (elapsed : Nat) : Answer → Json
  | parsed b records => b.toJson records
  | found r => r.toJson (Report.millisOf elapsed)
  | known l => .list Index.Suggestion.toJson l
  | summed s reports => summaryJson s reports

def Answer.output (settings : Settings) (terminal : Bool) (elapsed : Nat) (a : Answer) : String :=
  match settings.format with
  | .text => a.text (settings.color.isOn terminal) elapsed
  | .json => (a.toJson elapsed).pretty ++ "\n"

/-- What the program tells about its work besides the answer. -/
def notes (i : Invocation) : List String :=
  match i.settings.config with
  | some path => if i.settings.verbosity = 0 then [] else ["using config file " ++ path]
  | none => []

/-! ## The program itself -/

def programName : String := "logsift"

def versionText : String := programName ++ " 0.1.0\n"

/-- The variable of the environment that gives the path of the configuration. -/
def configVariable : String := "LOGSIFT_CONFIG"

def usageText : Option CommandName → String
  | some command =>
    command.summary ++ "\n\nUsage: " ++ programName ++ " " ++ command.name ++ " [OPTIONS] " ++
      (if command = .parse then "<FILE>" else "<FILES>...") ++ "\n"
  | none =>
    "Parse log files and search them with a field-aware query language\n\nUsage: " ++ programName ++
      " [OPTIONS] <COMMAND>\n\nCommands:\n" ++
      joinWith "" (CommandName.all.map fun command =>
        "  " ++ command.name ++ Report.Table.repeated " " (8 - command.name.length) ++
          command.summary ++ "\n")

end Cli
end LogLens
