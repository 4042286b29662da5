/-
What a command line asks for.
-/
import LogLens.Query.TimeRange

namespace LogLens
namespace Cli

inductive OutputFormat where
  | text
  | json
  deriving DecidableEq

def OutputFormat.ofName? : String → Option OutputFormat
  | "text" => some text
  | "json" => some json
  | _ => none

inductive ColorMode where
  /-- Colors on a terminal only. -/
  | auto
  | always
  | never
  deriving DecidableEq

def ColorMode.ofName? : String → Option ColorMode
  | "auto" => some auto
  | "always" => some always
  | "never" => some never
  | _ => none

/-- Whether a report is colored. -/
def ColorMode.isOn (terminal : Bool) : ColorMode → Bool
  | auto => terminal
  | always => true
  | never => false

/-- The settings that all commands share. -/
structure Settings where
  format : OutputFormat := .text
  color : ColorMode := .auto
  /-- How much the program tells about its work. -/
  verbosity : Nat := 0
  /-- The path of the configuration. -/
  config : Option String := none
  deriving DecidableEq

structure Search where
  files : List String
  query : String := ""
  /-- Texts of instants, which are read when the search begins. -/
  start : Option String := none
  finish : Option String := none
  last : Option Query.Preset := none
  fuzzy : Bool := false
  caseSensitive : Bool := false
  limit : Option Nat := none
  countBy : List String := []
  deriving DecidableEq

inductive Command where
  /-- Read one file and report what it holds. -/
  | parse (file : String)
  | search (s : Search)
  /-- List the fields of the records in the files. -/
  | fields (files : List String)
  /-- Summarize the records in the files. -/
  | stats (files : List String)
  deriving DecidableEq

def Command.files : Command → List String
  | parse file => [file]
  | search s => s.files
  | fields files => files
  | stats files => files

structure Invocation where
  settings : Settings
  command : Command
  deriving DecidableEq

/-- The names of the commands. -/
inductive CommandName where
  | parse
  | search
  | fields
  | stats
  deriving DecidableEq

namespace CommandName

def all : List CommandName := [parse, search, fields, stats]

def name : CommandName → String
  | parse => "parse"
  | search => "search"
  | fields => "fields"
  | stats => "stats"

def ofName? (s : String) : Option CommandName := all.find? (·.name == s)

/-- What the command does, in one line. -/
def summary : CommandName → String
  | parse => "Parse one file and report records, line count and errors"
  | search => "Search one or more files"
  | fields => "List known fields with their type, cardinality and example values"
  | stats => "Summarize levels, files and time span"

end CommandName

/-- Everything a command line may ask for. -/
inductive Request where
  | run (i : Invocation)
  | version
  /-- Help on one command, or on the program. -/
  | help (about : Option CommandName)
  deriving DecidableEq

end Cli
end LogLens
