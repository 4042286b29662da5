/-
Terms: the words under which records are indexed.

A term is a run of letters, numbers and underscores in lower case.
-/
import LogLens.Record
import LogLens.Text.Lowercase

namespace LogLens
namespace Index

def isTermChar (c : Char) : Bool := isAlphanumeric c || c == '_'

/-- The runs of term characters as they stand in the text. -/
def splitTerms (s : String) : List String :=
  (runsOf isTermChar s.toList).map String.ofList

/-- The terms of a text, in order and with repetitions. -/
def termsOf (s : String) : List String :=
  (splitTerms s).map lowercase

/-- The attributes of an entry whose texts are indexed. -/
inductive TextField where
  | message
  | level
  | file
  | source
  | service
  | host
  deriving DecidableEq

namespace TextField

def all : List TextField := [message, level, file, source, service, host]

def text? : TextField → Entry → Option String
  | message, e => some e.message
  | level, e => some e.level.name
  | file, e => some e.file
  | source, e => e.source
  | service, e => e.service
  | host, e => e.host

end TextField
end Index
end LogLens
