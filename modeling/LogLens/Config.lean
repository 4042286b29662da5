/-
The configuration: the rules of all parts.
-/
import LogLens.Ingest

namespace LogLens

/-- What is not configured has its default. -/
structure Config where
  parser : ParserRules := {}
  index : IndexRules := {}
  ingest : IngestRules := {}
  deriving DecidableEq

end LogLens
