/-
Log files: documents that come with a path.
-/
import LogLens.Document
import LogLens.Text.Utf8

namespace LogLens

/-- Why a file could not be read. -/
inductive ReadError where
  | notFound
  | notADirectory
  | isADirectory
  | denied
  | other (description : String)
  deriving DecidableEq

def ReadError.message : ReadError → String
  | notFound => "No such file or directory (os error 2)"
  | notADirectory => "Not a directory (os error 20)"
  | isADirectory => "Is a directory (os error 21)"
  | denied => "Permission denied (os error 13)"
  | other description => description

namespace LogFile

/-- The message about a log file that could not be read. -/
def failureText (path : String) (e : ReadError) : String :=
  "Failed to read log file '" ++ path ++ "': " ++ e.message

/-- The name that entries of the file carry: the last part of its path, or the whole path when it
ends in none. -/
def label (path : String) : String :=
  let parts := (splitAtAny (· == '/') path.toList).filter fun part =>
    !part.isEmpty && part != ['.']
  match parts.getLast? with
  | some part => if part = ['.', '.'] then path else String.ofList part
  | none => path

/-- Reads a file of the given bytes.  Its size is that on disk, before decoding. -/
def parse (rules : ParserRules) (reference : Instant) (path : String) (bytes : List UInt8) :
    Except Stamp.OutOfRange Batch := do
  let batch ← parseDocument rules reference (Utf8.decodeLossy bytes) (label path)
  return { batch with fileSize := bytes.length }

end LogFile
end LogLens
