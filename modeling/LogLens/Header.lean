/-
Headers of plain log lines: when, how severe, and what.

Four shapes of header are tried one after the other.  A line that has none of them is its own
message; its level is the first level word in it and its time the first timestamp.
-/
import LogLens.Level
import LogLens.Time.Stamp

namespace LogLens

/-- What a plain line says.  The time is missing when the line shows none, or shows one that is
not valid. -/
structure Header where
  timestamp : Option Instant
  level : Level
  message : String
  deriving DecidableEq

namespace Header

/-! ## Level words -/

/-- The words that are taken for a level inside a line, longer spellings first. -/
def levelWords : List String :=
  ["TRACE", "VERBOSE", "DEBUG", "INFORMATION", "INFO", "NOTICE", "WARNING", "WARN", "ERROR", "ERR",
   "SEVERE", "FATAL", "CRITICAL", "CRIT", "PANIC", "EMERG"]

/-- Case does not count; the long s, U+017F, is a small letter of S too. -/
def sameLetter (capital c : Char) : Bool :=
  c.toUpper == capital || (capital == 'S' && c == '\u017F')

def word : List Char → Pattern
  | [], cs => [cs]
  | w :: ws, cs => (Pattern.one (sameLetter w) cs).flatMap (word ws)

def levelWord : Pattern := .anyOf (levelWords.map fun w => word w.toList)

/-! ## Shapes -/

inductive Shape where
  /-- `2025-10-01T12:00:00Z ERROR message` -/
  | stampLevel
  /-- `2025-10-01T12:00:00Z [ERROR] message` -/
  | stampBracketedLevel
  /-- `ERROR 2025-10-01T12:00:00Z message` -/
  | levelStamp
  /-- `ERROR: message` or `[ERROR] message` -/
  | levelDelimited
  deriving DecidableEq

/-- The shapes in the order they are tried. -/
def Shape.all : List Shape := [.stampLevel, .stampBracketedLevel, .levelStamp, .levelDelimited]

def Shape.name : Shape → String
  | .stampLevel => "timestamp-level"
  | .stampBracketedLevel => "timestamp-bracketed-level"
  | .levelStamp => "level-timestamp"
  | .levelDelimited => "level-delimited"

/-- A line cut by the shape of its header. -/
structure Cut where
  stamp : Option (List Char)
  level : List Char
  message : List Char

def blanks : Pattern := .many isBlank
def someBlanks : Pattern := .oneOrMore isBlank

def colonOrBar : Pattern := .one fun c => c == ':' || c == '|'

/-- What may follow a bare level: a colon or a bar, a dash between blanks, blanks, or the end.  A
level glued to a word, as in `Error-prone`, is none. -/
def afterLevel : Pattern :=
  .anyOf [.inOrder [blanks, colonOrBar, blanks], .inOrder [someBlanks, .char '-', someBlanks],
    someBlanks, .atEnd]

/-- The stamps that may begin a line. -/
def leadingStamp : Pattern := .anyOf [Stamp.textual, Stamp.epochPattern]

/-- The rest of a line is its message when it has no line feed. -/
def message? (cs : List Char) : Option (List Char) :=
  if cs.contains '\n' then none else some cs

/-- The first way to cut `cs` into an opening bracket or nothing, a stamp, `between`, a level word,
`tail` and a message. -/
def cutStampFirst (between tail : Pattern) (cs : List Char) : Option Cut :=
  (Pattern.maybe (.char '[') cs).findSome? fun atStamp =>
  (leadingStamp atStamp).findSome? fun behindStamp =>
  (between behindStamp).findSome? fun atLevel =>
  (levelWord atLevel).findSome? fun behindLevel =>
  (tail behindLevel).findSome? fun rest =>
  (message? rest).map fun message =>
    { stamp := some (Pattern.covered atStamp behindStamp)
      level := Pattern.covered atLevel behindLevel
      message }

def cutLevelStamp (cs : List Char) : Option Cut :=
  (Pattern.maybe (.char '[') cs).findSome? fun atLevel =>
  (levelWord atLevel).findSome? fun behindLevel =>
  (Pattern.inOrder [.maybe (.char ']'), someBlanks, .maybe (.char '[')] behindLevel).findSome?
    fun atStamp =>
  (Stamp.textual atStamp).findSome? fun behindStamp =>
  (Pattern.inOrder [.anyOf [.char ']', someBlanks, .atEnd], blanks,
    .maybe (.anyOf [.seq colonOrBar blanks, .seq (.char '-') someBlanks])] behindStamp).findSome?
    fun rest =>
  (message? rest).map fun message =>
    { stamp := some (Pattern.covered atStamp behindStamp)
      level := Pattern.covered atLevel behindLevel
      message }

def cutLevelDelimited (cs : List Char) : Option Cut :=
  (Pattern.seq (.maybe (.char '[')) blanks cs).findSome? fun atLevel =>
  (levelWord atLevel).findSome? fun behindLevel =>
  (Pattern.inOrder [
    .anyOf [.seq blanks (.char ']'), .seq blanks colonOrBar,
      .inOrder [someBlanks, .char '-', .one isBlank]],
    blanks] behindLevel).findSome? fun rest =>
  (message? rest).map fun message =>
    { stamp := none, level := Pattern.covered atLevel behindLevel, message }

def Shape.cut? : Shape → List Char → Option Cut
  | .stampLevel =>
    cutStampFirst (.seq (.maybe (.char ']')) someBlanks) afterLevel
  | .stampBracketedLevel =>
    cutStampFirst (.inOrder [.maybe (.char ']'), someBlanks, .char '[', blanks])
      (.inOrder [blanks, .char ']', blanks,
        .maybe (.one fun c => c == ':' || c == '|' || c == '-'), blanks])
  | .levelStamp => cutLevelStamp
  | .levelDelimited => cutLevelDelimited

/-- What the parts of a line say.  It fails when the stamp cannot be placed in time. -/
def Cut.header (cut : Cut) (reference : Instant) : Except Stamp.OutOfRange Header := do
  let timestamp ← match cut.stamp with
    | none => .ok none
    | some s => Stamp.parse (String.ofList s) reference
  return {
    timestamp
    level := Level.ofWord (String.ofList cut.level)
    message := String.ofList (trim cut.message) }

/-- The header of a line that has the given shape. -/
def ofShape (shape : Shape) (line : String) (reference : Instant) :
    Except Stamp.OutOfRange (Option Header) :=
  (shape.cut? line.toList).mapM (·.header reference)

/-- The first shape that a line has, and the line cut by it. -/
def firstCut? (line : String) : Option (Cut × Shape) :=
  Shape.all.findSome? fun shape => (shape.cut? line.toList).map (·, shape)

/-! ## Lines without a header -/

/-- A level word that is a word of its own. -/
def levelAtWordEdges (before : Option Char) : Pattern := fun cs =>
  if Pattern.isWordEdge before cs.head? then
    (levelWord cs).filter fun rest =>
      Pattern.isWordEdge (Pattern.covered cs rest).getLast? rest.head?
  else []

/-- The first level word of a line, `info` when there is none. -/
def scannedLevel (line : String) : Level :=
  match Pattern.scan levelAtWordEdges line.toList with
  | [] => .info
  | found :: _ => Level.ofWord (String.ofList found)

def scanned (line : String) (reference : Instant) : Except Stamp.OutOfRange Header := do
  let timestamp ← Stamp.find line reference
  return { timestamp, level := scannedLevel line, message := line }

/-- What a plain line says, and the shape of its header if it has one. -/
def ofLine (line : String) (reference : Instant) :
    Except Stamp.OutOfRange (Header × Option Shape) :=
  match firstCut? line with
  | some (cut, shape) => do return (← cut.header reference, some shape)
  | none => do return (← scanned line reference, none)

end Header
end LogLens
