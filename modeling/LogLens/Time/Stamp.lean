/-
Timestamps in logs.

These forms are recognized, the ones without an offset as universal time:

  2025-10-01T12:00:00Z            RFC 3339, with optional fraction and offset
  2025-10-01 12:00:00,123         a space between date and time, a comma before the fraction
  2025-10-01                      the start of a day
  2025/10/01 12:00:00             slashes, year first
  10/01/2025 12:00:00             slashes, month first
  01/Oct/2025:12:00:00 +0000      as web servers write it
  Oct  1 12:00:00                 as system logs write it, without a year
  1759320000, 1759320000123       seconds or milliseconds since 1970

A text is read by the first of a list of layouts that covers all of it.
-/
import LogLens.Time.Layout
import LogLens.Text.Pattern
import LogLens.Number.Reading

namespace LogLens
namespace Stamp

/-! ## Layouts, in the order they are tried -/

open Layout in
def withOffset : List (List Item) :=
  let offset : Item := .offset { zulu := false, word := false, loose := true }
  [yearMonthDay '-' ++ literal "T" ++ clock ++ [.fraction, .blank, offset],
   yearMonthDay '-' ++ [.blank] ++ clock ++ [.fraction, .blank, offset],
   separated '/' (.number .day) .monthName (.number .year) ++ literal ":" ++ clock ++
     [.blank, offset]]

open Layout in
def withoutOffset : List (List Item) :=
  let monthFirst := separated '/' (.number .month) (.number .day) (.number .year)
  [yearMonthDay '-' ++ literal "T" ++ clock ++ [.fraction],
   yearMonthDay '-' ++ [.blank] ++ clock ++ [.fraction],
   yearMonthDay '/' ++ [.blank] ++ clock ++ [.fraction],
   yearMonthDay '/' ++ literal "T" ++ clock ++ [.fraction],
   monthFirst ++ [.blank] ++ clock ++ [.fraction],
   monthFirst ++ literal "T" ++ clock ++ [.fraction],
   separated '/' (.number .day) .monthName (.number .year) ++ literal ":" ++ clock]

open Layout in
def dateOnly : List (List Item) :=
  [yearMonthDay '-', yearMonthDay '/']

/-! ## Counts since 1970 -/

/-- A count below `10 ^ 12` is one of seconds, any other one of milliseconds; it is rounded to a
whole millisecond. -/
def ofEpoch? (x : Binary64) : Option Instant :=
  if x.numLt Binary64.zero then none
  else
    let seconds := x.numLt (Binary64.ofNat 1000000000000)
    let ms := if seconds then x.mul (Binary64.ofNat 1000) else x
    ms.round?.bind Instant.ofMillis?

/-! ## System logs -/

/-- The instant asked for lies outside the representable years. -/
structure OutOfRange where
  deriving DecidableEq

/-- A time in a year that its text does not name. -/
structure Yearless where
  month : Nat
  day : Nat
  hour : Nat
  minute : Nat
  second : Nat
  millis : Nat

def Yearless.inYear? (t : Yearless) (year : Int) : Option Instant := do
  let date ← CalendarDate.of? year t.month t.day
  if t.hour ≤ 23 ∧ t.minute ≤ 59 ∧ t.second ≤ 59 then
    Instant.ofLocal? date t.hour t.minute t.second (t.millis * 1000000) 0
  else none

/-- A number of ASCII digits only. -/
def asciiNumber? (ds : List Char) : Option Nat :=
  if ds.all isDigit then some (digitsValue ds) else none

/-- Cuts a pattern off the front: what it covers and the rest. -/
def cut? (p : Pattern) (cs : List Char) : Option (List Char × List Char) :=
  p.first? cs

/-- The milliseconds of a fraction; digits that are not ASCII make it count as none. -/
def fractionMillis (ds : List Char) : Nat :=
  (asciiNumber? ((ds ++ "000".toList).take 3)).getD 0

/-- Reads `Mon D HH:MM:SS` with an optional fraction. -/
def yearless? (cs : List Char) : Option Yearless := do
  let blanks := Pattern.oneOrMore isBlank
  let two := Pattern.times 2 isAnyDigit
  let (_, rest) ← cut? (Pattern.seq (.one Char.isUpper) (.times 2 Char.isLower)) cs
  let name := cs.take 3
  let (_, rest) ← cut? blanks rest
  let (day, rest) ← cut? (.oneOrTwo isAnyDigit) rest
  let (_, rest) ← cut? blanks rest
  let (hour, rest) ← cut? two rest
  let rest ← afterPrefix? [':'] rest
  let (minute, rest) ← cut? two rest
  let rest ← afterPrefix? [':'] rest
  let (second, rest) ← cut? two rest
  let fraction ← match rest with
    | [] => some []
    | '.' :: ds => if !ds.isEmpty && ds.all isAnyDigit then some ds else none
    | _ => none
  let month ← monthNames.findIdx? (·.toList == name)
  return {
    month := month + 1
    day := ← asciiNumber? day
    hour := ← asciiNumber? hour
    minute := ← asciiNumber? minute
    second := ← asciiNumber? second
    millis := fractionMillis fraction }

/-- The year of the reference is assumed, unless that puts the time more than a day after it; then
the line is from the year before. -/
def inferYear (t : Yearless) (reference : Instant) : Except OutOfRange (Option Instant) :=
  match t.inYear? reference.year with
  | none => .ok none
  | some candidate =>
    match reference.later? secondsPerDay.toNat with
    | none => .error ⟨⟩
    | some limit =>
      .ok (if limit < candidate then t.inYear? (reference.year - 1) else some candidate)

/-! ## Reading a timestamp -/

/-- The text inside white space and square brackets. -/
def inner (s : String) : List Char :=
  trim (dropEndWhile (· == ']') ((trim s.toList).dropWhile (· == '[')))

/-- A clock time with a comma and digits behind it. -/
def commaFraction : Pattern :=
  let two := Pattern.times 2 isAnyDigit
  .inOrder [two, .char ':', two, .char ':', two, .char ',', .one isAnyDigit]

/-- Turns the first comma between a clock time and digits into a point. -/
def pointFraction : List Char → List Char
  | [] => []
  | c :: cs =>
    if (commaFraction (c :: cs)).isEmpty then c :: pointFraction cs
    else (c :: cs).take 8 ++ '.' :: (c :: cs).drop 9

/-- A `Z` at the end as the offset it stands for. -/
def numericOffset (cs : List Char) : List Char :=
  match beforeSuffix? ['Z'] cs with
  | some body => body ++ "+00:00".toList
  | none => cs

/-- Reads a whole text as a timestamp.  The reference is the time of reading; it is needed for
texts without a year only, and fails them when the day after it cannot be represented. -/
def parse (s : String) (reference : Instant) : Except OutOfRange (Option Instant) :=
  let cs := inner s
  if cs.isEmpty then .ok none
  else if cs.all fun c => isDigit c || c == '.' then
    .ok ((parseNumber? (String.ofList cs)).bind ofEpoch?)
  else match Layout.read? Layout.rfc3339 cs with
    | some t => .ok (some t)
    | none =>
      let normal := numericOffset (pointFraction cs)
      match (withOffset ++ withoutOffset ++ dateOnly).findSome? (Layout.read? · normal) with
      | some t => .ok (some t)
      | none =>
        match yearless? normal with
        | some t => inferYear t reference
        | none => .ok none

/-- Reads a whole text as a timestamp, where one that cannot be placed counts as none. -/
def parse? (s : String) (reference : Instant) : Option Instant :=
  match parse s reference with
  | .ok t => t
  | .error _ => none

/-! ## Timestamps inside texts -/

def twoDigits : Pattern := .times 2 isAnyDigit
def fourDigits : Pattern := .times 4 isAnyDigit

/-- `HH:MM:SS`. -/
def clockPattern : Pattern :=
  .inOrder [twoDigits, .char ':', twoDigits, .char ':', twoDigits]

def dashedDate : Pattern :=
  .inOrder [fourDigits, .char '-', twoDigits, .char '-', twoDigits]

def dateTimeGap : Pattern := .one fun c => c == 'T' || c == ' '

/-- Digits behind one of the marks, or nothing. -/
def fractionPattern (marks : List Char) : Pattern :=
  .maybe (.seq (.one marks.contains) (.oneOrMore isAnyDigit))

def plusOrMinus : Pattern := .one fun c => c == '+' || c == '-'

/-- The forms of timestamps that have more than digits, the most specific first. -/
def textual : Pattern :=
  .anyOf [
    .inOrder [dashedDate, dateTimeGap, clockPattern, fractionPattern ['.', ','],
      .maybe (.anyOf [.char 'Z',
        .inOrder [plusOrMinus, twoDigits, .maybe (.char ':'), twoDigits]])],
    .inOrder [fourDigits, .char '/', twoDigits, .char '/', twoDigits, dateTimeGap, clockPattern,
      fractionPattern ['.']],
    .inOrder [.oneOrTwo isAnyDigit, .char '/', .oneOrTwo isAnyDigit, .char '/', fourDigits,
      dateTimeGap, clockPattern, fractionPattern ['.']],
    .inOrder [twoDigits, .char '/', .one Char.isUpper, .times 2 Char.isLower, .char '/', fourDigits,
      .char ':', clockPattern, .one isBlank, plusOrMinus, fourDigits],
    .inOrder [.anyOf (monthNames.map fun name => .exactly name.toList), .oneOrMore isBlank,
      .oneOrTwo isAnyDigit, .one isBlank, clockPattern, fractionPattern ['.']],
    dashedDate]

/-- Counts since 1970, which are trusted at the start of a line only. -/
def epochPattern : Pattern :=
  .inOrder [.times 10 isAnyDigit, .maybe (.times 3 isAnyDigit), fractionPattern ['.']]

/-- A timestamp that does not begin inside a word. -/
def atWordEdge (before : Option Char) : Pattern := fun cs =>
  if before.isNone || Pattern.isWordEdge before cs.head? then textual cs else []

/-- The first timestamp in a text that is one.  Bare counts are passed over: inside a text they are
far more often identifiers than times.  What follows the first timestamp is not read. -/
def find (s : String) (reference : Instant) : Except OutOfRange (Option Instant) :=
  (Pattern.scan atWordEdge s.toList).findSomeM? fun found => parse (String.ofList found) reference

end Stamp
end LogLens
