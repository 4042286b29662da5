/-
Reading dates and times by a layout.

A layout lists the parts of a text in order.  Numbers skip white space before them and take up to a
fixed count of digits, unless the layout is strict.  A text is read only if the layout covers all of
it and the date exists.
-/
import LogLens.Time.Instant
import LogLens.Text.Slice

namespace LogLens

/-- The English abbreviations of the months. -/
def monthNames : List String :=
  ["Jan", "Feb", "Mar", "Apr", "May", "Jun", "Jul", "Aug", "Sep", "Oct", "Nov", "Dec"]

namespace Layout

/-- What a number in a layout denotes. -/
inductive Part where
  | year
  | month
  | day
  | hour
  | minute
  | second
  deriving DecidableEq

/-- How an offset from universal time may be written. -/
structure OffsetStyle where
  /-- `Z` stands for no offset. -/
  zulu : Bool
  /-- The word `UTC` stands for no offset. -/
  word : Bool
  /-- Between hours and minutes stand any colons and white space, also none, instead of exactly
  one colon. -/
  loose : Bool

inductive Item where
  /-- A number, with white space before it. -/
  | number (part : Part)
  /-- A number of exactly as many digits as the part has. -/
  | strict (part : Part)
  | monthName
  /-- A point and digits, or nothing.  Digits past the ninth are dropped. -/
  | fraction
  | offset (style : OffsetStyle)
  /-- Any white space, also none. -/
  | blank
  | oneOf (chars : List Char)

/-- The parts read so far.  What a layout leaves out is the start of the day, without offset. -/
structure Reading where
  year : Int := 1970
  month : Nat := 1
  day : Nat := 1
  hour : Nat := 0
  minute : Nat := 0
  second : Nat := 0
  nanos : Nat := 0
  offset : Int := 0

def Part.width : Part → Nat
  | .year => 4
  | _ => 2

/-- Puts a number in its place, if it is in the range of the part. -/
def Reading.set? (r : Reading) (part : Part) (n : Nat) : Option Reading :=
  match part with
  | .year => some { r with year := n }
  | .month => if 1 ≤ n ∧ n ≤ 12 then some { r with month := n } else none
  | .day => if 1 ≤ n ∧ n ≤ 31 then some { r with day := n } else none
  | .hour => if n ≤ 23 then some { r with hour := n } else none
  | .minute => if n ≤ 59 then some { r with minute := n } else none
  | .second => if n ≤ 60 then some { r with second := n } else none

/-! ## The items -/

/-- The leading digits, at most `width` of them, and the rest; at least one digit is needed. -/
def digits? (width : Nat) (cs : List Char) : Option (List Char × List Char) :=
  let found := (cs.take width).takeWhile isDigit
  if found.isEmpty then none else some (found, cs.drop found.length)

/-- A year with a sign has any number of digits. -/
def number? (part : Part) (r : Reading) (cs : List Char) : Option (Reading × List Char) :=
  let body := trimStart cs
  match part, body with
  | .year, '-' :: rest =>
    (digits? rest.length rest).map fun (ds, rest) =>
      ({ r with year := -(digitsValue ds : Int) }, rest)
  | .year, '+' :: rest =>
    (digits? rest.length rest).map fun (ds, rest) => ({ r with year := digitsValue ds }, rest)
  | _, _ => do
    let (ds, rest) ← digits? part.width body
    return (← r.set? part (digitsValue ds), rest)

def strict? (part : Part) (r : Reading) (cs : List Char) : Option (Reading × List Char) := do
  let (ds, rest) ← digits? part.width cs
  if ds.length = part.width then return (← r.set? part (digitsValue ds), rest) else none

/-- The first three characters as the name of a month in any case. -/
def monthName? (r : Reading) (cs : List Char) : Option (Reading × List Char) :=
  (monthNames.findIdx? fun name => equalsIgnoringCase name.toList (cs.take 3)).map fun i =>
    ({ r with month := i + 1 }, cs.drop 3)

/-- The nanoseconds that the digits behind a point denote. -/
def nanosOf (ds : List Char) : Nat :=
  digitsValue (ds ++ List.replicate (9 - ds.length) '0')

def fraction? (r : Reading) (cs : List Char) : Option (Reading × List Char) :=
  match cs with
  | '.' :: rest =>
    (digits? 9 rest).map fun (ds, rest) => ({ r with nanos := nanosOf ds }, rest.dropWhile isDigit)
  | _ => some (r, cs)

/-- The minutes of an offset behind its hours. -/
def offsetMinutes? (cs : List Char) : Option (Nat × List Char) :=
  match cs with
  | a :: b :: rest =>
    if isDigit a && isDigit b && digitValue a ≤ 5 then some (digitsValue [a, b], rest) else none
  | _ => none

/-- The sign of an offset, a plus, a hyphen or U+2212, then two digits of hours and two of
minutes.  Offsets of a day and more are not read. -/
def signedOffset? (loose : Bool) (cs : List Char) : Option (Int × List Char) :=
  match cs with
  | sign :: a :: b :: rest =>
    if (sign = '+' ∨ sign = '-' ∨ sign = '\u2212') ∧ isDigit a ∧ isDigit b then do
      let rest ←
        if loose then some (rest.dropWhile fun c => c == ':' || isBlank c)
        else afterPrefix? [':'] rest
      let (minutes, rest) ← offsetMinutes? rest
      let seconds : Int := digitsValue [a, b] * 3600 + minutes * 60
      if seconds < secondsPerDay then return (if sign = '+' then seconds else -seconds, rest)
      else none
    else none
  | _ => none

def offset? (style : OffsetStyle) (r : Reading) (cs : List Char) : Option (Reading × List Char) :=
  let signed := (signedOffset? style.loose cs).map fun (s, rest) => ({ r with offset := s }, rest)
  match cs with
  | c :: rest =>
    if style.word && equalsIgnoringCase (cs.take 3) "UTC".toList then some (r, cs.drop 3)
    else if style.zulu && (c == 'Z' || c == 'z') then some (r, rest)
    else signed
  | [] => none

def Item.read? (item : Item) (r : Reading) (cs : List Char) : Option (Reading × List Char) :=
  match item with
  | .number part => number? part r cs
  | .strict part => strict? part r cs
  | .monthName => monthName? r cs
  | .fraction => fraction? r cs
  | .offset style => offset? style r cs
  | .blank => some (r, trimStart cs)
  | .oneOf chars =>
    match cs with
    | c :: rest => if chars.contains c then some (r, rest) else none
    | [] => none

/-! ## Whole layouts -/

def readItems? : List Item → Reading → List Char → Option Reading
  | [], r, [] => some r
  | [], _, _ :: _ => none
  | item :: items, r, cs => do
    let (r, rest) ← item.read? r cs
    readItems? items r rest

/-- The instant of a reading, if its date exists and it lies in the representable years.  Second 60
is the leap second after second 59. -/
def Reading.instant? (r : Reading) : Option Instant := do
  let date ← CalendarDate.of? r.year r.month r.day
  if r.second = 60 then
    Instant.ofLocal? date r.hour r.minute 59 (r.nanos + nanosPerSecond) r.offset
  else Instant.ofLocal? date r.hour r.minute r.second r.nanos r.offset

/-- Reads a whole text by a layout. -/
def read? (items : List Item) (cs : List Char) : Option Instant := do
  (← readItems? items {} cs).instant?

/-! ## Building layouts -/

/-- Exactly the given characters. -/
def literal (s : String) : List Item := s.toList.map fun c => .oneOf [c]

/-- Numbers with a character between each two. -/
def separated (separator : Char) (a b c : Item) : List Item :=
  [a, .oneOf [separator], b, .oneOf [separator], c]

def yearMonthDay (separator : Char) : List Item :=
  separated separator (.number .year) (.number .month) (.number .day)

def clock : List Item :=
  separated ':' (.number .hour) (.number .minute) (.number .second)

/-- The strict form of RFC 3339, with `T`, `t` or a space between date and time. -/
def rfc3339 : List Item :=
  separated '-' (.strict .year) (.strict .month) (.strict .day) ++ [.oneOf ['T', 't', ' ']] ++
    separated ':' (.strict .hour) (.strict .minute) (.strict .second) ++
    [.fraction, .offset { zulu := true, word := false, loose := false }]

/-- The same with white space between all parts, and a loosely written offset. -/
def relaxed3339 : List Item :=
  let spaced (a b c : Part) (separator : Char) : List Item :=
    [.number a, .blank, .oneOf [separator], .number b, .blank, .oneOf [separator], .number c]
  spaced .year .month .day '-' ++ [.oneOf ['T', 't', ' ']] ++ spaced .hour .minute .second ':' ++
    [.fraction, .blank, .offset { zulu := true, word := true, loose := true }, .blank]

end Layout
end LogLens
