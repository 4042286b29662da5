/-
Instants: moments of universal time to the nanosecond.

An instant counts seconds from the start of 1970.  A leap second has no count of its own: it is the
second before it with a thousand million nanoseconds more.
-/
import LogLens.Time.Calendar

namespace LogLens

/-- Nanoseconds in a second. -/
def nanosPerSecond : Nat := 1000000000

def secondsPerDay : Int := 86400

namespace Instant

/-- The first second of the first year. -/
def firstSecond : Int := -8334601228800

/-- The last second of the last year. -/
def lastSecond : Int := 8210266876799

end Instant

structure Instant where
  /-- Seconds since the start of 1970. -/
  seconds : Int
  /-- Nanoseconds in the second; from a thousand million on, those of a leap second. -/
  nanos : Nat
  first_le : Instant.firstSecond ≤ seconds
  le_last : seconds ≤ Instant.lastSecond
  nanos_lt : nanos < 2 * nanosPerSecond
  deriving DecidableEq

namespace Instant

/-! ## The range of instants -/

def earliest : Instant := ⟨firstSecond, 0, by decide, by decide, by decide⟩

def latest : Instant := ⟨lastSecond, nanosPerSecond - 1, by decide, by decide, by decide⟩

/-- The instant with the given count, if it lies in the representable years. -/
def of? (seconds : Int) (nanos : Nat) : Option Instant :=
  if h : firstSecond ≤ seconds ∧ seconds ≤ lastSecond ∧ nanos < 2 * nanosPerSecond then
    some ⟨seconds, nanos, h.1, h.2.1, h.2.2⟩
  else none

/-! ## Order -/

/-- An instant is before another when it has fewer seconds, or as many and fewer nanoseconds. -/
def compare (a b : Instant) : Ordering :=
  (Ord.compare a.seconds b.seconds).then (Ord.compare a.nanos b.nanos)

instance : Ord Instant := ⟨compare⟩

instance : LT Instant :=
  ⟨fun a b => a.seconds < b.seconds ∨ a.seconds = b.seconds ∧ a.nanos < b.nanos⟩

instance : LE Instant :=
  ⟨fun a b => a.seconds < b.seconds ∨ a.seconds = b.seconds ∧ a.nanos ≤ b.nanos⟩

instance (a b : Instant) : Decidable (a < b) :=
  inferInstanceAs (Decidable (a.seconds < b.seconds ∨ a.seconds = b.seconds ∧ a.nanos < b.nanos))

instance (a b : Instant) : Decidable (a ≤ b) :=
  inferInstanceAs (Decidable (a.seconds < b.seconds ∨ a.seconds = b.seconds ∧ a.nanos ≤ b.nanos))

/-! ## Counting in milliseconds -/

/-- Milliseconds since the start of 1970, the rest cut off. -/
def millis (t : Instant) : Int :=
  t.seconds * 1000 + (t.nanos / 1000000 : Nat)

def ofMillis? (ms : Int) : Option Instant :=
  of? (ms / 1000) ((ms % 1000).toNat * 1000000)

/-! ## Whole seconds later and earlier -/

/-- The instant `span` seconds later.  A leap second is left for the end of the second before. -/
def later? (t : Instant) (span : Nat) : Option Instant :=
  if span = 0 then some t
  else if t.nanos < nanosPerSecond then of? (t.seconds + span) t.nanos
  else of? (t.seconds + span) (t.nanos - nanosPerSecond)

/-- The instant `span` seconds earlier.  A leap second is left for the start of the second after. -/
def earlier? (t : Instant) (span : Nat) : Option Instant :=
  if span = 0 then some t
  else if t.nanos < nanosPerSecond then of? (t.seconds - span) t.nanos
  else of? (t.seconds + 1 - span) (t.nanos - nanosPerSecond)

/-! ## Date and time of day -/

/-- An instant as the clock and the calendar show it. -/
structure Civil where
  date : CalendarDate
  hour : Nat
  minute : Nat
  /-- From 0 to 60; 60 is a leap second. -/
  second : Nat
  nanos : Nat

def civil (t : Instant) : Civil :=
  let time := (t.seconds % secondsPerDay).toNat
  let leap := nanosPerSecond ≤ t.nanos
  { date := CalendarDate.ofDayNumber (t.seconds / secondsPerDay)
    hour := time / 3600
    minute := time / 60 % 60
    second := time % 60 + (if leap then 1 else 0)
    nanos := if leap then t.nanos - nanosPerSecond else t.nanos }

/-- The instant at which clocks `offset` seconds ahead of universal time show the given date and
time of day. -/
def ofLocal? (date : CalendarDate) (hour minute second nanos : Nat) (offset : Int) :
    Option Instant :=
  of? (date.dayNumber * secondsPerDay + (3600 * hour + 60 * minute + second : Nat) - offset) nanos

/-- The year an instant falls in. -/
def year (t : Instant) : Int := t.civil.date.year

end Instant
end LogLens
