/-
Ranges of time, both ends included.
-/
import LogLens.Time.Stamp

namespace LogLens
namespace Query

/-- A range that ends at the time of asking. -/
inductive Preset where
  | last15Minutes
  | lastHour
  | last24Hours
  | last7Days
  | last30Days
  /-- All of time. -/
  | all
  deriving DecidableEq

namespace Preset

def values : List Preset := [last15Minutes, lastHour, last24Hours, last7Days, last30Days, all]

def name : Preset → String
  | last15Minutes => "15m"
  | lastHour => "1h"
  | last24Hours => "24h"
  | last7Days => "7d"
  | last30Days => "30d"
  | all => "all"

def ofName? (s : String) : Option Preset := values.find? (·.name == s)

/-- The length in seconds, if it is bounded. -/
def span? : Preset → Option Nat
  | last15Minutes => some 900
  | lastHour => some 3600
  | last24Hours => some 86400
  | last7Days => some 604800
  | last30Days => some 2592000
  | all => none

end Preset

structure TimeRange where
  start : Instant
  finish : Instant
  /-- The preset the range was made from. -/
  preset : Option Preset := none
  deriving DecidableEq

namespace TimeRange

def all : TimeRange := ⟨Instant.earliest, Instant.latest, some .all⟩

/-- The range of a preset that is asked for at `now`.  It fails when its start cannot be
represented. -/
def ofPreset (preset : Preset) (now : Instant) : Except Stamp.OutOfRange TimeRange :=
  match preset.span? with
  | none => .ok all
  | some span =>
    match now.earlier? span with
    | some start => .ok ⟨start, now, some preset⟩
    | none => .error ⟨⟩

def contains (r : TimeRange) (t : Instant) : Bool :=
  r.start ≤ t && t ≤ r.finish

end TimeRange
end Query
end LogLens
