/-
Severities of log records.

Programs write them as words in many spellings or as numbers on two scales.  All are mapped to six
levels, ordered from least to most severe.
-/
import LogLens.Text.Slice
import LogLens.Number.Binary64

namespace LogLens

inductive Level where
  | trace
  | debug
  | info
  | warn
  | error
  | fatal
  deriving DecidableEq

namespace Level

/-- All levels, the least severe first. -/
def all : List Level := [trace, debug, info, warn, error, fatal]

def name : Level → String
  | trace => "TRACE"
  | debug => "DEBUG"
  | info => "INFO"
  | warn => "WARN"
  | error => "ERROR"
  | fatal => "FATAL"

/-- The level with the given name, in capitals. -/
def ofName? (s : String) : Option Level :=
  all.find? (·.name == s)

/-- The place of a level among all levels. -/
def rank : Level → Nat
  | trace => 0
  | debug => 1
  | info => 2
  | warn => 3
  | error => 4
  | fatal => 5

def compare (a b : Level) : Ordering := Ord.compare a.rank b.rank

/-- The spellings of each level, in small letters. -/
def spellings : Level → List String
  | trace => ["trace", "trc", "verbose", "finest", "finer", "t"]
  | debug => ["debug", "dbg", "fine", "d"]
  | info => ["info", "inf", "information", "informational", "notice", "i"]
  | warn => ["warn", "warning", "wrn", "w"]
  | error => ["error", "err", "eror", "severe", "e"]
  | fatal => ["fatal", "critical", "crit", "panic", "emerg", "emergency", "alert", "ftl", "f"]

/-- The level that a word spells, in any case of ASCII letters and between white space. -/
def ofWord? (word : String) : Option Level :=
  let w := String.ofList ((trim word.toList).map Char.toLower)
  all.find? (·.spellings.contains w)

/-- The level of a word; a word that spells none is taken for `info`. -/
def ofWord (word : String) : Level :=
  (ofWord? word).getD info

/-- The level of a number.  From 10 on every ten stand for one level, from trace at 10 to fatal at
60; below 10 it counts the severities of system logs, from emergency at 0 to debug at 7. -/
def ofNumber : Binary64 → Level
  | .nan => info
  | .value negative rank =>
    if Binary64.infinityRank ≤ rank.val ∨ negative ∧ rank.val ≠ 0 then info
    else
      let n := Binary64.wholePart rank
      if 10 ≤ n then
        if n < 20 then trace
        else if n < 30 then debug
        else if n < 40 then info
        else if n < 50 then warn
        else if n < 60 then error
        else fatal
      else if n ≤ 2 then fatal
      else if n = 3 then error
      else if n = 4 then warn
      else if n ≤ 6 then info
      else debug

end Level
end LogLens
