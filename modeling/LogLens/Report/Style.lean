/-
Emphasis in reports.

On a terminal, parts of a report are set in colors and bold by escape sequences; elsewhere the
texts stand alone.
-/
import LogLens.Text.Slice

namespace LogLens
namespace Report

/-- The codes of an emphasis, as an escape sequence lists them. -/
inductive Style where
  | bold
  | cyan
  | boldGreen
  | boldRed
  | brightWhite
  | boldBrightWhite

def Style.codes : Style → String
  | bold => "1"
  | cyan => "36"
  | boldGreen => "1;32"
  | boldRed => "1;31"
  | brightWhite => "97"
  | boldBrightWhite => "1;97"

def resetSequence : List Char := ['\x1b', '[', '0', 'm']

/-- Takes a style up again behind every reset inside a text; `skip` characters belong to the last
reset. -/
def resume (start : List Char) : Nat → List Char → List Char
  | _, [] => []
  | skip + 1, _ :: cs => resume start skip cs
  | 0, c :: cs =>
    if resetSequence.isPrefixOf (c :: cs) then resetSequence ++ start ++ resume start 3 cs
    else c :: resume start 0 cs

/-- The text in a style, if colors are on. -/
def paint (color : Bool) (style : Style) (s : String) : String :=
  if color then
    let start := '\x1b' :: '[' :: style.codes.toList ++ ['m']
    String.ofList (start ++ resume start 0 s.toList ++ resetSequence)
  else s

end Report
end LogLens
