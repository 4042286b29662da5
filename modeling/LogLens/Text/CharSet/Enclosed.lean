/-
Letters in circles and squares, and the marks that draw them.
-/
import LogLens.Text.CharSet

namespace LogLens
namespace CharSet

/-- Symbols that are alphabetic because they show a letter. -/
def enclosedLetter : CharSet where
  ranges :=
    [(0x24B6, 0x24E9), (0x1F130, 0x1F149), (0x1F150, 0x1F169), (0x1F170, 0x1F189)]

/-- Marks that enclose the character in front of them. -/
def enclosingMark : CharSet where
  ranges :=
    [(0x488, 0x489), (0x1ABE, 0x1ABE), (0x20DD, 0x20E0), (0x20E2, 0x20E4), (0xA670, 0xA672)]

end CharSet
end LogLens
