/-
What the beginning of a text asks of the character in front of it.

Some characters take other columns than their own because of what stands behind them: letters that
join to one shape, flags, and emoji that are made of several characters.  An `Onset` is what has to
be known of the text behind a character for that.
-/
import LogLens.Text.CharSet.Emoji
import LogLens.Text.CharSet.Joining
import LogLens.Text.CharSet.Wide
import LogLens.Text.CharSet.ZeroWidth

namespace LogLens

/-- A beginning that joins with the letter in front of it.  Where a joiner decides whether two
letters are joined, `joined` says that one stands at the very beginning. -/
inductive JoiningLetter where
  | alef
  | lamed (joined : Bool)
  | khmer
  | buginese (joined : Bool)
  | bugineseVowel
  | tifinagh (joined : Bool)
  | tifinaghJoiner
  | lisuTone
  | orkhon (joined : Bool)
  | kiratE
  | kiratAi
  deriving DecidableEq

/-- The letter with a joiner in front of it. -/
def JoiningLetter.withJoiner : JoiningLetter → JoiningLetter
  | lamed _ => lamed true
  | buginese _ => buginese true
  | tifinagh _ => tifinagh true
  | orkhon _ => orkhon true
  | l => l

/-- How a text begins. -/
inductive Onset where
  | plain
  | lineFeed
  | letter (l : JoiningLetter)
  /-- One of the letters that make a flag. -/
  | flagLetter
  /-- Two letters of flags or more. -/
  | flag
  | emoji
  | modifier
  /-- An emoji with a joiner in front of it. -/
  | joinedEmoji
  /-- The mark of a keycap, to be joined with the emoji behind it. -/
  | joinedKeycap
  | joinedFlagLetter
  /-- Letters of flags, to be joined with the emoji behind them; `even` says that they make
  pairs. -/
  | joinedFlag (even : Bool)
  /-- The end of a tagged flag and `n` letters in front of it. -/
  | tagLetters (n : Nat)
  /-- The end of a tagged flag, letters, and `n` digits in front of them. -/
  | tagDigits (n : Nat)
  deriving DecidableEq

/-- Letters join across marks that are ignored. -/
def Onset.isLetter : Onset → Bool
  | letter _ => true
  | _ => false

/-! ## Single characters -/

namespace Columns

def joiner : Char := '\u200D'

/-- The letters of flags, of which two make one flag. -/
def isFlagLetter (c : Char) : Bool := 0x1F1E6 ≤ c.toNat && c.toNat ≤ 0x1F1FF

/-- The modifiers for the colour of skin. -/
def isModifier (c : Char) : Bool := 0x1F3FB ≤ c.toNat && c.toNat ≤ 0x1F3FF

def isTagLetter (c : Char) : Bool := 0xE0061 ≤ c.toNat && c.toNat ≤ 0xE007A

def isTagDigit (c : Char) : Bool := 0xE0030 ≤ c.toNat && c.toNat ≤ 0xE0039

def tagEnd : Nat := 0xE007F

def blackFlag : Nat := 0x1F3F4

/-- What a character alone is to the one in front of it. -/
def onsetOf (c : Char) : Onset :=
  let n := c.toNat
  if c = '\n' then .lineFeed
  else if n ≤ 0xA0 then .plain
  else if isFlagLetter c then .flagLetter
  else if isModifier c then .modifier
  else if CharSet.emojiPresentation.contains c then .emoji
  else if CharSet.alef.contains c then .letter .alef
  else if n = 0x5DC then .letter (.lamed false)
  else if CharSet.coengLetter.contains c then .letter .khmer
  else if n = 0x1A10 then .letter (.buginese false)
  else if CharSet.tifinaghConsonant.contains c then .letter (.tifinagh false)
  else if n = 0xA4FC ∨ n = 0xA4FD then .letter .lisuTone
  else if n = 0x10C03 then .letter (.orkhon false)
  else if n = 0x16D67 then .letter .kiratE
  else if n = 0x16D68 then .letter .kiratAi
  else .plain

/-- The columns of a character by itself. -/
def alone (c : Char) : Nat :=
  let n := c.toNat
  if n ≤ 0xA0 then 1
  else if n = 0x17D8 then 3
  else if CharSet.zeroWidth.contains c then 0
  else if CharSet.wide.contains c then 2
  else 1

end Columns
end LogLens
