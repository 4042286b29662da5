/-
How many columns a text takes on a terminal.

A text is measured from its end, so that it is known for every character what stands behind it.
Most characters take the columns of their own.  A character that completes a shape with what stands
behind it adds what the whole shape takes more than the columns that were counted before.
-/
import LogLens.Text.Columns.Onset

namespace LogLens
namespace Columns

/-- What is known of the text behind a character: how it begins, and whether variation selectors in
front of that ask for emoji or for text. -/
structure Context where
  onset : Onset := .plain
  asEmoji : Bool := false
  asText : Bool := false

/-! ## Variation selectors -/

/-- A selector for emoji.  Letters and emoji behind it can still be joined. -/
def Context.selectEmoji (x : Context) : Context :=
  if x.onset.isLetter then { x with asEmoji := true }
  else if x.onset = .joinedEmoji ∨ x.onset = .joinedKeycap then ⟨x.onset, true, false⟩
  else ⟨.plain, true, false⟩

/-- A selector for text.  Letters behind it can still be joined. -/
def Context.selectText (x : Context) : Context :=
  if x.onset.isLetter then { x with asText := true } else ⟨.plain, false, true⟩

/-- A selector for emoji that turns nothing into one. -/
def Context.dropEmoji (x : Context) : Context :=
  if x.onset.isLetter then { x with asEmoji := false } else {}

/-- Emoji that are narrow when they are asked for as text.  Ideographs in squares stay wide. -/
def narrowsAsText (c : Char) : Bool :=
  CharSet.emojiVariation.contains c && CharSet.emojiPresentation.contains c &&
    !(0x1F200 ≤ c.toNat && c.toNat < 0x1F300)

/-! ## Shapes of several characters -/

/-- What a character adds that joins with the letter behind it, and how the text begins then. -/
def joinLetter : JoiningLetter → Char → Option (Int × Onset)
  | .alef, c =>
    if CharSet.lam.contains c then some (0, .plain)
    else if CharSet.zeroWidth.contains c && !CharSet.joiningBarrier.contains c then
      some (0, .letter .alef)
    else none
  | .lamed joined, c => if joined && c = '\u05D0' then some (0, .plain) else none
  | .khmer, c => if c = '\u17D2' then some (-1, .plain) else none
  | .buginese joined, c =>
    if joined && c = '\u1A17' then some (0, .letter .bugineseVowel) else none
  | .bugineseVowel, c => if c = '\u1A15' then some (0, .plain) else none
  | .tifinagh joined, c =>
    if c = '\u2D7F' then some (1, .letter .tifinaghJoiner)
    else if joined && CharSet.tifinaghConsonant.contains c then some (0, .plain)
    else none
  | .tifinaghJoiner, c => if CharSet.tifinaghConsonant.contains c then some (-1, .plain) else none
  | .lisuTone, c => if '\uA4F8' ≤ c ∧ c ≤ '\uA4FB' then some (0, .plain) else none
  | .orkhon joined, c => if joined && c.toNat = 0x10C32 then some (0, .plain) else none
  | .kiratE, c =>
    if c.toNat = 0x16D63 ∨ c.toNat = 0x16D69 then some (0, .plain)
    else if c.toNat = 0x16D67 then some (0, .letter .kiratAi)
    else if c.toNat = 0x16D68 then some (1, .letter .kiratE)
    else none
  | .kiratAi, c => if c.toNat = 0x16D63 then some (0, .plain) else none

/-- What a character adds to an emoji in front of which a joiner stands. -/
def joinEmoji (c : Char) : Option (Int × Onset) :=
  if c = '\u20E3' then some (0, .joinedKeycap)
  else if isFlagLetter c then some (1, .joinedFlagLetter)
  else if isModifier c then some (0, .modifier)
  else if c.toNat = tagEnd then some (0, .tagLetters 0)
  else if CharSet.emojiPresentation.contains c then some (0, .emoji)
  else none

/-- What a character adds that makes one shape with the beginning of the text behind it. -/
def joinOnset : Onset → Char → Option (Int × Onset)
  | .letter l, c => joinLetter l c
  | .emoji, c => if c = joiner then some (0, .joinedEmoji) else none
  | .modifier, c =>
    if c = joiner then some (0, .joinedEmoji)
    else if CharSet.emojiModifierBase.contains c then some (0, .emoji)
    else none
  | .joinedEmoji, c => joinEmoji c
  | .flagLetter, c => if isFlagLetter c then some (1, .flag) else none
  | .flag, c =>
    if c = joiner then some (0, .joinedEmoji)
    else if isFlagLetter c then some (1, .flag)
    else none
  | .joinedFlagLetter, c => if isFlagLetter c then some (-1, .joinedFlag true) else none
  | .joinedFlag even, c =>
    if c = joiner then some (0, .joinedEmoji)
    else if isFlagLetter c then some (if even then 3 else -1, .joinedFlag (!even))
    else none
  | .tagLetters n, c =>
    if isTagLetter c && n < 6 then some (0, .tagLetters (n + 1))
    else if isTagDigit c && n < 5 then some (0, .tagDigits 1)
    else if c.toNat = blackFlag && 3 ≤ n then some (0, .emoji)
    else none
  | .tagDigits n, c =>
    if isTagDigit c && n < 3 then some (0, .tagDigits (n + 1))
    else if c.toNat = blackFlag && n = 3 then some (0, .emoji)
    else none
  | _, _ => none

/-! ## Texts -/

/-- Marks that are passed over between letters that join, and the letter with them in front.  An
alef has a rule of its own for them. -/
def passOver : Onset → Char → Option Onset
  | .letter .alef, _ => none
  | .letter l, c =>
    if c = joiner then some (.letter l.withJoiner)
    else if CharSet.ignorableMark.contains c then some (.letter l)
    else none
  | _, _ => none

/-- What a character adds whose presentation no selector changes. -/
def join (o : Onset) (c : Char) : Int × Onset :=
  if c.toNat ≤ 0xA0 then (if c = '\r' ∧ o = .lineFeed then 0 else 1, onsetOf c)
  else match passOver o c with
    | some o => (0, o)
    | none => (joinOnset o c).getD (alone c, onsetOf c)

/-- What a character adds to the columns of the text behind it, and what is known then. -/
def step (c : Char) (x : Context) : Int × Context :=
  if x.asEmoji && CharSet.emojiVariation.contains c then
    (if x.onset = .joinedEmoji ∨ x.onset = .joinedKeycap then 0 else 2, { onset := .emoji })
  else
    let x := if x.asEmoji then x.dropEmoji else x
    if c = '\uFE0F' then (0, x.selectEmoji)
    else if c = '\uFE0E' then (0, x.selectText)
    else if x.asText && narrowsAsText c then (1, {})
    else ((join x.onset c).1, { onset := (join x.onset c).2 })

/-- The columns of a text, and what is to be known of it for a character in front of it. -/
def measure (cs : List Char) : Int × Context :=
  cs.foldr (fun c (total, x) => ((step c x).1 + total, (step c x).2)) (0, {})

end Columns

/-- The columns that a text takes. -/
def columns (s : String) : Nat :=
  (Columns.measure s.toList).1.toNat

end LogLens
