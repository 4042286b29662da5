/-
The texts that stamps, level words and whole headers are written in.

Each pattern of the header recognizer spells a language, so that a line has a header of some shape
exactly when it is one of the texts of that shape (`isSome_cut?`): no backtracking is lost, and none
invents a match.
-/
import LogLens.Proofs.Text.Language
import LogLens.Header

namespace LogLens

open Pattern

namespace Stamp

/-! ## Stamps -/

def digits (n : Nat) : Language Char := letter isAnyDigit ^ n

def oneOrTwoDigits : Language Char := letter isAnyDigit * (letter isAnyDigit + 1)

def clockTexts : Language Char := [digits 2, mark ':', digits 2, mark ':', digits 2].prod

def dashedTexts : Language Char := [digits 4, mark '-', digits 2, mark '-', digits 2].prod

def gapTexts : Language Char := letter fun c => c == 'T' || c == ' '

def fractionTexts (marks : List Char) : Language Char :=
  letter marks.contains * someRun isAnyDigit + 1

def signTexts : Language Char := letter fun c => c == '+' || c == '-'

def monthTexts : Language Char := (monthNames.map fun name => {name.toList}).sum

/-- The forms of timestamps that have more than digits. -/
def textualTexts : Language Char :=
  [[dashedTexts, gapTexts, clockTexts, fractionTexts ['.', ','],
      [mark 'Z', [signTexts, digits 2, mark ':' + 1, digits 2].prod].sum + 1].prod,
    [digits 4, mark '/', digits 2, mark '/', digits 2, gapTexts, clockTexts,
      fractionTexts ['.']].prod,
    [oneOrTwoDigits, mark '/', oneOrTwoDigits, mark '/', digits 4, gapTexts, clockTexts,
      fractionTexts ['.']].prod,
    [digits 2, mark '/', letter Char.isUpper, letter Char.isLower ^ 2, mark '/', digits 4, mark ':',
      clockTexts, letter isBlank, signTexts, digits 4].prod,
    [monthTexts, someRun isBlank, oneOrTwoDigits, letter isBlank, clockTexts,
      fractionTexts ['.']].prod,
    dashedTexts].sum

/-- Ten digits for seconds or thirteen for milliseconds. -/
def epochTexts : Language Char := [digits 10, digits 3 + 1, fractionTexts ['.']].prod

theorem spells_twoDigits : Spells twoDigits (digits 2) := spells_times 2 isAnyDigit

theorem spells_fourDigits : Spells fourDigits (digits 4) := spells_times 4 isAnyDigit

theorem spells_clockPattern : Spells clockPattern clockTexts :=
  spells_inOrder (.cons spells_twoDigits (.cons (spells_char ':') (.cons spells_twoDigits
    (.cons (spells_char ':') (.cons spells_twoDigits .nil)))))

theorem spells_dashedDate : Spells dashedDate dashedTexts :=
  spells_inOrder (.cons spells_fourDigits (.cons (spells_char '-') (.cons spells_twoDigits
    (.cons (spells_char '-') (.cons spells_twoDigits .nil)))))

theorem spells_fractionPattern (marks : List Char) :
    Spells (fractionPattern marks) (fractionTexts marks) :=
  ((spells_one _).seq (spells_oneOrMore _)).maybe

theorem spells_months :
    Spells (anyOf (monthNames.map fun name => exactly name.toList)) monthTexts :=
  spells_anyOf_map (fun name => spells_exactly name.toList) monthNames

theorem spells_textual : Spells textual textualTexts := by
  have hoffset : Spells (anyOf [.char 'Z', .inOrder [plusOrMinus, twoDigits, .maybe (.char ':'),
      twoDigits]]) [mark 'Z', [signTexts, digits 2, mark ':' + 1, digits 2].prod].sum :=
    spells_anyOf (.cons (spells_char 'Z') (.cons (spells_inOrder (.cons (spells_one _)
      (.cons spells_twoDigits (.cons (spells_char ':').maybe (.cons spells_twoDigits .nil)))))
      .nil))
  refine spells_anyOf (.cons ?dashed (.cons ?yearFirst (.cons ?monthFirst (.cons ?webServer
    (.cons ?systemLog (.cons spells_dashedDate .nil))))))
  case dashed =>
    exact spells_inOrder (.cons spells_dashedDate (.cons (spells_one _) (.cons spells_clockPattern
      (.cons (spells_fractionPattern _) (.cons hoffset.maybe .nil)))))
  case yearFirst =>
    exact spells_inOrder (.cons spells_fourDigits (.cons (spells_char '/') (.cons spells_twoDigits
      (.cons (spells_char '/') (.cons spells_twoDigits (.cons (spells_one _)
        (.cons spells_clockPattern (.cons (spells_fractionPattern _) .nil))))))))
  case monthFirst =>
    exact spells_inOrder (.cons (spells_oneOrTwo _) (.cons (spells_char '/')
      (.cons (spells_oneOrTwo _) (.cons (spells_char '/') (.cons spells_fourDigits
        (.cons (spells_one _) (.cons spells_clockPattern
          (.cons (spells_fractionPattern _) .nil))))))))
  case webServer =>
    exact spells_inOrder (.cons spells_twoDigits (.cons (spells_char '/') (.cons (spells_one _)
      (.cons (spells_times 2 _) (.cons (spells_char '/') (.cons spells_fourDigits
        (.cons (spells_char ':') (.cons spells_clockPattern (.cons (spells_one _)
          (.cons (spells_one _) (.cons spells_fourDigits .nil)))))))))))
  case systemLog =>
    exact spells_inOrder (.cons spells_months (.cons (spells_oneOrMore _)
      (.cons (spells_oneOrTwo _) (.cons (spells_one _) (.cons spells_clockPattern
        (.cons (spells_fractionPattern _) .nil))))))

theorem spells_epochPattern : Spells epochPattern epochTexts :=
  spells_inOrder (.cons (spells_times 10 _) (.cons (spells_times 3 _).maybe
    (.cons (spells_fractionPattern _) .nil)))

end Stamp

namespace Header

open Stamp

/-! ## Level words -/

/-- The spellings of a word in capitals and small letters. -/
def spelled (w : List Char) : Language Char :=
  {v | List.Forall₂ (fun capital c => sameLetter capital c = true) w v}

def levelTexts : Language Char := (levelWords.map fun w => spelled w.toList).sum

theorem spells_word (w : List Char) : Spells (word w) (spelled w) := by
  induction w with
  | nil =>
    have hnil : spelled [] = 1 := by
      ext v
      exact List.forall₂_nil_left_iff
    exact hnil ▸ spells_nil
  | cons capital w ih =>
    have hcons : spelled (capital :: w) = letter (sameLetter capital) * spelled w := by
      ext v
      rw [Language.mem_mul]
      constructor
      · rintro (_ | ⟨hc, hw⟩)
        exact ⟨[_], ⟨_, hc, rfl⟩, _, hw, rfl⟩
      · rintro ⟨_, ⟨c, hc, rfl⟩, v, hv, rfl⟩
        exact .cons hc hv
    have hseq : word (capital :: w) = Pattern.seq (one (sameLetter capital)) (word w) := rfl
    rw [hseq, hcons]
    exact (spells_one _).seq ih

theorem spells_levelWord : Spells levelWord levelTexts := by
  have hword : ∀ w : String, Spells (word w.toList) (spelled w.toList) :=
    fun w => spells_word w.toList
  exact spells_anyOf_map hword levelWords

/-! ## What stands between the parts of a header -/

/-- The stamps that may begin a line. -/
def leadingTexts : Language Char := [textualTexts, epochTexts].sum

/-- Messages end with their line. -/
def messages : Language Char := run (· != '\n')

def colonOrBarTexts : Language Char := letter fun c => c == ':' || c == '|'

def closeTexts : Language Char := (mark ']' + 1) * someRun isBlank

/-- What may stand between a bare level and a message. -/
def markTexts : Language Char :=
  [run isBlank, colonOrBarTexts, run isBlank].prod +
    ([someRun isBlank, mark '-', someRun isBlank].prod + someRun isBlank)

def openBracketTexts : Language Char :=
  [mark ']' + 1, someRun isBlank, mark '[', run isBlank].prod

def bracketTexts : Language Char :=
  [run isBlank, mark ']', run isBlank, letter (fun c => c == ':' || c == '|' || c == '-') + 1,
    run isBlank].prod

def betweenTexts : Language Char := [mark ']' + 1, someRun isBlank, mark '[' + 1].prod

def stampEndTexts : Language Char :=
  (mark ']' + someRun isBlank) * [run isBlank,
    [colonOrBarTexts * run isBlank, mark '-' * someRun isBlank].sum + 1].prod

def delimiterTexts : Language Char :=
  [[run isBlank * mark ']', run isBlank * colonOrBarTexts,
    [someRun isBlank, mark '-', letter isBlank].prod].sum, run isBlank].prod

theorem spells_leadingStamp : Spells leadingStamp leadingTexts :=
  spells_anyOf (.cons spells_textual (.cons spells_epochPattern .nil))

theorem spells_close : Spells (.seq (.maybe (.char ']')) someBlanks) closeTexts :=
  (spells_char ']').maybe.seq (spells_oneOrMore _)

theorem spells_openBracket : Spells (.inOrder [.maybe (.char ']'), someBlanks, .char '[', blanks])
    openBracketTexts :=
  spells_inOrder (.cons (spells_char ']').maybe (.cons (spells_oneOrMore _)
    (.cons (spells_char '[') (.cons (spells_many _) .nil))))

/-- Behind a bare level the line may end. -/
theorem spellsOrEnd_afterLevel : SpellsOrEnd afterLevel markTexts := by
  refine .anyOf_cons ?_ (.anyOf_cons ?_ (spells_oneOrMore _).orEnd)
  · exact spells_inOrder (.cons (spells_many _) (.cons (spells_one _)
      (.cons (spells_many _) .nil)))
  · exact spells_inOrder (.cons (spells_oneOrMore _) (.cons (spells_char '-')
      (.cons (spells_oneOrMore _) .nil)))

theorem spells_afterBracket : Spells (.inOrder [blanks, .char ']', blanks,
    .maybe (.one fun c => c == ':' || c == '|' || c == '-'), blanks]) bracketTexts :=
  spells_inOrder (.cons (spells_many _) (.cons (spells_char ']') (.cons (spells_many _)
    (.cons (spells_one _).maybe (.cons (spells_many _) .nil)))))

theorem spells_between : Spells (.inOrder [.maybe (.char ']'), someBlanks, .maybe (.char '[')])
    betweenTexts :=
  spells_inOrder (.cons (spells_char ']').maybe (.cons (spells_oneOrMore _)
    (.cons (spells_char '[').maybe .nil)))

/-- Behind a stamp the line may end. -/
theorem spellsOrEnd_stampEnd : SpellsOrEnd (.inOrder [.anyOf [.char ']', someBlanks, .atEnd],
    blanks, .maybe (.anyOf [.seq colonOrBar blanks, .seq (.char '-') someBlanks])])
    stampEndTexts := by
  have hmarks : Spells (anyOf [.seq colonOrBar blanks, .seq (.char '-') someBlanks])
      [colonOrBarTexts * run isBlank, mark '-' * someRun isBlank].sum :=
    spells_anyOf (.cons ((spells_one _).seq (spells_many _))
      (.cons ((spells_char '-').seq (spells_oneOrMore _)) .nil))
  have hclose : SpellsOrEnd (anyOf [.char ']', someBlanks, .atEnd])
      (mark ']' + someRun isBlank) :=
    .anyOf_cons (spells_char ']') (spells_oneOrMore _).orEnd
  refine hclose.inOrder_cons (spells_inOrder (.cons (spells_many _) (.cons hmarks.maybe .nil))) ?_
  exact Language.mem_mul.mpr ⟨[], nil_mem_run _, [], ⟨[], Or.inr rfl, [], rfl, rfl⟩, rfl⟩

theorem spells_delimiter : Spells (.inOrder [
    .anyOf [.seq blanks (.char ']'), .seq blanks colonOrBar,
      .inOrder [someBlanks, .char '-', .one isBlank]],
    blanks]) delimiterTexts := by
  refine spells_inOrder (.cons (spells_anyOf (.cons ?_ (.cons ?_ (.cons ?_ .nil))))
    (.cons (spells_many _) .nil))
  · exact (spells_many _).seq (spells_char ']')
  · exact (spells_many _).seq (spells_one _)
  · exact spells_inOrder (.cons (spells_oneOrMore _) (.cons (spells_char '-')
      (.cons (spells_one _) .nil)))

/-! ## Shapes -/

/-- The lines that have a header of the shape. -/
def Shape.language : Shape → Language Char
  | .stampLevel =>
    (mark '[' + 1) * leadingTexts * closeTexts * levelTexts * (markTexts * messages + 1)
  | .stampBracketedLevel =>
    (mark '[' + 1) * leadingTexts * openBracketTexts * levelTexts * (bracketTexts * messages)
  | .levelStamp =>
    (mark '[' + 1) * levelTexts * betweenTexts * textualTexts * (stampEndTexts * messages + 1)
  | .levelDelimited =>
    (mark '[' + 1) * run isBlank * levelTexts * (delimiterTexts * messages)

theorem isSome_message? (cs : List Char) : (message? cs).isSome ↔ cs ∈ messages := by
  rw [message?]
  by_cases hnewline : '\n' ∈ cs
  · rw [if_pos (List.contains_iff_mem.mpr hnewline)]
    refine iff_of_false Bool.false_ne_true fun hcs => ?_
    exact absurd (hcs '\n' hnewline) (by decide)
  · rw [if_neg (mt List.contains_iff_mem.mp hnewline)]
    refine iff_of_true rfl fun c hc => ?_
    exact bne_iff_ne.mpr fun heq => hnewline (heq ▸ hc)

theorem isSome_map_message? {β : Type} (f : List Char → β) (cs : List Char) :
    ((message? cs).map f).isSome ↔ cs ∈ messages := by
  rw [Option.isSome_map]
  exact isSome_message? cs

/-- A line is cut by a shape exactly when it is one of its texts. -/
theorem isSome_cut? (shape : Shape) (cs : List Char) :
    (shape.cut? cs).isSome ↔ cs ∈ shape.language := by
  have hnil : [] ∈ messages := nil_mem_run _
  have hbracket : Spells (Pattern.maybe (.char '[')) (mark '[' + 1) := (spells_char '[').maybe
  cases shape with
  | stampLevel =>
    simp only [Shape.language, mul_assoc]
    refine hbracket.isSome_findSome? (fun atStamp => ?_) cs
    refine spells_leadingStamp.isSome_findSome? (fun behindStamp => ?_) atStamp
    refine spells_close.isSome_findSome? (fun atLevel => ?_) behindStamp
    refine spells_levelWord.isSome_findSome? (fun behindLevel => ?_) atLevel
    exact spellsOrEnd_afterLevel.isSome_findSome? (isSome_map_message? _) hnil behindLevel
  | stampBracketedLevel =>
    simp only [Shape.language, mul_assoc]
    refine hbracket.isSome_findSome? (fun atStamp => ?_) cs
    refine spells_leadingStamp.isSome_findSome? (fun behindStamp => ?_) atStamp
    refine spells_openBracket.isSome_findSome? (fun atLevel => ?_) behindStamp
    refine spells_levelWord.isSome_findSome? (fun behindLevel => ?_) atLevel
    exact spells_afterBracket.isSome_findSome? (isSome_map_message? _) behindLevel
  | levelStamp =>
    simp only [Shape.language, mul_assoc]
    refine hbracket.isSome_findSome? (fun atLevel => ?_) cs
    refine spells_levelWord.isSome_findSome? (fun behindLevel => ?_) atLevel
    refine spells_between.isSome_findSome? (fun atStamp => ?_) behindLevel
    refine spells_textual.isSome_findSome? (fun behindStamp => ?_) atStamp
    exact spellsOrEnd_stampEnd.isSome_findSome? (isSome_map_message? _) hnil behindStamp
  | levelDelimited =>
    simp only [Shape.language, mul_assoc]
    rw [← mul_assoc]
    refine (hbracket.seq (spells_many _)).isSome_findSome? (fun atLevel => ?_) cs
    refine spells_levelWord.isSome_findSome? (fun behindLevel => ?_) atLevel
    exact spells_delimiter.isSome_findSome? (isSome_map_message? _) behindLevel

end Header
end LogLens
