/-
Headers that are written are read back.

A line that is put together from an instant, a level word and a message, in one of the shapes of
headers, is cut into just these parts, whatever the message holds.  Every part of the shape prefers
the end that was written, so the first cut found is this one; and the shapes that are tried before
fail on all of the ends, preferred or not.  A message that begins with a mark may lose it to the
header: what is left behind a bare level and behind one in brackets is said for any text
(`head?_afterLevel`, `head?_afterBracket`).
-/
import LogLens.Document
import LogLens.Proofs.Header.Stamps

namespace LogLens
namespace Header

open Pattern Stamp Layout

/-- A text that can stand as the message behind a header. -/
structure IsMessage (m : List Char) : Prop where
  ne_nil : m ≠ []
  trimmed : trim m = m
  newline : '\n' ∉ m
  delimiter : ∀ c ∈ m.head?, c ∉ [':', '|', '-']

/-! ## Blanks -/

section Blanks

variable {rest : List Char} (h : ∀ c ∈ rest.head?, isBlank c = false)

include h

theorem blanks_of_head : blanks rest = [rest] := many_of_neg h

theorem someBlanks_space : someBlanks (' ' :: rest) = [rest] := by
  rw [someBlanks, oneOrMore, seq_of_single (one_of_pos (by decide) rest)]
  exact many_of_neg h

theorem blanks_space : blanks (' ' :: rest) = [rest, ' ' :: rest] := by
  rw [blanks, many, if_pos (by decide), many_of_neg h]
  rfl

end Blanks

theorem someBlanks_of_neg {c : Char} (h : isBlank c = false) (cs : List Char) :
    someBlanks (c :: cs) = [] :=
  seq_of_none (one_of_neg h cs)

theorem maybe_char_of_ne {c d : Char} (h : c ≠ d) (cs : List Char) :
    maybe (.char d) (c :: cs) = [c :: cs] :=
  maybe_of_none (char_of_ne h cs)

/-! ## Behind the header -/

/-- What may follow a level in brackets, from the closing bracket on. -/
def afterBracket : Pattern :=
  .inOrder [blanks, .char ']', blanks, .maybe (.one fun c => c == ':' || c == '|' || c == '-'),
    blanks]

/-- The marks that may set a header off. -/
def marks : List Char := [':', '|', '-']

/-- What a text says behind the mark that it begins with, if it does. -/
def behindMark : List Char → List Char
  | [] => []
  | c :: rest => if c ∈ marks then rest.dropWhile isBlank else c :: rest

/-- The text begins with a dash that belongs to what follows, and is no mark between blanks. -/
def GluedDash (m : List Char) : Prop :=
  ∃ rest, m = '-' :: rest ∧ ∀ c ∈ rest.head?, isBlank c = false

theorem head?_blanks (cs : List Char) : (blanks cs).head? = some (cs.dropWhile isBlank) :=
  head?_many isBlank cs

section Marks

variable {m : List Char} (hhead : ∀ c ∈ m.head?, isBlank c = false)

include hhead

theorem head?_blanks_space : (blanks (' ' :: m)).head? = some m := by
  rw [blanks_space hhead]
  rfl

/-- No blanks put a colon or a bar in front of a text that does not begin with it. -/
theorem colonOrBar_behind_blanks (hcolon : colonOrBar m = []) :
    inOrder [blanks, colonOrBar, blanks] (' ' :: m) = [] := by
  have hspace : colonOrBar (' ' :: m) = [] := one_of_neg (by decide) m
  rw [inOrder_cons, blanks_space hhead, List.flatMap_cons, inOrder_of_none hcolon,
    List.flatMap_cons, inOrder_of_none hspace]
  rfl

/-- Where no mark stands behind the blank, only the blank is passed over. -/
theorem afterLevel_of_unmarked (hcolon : colonOrBar m = [])
    (hdash : inOrder [.char '-', someBlanks] m = []) : afterLevel (' ' :: m) = [m] := by
  have hhyphen : inOrder [someBlanks, .char '-', someBlanks] (' ' :: m) = [] := by
    rw [inOrder_of_single (someBlanks_space hhead), hdash]
  rw [afterLevel, anyOf_of_none (colonOrBar_behind_blanks hhead hcolon), anyOf_of_none hhyphen,
    anyOf_cons, someBlanks_space hhead]
  rfl

/-- Behind a bare level a dash in front of a word is left to the message. -/
theorem afterLevel_gluedDash (hglued : GluedDash m) : afterLevel (' ' :: m) = [m] := by
  obtain ⟨rest, rfl, hrest⟩ := hglued
  have hblanks : someBlanks rest = [] := by
    cases rest with
    | nil => rfl
    | cons c rest => exact someBlanks_of_neg (hrest c rfl) rest
  have hdash : inOrder [.char '-', someBlanks] ('-' :: rest) = [] := by
    rw [inOrder_of_single (char_self _ _), inOrder_of_none hblanks]
  exact afterLevel_of_unmarked hhead (one_of_neg (by decide) rest) hdash

end Marks

theorem head?_afterLevel_colonOrBar {c : Char} (hc : (c == ':' || c == '|') = true)
    (rest : List Char) :
    (afterLevel (' ' :: c :: rest)).head? = some (rest.dropWhile isBlank) := by
  have hblank : ∀ d ∈ (c :: rest).head?, isBlank d = false := by
    rw [Bool.or_eq_true, beq_iff_eq, beq_iff_eq] at hc
    rcases hc with rfl | rfl <;> simp <;> decide
  have hmark : (colonOrBar (c :: rest)).head? = some rest := by
    rw [colonOrBar, one_of_pos hc]
    rfl
  exact head?_anyOf (head?_inOrder (head?_blanks_space hblank)
    (head?_inOrder hmark (head?_inOrder (head?_blanks rest) rfl)))

theorem head?_afterLevel_spacedDash {b : Char} (hb : isBlank b = true) (rest : List Char) :
    (afterLevel (' ' :: '-' :: b :: rest)).head? = some (rest.dropWhile isBlank) := by
  have hdash : ∀ d ∈ ('-' :: b :: rest).head?, isBlank d = false := by simp; decide
  have hblanks : (someBlanks (b :: rest)).head? = some (rest.dropWhile isBlank) := by
    rw [someBlanks, oneOrMore, seq_of_single (one_of_pos hb rest), head?_many]
  rw [afterLevel, anyOf_of_none (colonOrBar_behind_blanks hdash (one_of_neg (by decide) _))]
  refine head?_anyOf ?_
  rw [inOrder_of_single (someBlanks_space hdash), inOrder_of_single (char_self _ _)]
  exact head?_inOrder hblanks rfl

/-- Any other mark is passed over, with the blanks behind it. -/
theorem head?_afterLevel {m : List Char} (hhead : ∀ c ∈ m.head?, isBlank c = false)
    (hglued : ¬GluedDash m) : (afterLevel (' ' :: m)).head? = some (behindMark m) := by
  cases m with
  | nil =>
    rw [afterLevel_of_unmarked hhead rfl rfl]
    rfl
  | cons c rest =>
    by_cases hcolon : (c == ':' || c == '|') = true
    · have hmark : c ∈ marks := by
        rw [Bool.or_eq_true, beq_iff_eq, beq_iff_eq] at hcolon
        rcases hcolon with rfl | rfl <;> decide
      rw [head?_afterLevel_colonOrBar hcolon, behindMark, if_pos hmark]
    · by_cases hdash : c = '-'
      · subst hdash
        cases rest with
        | nil => exact absurd ⟨[], rfl, by simp⟩ hglued
        | cons b more =>
          have hb : isBlank b = true := by
            by_contra hb
            exact hglued ⟨b :: more, rfl, by simpa using hb⟩
          rw [head?_afterLevel_spacedDash hb, behindMark, if_pos (by decide),
            List.dropWhile_cons_of_pos hb]
      · have hmark : c ∉ marks := by simpa [marks, hdash] using hcolon
        have hnone : colonOrBar (c :: rest) = [] := one_of_neg (Bool.eq_false_iff.mpr hcolon) rest
        have hhyphen : inOrder [.char '-', someBlanks] (c :: rest) = [] :=
          inOrder_of_none (char_of_ne hdash rest)
        rw [behindMark, if_neg hmark, afterLevel_of_unmarked hhead hnone hhyphen]
        rfl

/-- Behind a level in brackets every mark is passed over, a dash in front of a word too. -/
theorem head?_afterBracket {m : List Char} (hhead : ∀ c ∈ m.head?, isBlank c = false) :
    (afterBracket (']' :: ' ' :: m)).head? = some (behindMark m) := by
  have hclose : blanks (']' :: ' ' :: m) = [']' :: ' ' :: m] := blanks_of_head (by simp; decide)
  rw [afterBracket, inOrder_of_single hclose, inOrder_of_single (char_self _ _)]
  refine head?_inOrder (head?_blanks_space hhead) ?_
  cases m with
  | nil => rfl
  | cons c rest =>
    have hclass : (c == ':' || c == '|' || c == '-') = true ↔ c ∈ marks := by simp [marks, or_assoc]
    rw [behindMark]
    by_cases hmark : c ∈ marks
    · have hmaybe : (maybe (.one fun c => c == ':' || c == '|' || c == '-') (c :: rest)).head? =
          some rest := by
        rw [maybe, one_of_pos (hclass.mpr hmark)]
        rfl
      rw [if_pos hmark]
      exact head?_inOrder hmaybe (head?_inOrder (head?_blanks rest) rfl)
    · have hnone : one (fun c => c == ':' || c == '|' || c == '-') (c :: rest) = [] :=
        one_of_neg (Bool.eq_false_iff.mpr (mt hclass.mp hmark)) rest
      rw [if_neg hmark, inOrder_of_single (maybe_of_none hnone),
        inOrder_of_single (blanks_of_head hhead)]
      rfl

theorem message?_of_suffix {m rest : List Char} (hnewline : '\n' ∉ m) (h : rest <:+ m) :
    message? rest = some rest := by
  rw [message?, if_neg]
  rw [List.contains_iff_mem]
  exact mt (fun hmem => h.subset hmem) hnewline

section Behind

variable {m : List Char} (h : IsMessage m)

include h

theorem IsMessage.head : ∀ c ∈ m.head?, isBlank c = false := (ends_of_trim_eq_self h.trimmed).1

theorem IsMessage.message?_eq : message? m = some m := message?_of_suffix h.newline List.suffix_rfl

theorem IsMessage.one_delimiter {p : Char → Bool} (hp : ∀ c, p c = true → c ∈ [':', '|', '-']) :
    one p m = [] := by
  obtain ⟨c, cs, rfl⟩ := List.exists_cons_of_ne_nil h.ne_nil
  refine one_of_neg (Bool.eq_false_iff.mpr fun hc => ?_) cs
  exact h.delimiter c rfl (hp c hc)

theorem IsMessage.colonOrBar : colonOrBar m = [] :=
  h.one_delimiter (by simp)

theorem IsMessage.hyphen : char '-' m = [] :=
  h.one_delimiter (by simp)

theorem IsMessage.behindMark_eq : behindMark m = m := by
  obtain ⟨c, cs, rfl⟩ := List.exists_cons_of_ne_nil h.ne_nil
  exact if_neg (h.delimiter c rfl)

theorem IsMessage.not_gluedDash : ¬GluedDash m := by
  rintro ⟨rest, rfl, -⟩
  exact h.delimiter '-' rfl (by decide)

theorem afterLevel_message : (afterLevel (' ' :: m)).head? = some m := by
  rw [head?_afterLevel h.head h.not_gluedDash, h.behindMark_eq]

theorem afterBracket_message : (afterBracket (']' :: ' ' :: m)).head? = some m := by
  rw [head?_afterBracket h.head, h.behindMark_eq]

/-- Behind a stamp only blanks are passed over. -/
theorem afterStamp_message :
    inOrder [.anyOf [.char ']', someBlanks, .atEnd], blanks,
      .maybe (.anyOf [.seq Header.colonOrBar blanks, .seq (.char '-') someBlanks])] (' ' :: m) =
      [m] := by
  have hstop : anyOf [.char ']', someBlanks, .atEnd] (' ' :: m) = [m] := by
    rw [anyOf_of_none (char_of_ne (by decide) m), anyOf_cons, someBlanks_space h.head]
    rfl
  have hmark : anyOf [.seq Header.colonOrBar blanks, .seq (.char '-') someBlanks] m = [] := by
    rw [anyOf_of_none (seq_of_none h.colonOrBar), anyOf_of_none (seq_of_none h.hyphen)]
    rfl
  rw [inOrder_of_single hstop, inOrder_of_single (blanks_of_head h.head),
    inOrder_of_single (maybe_of_none hmark)]
  rfl

theorem afterColon_message :
    (inOrder [.anyOf [.seq blanks (.char ']'), .seq blanks Header.colonOrBar,
      .inOrder [someBlanks, .char '-', .one isBlank]], blanks] (':' :: ' ' :: m)).head? =
      some m := by
  have hblanks : blanks (':' :: ' ' :: m) = [':' :: ' ' :: m] := blanks_of_head (by simp; decide)
  have hbracket : seq blanks (.char ']') (':' :: ' ' :: m) = [] :=
    (seq_of_single hblanks).trans (char_of_ne (by decide) _)
  have hcolon : seq blanks Header.colonOrBar (':' :: ' ' :: m) = [' ' :: m] :=
    (seq_of_single hblanks).trans (one_of_pos (by decide) _)
  have hend : (anyOf [.seq blanks (.char ']'), .seq blanks Header.colonOrBar,
      .inOrder [someBlanks, .char '-', .one isBlank]] (':' :: ' ' :: m)).head? =
      some (' ' :: m) := by
    rw [anyOf_of_none hbracket, anyOf_cons, hcolon]
    rfl
  exact head?_inOrder hend (head?_inOrder (head?_blanks_space h.head) rfl)

end Behind

/-! ## Cuts -/

/-- The stamp, the level and the message that are preferred one after the other are the cut. -/
theorem cutStampFirst_of_head? {between tail : Pattern}
    {atStamp behindStamp atLevel behindLevel m : List Char}
    (hopen : maybe (.char '[') atStamp = [atStamp])
    (hstamp : (leadingStamp atStamp).head? = some behindStamp)
    (hbetween : (between behindStamp).head? = some atLevel)
    (hlevel : (levelWord atLevel).head? = some behindLevel)
    (htail : (tail behindLevel).head? = some m) (hm : message? m = some m) :
    cutStampFirst between tail atStamp =
      some ⟨some (covered atStamp behindStamp), covered atLevel behindLevel, m⟩ := by
  rw [cutStampFirst, hopen]
  refine findSome?_of_head? rfl (findSome?_of_head? hstamp ?_)
  refine findSome?_of_head? hbetween (findSome?_of_head? hlevel ?_)
  refine findSome?_of_head? htail ?_
  rw [hm]
  rfl

theorem cutStampFirst_of_none {between tail : Pattern} {cs : List Char}
    (hopen : maybe (.char '[') cs = [cs]) (hstamp : leadingStamp cs = []) :
    cutStampFirst between tail cs = none := by
  rw [cutStampFirst, hopen]
  simp only [List.findSome?_cons, hstamp, List.findSome?_nil]

/-- Between a stamp and a level word stand blanks, behind a bracket or not. -/
theorem between_of_tight {c : Char} (h : Tight c) (cs : List Char) :
    seq (maybe (.char ']')) someBlanks (c :: cs) = [] :=
  (seq_of_single (maybe_char_of_ne h.bracket cs)).trans (someBlanks_of_neg h.blank cs)

section Word

variable {k : List Char} (h : IsLevelWord k) (rest : List Char)

include h

theorem maybe_bracket_word : maybe (.char '[') (k ++ rest) = [k ++ rest] := by
  obtain ⟨c, cs, rfl, hc⟩ := h.exists_cons
  refine maybe_char_of_ne ?_ (cs ++ rest)
  rintro rfl
  exact hc.mark (by decide)

theorem isBlank_head_word : ∀ c ∈ (k ++ rest).head?, isBlank c = false := by
  obtain ⟨c, cs, rfl, hc⟩ := h.exists_cons
  intro d hd
  exact Option.some.inj hd ▸ hc.blank

/-- A line that begins with a level word begins with no stamp. -/
theorem cutStampFirst_word (between tail : Pattern) :
    cutStampFirst between tail (k ++ rest) = none :=
  cutStampFirst_of_none (maybe_bracket_word h rest) (leadingStamp_of_isLevelWord h rest)

end Word

section Lines

variable {k : List Char} (hk : IsLevelWord k) {m : List Char}

section Stamped

variable {stamp : List Char} (hstamp : IsStamp stamp)

include hstamp

theorem maybe_bracket_stamp (rest : List Char) :
    maybe (.char '[') (stamp ++ rest) = [stamp ++ rest] := by
  obtain ⟨c, cs, htext, hc⟩ := hstamp.exists_cons rest
  rw [htext]
  exact maybe_char_of_ne (ne_of_isDigit hc (by decide)) cs

/-- A bracket behind the stamp is no level word, and no shorter stamp has a blank behind it. -/
theorem cut?_stampLevel_bracket (rest : List Char) :
    Shape.stampLevel.cut? (stamp ++ ' ' :: '[' :: rest) = none := by
  have hbetween : seq (maybe (.char ']')) someBlanks (' ' :: '[' :: rest) = ['[' :: rest] :=
    (seq_of_single (maybe_char_of_ne (by decide) _)).trans (someBlanks_space (by simp; decide))
  have hlevel : levelWord ('[' :: rest) = [] := levelWord_of_endsWord (by decide +kernel) rest
  rw [Shape.cut?, cutStampFirst, maybe_bracket_stamp hstamp, List.findSome?_singleton]
  refine (hstamp.leading (' ' :: '[' :: rest)).findSome?_eq_none ?_ fun c hc cs => ?_
  · rw [hbetween, List.findSome?_singleton, hlevel, List.findSome?_nil]
  · rw [between_of_tight hc, List.findSome?_nil]

include hk

theorem cut?_stampLevel {rest : List Char} (htail : (afterLevel (' ' :: rest)).head? = some m)
    (hm : message? m = some m) :
    Shape.stampLevel.cut? (stamp ++ ' ' :: (k ++ ' ' :: rest)) = some ⟨some stamp, k, m⟩ := by
  have hbetween : (seq (maybe (.char ']')) someBlanks (' ' :: (k ++ ' ' :: rest))).head? =
      some (k ++ ' ' :: rest) := by
    rw [seq_of_single (maybe_char_of_ne (by decide) _),
      someBlanks_space (isBlank_head_word hk (' ' :: rest))]
    rfl
  have hlevel := (prefers_levelWord hk (by decide +kernel : endsWord ' ' = true) rest).head?
  have hcut := cutStampFirst_of_head? (maybe_bracket_stamp hstamp (' ' :: (k ++ ' ' :: rest)))
    (hstamp.leading _).head? hbetween hlevel htail hm
  rwa [covered_append, covered_append] at hcut

theorem cut?_stampBracketedLevel {rest : List Char}
    (htail : (afterBracket (']' :: ' ' :: rest)).head? = some m) (hm : message? m = some m) :
    Shape.stampBracketedLevel.cut? (stamp ++ ' ' :: '[' :: (k ++ ']' :: ' ' :: rest)) =
      some ⟨some stamp, k, m⟩ := by
  have hbetween : (inOrder [.maybe (.char ']'), someBlanks, .char '[', blanks]
      (' ' :: '[' :: (k ++ ']' :: ' ' :: rest))).head? = some (k ++ ']' :: ' ' :: rest) := by
    rw [inOrder_of_single (maybe_char_of_ne (by decide) _),
      inOrder_of_single (someBlanks_space (by simp; decide)), inOrder_of_single (char_self _ _),
      inOrder_of_single (blanks_of_head (isBlank_head_word hk _))]
    rfl
  have hlevel :=
    (prefers_levelWord hk (by decide +kernel : endsWord ']' = true) (' ' :: rest)).head?
  have hcut := cutStampFirst_of_head?
    (maybe_bracket_stamp hstamp (' ' :: '[' :: (k ++ ']' :: ' ' :: rest)))
    (hstamp.leading _).head? hbetween hlevel htail hm
  rwa [covered_append, covered_append] at hcut

theorem cut?_levelStamp (hm : IsMessage m) :
    Shape.levelStamp.cut? (k ++ ' ' :: (stamp ++ ' ' :: m)) = some ⟨some stamp, k, m⟩ := by
  have hhead : ∀ c ∈ (stamp ++ ' ' :: m).head?, isBlank c = false := by
    obtain ⟨c, cs, htext, hc⟩ := hstamp.exists_cons (' ' :: m)
    rw [htext]
    exact fun d hd => Option.some.inj hd ▸ isBlank_of_isDigit hc
  have hbetween : (inOrder [.maybe (.char ']'), someBlanks, .maybe (.char '[')]
      (' ' :: (stamp ++ ' ' :: m))).head? = some (stamp ++ ' ' :: m) := by
    rw [inOrder_of_single (maybe_char_of_ne (by decide) _),
      inOrder_of_single (someBlanks_space hhead),
      inOrder_of_single (maybe_bracket_stamp hstamp _)]
    rfl
  have hlevel :=
    (prefers_levelWord hk (by decide +kernel : endsWord ' ' = true) (stamp ++ ' ' :: m)).head?
  rw [Shape.cut?, cutLevelStamp, maybe_bracket_word hk, List.findSome?_singleton]
  refine findSome?_of_head? hlevel (findSome?_of_head? hbetween ?_)
  refine findSome?_of_head? (hstamp.textual (' ' :: m)).head? ?_
  rw [afterStamp_message hm, List.findSome?_singleton, hm.message?_eq, covered_append,
    covered_append]
  rfl

end Stamped

section Delimited

include hk

/-- A colon stands where the blanks before a stamp would, and so does a letter behind a shorter
word. -/
theorem cut?_levelStamp_colon (rest : List Char) :
    Shape.levelStamp.cut? (k ++ ':' :: rest) = none := by
  have hbetween : ∀ {c : Char}, Tight c → ∀ cs,
      inOrder [.maybe (.char ']'), someBlanks, .maybe (.char '[')] (c :: cs) = [] := by
    intro c hc cs
    rw [inOrder_of_single (maybe_char_of_ne hc.bracket cs),
      inOrder_of_none (someBlanks_of_neg hc.blank cs)]
  rw [Shape.cut?, cutLevelStamp, maybe_bracket_word hk, List.findSome?_singleton]
  refine (prefers_levelWord hk (by decide +kernel : endsWord ':' = true) rest).findSome?_eq_none ?_
    fun c hc cs => ?_
  · rw [hbetween ⟨by decide, by decide⟩, List.findSome?_nil]
  · rw [hbetween (tight_of_letter hc), List.findSome?_nil]

theorem cut?_levelDelimited (hm : IsMessage m) :
    Shape.levelDelimited.cut? (k ++ ':' :: ' ' :: m) = some ⟨none, k, m⟩ := by
  have hopen : seq (.maybe (.char '[')) blanks (k ++ ':' :: ' ' :: m) = [k ++ ':' :: ' ' :: m] :=
    (seq_of_single (maybe_bracket_word hk _)).trans (blanks_of_head (isBlank_head_word hk _))
  have hlevel := (prefers_levelWord hk (by decide +kernel : endsWord ':' = true) (' ' :: m)).head?
  rw [Shape.cut?, cutLevelDelimited, hopen, List.findSome?_singleton]
  refine findSome?_of_head? hlevel (findSome?_of_head? (afterColon_message hm) ?_)
  rw [hm.message?_eq, covered_append]
  rfl

end Delimited

end Lines

section First

variable {stamp k text : String} {m : List Char} (hk : IsLevelWord k.toList)
  (hstamp : IsStamp stamp.toList) (hm : message? m = some m)

include hk hstamp hm

theorem firstCut?_stampLevel (htail : (afterLevel (' ' :: text.toList)).head? = some m) :
    firstCut? (stamp ++ " " ++ k ++ " " ++ text) =
      some (⟨some stamp.toList, k.toList, m⟩, .stampLevel) := by
  have hraw : (stamp ++ " " ++ k ++ " " ++ text).toList =
      stamp.toList ++ ' ' :: (k.toList ++ ' ' :: text.toList) := by simp
  rw [firstCut?, hraw, Shape.all, List.findSome?_cons, cut?_stampLevel hk hstamp htail hm]
  rfl

theorem firstCut?_stampBracketedLevel
    (htail : (afterBracket (']' :: ' ' :: text.toList)).head? = some m) :
    firstCut? (stamp ++ " [" ++ k ++ "] " ++ text) =
      some (⟨some stamp.toList, k.toList, m⟩, .stampBracketedLevel) := by
  have hraw : (stamp ++ " [" ++ k ++ "] " ++ text).toList =
      stamp.toList ++ ' ' :: '[' :: (k.toList ++ ']' :: ' ' :: text.toList) := by simp
  rw [firstCut?, hraw, Shape.all, List.findSome?_cons, cut?_stampLevel_bracket hstamp,
    Option.map_none, List.findSome?_cons, cut?_stampBracketedLevel hk hstamp htail hm]
  rfl

end First

/-! ## What the cuts say -/

theorem header_of_stamp {stamp : String} {timestamp : Option Instant} {reference : Instant}
    (h : Stamp.parse stamp reference = .ok timestamp) (k m : List Char) :
    Cut.header ⟨some stamp.toList, k, m⟩ reference =
      .ok ⟨timestamp, Level.ofWord (String.ofList k), String.ofList (trim m)⟩ := by
  rw [Cut.header]
  simp only [String.ofList_toList, h]
  rfl

theorem header_of_no_stamp (reference : Instant) (k m : List Char) :
    Cut.header ⟨none, k, m⟩ reference =
      .ok ⟨none, Level.ofWord (String.ofList k), String.ofList (trim m)⟩ := rfl

theorem ofLine_of_header {line : String} {cut : Cut} {shape : Shape}
    (hcut : firstCut? line = some (cut, shape)) {reference : Instant} {header : Header}
    (hheader : cut.header reference = .ok header) :
    ofLine line reference = .ok (header, some shape) := by
  rw [ofLine, hcut]
  simp only [hheader]
  rfl

end Header

/-! ## Lines -/

open Header Stamp Layout Pattern

/-- The line makes an entry with the given time, level and message. -/
def MakesEntry (rules : ParserRules) (reference : Instant) (file : String) (line : Nat)
    (raw : String) (t : Instant) (level : Level) (message : String) : Prop :=
  ∃ e, parseLine rules reference raw file line = .ok (.entry e) ∧ e.timestamp = t ∧
    e.level = level ∧ e.message = message

/-- What begins a plain line that is not trimmed. -/
structure Opening (c : Char) : Prop where
  blank : isBlank c = false
  brace : c ≠ '\x7b'

theorem opening_stamp {stamp : List Char} (h : IsStamp stamp) (rest : List Char) :
    BeginsWith Opening (stamp ++ rest) := by
  obtain ⟨c, cs, htext, hc⟩ := h.exists_cons rest
  exact ⟨c, cs, htext, isBlank_of_isDigit hc, ne_of_isDigit hc (by decide)⟩

theorem opening_word {k : List Char} (hk : IsLevelWord k) (rest : List Char) :
    BeginsWith Opening (k ++ rest) := by
  obtain ⟨c, cs, rfl, hc⟩ := hk.exists_cons
  refine ⟨c, cs ++ rest, rfl, hc.blank, ?_⟩
  rintro rfl
  exact hc.mark (by decide)

section Lines

variable (rules : ParserRules) {reference : Instant} (file : String) (line : Nat)

/-- A plain line says what its header says. -/
theorem makesEntry_of_header {lead m : String} (hlead : BeginsWith Opening lead.toList)
    (hm : IsMessage m.toList) {cut : Cut} (shape : Shape)
    (hcut : firstCut? (lead ++ m) = some (cut, shape)) {timestamp : Option Instant} {level : Level}
    {message : String} (hheader : cut.header reference = .ok ⟨timestamp, level, message⟩) :
    MakesEntry rules reference file line (lead ++ m) (timestamp.getD reference) level message := by
  obtain ⟨c, cs, hcons, hopening⟩ := hlead
  have hraw : (lead ++ m).toList = c :: cs ++ m.toList := by rw [String.toList_append, hcons]
  have htrim : trim (lead ++ m).toList = (lead ++ m).toList := by
    rw [hraw]
    refine trim_eq_self (List.cons_ne_nil _ _) (fun d hd => ?_) fun d hd => ?_
    · exact Option.some.inj hd ▸ hopening.blank
    · rw [List.getLast?_append_of_ne_nil _ hm.ne_nil] at hd
      exact (ends_of_trim_eq_self hm.trimmed).2 d hd
  have htrimmed : trimText (lead ++ m) = lead ++ m := by
    rw [trimText, htrim, String.ofList_toList]
  have hempty : ¬(lead ++ m).isEmpty = true := by
    rw [String.isEmpty_iff, ← String.toList_inj, hraw]
    exact List.cons_ne_nil _ _
  have hlooks : Structured.looksStructured (lead ++ m).toList = false := by
    have hhead : ((c :: cs ++ m.toList).head? == some '\x7b') = false := by
      simpa using hopening.brace
    rw [Structured.looksStructured, hraw, hhead, Bool.false_and]
  rw [MakesEntry, parseLine, htrimmed, if_neg hempty, hlooks, plainEntry,
    ofLine_of_header hcut hheader]
  exact ⟨_, rfl, rfl, rfl, rfl⟩

variable {k m : String} (hk : IsLevelWord k.toList) (hm : IsMessage m.toList)

include hm

section Stamped

variable {t : Instant} (ht : t.WholeMillis) (hyear : 0 ≤ t.year ∧ t.year ≤ 9999)

include ht

theorem makesEntry_of_stamp {lead : String} (hlead : BeginsWith Opening lead.toList) (shape : Shape)
    (hcut : firstCut? (lead ++ m) =
      some (⟨some t.toMillisText.toList, k.toList, m.toList⟩, shape)) :
    MakesEntry rules reference file line (lead ++ m) t (Level.ofWord k) m := by
  have hheader := header_of_stamp (parse_wholeMillis ht reference) k.toList m.toList
  rw [hm.trimmed, String.ofList_toList, String.ofList_toList] at hheader
  exact makesEntry_of_header rules file line hlead hm shape hcut hheader

include hyear hk

theorem makesEntry_stampLevel :
    MakesEntry rules reference file line (t.toMillisText ++ " " ++ k ++ " " ++ m) t
      (Level.ofWord k) m := by
  refine makesEntry_of_stamp rules file line hm ht ?_ .stampLevel ?_
  · simp only [String.toList_append, List.append_assoc]
    exact opening_stamp (isStamp_toMillisText hyear) _
  · exact firstCut?_stampLevel hk (isStamp_toMillisText hyear) hm.message?_eq
      (afterLevel_message hm)

theorem makesEntry_stampBracketedLevel :
    MakesEntry rules reference file line (t.toMillisText ++ " [" ++ k ++ "] " ++ m) t
      (Level.ofWord k) m := by
  refine makesEntry_of_stamp rules file line hm ht ?_ .stampBracketedLevel ?_
  · simp only [String.toList_append, List.append_assoc]
    exact opening_stamp (isStamp_toMillisText hyear) _
  · exact firstCut?_stampBracketedLevel hk (isStamp_toMillisText hyear) hm.message?_eq
      (afterBracket_message hm)

theorem makesEntry_levelStamp :
    MakesEntry rules reference file line (k ++ " " ++ t.toMillisText ++ " " ++ m) t
      (Level.ofWord k) m := by
  refine makesEntry_of_stamp rules file line hm ht ?_ .levelStamp ?_
  · simp only [String.toList_append, List.append_assoc]
    exact opening_word hk _
  · have hraw : (k ++ " " ++ t.toMillisText ++ " " ++ m).toList =
        k.toList ++ ' ' :: (t.toMillisText.toList ++ ' ' :: m.toList) := by simp
    rw [firstCut?, hraw, Shape.all, List.findSome?_cons, Shape.cut?, cutStampFirst_word hk,
      Option.map_none, List.findSome?_cons, Shape.cut?, cutStampFirst_word hk, Option.map_none,
      List.findSome?_cons, cut?_levelStamp hk (isStamp_toMillisText hyear) hm]
    rfl

end Stamped

include hk in
theorem makesEntry_levelDelimited :
    MakesEntry rules reference file line (k ++ ": " ++ m) reference (Level.ofWord k) m := by
  have hheader := header_of_no_stamp reference k.toList m.toList
  rw [hm.trimmed, String.ofList_toList, String.ofList_toList] at hheader
  have hlead : BeginsWith Opening (k ++ ": ").toList := by
    rw [String.toList_append]
    exact opening_word hk _
  have hcut : firstCut? (k ++ ": " ++ m) = some (⟨none, k.toList, m.toList⟩, .levelDelimited) := by
    have hraw : (k ++ ": " ++ m).toList = k.toList ++ ':' :: ' ' :: m.toList := by simp
    rw [firstCut?, hraw, Shape.all, List.findSome?_cons, Shape.cut?, cutStampFirst_word hk,
      Option.map_none, List.findSome?_cons, Shape.cut?, cutStampFirst_word hk, Option.map_none,
      List.findSome?_cons, cut?_levelStamp_colon hk, Option.map_none, List.findSome?_cons,
      cut?_levelDelimited hk hm]
    rfl
  exact makesEntry_of_header rules file line hlead hm .levelDelimited hcut hheader

end Lines

/-- Whatever a message holds, and in whatever case the level word is written: behind a header of any
shape the message is read as it is, with the instant and the level that the header was written
with. -/
theorem parseLine_header (rules : ParserRules) (reference : Instant) (file : String) (line : Nat)
    {t : Instant} (ht : t.WholeMillis) (hyear : 0 ≤ t.year ∧ t.year ≤ 9999) {k m : String}
    (hk : IsLevelWord k.toList) (hm : IsMessage m.toList) :
    MakesEntry rules reference file line (t.toMillisText ++ " " ++ k ++ " " ++ m) t
        (Level.ofWord k) m ∧
      MakesEntry rules reference file line (t.toMillisText ++ " [" ++ k ++ "] " ++ m) t
        (Level.ofWord k) m ∧
      MakesEntry rules reference file line (k ++ " " ++ t.toMillisText ++ " " ++ m) t
        (Level.ofWord k) m ∧
      MakesEntry rules reference file line (k ++ ": " ++ m) reference (Level.ofWord k) m :=
  ⟨makesEntry_stampLevel rules file line hk hm ht hyear,
    makesEntry_stampBracketedLevel rules file line hk hm ht hyear,
    makesEntry_levelStamp rules file line hk hm ht hyear,
    makesEntry_levelDelimited rules file line hk hm⟩

/-- A message that could go on as a header, behind a word that goes on from another one. -/
theorem parseLine_header_warning :
    let t : Instant := ⟨1759320000, 120000000, by decide, by decide, by decide⟩
    let m := "[ERR] 2024-01-01T00:00:00Z - user=7: down"
    MakesEntry {} .earliest "a.log" 1 ("2025-10-01T12:00:00.120Z wArning " ++ m) t .warn m ∧
      MakesEntry {} .earliest "a.log" 1 ("2025-10-01T12:00:00.120Z [wArning] " ++ m) t .warn m ∧
      MakesEntry {} .earliest "a.log" 1 ("wArning 2025-10-01T12:00:00.120Z " ++ m) t .warn m ∧
      MakesEntry {} .earliest "a.log" 1 ("wArning: " ++ m) .earliest .warn m := by
  intro t m
  have ht : t.WholeMillis := ⟨by decide, by decide⟩
  have hyear : 0 ≤ t.year ∧ t.year ≤ 9999 := by decide +kernel
  have hk : IsLevelWord "wArning".toList := by decide +kernel
  have hm : IsMessage m.toList :=
    ⟨by decide +kernel, by decide +kernel, by decide +kernel, by simp [m]⟩
  have htext : t.toMillisText = "2025-10-01T12:00:00.120Z" := by decide +kernel
  have hlevel : Level.ofWord "wArning" = .warn := by decide +kernel
  have hlines := parseLine_header {} .earliest "a.log" 1 ht hyear hk hm
  rw [htext, hlevel] at hlines
  exact hlines

end LogLens
