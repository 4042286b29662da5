/-
What a header takes of a line.

Whichever shape cuts a line, the parts it names stand in the line as they are, and nothing else is
in front of the message but blanks, brackets and marks (`divides_of_cut?`).  So a header swallows no
text, and the first shape that has the line among its texts decides (`ofLine_reads`).
-/
import LogLens.Proofs.Header.Languages
import LogLens.Proofs.Time.Placement

namespace LogLens
namespace Header

open Pattern Stamp

/-! ## Parts of a line -/

/-- What may stand around the parts of a header. -/
def isGlue (c : Char) : Bool := isBlank c || ['[', ']', ':', '|', '-'].contains c

/-- What shows that a level word is over. -/
def Closing (c : Char) : Prop := isBlank c = true ∨ c ∈ [':', '|', ']']

/-- A line in the parts that a cut tells apart. -/
inductive Cut.Divides : Cut → List Char → Prop
  | stampFirst {opening stamp between level behind message : List Char}
      (hopening : opening ∈ run isGlue) (hstamp : stamp ∈ leadingTexts)
      (hbetween : between ∈ run isGlue) (hlevel : level ∈ levelTexts)
      (hclosed : ∀ c ∈ (behind ++ message).head?, Closing c) (hbehind : behind ∈ run isGlue) :
      Divides ⟨some stamp, level, message⟩
        (opening ++ (stamp ++ (between ++ (level ++ (behind ++ message)))))
  | levelFirst {opening level between stamp behind message : List Char}
      (hopening : opening ∈ run isGlue) (hlevel : level ∈ levelTexts)
      (hclosed : BeginsWith Closing between) (hbetween : between ∈ run isGlue)
      (hstamp : stamp ∈ textualTexts) (hbehind : behind ∈ run isGlue) :
      Divides ⟨some stamp, level, message⟩
        (opening ++ (level ++ (between ++ (stamp ++ (behind ++ message)))))
  | levelOnly {opening level behind message : List Char} (hopening : opening ∈ run isGlue)
      (hlevel : level ∈ levelTexts) (hclosed : BeginsWith Closing behind)
      (hbehind : behind ∈ run isGlue) :
      Divides ⟨none, level, message⟩ (opening ++ (level ++ (behind ++ message)))

/-! ## Glue -/

theorem isGlue_of_isBlank (c : Char) (h : isBlank c = true) : isGlue c = true := by
  rw [isGlue, h, Bool.true_or]

theorem isGlue_of_colonOrBar (c : Char) (h : (c == ':' || c == '|') = true) : isGlue c = true := by
  rcases Bool.or_eq_true_iff.mp h with h | h <;> obtain rfl := eq_of_beq h <;> decide

theorem isGlue_of_mark (c : Char) (h : (c == ':' || c == '|' || c == '-') = true) :
    isGlue c = true := by
  rcases Bool.or_eq_true_iff.mp h with h | h
  · exact isGlue_of_colonOrBar c h
  · obtain rfl := eq_of_beq h
    decide

theorem closing_of_colonOrBar (c : Char) (h : (c == ':' || c == '|') = true) : Closing c := by
  rcases Bool.or_eq_true_iff.mp h with h | h <;> obtain rfl := eq_of_beq h <;>
    exact Or.inr (by decide)

theorem blanks_le_glue : run isBlank ≤ run isGlue := run_le_run isGlue_of_isBlank

theorem someBlanks_le_glue : someRun isBlank ≤ run isGlue := someRun_le_run isGlue_of_isBlank

theorem maybe_mark_le_glue {c : Char} (h : isGlue c = true) : mark c + 1 ≤ run isGlue :=
  add_le_run (mark_le_run h) one_le_run

theorem opens_someBlanks : Opens Closing (someRun isBlank) :=
  (opens_letter fun _ => Or.inl).mul _

theorem closeTexts_le_glue : closeTexts ≤ run isGlue :=
  mul_le_run (maybe_mark_le_glue (by decide)) someBlanks_le_glue

theorem openBracketTexts_le_glue : openBracketTexts ≤ run isGlue :=
  mul_le_run (maybe_mark_le_glue (by decide)) (mul_le_run someBlanks_le_glue
    (mul_le_run (mark_le_run (by decide)) (mul_le_run blanks_le_glue one_le_run)))

theorem markTexts_le_glue : markTexts ≤ run isGlue := by
  refine add_le_run ?_ (add_le_run ?_ someBlanks_le_glue)
  · exact mul_le_run blanks_le_glue (mul_le_run (letter_le_run isGlue_of_colonOrBar)
      (mul_le_run blanks_le_glue one_le_run))
  · exact mul_le_run someBlanks_le_glue (mul_le_run (mark_le_run (by decide))
      (mul_le_run someBlanks_le_glue one_le_run))

theorem opens_markTexts : Opens Closing markTexts := by
  refine .add ?_ (.add ?_ opens_someBlanks)
  · exact .run_mul ((opens_letter closing_of_colonOrBar).mul _) le_rfl fun _ => Or.inl
  · exact opens_someBlanks.mul _

theorem bracketTexts_le_glue : bracketTexts ≤ run isGlue :=
  mul_le_run blanks_le_glue (mul_le_run (mark_le_run (by decide)) (mul_le_run blanks_le_glue
    (mul_le_run (add_le_run (letter_le_run isGlue_of_mark) one_le_run)
      (mul_le_run blanks_le_glue one_le_run))))

theorem opens_bracketTexts : Opens Closing bracketTexts :=
  .run_mul ((opens_mark (Or.inr (by decide))).mul _) le_rfl fun _ => Or.inl

theorem betweenTexts_le_glue : betweenTexts ≤ run isGlue :=
  mul_le_run (maybe_mark_le_glue (by decide)) (mul_le_run someBlanks_le_glue
    (mul_le_run (maybe_mark_le_glue (by decide)) one_le_run))

theorem opens_betweenTexts : Opens Closing betweenTexts := by
  rw [betweenTexts, List.prod_cons, add_mul, one_mul]
  exact .add ((opens_mark (Or.inr (by decide))).mul _) (opens_someBlanks.mul _)

theorem stampEndTexts_le_glue : stampEndTexts ≤ run isGlue := by
  refine mul_le_run (add_le_run (mark_le_run (by decide)) someBlanks_le_glue)
    (mul_le_run blanks_le_glue (mul_le_run (add_le_run ?_ one_le_run) one_le_run))
  simp only [List.sum_cons, List.sum_nil, add_zero]
  refine add_le_run ?_ ?_
  · exact mul_le_run (letter_le_run isGlue_of_colonOrBar) blanks_le_glue
  · exact mul_le_run (mark_le_run (by decide)) someBlanks_le_glue

theorem delimiterTexts_le_glue : delimiterTexts ≤ run isGlue := by
  refine mul_le_run ?_ (mul_le_run blanks_le_glue one_le_run)
  simp only [List.sum_cons, List.sum_nil, add_zero]
  refine add_le_run ?_ (add_le_run ?_ ?_)
  · exact mul_le_run blanks_le_glue (mark_le_run (by decide))
  · exact mul_le_run blanks_le_glue (letter_le_run isGlue_of_colonOrBar)
  · exact mul_le_run someBlanks_le_glue (mul_le_run (mark_le_run (by decide))
      (mul_le_run (letter_le_run isGlue_of_isBlank) one_le_run))

theorem opens_delimiterTexts : Opens Closing delimiterTexts := by
  refine .mul ?_ _
  simp only [List.sum_cons, List.sum_nil, add_zero]
  refine .add ?_ (.add ?_ ?_)
  · exact .run_mul (opens_mark (Or.inr (by decide))) le_rfl fun _ => Or.inl
  · exact .run_mul (opens_letter closing_of_colonOrBar) le_rfl fun _ => Or.inl
  · exact opens_someBlanks.mul _

/-! ## Cuts -/

/-- What the pattern covers is glue, and shows that the word in front of it is over. -/
def Ends (tail : Pattern) : Prop := ∀ cs rest, rest ∈ tail cs →
  (∀ c ∈ cs.head?, Closing c) ∧ ∃ behind ∈ run isGlue, behind ++ rest = cs

theorem closing_head? {w : List Char} (h : BeginsWith Closing w) (rest : List Char) :
    ∀ c ∈ (w ++ rest).head?, Closing c := by
  obtain ⟨d, w, rfl, hd⟩ := h
  intro c hc
  obtain rfl := Option.some.inj hc
  exact hd

theorem ends_afterLevel : Ends afterLevel := by
  intro cs rest hrest
  rcases (spellsOrEnd_afterLevel cs rest).mp hrest with ⟨w, hw, rfl⟩ | ⟨rfl, rfl⟩
  · exact ⟨closing_head? (opens_markTexts w hw) rest, w, markTexts_le_glue hw, rfl⟩
  · refine ⟨fun c hc => ?_, [], nil_mem_run _, rfl⟩
    cases hc

theorem ends_afterBracket : Ends (.inOrder [blanks, .char ']', blanks,
    .maybe (.one fun c => c == ':' || c == '|' || c == '-'), blanks]) := by
  intro cs rest hrest
  obtain ⟨w, hw, rfl⟩ := (spells_afterBracket cs rest).mp hrest
  exact ⟨closing_head? (opens_bracketTexts w hw) rest, w, bracketTexts_le_glue hw, rfl⟩

theorem eq_of_message? {cs m : List Char} (h : message? cs = some m) : cs = m := by
  rw [message?] at h
  split at h
  · cases h
  · exact Option.some.inj h

section Cuts

variable {cs : List Char} {cut : Cut}

theorem maybe_bracket_le_glue : mark '[' + 1 ≤ run isGlue := maybe_mark_le_glue (by decide)

theorem divides_of_cutStampFirst {between tail : Pattern} {B : Language Char}
    (hbetween : Spells between B) (hglue : B ≤ run isGlue) (htail : Ends tail)
    (h : cutStampFirst between tail cs = some cut) : cut.Divides cs := by
  rw [cutStampFirst] at h
  obtain ⟨opening, hopening, atStamp, rfl, h₁⟩ := (spells_char '[').maybe.exists_of_findSome? h
  obtain ⟨stamp, hstamp, behindStamp, rfl, h₂⟩ := spells_leadingStamp.exists_of_findSome? h₁
  obtain ⟨mid, hmid, atLevel, rfl, h₃⟩ := hbetween.exists_of_findSome? h₂
  obtain ⟨level, hlevel, behindLevel, rfl, h₄⟩ := spells_levelWord.exists_of_findSome? h₃
  obtain ⟨rest, hrest, h₅⟩ := List.exists_of_findSome?_eq_some h₄
  obtain ⟨hclosed, behind, hbehind, rfl⟩ := htail _ _ hrest
  obtain ⟨m, hm, rfl⟩ := Option.map_eq_some_iff.mp h₅
  obtain rfl := eq_of_message? hm
  rw [covered_append, covered_append]
  exact .stampFirst (maybe_bracket_le_glue hopening) hstamp (hglue hmid) hlevel hclosed hbehind

theorem divides_of_cutLevelStamp (h : cutLevelStamp cs = some cut) : cut.Divides cs := by
  rw [cutLevelStamp] at h
  obtain ⟨opening, hopening, atLevel, rfl, h₁⟩ := (spells_char '[').maybe.exists_of_findSome? h
  obtain ⟨level, hlevel, behindLevel, rfl, h₂⟩ := spells_levelWord.exists_of_findSome? h₁
  obtain ⟨between, hbetween, atStamp, rfl, h₃⟩ := spells_between.exists_of_findSome? h₂
  obtain ⟨stamp, hstamp, behindStamp, rfl, h₄⟩ := spells_textual.exists_of_findSome? h₃
  obtain ⟨rest, hrest, h₅⟩ := List.exists_of_findSome?_eq_some h₄
  obtain ⟨m, hm, rfl⟩ := Option.map_eq_some_iff.mp h₅
  obtain rfl := eq_of_message? hm
  obtain ⟨behind, hbehind, rfl⟩ : ∃ behind ∈ run isGlue, behind ++ rest = behindStamp := by
    rcases (spellsOrEnd_stampEnd behindStamp rest).mp hrest with ⟨w, hw, rfl⟩ | ⟨rfl, rfl⟩
    · exact ⟨w, stampEndTexts_le_glue hw, rfl⟩
    · exact ⟨[], nil_mem_run _, rfl⟩
  rw [covered_append, covered_append]
  exact .levelFirst (maybe_bracket_le_glue hopening) hlevel (opens_betweenTexts _ hbetween)
    (betweenTexts_le_glue hbetween) hstamp hbehind

theorem divides_of_cutLevelDelimited (h : cutLevelDelimited cs = some cut) : cut.Divides cs := by
  rw [cutLevelDelimited] at h
  have hopen : Spells (.seq (.maybe (.char '[')) blanks) ((mark '[' + 1) * run isBlank) :=
    (spells_char '[').maybe.seq (spells_many _)
  obtain ⟨opening, hopening, atLevel, rfl, h₁⟩ := hopen.exists_of_findSome? h
  obtain ⟨level, hlevel, behindLevel, rfl, h₂⟩ := spells_levelWord.exists_of_findSome? h₁
  obtain ⟨behind, hbehind, rest, rfl, h₃⟩ := spells_delimiter.exists_of_findSome? h₂
  obtain ⟨m, hm, rfl⟩ := Option.map_eq_some_iff.mp h₃
  obtain rfl := eq_of_message? hm
  rw [covered_append]
  exact .levelOnly (mul_le_run maybe_bracket_le_glue blanks_le_glue hopening) hlevel
    (opens_delimiterTexts _ hbehind) (delimiterTexts_le_glue hbehind)

/-- Whatever the shape, a cut takes the line apart and drops nothing. -/
theorem divides_of_cut? {shape : Shape} (h : shape.cut? cs = some cut) : cut.Divides cs := by
  cases shape with
  | stampLevel =>
    exact divides_of_cutStampFirst spells_close closeTexts_le_glue ends_afterLevel h
  | stampBracketedLevel =>
    exact divides_of_cutStampFirst spells_openBracket openBracketTexts_le_glue ends_afterBracket h
  | levelStamp => exact divides_of_cutLevelStamp h
  | levelDelimited => exact divides_of_cutLevelDelimited h

end Cuts

/-! ## Lines -/

theorem cut?_eq_none_iff {shape : Shape} {cs : List Char} :
    shape.cut? cs = none ↔ cs ∉ shape.language := by
  rw [← isSome_cut?, Option.not_isSome_iff_eq_none]

/-- The time of a header is that of its stamp. -/
def Cut.Dated (cut : Cut) (reference : Instant) (timestamp : Option Instant) : Prop :=
  match cut.stamp with
  | none => timestamp = none
  | some stamp => Stamp.parse (String.ofList stamp) reference = .ok timestamp

/-- What a line says by the first shape whose text it is, or without a shape. -/
inductive Reads (line : String) (reference : Instant) : Header → Option Shape → Prop
  | cut {cut : Cut} {shape : Shape} {earlier later : List Shape} {timestamp : Option Instant}
      (hall : Shape.all = earlier ++ shape :: later)
      (hfirst : ∀ other ∈ earlier, line.toList ∉ other.language)
      (hline : line.toList ∈ shape.language) (hparts : cut.Divides line.toList)
      (htime : cut.Dated reference timestamp) :
      Reads line reference ⟨timestamp, Level.ofWord (String.ofList cut.level),
        String.ofList (trim cut.message)⟩ (some shape)
  | whole {header : Header} (hnone : ∀ shape : Shape, line.toList ∉ shape.language)
      (hmessage : header.message = line) : Reads line reference header none

theorem dated_of_header {cut : Cut} {reference : Instant} {header : Header}
    (h : cut.header reference = .ok header) :
    ∃ timestamp, cut.Dated reference timestamp ∧ header = ⟨timestamp,
      Level.ofWord (String.ofList cut.level), String.ofList (trim cut.message)⟩ := by
  rw [Cut.header] at h
  unfold Cut.Dated
  cases hstamp : cut.stamp with
  | none =>
    rw [hstamp] at h
    exact ⟨none, rfl, (Except.ok.inj h).symm⟩
  | some stamp =>
    rw [hstamp] at h
    cases htime : Stamp.parse (String.ofList stamp) reference with
    | error e =>
      simp only [htime] at h
      cases h
    | ok timestamp =>
      simp only [htime] at h
      exact ⟨timestamp, htime, (Except.ok.inj h).symm⟩

theorem message_of_scanned {line : String} {reference : Instant} {header : Header}
    (h : scanned line reference = .ok header) : header.message = line := by
  rw [scanned] at h
  cases htime : Stamp.find line reference with
  | error e =>
    rw [htime] at h
    cases h
  | ok timestamp =>
    rw [htime] at h
    obtain rfl := Except.ok.inj h
    rfl

theorem not_mem_language_of_firstCut? {line : String} (h : firstCut? line = none)
    (shape : Shape) : line.toList ∉ shape.language := by
  have hmem : shape ∈ Shape.all := by cases shape <;> decide
  have hshape := List.findSome?_eq_none_iff.mp h shape hmem
  exact cut?_eq_none_iff.mp (Option.map_eq_none_iff.mp hshape)

/-- The shape that cuts a line is the first that can. -/
theorem exists_of_firstCut? {line : String} {cut : Cut} {shape : Shape}
    (h : firstCut? line = some (cut, shape)) : shape.cut? line.toList = some cut ∧
      ∃ earlier later, Shape.all = earlier ++ shape :: later ∧
        ∀ other ∈ earlier, line.toList ∉ other.language := by
  obtain ⟨earlier, first, later, hall, hfirst, hearlier⟩ := List.findSome?_eq_some_iff.mp h
  obtain ⟨cut', hcut, hpair⟩ := Option.map_eq_some_iff.mp hfirst
  obtain ⟨rfl, rfl⟩ := Prod.mk.inj hpair
  refine ⟨hcut, earlier, later, hall, fun other hother => ?_⟩
  exact cut?_eq_none_iff.mp (Option.map_eq_none_iff.mp (hearlier other hother))

theorem reads_of_ofLine {line : String} {reference : Instant} {header : Header}
    {shape : Option Shape} (h : ofLine line reference = .ok (header, shape)) :
    Reads line reference header shape := by
  rw [ofLine] at h
  cases hfirst : firstCut? line with
  | none =>
    rw [hfirst] at h
    cases hscanned : scanned line reference with
    | error e =>
      simp only [hscanned] at h
      cases h
    | ok found =>
      simp only [hscanned] at h
      obtain ⟨rfl, rfl⟩ := Prod.mk.inj (Except.ok.inj h)
      exact .whole (not_mem_language_of_firstCut? hfirst) (message_of_scanned hscanned)
  | some found =>
    obtain ⟨cut, first⟩ := found
    rw [hfirst] at h
    obtain ⟨hcut, earlier, later, hall, hearlier⟩ := exists_of_firstCut? hfirst
    cases hheader : cut.header reference with
    | error e =>
      simp only [hheader] at h
      cases h
    | ok found =>
      simp only [hheader] at h
      obtain ⟨rfl, rfl⟩ := Prod.mk.inj (Except.ok.inj h)
      obtain ⟨timestamp, htime, rfl⟩ := dated_of_header hheader
      have hline := (isSome_cut? first line.toList).mp (Option.isSome_of_eq_some hcut)
      exact .cut hall hearlier hline (divides_of_cut? hcut) htime

/-- A line is read by the first shape that has it among its texts, and is its own message when no
shape has.  Nothing is read only when a time without a year would have to be placed from the last
representable day. -/
theorem ofLine_reads (line : String) (reference : Instant) :
    (∃ header shape, ofLine line reference = .ok (header, shape) ∧
      Reads line reference header shape) ∨
    ofLine line reference = .error ⟨⟩ ∧ ¬reference.HasNextDay := by
  cases h : ofLine line reference with
  | ok found => exact Or.inl ⟨found.1, found.2, rfl, reads_of_ofLine h⟩
  | error e =>
    refine Or.inr ⟨rfl, fun hday => ?_⟩
    obtain ⟨found, hfound⟩ := ofLine_isOk hday line
    exact absurd (hfound.symm.trans h) (by simp)

/-- On the last representable day a line whose stamp has no year is not read. -/
theorem ofLine_lastDay :
    ¬∃ header shape, ofLine "Oct  1 12:00:00 ERROR up" .latest = .ok (header, shape) ∧
      Reads "Oct  1 12:00:00 ERROR up" .latest header shape := by
  have herror : (ofLine "Oct  1 12:00:00 ERROR up" .latest).toOption = none := by decide +kernel
  rintro ⟨header, shape, hline, -⟩
  rw [hline] at herror
  cases herror

end Header
end LogLens
