/-
Level words in brackets.

Behind one stamp, a level in brackets and a bare one are set off from the message by the same marks,
with one exception: a dash that is glued to what follows is left to the message behind a bare level,
and is taken off it behind one in brackets (`ofLine_bracketed`).
-/
import LogLens.Proofs.Header.Shapes

namespace LogLens
namespace Header

open Pattern Stamp

/-! ## Written stamps -/

/-- The text of an instant names its year, so it is read without the time of reading. -/
theorem exists_parse_written {t : Instant} (hyear : 0 ≤ t.year ∧ t.year ≤ 9999) {fraction : String}
    (hfraction : IsFraction fraction.toList) :
    ∃ timestamp, ∀ reference,
      Stamp.parse (Instant.written t.civil fraction) reference = .ok timestamp := by
  have hdigit := (isStamp_written hyear hfraction).digit
  have hlast : (Instant.written t.civil fraction).toList.getLast? = some 'Z' := by
    rw [Instant.written, String.toList_append]
    exact List.getLast?_concat
  have hsolid : Solid (Instant.written t.civil fraction).toList := by
    refine solid_of_ends (fun c hc => ?_) (Or.inr hlast)
    obtain ⟨d, ds, hcons, hd⟩ := hdigit
    rw [hcons] at hc
    obtain rfl := Option.some.inj hc
    exact edge_of_isDigit hd (by decide)
  exact exists_parse_of_isDigit (inner_of_around hsolid (.refl _))
    (.of_mem (List.mem_of_getLast? hlast) (by decide) (by decide)) hdigit

/-! ## Messages behind marks -/

theorem behindMark_suffix (m : List Char) : behindMark m <:+ m := by
  cases m with
  | nil => exact List.suffix_rfl
  | cons c rest =>
    rw [behindMark]
    split
    · exact (List.dropWhile_suffix _).trans (List.suffix_cons c rest)
    · exact List.suffix_rfl

/-- Without its glued dash, a text that is trimmed still is. -/
theorem trim_behindMark_of_gluedDash {m : List Char} (htrim : trim m = m) (hglued : GluedDash m) :
    m = '-' :: trim (behindMark m) := by
  obtain ⟨rest, rfl, hrest⟩ := hglued
  have hbehind : behindMark ('-' :: rest) = rest := by
    rw [behindMark, if_pos (by decide)]
    cases rest with
    | nil => rfl
    | cons c rest => exact List.dropWhile_cons_of_neg (by simp [hrest c rfl])
  rw [hbehind]
  cases rest with
  | nil => rfl
  | cons c rest =>
    have hlast : ∀ d ∈ (c :: rest).getLast?, isBlank d = false := by
      intro d hd
      refine (ends_of_trim_eq_self htrim).2 d ?_
      rwa [List.getLast?_cons_cons]
    rw [trim_eq_self (List.cons_ne_nil c rest) hrest hlast]

/-! ## Both spellings -/

theorem ofLine_of_firstCut? {line stamp k : String} {m : List Char} {shape : Shape}
    (hcut : firstCut? line = some (⟨some stamp.toList, k.toList, m⟩, shape)) {reference : Instant}
    {timestamp : Option Instant} (hstamp : Stamp.parse stamp reference = .ok timestamp) :
    ofLine line reference =
      .ok (⟨timestamp, Level.ofWord k, String.ofList (trim m)⟩, some shape) := by
  have hheader := header_of_stamp hstamp k.toList m
  rw [String.ofList_toList] at hheader
  exact ofLine_of_header hcut hheader

/-- A level says the same with and without brackets, and so does the stamp in front of it.  So does
the message, unless it begins with a glued dash: then it is whole behind a bare level, and its dash
is lost behind one in brackets. -/
theorem ofLine_bracketed {t : Instant} (hyear : 0 ≤ t.year ∧ t.year ≤ 9999)
    {fraction k m : String} (hfraction : IsFraction fraction.toList) (hk : IsLevelWord k.toList)
    (htrim : trimText m = m) (hnewline : '\n' ∉ m.toList) (reference : Instant) :
    ∃ timestamp bare bracketed,
      Stamp.parse (Instant.written t.civil fraction) reference = .ok timestamp ∧
      ofLine (Instant.written t.civil fraction ++ " " ++ k ++ " " ++ m) reference =
        .ok (⟨timestamp, Level.ofWord k, bare⟩, some .stampLevel) ∧
      ofLine (Instant.written t.civil fraction ++ " [" ++ k ++ "] " ++ m) reference =
        .ok (⟨timestamp, Level.ofWord k, bracketed⟩, some .stampBracketedLevel) ∧
      (¬GluedDash m.toList → bracketed = bare) ∧
      (GluedDash m.toList → bare = m ∧ m = "-" ++ bracketed) := by
  have htrim' : trim m.toList = m.toList := by
    have htext := congrArg String.toList htrim
    rwa [trimText, String.toList_ofList] at htext
  have hhead := (ends_of_trim_eq_self htrim').1
  have hstamp := isStamp_written hyear hfraction
  have hbehind := message?_of_suffix hnewline (behindMark_suffix m.toList)
  obtain ⟨timestamp, hparse⟩ := exists_parse_written hyear hfraction
  have hbracketed := ofLine_of_firstCut?
    (firstCut?_stampBracketedLevel hk hstamp hbehind (head?_afterBracket hhead)) (hparse reference)
  by_cases hglued : GluedDash m.toList
  · have htail : (afterLevel (' ' :: m.toList)).head? = some m.toList := by
      rw [afterLevel_gluedDash hhead hglued]
      rfl
    have hwhole := message?_of_suffix hnewline List.suffix_rfl
    have hbare := ofLine_of_firstCut? (firstCut?_stampLevel hk hstamp hwhole htail)
      (hparse reference)
    refine ⟨timestamp, _, _, hparse reference, hbare, hbracketed, absurd hglued, fun _ => ?_⟩
    have hdash : m = "-" ++ String.ofList (trim (behindMark m.toList)) := by
      rw [← String.toList_inj, String.toList_append, String.toList_ofList, String.toList_ofList]
      exact trim_behindMark_of_gluedDash htrim' hglued
    exact ⟨htrim, hdash⟩
  · have hbare := ofLine_of_firstCut?
      (firstCut?_stampLevel hk hstamp hbehind (head?_afterLevel hhead hglued)) (hparse reference)
    exact ⟨timestamp, _, _, hparse reference, hbare, hbracketed, fun _ => rfl,
      fun h => absurd h hglued⟩

/-- Behind brackets or not, a dash between blanks is a mark. -/
theorem ofLine_bracketed_mark :
    ∃ timestamp bare bracketed,
      Stamp.parse "2025-10-01T12:00:00.25Z" .earliest = .ok timestamp ∧
      ofLine "2025-10-01T12:00:00.25Z wArning - -1 returned" .earliest =
        .ok (⟨timestamp, .warn, bare⟩, some .stampLevel) ∧
      ofLine "2025-10-01T12:00:00.25Z [wArning] - -1 returned" .earliest =
        .ok (⟨timestamp, .warn, bracketed⟩, some .stampBracketedLevel) ∧
      bracketed = bare := by
  let t : Instant := ⟨1759320000, 250000000, by decide, by decide, by decide⟩
  have hyear : 0 ≤ t.year ∧ t.year ≤ 9999 := by decide +kernel
  have hfraction : IsFraction ".25".toList :=
    .digits (by decide) (List.all_eq_true.mp (by decide))
  have hk : IsLevelWord "wArning".toList := by decide +kernel
  have htrim : trimText "- -1 returned" = "- -1 returned" := by decide +kernel
  have hnewline : '\n' ∉ "- -1 returned".toList := by decide +kernel
  have hglued : ¬GluedDash "- -1 returned".toList := by
    rintro ⟨rest, hrest, hhead⟩
    obtain rfl : " -1 returned".toList = rest := (List.cons.inj hrest).2
    exact absurd (hhead ' ' rfl) (by decide)
  have htext : Instant.written t.civil ".25" = "2025-10-01T12:00:00.25Z" := by decide +kernel
  have hlevel : Level.ofWord "wArning" = .warn := by decide +kernel
  obtain ⟨timestamp, bare, bracketed, hparse, hbare, hbracketed, hsame, -⟩ :=
    ofLine_bracketed hyear hfraction hk htrim hnewline .earliest
  rw [htext, hlevel] at hbare hbracketed
  rw [htext] at hparse
  exact ⟨timestamp, bare, bracketed, hparse, hbare, hbracketed, hsame hglued⟩

/-- A message that begins with a negative number loses its sign behind a level in brackets. -/
theorem ofLine_bracketed_sign :
    let t : Instant := ⟨1759320000, 0, by decide, by decide, by decide⟩
    Instant.written t.civil "" = "2025-10-01T12:00:00Z" ∧ IsLevelWord "ERROR".toList ∧
      trimText "-1 returned" = "-1 returned" ∧ '\n' ∉ "-1 returned".toList ∧
      ofLine "2025-10-01T12:00:00Z ERROR -1 returned" .earliest =
        .ok (⟨some t, .error, "-1 returned"⟩, some .stampLevel) ∧
      ofLine "2025-10-01T12:00:00Z [ERROR] -1 returned" .earliest =
        .ok (⟨some t, .error, "1 returned"⟩, some .stampBracketedLevel) := by
  decide +kernel

end Header
end LogLens
