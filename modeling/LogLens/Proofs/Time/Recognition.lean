/-
How a timestamp is recognized.

White space and brackets around a text are taken off (`inner_of_around`).  What is left is read by
the strict layout or by the first of the others that covers it (`Recognized`); each of these begins
with a number, so a text that begins with a letter is none of theirs, and is a time without a year
or nothing (`parse_of_yearless`), and one that begins with a digit is no time without a year
(`exists_parse_of_isDigit`).
-/
import LogLens.Proofs.Text.Pattern
import LogLens.Proofs.Time.Layout
import LogLens.Time.Stamp

namespace LogLens

open Layout

/-! ## Items one after the other -/

namespace Layout

variable {r : Reading} {c : Char} {rest : List Char}

theorem readItems?_cons {item : Item} {items : List Item} {r r' : Reading} {cs rest : List Char}
    (h : item.read? r cs = some (r', rest)) :
    readItems? (item :: items) r cs = readItems? items r' rest := by
  rw [readItems?, h]
  rfl

theorem readItems?_of_none {item : Item} {cs : List Char} (h : item.read? r cs = none)
    (items : List Item) : readItems? (item :: items) r cs = none := by
  rw [readItems?, h]
  rfl

/-! ## Items that do not fit -/

theorem digits?_of_neg (h : isDigit c = false) (width : Nat) (rest : List Char) :
    digits? width (c :: rest) = none := by
  have hfound : ((c :: rest).take width).takeWhile isDigit = [] := by
    cases width <;> simp [h]
  rw [digits?, hfound]
  rfl

theorem strict?_of_neg (h : isDigit c = false) (part : Part) (rest : List Char) :
    strict? part r (c :: rest) = none := by
  rw [strict?, digits?_of_neg h]
  rfl

theorem number?_of_neg (hblank : isBlank c = false) (hdigit : isDigit c = false)
    (hsign : c ∉ ['-', '+']) (part : Part) (rest : List Char) :
    number? part r (c :: rest) = none := by
  have htrim : trimStart (c :: rest) = c :: rest := List.dropWhile_cons_of_neg (by simp [hblank])
  rw [number?]
  · rw [htrim, digits?_of_neg hdigit]
    rfl
  all_goals
    intro tail _ htail
    obtain ⟨rfl, -⟩ := List.cons.inj (htrim.symm.trans htail)
    exact hsign (by simp)

theorem read?_oneOf_of_notMem {chars : List Char} (h : c ∉ chars) (rest : List Char) :
    (Item.oneOf chars).read? r (c :: rest) = none := by
  simp [Item.read?, h]

end Layout

namespace Stamp

/-! ## Around a text -/

/-- The text with white space on both sides. -/
def Padded (text s : List Char) : Prop :=
  ∃ lead trail, (∀ c ∈ lead, isBlank c = true) ∧ (∀ c ∈ trail, isBlank c = true) ∧
    s = lead ++ text ++ trail

/-- The text, or the text in square brackets, with white space inside and outside of them. -/
def Around (text s : List Char) : Prop :=
  Padded text s ∨ ∃ body, Padded text body ∧ Padded ('[' :: (body ++ [']'])) s

/-- Neither end of the text is white space or a bracket. -/
structure Solid (text : List Char) : Prop where
  ne_nil : text ≠ []
  head : ∀ c ∈ text.head?, isBlank c = false ∧ c ≠ '['
  last : ∀ c ∈ text.getLast?, isBlank c = false ∧ c ≠ ']'

/-- The text ends in a digit. -/
def EndsInDigit (cs : List Char) : Prop := ∃ d, cs.getLast? = some d ∧ isDigit d = true

namespace EndsInDigit

theorem append (before : List Char) {cs : List Char} (h : EndsInDigit cs) :
    EndsInDigit (before ++ cs) := by
  obtain ⟨d, hd, hdigit⟩ := h
  exact ⟨d, by rw [List.getLast?_append, hd]; rfl, hdigit⟩

theorem cons (c : Char) {cs : List Char} (h : EndsInDigit cs) : EndsInDigit (c :: cs) :=
  h.append [c]

theorem of_digits {ds : List Char} (hne : ds ≠ []) (hds : ∀ d ∈ ds, isDigit d = true) :
    EndsInDigit ds :=
  ⟨ds.getLast hne, List.getLast?_eq_some_getLast hne, hds _ (List.getLast_mem hne)⟩

end EndsInDigit

theorem edge_of_isDigit {c bracket : Char} (h : isDigit c = true)
    (hbracket : isDigit bracket = false) : isBlank c = false ∧ c ≠ bracket :=
  ⟨isBlank_of_isDigit h, ne_of_isDigit h hbracket⟩

/-- The end of a text of a timestamp is a digit or a `Z`. -/
theorem solid_of_ends {cs : List Char} (hhead : ∀ c ∈ cs.head?, isBlank c = false ∧ c ≠ '[')
    (hlast : EndsInDigit cs ∨ cs.getLast? = some 'Z') : Solid cs := by
  refine ⟨?_, hhead, fun c hc => ?_⟩
  · rintro rfl
    obtain ⟨d, hd, -⟩ | hz := hlast
    · cases hd
    · cases hz
  · obtain ⟨d, hd, hdigit⟩ | hz := hlast
    · obtain rfl := Option.some.inj (hd.symm.trans hc)
      exact edge_of_isDigit hdigit (by decide)
    · obtain rfl := Option.some.inj (hz.symm.trans hc)
      decide

theorem Around.refl (text : List Char) : Around text text :=
  Or.inl ⟨[], [], List.forall_mem_nil _, List.forall_mem_nil _, by simp⟩

theorem trim_of_padded {text s : List Char} (h : Padded text s) (hne : text ≠ [])
    (hhead : ∀ c ∈ text.head?, isBlank c = false)
    (hlast : ∀ c ∈ text.getLast?, isBlank c = false) : trim s = text := by
  obtain ⟨lead, trail, hlead, htrail, rfl⟩ := h
  exact trimMatches_around hlead hne hhead hlast htrail

/-- No bracket is in front of white space and the text, and none behind. -/
theorem Solid.dropWhile_open {text : List Char} (h : Solid text) {lead : List Char}
    (hlead : ∀ c ∈ lead, isBlank c = true) (more : List Char) :
    (lead ++ text ++ more).dropWhile (· == '[') = lead ++ text ++ more := by
  refine dropWhile_append_of_neg (by simp [h.ne_nil]) (fun c hc => ?_) more
  rw [beq_eq_false_iff_ne]
  rintro rfl
  cases lead with
  | nil => exact (h.head _ hc).2 rfl
  | cons d lead =>
    obtain rfl := Option.some.inj hc
    exact absurd (hlead _ List.mem_cons_self) (by decide)

theorem Solid.dropEndWhile_close {text : List Char} (h : Solid text) (lead : List Char)
    {trail closing : List Char} (htrail : ∀ c ∈ trail, isBlank c = true)
    (hclosing : ∀ c ∈ closing, (c == ']') = true) :
    dropEndWhile (· == ']') (lead ++ text ++ trail ++ closing) = lead ++ text ++ trail := by
  refine dropEndWhile_around (by simp [h.ne_nil]) (fun c hc => ?_) hclosing
  rw [beq_eq_false_iff_ne]
  rintro rfl
  cases hlast : trail.getLast? with
  | none =>
    obtain rfl := List.getLast?_eq_none_iff.mp hlast
    rw [List.append_nil, List.getLast?_append_of_ne_nil _ h.ne_nil] at hc
    exact (h.last _ hc).2 rfl
  | some d =>
    rw [List.getLast?_append, hlast] at hc
    obtain rfl := Option.some.inj hc
    exact absurd (htrail _ (List.mem_of_getLast? hlast)) (by decide)

theorem inner_of_around {text : List Char} (htext : Solid text) {s : String}
    (h : Around text s.toList) : inner s = text := by
  have hhead : ∀ c ∈ text.head?, isBlank c = false := fun c hc => (htext.head c hc).1
  have hlast : ∀ c ∈ text.getLast?, isBlank c = false := fun c hc => (htext.last c hc).1
  rw [inner]
  obtain h | ⟨body, hbody, h⟩ := h
  · have hopen := htext.dropWhile_open (List.forall_mem_nil _) []
    have hclose := htext.dropEndWhile_close [] (List.forall_mem_nil _) (List.forall_mem_nil _)
    simp only [List.nil_append, List.append_nil] at hopen hclose
    rw [trim_of_padded h htext.ne_nil hhead hlast, hopen, hclose,
      trim_eq_self htext.ne_nil hhead hlast]
  · have hend : ('[' :: (body ++ [']'])).getLast? = some ']' := by
      rw [← List.cons_append, List.getLast?_concat]
    have htrim : trim s.toList = '[' :: (body ++ [']']) :=
      trim_of_padded h (List.cons_ne_nil _ _) (by simp; decide) (by simp [hend]; decide)
    have hbodyTrim := trim_of_padded hbody htext.ne_nil hhead hlast
    obtain ⟨lead, trail, hlead, htrail, rfl⟩ := hbody
    have hopen := htext.dropWhile_open hlead (trail ++ [']'])
    have hclosing : ∀ c ∈ [']'], (c == ']') = true := by simp
    have hclose := htext.dropEndWhile_close lead htrail hclosing
    rw [← List.append_assoc] at hopen
    rw [htrim, List.dropWhile_cons_of_pos (by decide), hopen, hclose, hbodyTrim]

/-! ## Commas and a `Z` at the end -/

/-- A clock time has eight characters, and the comma is the one behind it. -/
theorem commaFraction_eq_nil {cs : List Char} (h : cs[8]? ≠ some ',') : commaFraction cs = [] := by
  rw [List.eq_nil_iff_forall_not_mem]
  intro rest hrest
  simp only [commaFraction, Pattern.inOrder_cons, List.mem_flatMap] at hrest
  obtain ⟨a, ha, b, hb, c, hc, d, hd, e, he, f, hf, -⟩ := hrest
  have heighth : e = cs.drop 8 := by
    rw [Pattern.eq_drop_of_mem_times he, Pattern.eq_drop_of_mem_one hd,
      Pattern.eq_drop_of_mem_times hc, Pattern.eq_drop_of_mem_one hb,
      Pattern.eq_drop_of_mem_times ha]
    simp only [List.drop_drop]
  cases e with
  | nil => cases hf
  | cons x e =>
    have hx : x ≠ ',' := by
      rintro rfl
      rw [← List.head?_drop, ← heighth] at h
      exact h rfl
    rw [Pattern.char_of_ne hx] at hf
    cases hf

theorem pointFraction_cons {c : Char} {cs : List Char} (h : (c :: cs)[8]? ≠ some ',') :
    pointFraction (c :: cs) = c :: pointFraction cs := by
  rw [pointFraction, commaFraction_eq_nil h]
  rfl

theorem pointFraction_of_ne_nil {cs : List Char} (h : commaFraction cs ≠ []) :
    pointFraction cs = cs.take 8 ++ '.' :: cs.drop 9 := by
  cases cs with
  | nil => exact absurd rfl h
  | cons c cs => rw [pointFraction, if_neg (mt List.isEmpty_iff.mp h)]

theorem pointFraction_eq_self {cs : List Char} (h : ',' ∉ cs) : pointFraction cs = cs := by
  induction cs with
  | nil => rfl
  | cons c cs ih =>
    have heighth : (c :: cs)[8]? ≠ some ',' := fun hcomma => h (List.mem_of_getElem? hcomma)
    rw [pointFraction_cons heighth, ih (mt (List.mem_cons_of_mem c) h)]

theorem numericOffset_concat (body : List Char) :
    numericOffset (body ++ ['Z']) = body ++ "+00:00".toList := by
  simp [numericOffset, beforeSuffix?, afterPrefix?]

theorem numericOffset_eq_self {cs : List Char} (h : cs.getLast? ≠ some 'Z') :
    numericOffset cs = cs := by
  have hnone : beforeSuffix? ['Z'] cs = none := by
    rw [beforeSuffix?, List.reverse_singleton]
    rw [← List.head?_reverse] at h
    cases hcs : cs.reverse with
    | nil => rfl
    | cons d ds =>
      rw [hcs, List.head?_cons, ne_eq, Option.some.injEq] at h
      have hne : ('Z' == d) = false := beq_eq_false_iff_ne.mpr fun heq => h heq.symm
      rw [afterPrefix?, hne]
      rfl
  rw [numericOffset, hnone]

theorem EndsInDigit.numericOffset_eq {cs : List Char} (h : EndsInDigit cs) :
    numericOffset cs = cs := by
  obtain ⟨d, hd, hdigit⟩ := h
  refine numericOffset_eq_self ?_
  rw [hd]
  intro hz
  rw [Option.some.inj hz] at hdigit
  exact absurd hdigit (by decide)

/-! ## Texts that are recognized -/

/-- The strict layout reads the text, or the first of the others that reads it does. -/
def Recognized (cs : List Char) (t : Instant) : Prop :=
  read? rfc3339 cs = some t ∨ read? rfc3339 cs = none ∧
    (withOffset ++ withoutOffset ++ dateOnly).findSome?
      (read? · (numericOffset (pointFraction cs))) = some t

/-- The text has more in it than a count has. -/
def NoCount (cs : List Char) : Prop := ∃ c ∈ cs, isDigit c = false ∧ c ≠ '.'

theorem NoCount.of_mem {cs : List Char} {c : Char} (hc : c ∈ cs) (h : isDigit c = false)
    (hpoint : c ≠ '.') : NoCount cs :=
  ⟨c, hc, h, hpoint⟩

section Parse

variable {s : String} {cs : List Char} (hinner : inner s = cs) (hcount : NoCount cs)
  (reference : Instant)

include hinner hcount

theorem parse_noCount : parse s reference =
    match read? rfc3339 cs with
    | some t => .ok (some t)
    | none =>
      match (withOffset ++ withoutOffset ++ dateOnly).findSome?
          (read? · (numericOffset (pointFraction cs))) with
      | some t => .ok (some t)
      | none =>
        match yearless? (numericOffset (pointFraction cs)) with
        | some t => inferYear t reference
        | none => .ok none := by
  obtain ⟨c, hc, hdigit, hpoint⟩ := hcount
  have hempty : ¬cs.isEmpty = true := by
    intro hempty
    rw [List.isEmpty_iff.mp hempty] at hc
    cases hc
  have hnot : ¬(cs.all fun c => isDigit c || c == '.') = true := by
    intro hall
    simpa [hdigit, hpoint] using List.all_eq_true.mp hall c hc
  rw [parse, hinner]
  exact (if_neg hempty).trans (if_neg hnot)

theorem parse_of_recognized {t : Instant} (h : Recognized cs t) :
    parse s reference = .ok (some t) := by
  rw [parse_noCount hinner hcount]
  obtain h | ⟨h, h'⟩ := h
  · simp only [h]
  · simp only [h, h']

end Parse

/-! ## Texts that begin with a letter -/

/-- Each layout but the strict one begins with a number. -/
theorem exists_number_cons {items : List Item}
    (h : items ∈ withOffset ++ withoutOffset ++ dateOnly) :
    ∃ part rest, items = .number part :: rest := by
  simp only [withOffset, withoutOffset, dateOnly, List.cons_append, List.nil_append,
    List.mem_cons, List.not_mem_nil, or_false] at h
  rcases h with rfl | rfl | rfl | rfl | rfl | rfl | rfl | rfl | rfl | rfl | rfl | rfl <;>
    exact ⟨_, _, rfl⟩

theorem findSome?_of_letter {c : Char} (hblank : isBlank c = false) (hdigit : isDigit c = false)
    (hsign : c ∉ ['-', '+']) (rest : List Char) :
    (withOffset ++ withoutOffset ++ dateOnly).findSome? (read? · (c :: rest)) = none := by
  rw [List.findSome?_eq_none_iff]
  intro items hitems
  obtain ⟨part, more, rfl⟩ := exists_number_cons hitems
  have hnumber : (Item.number part).read? {} (c :: rest) = none :=
    number?_of_neg hblank hdigit hsign part rest
  rw [read?, readItems?_of_none hnumber]
  rfl

theorem read?_rfc3339_of_letter {c : Char} (hdigit : isDigit c = false) (rest : List Char) :
    read? rfc3339 (c :: rest) = none := by
  obtain ⟨items, hitems⟩ : ∃ items, rfc3339 = .strict .year :: items := ⟨_, rfl⟩
  have hyear : (Item.strict .year).read? {} (c :: rest) = none := strict?_of_neg hdigit .year rest
  rw [hitems, read?, readItems?_of_none hyear]
  rfl

/-- A text that begins with a letter, has no comma and ends in a digit is a time without a year, if
it is one. -/
theorem parse_of_yearless {s : String} {c : Char} {rest : List Char} (hinner : inner s = c :: rest)
    (hblank : isBlank c = false) (hdigit : isDigit c = false) (hsign : c ∉ ['-', '+', '.'])
    (hcomma : ',' ∉ c :: rest) (hlast : EndsInDigit (c :: rest)) {y : Yearless}
    (hy : yearless? (c :: rest) = some y) (reference : Instant) :
    parse s reference = inferYear y reference := by
  have hsign' : c ∉ ['-', '+'] := fun hc => hsign (List.mem_append_left ['.'] hc)
  have hpoint : c ≠ '.' := by
    rintro rfl
    exact hsign (by simp)
  have hnormal : numericOffset (pointFraction (c :: rest)) = c :: rest := by
    rw [pointFraction_eq_self hcomma, hlast.numericOffset_eq]
  rw [parse_noCount hinner (.of_mem List.mem_cons_self hdigit hpoint), hnormal,
    read?_rfc3339_of_letter hdigit, findSome?_of_letter hblank hdigit hsign']
  simp only [hy]

/-! ## Texts that begin with a digit -/

theorem beginsWith_pointFraction {q : Char → Prop} {cs : List Char} (h : Pattern.BeginsWith q cs) :
    Pattern.BeginsWith q (pointFraction cs) := by
  obtain ⟨c, cs, rfl, hc⟩ := h
  rw [pointFraction]
  split
  · exact ⟨c, _, rfl, hc⟩
  · exact ⟨c, _, rfl, hc⟩

theorem beginsWith_numericOffset {q : Char → Prop} {cs : List Char} (h : Pattern.BeginsWith q cs)
    (hz : ¬q 'Z') : Pattern.BeginsWith q (numericOffset cs) := by
  obtain ⟨c, cs, rfl, hc⟩ := h
  by_cases hlast : (c :: cs).getLast? = some 'Z'
  · obtain ⟨body, hbody⟩ := List.getLast?_eq_some_iff.mp hlast
    rw [hbody, numericOffset_concat]
    cases body with
    | nil =>
      obtain ⟨rfl, -⟩ := List.cons.inj hbody
      exact absurd hc hz
    | cons d body =>
      obtain ⟨rfl, -⟩ := List.cons.inj hbody
      exact ⟨c, _, rfl, hc⟩
  · rw [numericOffset_eq_self hlast]
    exact ⟨c, cs, rfl, hc⟩

/-- A time without a year begins with the name of a month. -/
theorem yearless?_of_isDigit {cs : List Char} (h : Pattern.BeginsWith (isDigit · = true) cs) :
    yearless? cs = none := by
  obtain ⟨c, cs, rfl, hc⟩ := h
  have hupper : c.isUpper = false := by
    rw [isDigit, Bool.and_eq_true, decide_eq_true_eq, decide_eq_true_eq] at hc
    have hhigh : c.val ≤ 57 := hc.2
    have hlow : ¬65 ≤ c.val := by
      simp only [UInt32.le_iff_toNat_le] at hhigh ⊢
      exact fun h => absurd (h.trans hhigh) (by decide)
    exact decide_eq_false fun h => hlow h.1
  have hname : cut? (Pattern.seq (.one Char.isUpper) (.times 2 Char.isLower)) (c :: cs) = none := by
    rw [cut?, Pattern.first?, Pattern.seq_of_none (Pattern.one_of_neg hupper cs)]
    rfl
  rw [yearless?, hname]
  rfl

/-- A text that begins with a digit names its year, so the time of reading does not matter. -/
theorem exists_parse_of_isDigit {s : String} {cs : List Char} (hinner : inner s = cs)
    (hcount : NoCount cs) (h : Pattern.BeginsWith (isDigit · = true) cs) :
    ∃ timestamp, ∀ reference, parse s reference = .ok timestamp := by
  have hnormal := beginsWith_numericOffset (beginsWith_pointFraction h) (by decide)
  simp only [parse_noCount hinner hcount, yearless?_of_isDigit hnormal]
  split
  · exact ⟨_, fun _ => rfl⟩
  · split
    · exact ⟨_, fun _ => rfl⟩
    · exact ⟨none, fun _ => rfl⟩

end Stamp
end LogLens
