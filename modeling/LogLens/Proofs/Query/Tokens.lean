/-
Texts that are read one after the other.

What the scanner does at a character depends on the kind of the character, and on what came before
through two flags only.  So a text in which every quote and every bracket is closed keeps its tokens
when white space and another text follow it (`scan_append`): only the colon that would make a field
of its last word must not come next.  And behind white space it plays no part whether an operator
came before, unless a stray bracket hides the white space (`scan_behind_blank`).
-/
import LogLens.Proofs.Query.Positions

namespace LogLens
namespace Query
namespace Token

/-! ## White space -/

theorem isSpecial_of_isBlank {c : Char} (h : isBlank c = true) : isSpecial c = true := by
  simp [isSpecial, h]

theorem endsValue_of_isBlank {c : Char} (h : isBlank c = true) : endsValue c = true := by
  simp [endsValue, h]

/-! ## Quotes and brackets that are closed -/

/-- Whether a quoted value comes to its closing quote. -/
def closesQuote : List Char → Bool
  | [] => false
  | '"' :: _ => true
  | '\\' :: '"' :: rest => closesQuote rest
  | _ :: rest => closesQuote rest

/-- No quoted value and no range literal of the text runs to its end without being closed. -/
def terminated : List Char → Bool
  | [] => true
  | c :: rest =>
    if c = '"' then
      have := length_quoted_le rest
      closesQuote rest && terminated (quoted rest).2
    else if c = '[' then
      have := length_bracketed_le rest
      rest.contains ']' && terminated (bracketed rest).2
    else terminated rest
  termination_by cs => cs.length
  decreasing_by all_goals simp_wf <;> omega

section Quotes

variable {c : Char} {rest : List Char}

theorem closesQuote_cons (hquote : c ≠ '"') (hescape : c = '\\' → rest.head? ≠ some '"') :
    closesQuote (c :: rest) = closesQuote rest := by
  rw [closesQuote]
  · exact hquote
  · rintro rest' hc rfl
    exact hescape hc rfl

/-- A backslash that is passed over alone has no quote behind it. -/
theorem head?_ne_quote (h : ∀ rest', c = '\\' → rest = '"' :: rest' → False) :
    c = '\\' → rest.head? ≠ some '"' := by
  intro hc hhead
  obtain ⟨rest', hrest⟩ := List.head?_eq_some_iff.mp hhead
  exact h rest' hc hrest

end Quotes

/-- What follows a closed quote is not read with it. -/
theorem quoted_append {cs : List Char} (h : closesQuote cs = true) (tail : List Char) :
    quoted (cs ++ tail) = ((quoted cs).1, (quoted cs).2 ++ tail) := by
  induction cs using closesQuote.induct with
  | case1 => simp [closesQuote] at h
  | case2 rest => rfl
  | case3 rest ih =>
    rw [closesQuote] at h
    simp [quoted, ih h]
  | case4 c rest hquote hescape ih =>
    have hescape' := head?_ne_quote hescape
    rw [closesQuote_cons hquote hescape'] at h
    -- the quote that could have been escaped by `c` would be the first character of `rest`
    have hescape'' : c = '\\' → (rest ++ tail).head? ≠ some '"' := by
      cases rest with
      | nil => simp [closesQuote] at h
      | cons d rest => exact hescape'
    rw [List.cons_append, quoted_cons hquote hescape', quoted_cons hquote hescape'', ih h]

theorem bracketed_append {cs : List Char} (h : ']' ∈ cs) (tail : List Char) :
    bracketed (cs ++ tail) = ((bracketed cs).1, (bracketed cs).2 ++ tail) := by
  induction cs with
  | nil => exact absurd h List.not_mem_nil
  | cons c cs ih =>
    rw [List.cons_append, bracketed, bracketed]
    by_cases hc : c = ']'
    · rw [if_pos hc, if_pos hc]
    · have hmem : ']' ∈ cs := (List.mem_cons.mp h).resolve_left (Ne.symm hc)
      rw [if_neg hc, if_neg hc, ih hmem]

section Terminated

variable {c : Char} {rest : List Char}

theorem terminated_quote : terminated ('"' :: rest) = true ↔
    closesQuote rest = true ∧ terminated (quoted rest).2 = true := by
  rw [terminated]
  simp

theorem terminated_bracket : terminated ('[' :: rest) = true ↔
    ']' ∈ rest ∧ terminated (bracketed rest).2 = true := by
  rw [terminated]
  simp

theorem terminated_cons (hquote : c ≠ '"') (hbracket : c ≠ '[') :
    terminated (c :: rest) = terminated rest := by
  rw [terminated]
  simp [hquote, hbracket]

theorem terminated_dropWhile {p : Char → Bool} (hp : ∀ c, p c = true → c ≠ '"' ∧ c ≠ '[')
    {cs : List Char} (h : terminated cs = true) : terminated (cs.dropWhile p) = true := by
  induction cs with
  | nil => exact h
  | cons c cs ih =>
    rw [List.dropWhile_cons]
    split
    · rename_i hc
      rw [terminated_cons (hp c hc).1 (hp c hc).2] at h
      exact ih h
    · exact h

end Terminated

/-! ## A text behind white space -/

/-- Whether an operator comes last, when `op` says so of the token before. -/
def endsInOperator (op : Bool) : List Token → Bool
  | [] => op
  | t :: rest => endsInOperator t.isOperator rest

/-- Behind white space it plays no part that an operator came before, except to a stray bracket. -/
theorem scan_behind_blank {op : Bool} {cs : List Char}
    (h : op = true → (trimStart cs).head? ≠ some ']') (bl : Bool) :
    scan op true cs = scan false bl cs := by
  induction cs generalizing bl with
  | nil => rw [scan_nil, scan_nil]
  | cons c cs ih =>
    rcases kind_cases c with hblank | rfl | rfl | rfl | hangle | hparen | rfl | hword
    · rw [scan_blank op true cs hblank, scan_blank false bl cs hblank]
      refine ih (fun hop => ?_) true
      have hhead := h hop
      rwa [trimStart, List.dropWhile_cons, if_pos hblank] at hhead
    · rw [scan_quote, scan_quote]
    · rw [scan_bracket, scan_bracket]
    · rw [scan_colon, scan_colon]
    · rw [scan_angle _ _ _ hangle, scan_angle _ _ _ hangle]
    · rw [scan_paren _ _ _ hparen, scan_paren _ _ _ hparen]
    · have hop : op = false := by
        by_contra hop
        exact h (by simpa using hop) rfl
      rw [hop, scan_stray, scan_stray]
    · rw [scan_word op true cs hword (by simp), scan_word false bl cs hword (by simp)]

/-- Runs of characters end at white space. -/
theorem span_append_blank (p : Char → Bool) {gap : Char} (hgap : p gap = false)
    (cs tail : List Char) :
    (cs ++ gap :: tail).takeWhile p = cs.takeWhile p ∧
      (cs ++ gap :: tail).dropWhile p = cs.dropWhile p ++ gap :: tail := by
  induction cs with
  | nil => simp [hgap]
  | cons c cs ih =>
    by_cases hc : p c = true <;> simp [hc, ih]

/-- The meaning of a word is settled at the end of its text, unless a colon follows. -/
theorem ofWord_append (word : List Char) {gap : Char} (hgap : isBlank gap = true) (cs : List Char)
    {tail : List Char} (hcolon : (trimStart tail).head? ≠ some ':') :
    ofWord word (cs ++ gap :: tail) = ofWord word cs := by
  have hhead : ((trimStart (cs ++ gap :: tail)).head? == some ':') =
      ((trimStart cs).head? == some ':') := by
    rw [trimStart, List.dropWhile_append]
    split
    · rename_i hempty
      rw [trimStart, List.isEmpty_iff.mp hempty, List.dropWhile_cons, if_pos hgap]
      simpa [trimStart] using hcolon
    · rename_i hempty
      cases hcs : cs.dropWhile isBlank with
      | nil => simp [hcs] at hempty
      | cons c rest => simp [trimStart, hcs]
  rw [ofWord, ofWord, hhead]

theorem terminated_comparison (c : Char) {cs : List Char} (h : terminated cs = true) :
    terminated (comparison c cs).2 = true := by
  unfold comparison
  split
  · rwa [terminated_cons (by decide) (by decide)] at h
  · exact h

theorem comparison_append (c gap : Char) (hgap : gap ≠ '=') (cs tail : List Char) :
    comparison c (cs ++ gap :: tail) =
      ((comparison c cs).1, (comparison c cs).2 ++ gap :: tail) := by
  cases cs with
  | nil => simp [comparison, hgap]
  | cons d cs =>
    by_cases hd : d = '='
    · subst hd
      rfl
    · simp [comparison, hd]

/-- A text whose quotes and brackets are closed keeps its tokens when white space and another text
follow. -/
theorem scan_append {gap : Char} (hgap : isBlank gap = true) {tail : List Char}
    (hcolon : (trimStart tail).head? ≠ some ':') (op bl : Bool) {cs : List Char}
    (h : terminated cs = true) :
    scan op bl (cs ++ gap :: tail) =
      scan op bl cs ++ scan (endsInOperator op (scan op bl cs)) true tail := by
  -- A token may take many characters, so the induction is on the length.
  induction hlength : cs.length using Nat.strongRecOn generalizing op bl cs with
  | ind n ih =>
  subst hlength
  cases cs with
  | nil => rw [List.nil_append, scan_blank op bl tail hgap, scan_nil]; rfl
  | cons c rest =>
    rw [List.cons_append]
    rcases kind_cases c with hblank | rfl | rfl | rfl | hangle | hparen | rfl | hword
    · have hrest : terminated rest = true := by
        rwa [terminated_cons (by rintro rfl; exact absurd hblank (by decide))
          (by rintro rfl; exact absurd hblank (by decide))] at h
      rw [scan_blank op bl _ hblank, scan_blank op bl _ hblank]
      exact ih _ (by simp) op true hrest rfl
    · obtain ⟨hcloses, hrest⟩ := terminated_quote.mp h
      have hshort := length_quoted_le rest
      rw [scan_quote, scan_quote, quoted_append hcloses,
        ih _ (by simp; omega) false false hrest rfl]
      rfl
    · obtain ⟨hcloses, hrest⟩ := terminated_bracket.mp h
      have hshort := length_bracketed_le rest
      rw [scan_bracket, scan_bracket, bracketed_append hcloses,
        ih _ (by simp; omega) false false hrest rfl]
      rfl
    · rw [terminated_cons (by decide) (by decide)] at h
      rw [scan_colon, scan_colon, ih _ (by simp) true false h rfl]
      rfl
    · have hshort := length_comparison_le c rest
      have hrest : terminated (comparison c rest).2 = true := by
        rcases hangle with rfl | rfl <;> rw [terminated_cons (by decide) (by decide)] at h <;>
          exact terminated_comparison _ h
      rw [scan_angle _ _ _ hangle, scan_angle _ _ _ hangle,
        comparison_append c gap (by rintro rfl; exact absurd hgap (by decide)),
        ih _ (by simp; omega) true false hrest rfl]
      rfl
    · have hrest : terminated rest = true := by
        rcases hparen with rfl | rfl <;> rwa [terminated_cons (by decide) (by decide)] at h
      rw [scan_paren _ _ _ hparen, scan_paren _ _ _ hparen, ih _ (by simp) false false hrest rfl]
      rfl
    · rw [terminated_cons (by decide) (by decide)] at h
      rw [scan_stray, scan_stray]
      exact ih _ (by simp) op false h rfl
    · obtain ⟨-, hquote, -, -, -, hbracket, -⟩ := isSpecial_eq_false_iff.mp hword
      rw [terminated_cons hquote hbracket] at h
      -- Right behind an operator the word is a value, and other characters end it.
      by_cases hmode : (op && !bl) = true
      · obtain ⟨rfl, rfl⟩ : op = true ∧ bl = false := by simpa using hmode
        have hend : (!endsValue gap) = false := by rw [endsValue_of_isBlank hgap]; rfl
        obtain ⟨htake, hdrop⟩ := span_append_blank (!endsValue ·) hend rest tail
        have hrest : terminated (rest.dropWhile (!endsValue ·)) = true := by
          refine terminated_dropWhile (fun d hd => ?_) h
          have hd' := endsValue_eq_false_iff.mp (by simpa using hd)
          exact ⟨hd'.2.1, hd'.2.2.2.2.1⟩
        have hshort := length_dropWhile_le (!endsValue ·) rest
        rw [scan_value _ hword, scan_value _ hword, htake, hdrop,
          ih _ (by simp; omega) false false hrest rfl]
        rfl
      · have hend : (!isSpecial gap) = false := by rw [isSpecial_of_isBlank hgap]; rfl
        obtain ⟨htake, hdrop⟩ := span_append_blank (!isSpecial ·) hend rest tail
        have hrest : terminated (rest.dropWhile (!isSpecial ·)) = true := by
          refine terminated_dropWhile (fun d hd => ?_) h
          have hd' := isSpecial_eq_false_iff.mp (by simpa using hd)
          exact ⟨hd'.2.1, hd'.2.2.2.2.2.1⟩
        have hshort := length_dropWhile_le (!isSpecial ·) rest
        have hmode' : (op && !bl) = false := by simpa using hmode
        rw [scan_word _ _ _ hword hmode', scan_word _ _ _ hword hmode', htake, hdrop,
          ofWord_append _ hgap _ hcolon, ih _ (by simp; omega) false false hrest rfl,
          List.cons_append, endsInOperator, isOperator_ofWord]

end Token
end Query
end LogLens
