/-
Tokens of texts that are joined.

A number or a word ends where the text does, or at a mark, and a text ends at its quote.  So the
tokens of a text stay what they are when another one that begins with a mark is put behind it
(`Lexes.append`).  What is printed for a text or a count is one token, which denotes it.
-/
import LogLens.Json.Reader
import LogLens.Number.Reading
import LogLens.Proofs.Time.Layout

namespace LogLens
namespace Json
namespace Reader

/-! ## Where a token ends -/

/-- Nothing follows, or a character that belongs to no number and to no word. -/
def Ends (more : List Char) : Prop :=
  ∀ c ∈ more.head?, c = ',' ∨ c = ':' ∨ c = ']' ∨ c = '\x7d'

theorem Ends.isDigit {more : List Char} (h : Ends more) : ∀ c ∈ more.head?, isDigit c = false := by
  intro c hc
  rcases h c hc with rfl | rfl | rfl | rfl <;> decide

theorem Ends.isLower {more : List Char} (h : Ends more) : ∀ c ∈ more.head?, isLower c = false := by
  intro c hc
  rcases h c hc with rfl | rfl | rfl | rfl <;> decide

section Runs

variable {p : Char → Bool} {more : List Char}

theorem takeWhile_append (h : ∀ c ∈ more.head?, p c = false) (cs : List Char) :
    (cs ++ more).takeWhile p = cs.takeWhile p := by
  induction cs with
  | nil =>
    cases more with
    | nil => rfl
    | cons c more => simp [h c rfl]
  | cons c cs ih =>
    rw [List.cons_append, List.takeWhile_cons, List.takeWhile_cons, ih]

theorem dropWhile_append (h : ∀ c ∈ more.head?, p c = false) (cs : List Char) :
    (cs ++ more).dropWhile p = cs.dropWhile p ++ more := by
  induction cs with
  | nil =>
    cases more with
    | nil => rfl
    | cons c more => simp [h c rfl]
  | cons c cs ih =>
    rw [List.cons_append, List.dropWhile_cons, List.dropWhile_cons, ih]
    split <;> rfl

end Runs

/-! ## Numbers -/

/-- The digits behind a point, if there is one, and the rest. -/
def fraction? : List Char → Option (Option (List Char) × List Char)
  | '.' :: behind =>
    if (behind.takeWhile isDigit).isEmpty then none
    else some (some (behind.takeWhile isDigit), behind.dropWhile isDigit)
  | rest => some (none, rest)

theorem fraction?_of_ne {rest : List Char} (h : ∀ behind, rest ≠ '.' :: behind) :
    fraction? rest = some (none, rest) := by
  unfold fraction?
  split
  · rename_i behind
    exact absurd rfl (h behind)
  · rfl

/-- The number that its parts make. -/
def numberOf (negative : Bool) (whole : List Char) (part : Option (List Char))
    (exponent : Option (Bool × List Char)) : JsonNumber :=
  let rounded := JsonNumber.real
    ((real? negative whole (part.getD []) exponent).getD (Binary64.infinity negative))
  if part.isNone && exponent.isNone && digitsValue whole ≤ maxWord then
    if ¬ negative then .integer (digitsValue whole)
    else if digitsValue whole ≠ 0 ∧ minSigned ≤ -(digitsValue whole : Int) then
      .integer (-(digitsValue whole : Int))
    else rounded
  else rounded

/-- A number is read part by part, and what it is does not depend on the rest. -/
theorem unsigned?_eq (negative : Bool) (cs : List Char) : unsigned? negative cs =
    if (cs.takeWhile isDigit).isEmpty || ((cs.takeWhile isDigit).head? == some '0' &&
        (cs.takeWhile isDigit).length ≠ 1) then none
    else (fraction? (cs.dropWhile isDigit)).bind fun f =>
      (exponent? f.2).map fun e =>
        (numberOf negative (cs.takeWhile isDigit) f.1 e.1, e.2) := by
  unfold unsigned?
  generalize cs.takeWhile isDigit = whole
  generalize cs.dropWhile isDigit = rest
  dsimp only
  split
  · rfl
  · split
    · rename_i behind
      rw [fraction?]
      by_cases hempty : (behind.takeWhile isDigit).isEmpty = true
      · rw [if_pos hempty, if_pos hempty]
        rfl
      · rw [if_neg hempty, if_neg hempty]
        simp only [Option.bind_eq_bind, Option.bind_some]
        cases exponent? (behind.dropWhile isDigit) with
        | none => rfl
        | some e => rfl
    · rename_i hpoint
      rw [fraction?_of_ne hpoint]
      simp only [Option.bind_eq_bind, Option.bind_some]
      cases exponent? rest with
      | none => rfl
      | some e =>
        simp only [Option.bind_some, Option.map_some, numberOf]
        split_ifs <;> rfl

theorem fraction?_append {cs rest more : List Char} {part : Option (List Char)}
    (h : fraction? cs = some (part, rest)) (hmore : Ends more) :
    fraction? (cs ++ more) = some (part, rest ++ more) := by
  cases cs with
  | nil =>
    obtain ⟨rfl, rfl⟩ := Prod.mk.inj (Option.some.inj h)
    refine fraction?_of_ne fun behind hpoint => ?_
    have hhead := hmore '.' (by rw [← List.nil_append more, hpoint]; rfl)
    revert hhead
    decide
  | cons c cs =>
    by_cases hc : c = '.'
    · subst hc
      rw [fraction?] at h
      rw [List.cons_append, fraction?, takeWhile_append hmore.isDigit,
        dropWhile_append hmore.isDigit]
      split at h
      · exact absurd h (by simp)
      · rename_i hne
        rw [if_neg hne]
        obtain ⟨rfl, rfl⟩ := Prod.mk.inj (Option.some.inj h)
        rfl
    · have hne : ∀ cs' behind : List Char, c :: cs' ≠ '.' :: behind :=
        fun _ _ heq => hc (List.cons.inj heq).1
      rw [fraction?_of_ne (hne cs)] at h
      rw [List.cons_append, fraction?_of_ne (hne (cs ++ more))]
      obtain ⟨rfl, rfl⟩ := Prod.mk.inj (Option.some.inj h)
      rfl

/-- Behind its mark an exponent is a sign and digits. -/
theorem exponent?_cons (e : Char) (rest : List Char) : exponent? (e :: rest) =
    if e = 'e' ∨ e = 'E' then
      if ((Reading.sign rest).2.takeWhile isDigit).isEmpty then none
      else some (some ((Reading.sign rest).1, (Reading.sign rest).2.takeWhile isDigit),
        (Reading.sign rest).2.dropWhile isDigit)
    else some (none, e :: rest) := by
  rfl

theorem sign_append {cs : List Char} (h : cs ≠ []) (more : List Char) :
    Reading.sign (cs ++ more) = ((Reading.sign cs).1, (Reading.sign cs).2 ++ more) := by
  cases cs with
  | nil => exact absurd rfl h
  | cons c cs =>
    rw [List.cons_append]
    unfold Reading.sign
    split <;> simp_all

theorem exponent?_append {cs rest more : List Char} {e : Option (Bool × List Char)}
    (h : exponent? cs = some (e, rest)) (hmore : Ends more) :
    exponent? (cs ++ more) = some (e, rest ++ more) := by
  cases cs with
  | nil =>
    obtain ⟨rfl, rfl⟩ := Prod.mk.inj (Option.some.inj h)
    cases more with
    | nil => rfl
    | cons c more =>
      have hc : ¬(c = 'e' ∨ c = 'E') := by
        rcases hmore c rfl with rfl | rfl | rfl | rfl <;> decide
      rw [List.nil_append, exponent?_cons, if_neg hc]
  | cons c cs =>
    rw [exponent?_cons] at h
    rw [List.cons_append, exponent?_cons]
    by_cases hc : c = 'e' ∨ c = 'E'
    · rw [if_pos hc] at h ⊢
      by_cases hempty : ((Reading.sign cs).2.takeWhile isDigit).isEmpty = true
      · rw [if_pos hempty] at h
        cases h
      · have hne : cs ≠ [] := by
          rintro rfl
          exact hempty rfl
        rw [if_neg hempty] at h
        obtain ⟨rfl, rfl⟩ := Prod.mk.inj (Option.some.inj h)
        simp only [sign_append hne, takeWhile_append hmore.isDigit,
          dropWhile_append hmore.isDigit, if_neg hempty]
    · rw [if_neg hc] at h ⊢
      obtain ⟨rfl, rfl⟩ := Prod.mk.inj (Option.some.inj h)
      rfl

theorem unsigned?_append {negative : Bool} {cs rest more : List Char} {n : JsonNumber}
    (h : unsigned? negative cs = some (n, rest)) (hmore : Ends more) :
    unsigned? negative (cs ++ more) = some (n, rest ++ more) := by
  rw [unsigned?_eq] at h
  rw [unsigned?_eq, takeWhile_append hmore.isDigit, dropWhile_append hmore.isDigit]
  split at h
  · cases h
  · rename_i hwhole
    obtain ⟨⟨part, behind⟩, hpart, h⟩ := Option.bind_eq_some_iff.mp h
    obtain ⟨⟨e, behind'⟩, he, h⟩ := Option.map_eq_some_iff.mp h
    obtain ⟨rfl, rfl⟩ := Prod.mk.inj h
    rw [if_neg hwhole, fraction?_append hpart hmore, Option.bind_some, exponent?_append he hmore]
    rfl

/-! ## Texts -/

theorem pieces?_unicode (a b c d : Char) (rest : List Char) :
    pieces? ('\\' :: 'u' :: a :: b :: c :: d :: rest) = (hexNumber? [a, b, c, d]).bind fun n =>
      (pieces? rest).map fun p => (pieceOf n :: p.1, p.2) := by
  rw [pieces?]
  cases hexNumber? [a, b, c, d] <;> cases pieces? rest <;> rfl

theorem pieces?_escape {c : Char} (h : c ≠ 'u') (rest : List Char) :
    pieces? ('\\' :: c :: rest) = (escaped? c).bind fun e =>
      (pieces? rest).map fun p => (.char e :: p.1, p.2) := by
  rw [pieces?]
  · cases escaped? c <;> cases pieces? rest <;> rfl
  · intro a b c' d rest' heq
    exact absurd heq h

theorem pieces?_plain {c : Char} (hquote : c ≠ '"') (h : ¬(c = '\\' ∨ c.toNat < 0x20))
    (rest : List Char) :
    pieces? (c :: rest) = (pieces? rest).map fun p => (.char c :: p.1, p.2) := by
  rw [pieces?, if_neg h]
  · exact hquote
  · intro a b c' d rest' heq
    exact absurd (Or.inl heq) h
  · intro c' rest' heq
    exact absurd (Or.inl heq) h

theorem pieces?_append {cs rest : List Char} {ps : List Piece} (h : pieces? cs = some (ps, rest))
    (more : List Char) : pieces? (cs ++ more) = some (ps, rest ++ more) := by
  fun_induction pieces? cs generalizing ps rest with
  | case1 => cases h
  | case2 rest' =>
    obtain ⟨rfl, rfl⟩ := Prod.mk.inj (Option.some.inj h)
    rw [List.cons_append, pieces?]
  | case3 a b c d rest' ih =>
    obtain ⟨n, hn, h⟩ := Option.bind_eq_some_iff.mp h
    obtain ⟨⟨qs, rest''⟩, hrest, h⟩ := Option.bind_eq_some_iff.mp h
    obtain ⟨rfl, rfl⟩ := Prod.mk.inj (Option.some.inj h)
    simp only [List.cons_append, pieces?_unicode, hn, ih hrest, Option.bind_some, Option.map_some]
  | case4 c rest' hc ih =>
    obtain ⟨e, he, h⟩ := Option.bind_eq_some_iff.mp h
    obtain ⟨⟨qs, rest''⟩, hrest, h⟩ := Option.bind_eq_some_iff.mp h
    obtain ⟨rfl, rfl⟩ := Prod.mk.inj (Option.some.inj h)
    have hne : c ≠ 'u' := by
      rintro rfl
      cases he
    simp only [List.cons_append, pieces?_escape hne, he, ih hrest, Option.bind_some,
      Option.map_some]
  | case5 => cases h
  | case6 c rest' hquote _ _ hc ih =>
    obtain ⟨⟨qs, rest''⟩, hrest, h⟩ := Option.map_eq_some_iff.mp h
    obtain ⟨rfl, rfl⟩ := Prod.mk.inj h
    rw [List.cons_append, pieces?_plain hquote hc, ih hrest]
    rfl

/-! ## Tokens -/

theorem token?_append {cs rest more : List Char} {t : Token} (h : token? cs = some (t, rest))
    (hmore : Ends more) : token? (cs ++ more) = some (t, rest ++ more) := by
  revert h
  fun_cases token? cs with
  | case1 => intro h; cases h
  | case2 rest' | case3 rest' | case4 rest' | case5 rest' | case6 rest' | case7 rest' =>
    intro h
    obtain ⟨rfl, rfl⟩ := Prod.mk.inj (Option.some.inj h)
    rfl
  | case8 rest' =>
    intro h
    obtain ⟨⟨ps, behind⟩, hps, h⟩ := Option.map_eq_some_iff.mp h
    obtain ⟨rfl, rfl⟩ := Prod.mk.inj h
    rw [List.cons_append, token?, pieces?_append hps]
    rfl
  | case9 rest' =>
    intro h
    obtain ⟨⟨n, behind⟩, hn, h⟩ := Option.map_eq_some_iff.mp h
    obtain ⟨rfl, rfl⟩ := Prod.mk.inj h
    rw [List.cons_append, token?, unsigned?_append hn hmore]
    rfl
  | case10 c rest' h₁ h₂ h₃ h₄ h₅ h₆ h₇ h₈ hlower =>
    intro h
    obtain ⟨rfl, rfl⟩ := Prod.mk.inj (Option.some.inj h)
    rw [List.cons_append, token?, if_pos hlower, ← List.cons_append,
      takeWhile_append hmore.isLower, dropWhile_append hmore.isLower]
    all_goals assumption
  | case11 c rest' h₁ h₂ h₃ h₄ h₅ h₆ h₇ h₈ hlower =>
    intro h
    obtain ⟨⟨n, behind⟩, hn, h⟩ := Option.map_eq_some_iff.mp h
    obtain ⟨rfl, rfl⟩ := Prod.mk.inj h
    rw [List.cons_append, token?, if_neg hlower, ← List.cons_append, unsigned?_append hn hmore]
    all_goals first | rfl | assumption

theorem tokens?_mono {n m : Nat} (hnm : n ≤ m) {cs : List Char} {ts : List Token}
    (h : tokens? n cs = some ts) : tokens? m cs = some ts := by
  induction n generalizing m cs ts with
  | zero =>
    cases cs with
    | nil => rwa [tokens?] at h ⊢
    | cons c cs => cases h
  | succ n ih =>
    obtain ⟨m, rfl⟩ : ∃ k, m = k + 1 := ⟨m - 1, by omega⟩
    cases cs with
    | nil => rwa [tokens?] at h ⊢
    | cons c cs =>
      rw [tokens?] at h ⊢
      split at h
      · rename_i hspace
        rw [if_pos hspace]
        exact ih (by omega) h
      · rename_i hspace
        rw [if_neg hspace]
        obtain ⟨⟨t, rest⟩, ht, h⟩ := Option.bind_eq_some_iff.mp h
        obtain ⟨us, hus, h⟩ := Option.bind_eq_some_iff.mp h
        rw [ht]
        exact Option.bind_eq_some_iff.mpr ⟨_, rfl, Option.bind_eq_some_iff.mpr
          ⟨us, ih (by omega) hus, h⟩⟩

/-- The steps that two texts take apart are enough for one behind the other. -/
theorem tokens?_append {n m : Nat} {cs more : List Char} {ts us : List Token}
    (h : tokens? n cs = some ts) (h' : tokens? m more = some us) (hmore : Ends more) :
    tokens? (n + m) (cs ++ more) = some (ts ++ us) := by
  induction n generalizing cs ts with
  | zero =>
    cases cs with
    | nil =>
      obtain rfl := Option.some.inj h
      rwa [Nat.zero_add]
    | cons c cs => cases h
  | succ n ih =>
    cases cs with
    | nil =>
      obtain rfl := Option.some.inj h
      exact tokens?_mono (by omega) h'
    | cons c cs =>
      rw [tokens?] at h
      rw [Nat.succ_add, List.cons_append, tokens?]
      split at h
      · rename_i hspace
        rw [if_pos hspace]
        exact ih h
      · rename_i hspace
        rw [if_neg hspace]
        obtain ⟨⟨t, rest⟩, ht, h⟩ := Option.bind_eq_some_iff.mp h
        obtain ⟨us', hus, h⟩ := Option.bind_eq_some_iff.mp h
        obtain rfl := Option.some.inj h
        rw [← List.cons_append, token?_append ht hmore]
        exact Option.bind_eq_some_iff.mpr ⟨_, rfl, Option.bind_eq_some_iff.mpr
          ⟨us' ++ us, ih hus, rfl⟩⟩

/-- The tokens of a whole text. -/
def Lexes (cs : List Char) (ts : List Token) : Prop := tokens? cs.length cs = some ts

theorem Lexes.append {cs more : List Char} {ts us : List Token} (h : Lexes cs ts)
    (h' : Lexes more us) (hmore : Ends more) : Lexes (cs ++ more) (ts ++ us) := by
  rw [Lexes, List.length_append]
  exact tokens?_append h h' hmore

theorem Lexes.of_token? {c : Char} {cs rest : List Char} {t : Token} {ts : List Token}
    (hspace : isSpace c = false) (ht : token? (c :: cs) = some (t, rest))
    (hrest : tokens? cs.length rest = some ts) : Lexes (c :: cs) (t :: ts) := by
  rw [Lexes, List.length_cons, tokens?, hspace, ht]
  simp [hrest]

theorem Lexes.cons {c : Char} {t : Token} (hspace : isSpace c = false)
    (ht : ∀ rest, token? (c :: rest) = some (t, rest)) {cs : List Char} {ts : List Token}
    (h : Lexes cs ts) : Lexes (c :: cs) (t :: ts) :=
  .of_token? hspace (ht cs) h

theorem lexes_single {c : Char} {cs : List Char} {t : Token} (hspace : isSpace c = false)
    (ht : token? (c :: cs) = some (t, [])) : Lexes (c :: cs) [t] :=
  .of_token? hspace ht (by cases cs.length <;> rfl)

/-! ## What is printed -/

theorem hexNumber?_control : ∀ n < 0x20,
    hexNumber? ['0', '0', hexDigit (n / 16), hexDigit (n % 16)] = some n := by
  decide

/-- A character is read as it is printed, whatever follows. -/
theorem pieces?_printChar (c : Char) (rest : List Char) :
    pieces? (printChar c ++ rest) = (pieces? rest).map fun p => (.char c :: p.1, p.2) := by
  unfold printChar
  split_ifs with hquote hslash hfeed hreturn htab hback hform hcontrol
  iterate 7
    · subst_vars
      refine (pieces?_escape ?_ rest).trans ?_
      · decide
      · rfl
  · have hchar : pieceOf c.toNat = .char c := by
      rw [pieceOf, if_neg (fun h => absurd (h.1.trans_lt hcontrol) (by decide)), Char.ofNat_toNat]
    simp only [List.cons_append, List.nil_append, pieces?_unicode, hexNumber?_control _ hcontrol,
      Option.bind_some, hchar]
  · exact pieces?_plain hquote (not_or.mpr ⟨hslash, hcontrol⟩) rest

theorem joinUnits?_chars (cs : List Char) : joinUnits? (cs.map .char) = some cs := by
  induction cs with
  | nil => rw [List.map_nil, joinUnits?]
  | cons c cs ih => rw [List.map_cons, joinUnits?, ih, Option.map_some]

theorem pieces?_printed (cs rest : List Char) :
    pieces? (cs.flatMap printChar ++ '"' :: rest) = some (cs.map .char, rest) := by
  induction cs with
  | nil => rw [List.flatMap_nil, List.nil_append, pieces?, List.map_nil]
  | cons c cs ih =>
    rw [List.flatMap_cons, List.append_assoc, pieces?_printChar, ih]
    rfl

/-- A text is read as it was printed. -/
theorem lexes_printText (s : String) : Lexes (printText s).toList [.text s] := by
  rw [printText, String.toList_ofList, List.cons_append]
  refine lexes_single (by decide) ?_
  rw [token?, pieces?_printed, Option.map_some]
  simp [textOf, joinUnits?_chars]

theorem head?_toDigits {n : Nat} (h : n ≠ 0) : (Nat.toDigits 10 n).head? ≠ some '0' := by
  induction n using Nat.strongRecOn with
  | ind n ih =>
    rw [Nat.toDigits_eq_if (by decide)]
    split
    · rename_i hn
      have : ∀ m < 10, m ≠ 0 → [m.digitChar].head? ≠ some '0' := by decide
      exact this n hn h
    · rename_i hn
      rw [List.head?_append_of_ne_nil _ Nat.toDigits_ne_nil]
      exact ih (n / 10) (by omega) (by omega)

theorem isSpace_of_isDigit {c : Char} (h : isDigit c = true) : isSpace c = false := by
  rw [Bool.eq_false_iff]
  simp only [isSpace, Bool.or_eq_true, beq_iff_eq, ne_eq]
  rintro (((rfl | rfl) | rfl) | rfl) <;> exact absurd h (by decide)

theorem token?_of_isDigit {c : Char} (h : isDigit c = true) (cs : List Char) :
    token? (c :: cs) = (unsigned? false (c :: cs)).map fun p => (.number p.1, p.2) := by
  have hlower : ¬isLower c = true := by
    simp only [isDigit, isLower, Bool.and_eq_true, decide_eq_true_eq, Char.le_def,
      UInt32.le_iff_toNat_le] at h ⊢
    intro hlow
    exact absurd (hlow.1.trans h.2) (by decide)
  rw [token?, if_neg hlower]
  all_goals
    rintro rfl
    exact absurd h (by decide)

/-- A number that a word of the machine holds is read as it was printed. -/
theorem lexes_toString {n : Nat} (h : n ≤ maxWord) :
    Lexes (toString (n : Int)).toList [.number (.integer n)] := by
  have hdigits : ∀ c ∈ Nat.toDigits 10 n, isDigit c = true := fun c hc =>
    Nat.isDigit_of_mem_toDigits (by decide) (by decide) hc
  have hwhole : (Nat.toDigits 10 n).takeWhile isDigit = Nat.toDigits 10 n :=
    List.takeWhile_eq_self_iff.mpr hdigits
  have hbehind : (Nat.toDigits 10 n).dropWhile isDigit = [] :=
    List.dropWhile_eq_nil_iff.mpr hdigits
  have hlead : ¬((Nat.toDigits 10 n).isEmpty || ((Nat.toDigits 10 n).head? == some '0' &&
      (Nat.toDigits 10 n).length ≠ 1)) = true := by
    by_cases hn : n = 0
    · subst hn
      decide
    · simp [head?_toDigits hn, Nat.toDigits_ne_nil]
  have hread : unsigned? false (Nat.toDigits 10 n) = some (.integer n, []) := by
    rw [unsigned?_eq, hwhole, hbehind, if_neg hlead]
    have hvalue : digitsValue (Nat.toDigits 10 n) = n := by
      rw [digitsValue_eq, Nat.ofDigitChars_ten_toDigits]
    simp [fraction?, exponent?, numberOf, hvalue, h]
  have htext : (toString (n : Int)).toList = Nat.toDigits 10 n := by
    simp [toString, Int.repr]
  rw [htext]
  cases hcs : Nat.toDigits 10 n with
  | nil => exact absurd hcs Nat.toDigits_ne_nil
  | cons c cs =>
    have hc := hdigits c (by simp [hcs])
    refine lexes_single (isSpace_of_isDigit hc) ?_
    rw [token?_of_isDigit hc, ← hcs, hread]
    rfl

end Reader
end Json
end LogLens
