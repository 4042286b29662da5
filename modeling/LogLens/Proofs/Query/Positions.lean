/-
Reading a text by position and reading it as a list.

A position of a text leaves a rest of it, and what is read at the position is read off that rest.
The reader asks for characters of the text only and every step goes on, so it comes to the end
(`tokensFrom_eq_scan`), and its tokens are those of a recursion over the characters (`scan`).  Where
it looks back at the character before a word, the recursion remembers whether that was white space.
-/
import Mathlib
import LogLens.Query.Token

namespace LogLens
namespace Query
namespace Token

/-! ## The parts of a text -/

/-- The characters up to the closing quote, and the rest behind it.  A backslash before a quote
keeps the quote from closing and does not count itself. -/
def quoted : List Char → List Char × List Char
  | [] => ([], [])
  | '"' :: rest => ([], rest)
  | '\\' :: '"' :: rest => let (inside, rest) := quoted rest; ('"' :: inside, rest)
  | c :: rest => let (inside, rest) := quoted rest; (c :: inside, rest)

/-- The characters up to and with the closing bracket, and the rest. -/
def bracketed : List Char → List Char × List Char
  | [] => ([], [])
  | c :: rest =>
    if c = ']' then ([c], rest)
    else let (inside, rest) := bracketed rest; (c :: inside, rest)

/-- The comparison that an angle bracket begins, and the rest. -/
def comparison (c : Char) (rest : List Char) : Comparison × List Char :=
  match rest with
  | '=' :: behind => (if c = '>' then .gte else .lte, behind)
  | _ => (if c = '>' then .gt else .lt, rest)

theorem length_quoted_le (cs : List Char) : (quoted cs).2.length ≤ cs.length := by
  fun_induction quoted cs <;> simp_all <;> omega

theorem length_bracketed_le (cs : List Char) : (bracketed cs).2.length ≤ cs.length := by
  fun_induction bracketed cs <;> simp_all
  omega

theorem length_comparison_le (c : Char) (cs : List Char) :
    (comparison c cs).2.length ≤ cs.length := by
  unfold comparison
  split <;> simp

theorem length_dropWhile_le {α : Type} (p : α → Bool) (cs : List α) :
    (cs.dropWhile p).length ≤ cs.length :=
  (List.dropWhile_suffix p).length_le

/-- The tokens of a text.  The flags say whether the last token was an operator, and whether white
space came last. -/
def scan (afterOperator afterBlank : Bool) : List Char → List Token
  | [] => []
  | c :: rest =>
    if isBlank c then scan afterOperator true rest
    else if c = '"' then
      have := length_quoted_le rest
      .value (String.ofList (quoted rest).1) :: scan false false (quoted rest).2
    else if c = '[' then
      have := length_bracketed_le rest
      .range (String.ofList (c :: (bracketed rest).1)) :: scan false false (bracketed rest).2
    else if c = ':' then .operator .colon :: scan true false rest
    else if c = '>' ∨ c = '<' then
      have := length_comparison_le c rest
      .operator (comparison c rest).1 :: scan true false (comparison c rest).2
    else if c = '(' ∨ c = ')' then .paren c :: scan false false rest
    else if c = ']' then scan afterOperator false rest
    else if afterOperator && !afterBlank then
      have := length_dropWhile_le (!endsValue ·) rest
      .text (String.ofList (c :: rest.takeWhile (!endsValue ·))) ::
        scan false false (rest.dropWhile (!endsValue ·))
    else
      have := length_dropWhile_le (!isSpecial ·) rest
      ofWord (c :: rest.takeWhile (!isSpecial ·)) (rest.dropWhile (!isSpecial ·)) ::
        scan false false (rest.dropWhile (!isSpecial ·))
  termination_by cs => cs.length
  decreasing_by all_goals simp_wf <;> omega

/-! ## Kinds of characters -/

theorem isSpecial_eq_false_iff {c : Char} :
    isSpecial c = false ↔ isBlank c = false ∧ c ≠ '"' ∧ c ≠ ':' ∧ c ≠ '(' ∧ c ≠ ')' ∧ c ≠ '[' ∧
      c ≠ ']' ∧ c ≠ '<' ∧ c ≠ '>' := by
  simp [isSpecial]

/-- The kinds of characters, as the scanner tells them apart. -/
theorem kind_cases (c : Char) : isBlank c = true ∨ c = '"' ∨ c = '[' ∨ c = ':' ∨
    (c = '>' ∨ c = '<') ∨ (c = '(' ∨ c = ')') ∨ c = ']' ∨ isSpecial c = false := by
  rw [isSpecial_eq_false_iff]
  by_cases hblank : isBlank c = true
  · exact Or.inl hblank
  · simp only [Bool.not_eq_true] at hblank
    simp only [hblank]
    tauto

theorem endsValue_eq_false_iff {c : Char} :
    endsValue c = false ↔
      isBlank c = false ∧ c ≠ '"' ∧ c ≠ '(' ∧ c ≠ ')' ∧ c ≠ '[' ∧ c ≠ ']' := by
  simp [endsValue]

theorem endsValue_of_isSpecial_eq_false {c : Char} (h : isSpecial c = false) :
    endsValue c = false := by
  obtain ⟨hblank, hquote, -, hopen, hclose, hbracket, hstray, -⟩ := isSpecial_eq_false_iff.mp h
  exact endsValue_eq_false_iff.mpr ⟨hblank, hquote, hopen, hclose, hbracket, hstray⟩

/-! ## One step of the scanner -/

section Steps

variable (op bl : Bool) (rest : List Char)

theorem scan_nil : scan op bl [] = [] := by
  rw [scan.eq_def]

/-- The steps below are the branches of this one. -/
theorem scan_cons (c : Char) : scan op bl (c :: rest) =
    if isBlank c then scan op true rest
    else if c = '"' then .value (String.ofList (quoted rest).1) :: scan false false (quoted rest).2
    else if c = '[' then
      .range (String.ofList (c :: (bracketed rest).1)) :: scan false false (bracketed rest).2
    else if c = ':' then .operator .colon :: scan true false rest
    else if c = '>' ∨ c = '<' then
      .operator (comparison c rest).1 :: scan true false (comparison c rest).2
    else if c = '(' ∨ c = ')' then .paren c :: scan false false rest
    else if c = ']' then scan op false rest
    else if op && !bl then
      .text (String.ofList (c :: rest.takeWhile (!endsValue ·))) ::
        scan false false (rest.dropWhile (!endsValue ·))
    else
      ofWord (c :: rest.takeWhile (!isSpecial ·)) (rest.dropWhile (!isSpecial ·)) ::
        scan false false (rest.dropWhile (!isSpecial ·)) := by
  rw [scan.eq_def]

theorem scan_blank {c : Char} (h : isBlank c = true) :
    scan op bl (c :: rest) = scan op true rest := by
  rw [scan_cons, if_pos h]

theorem scan_quote : scan op bl ('"' :: rest) =
    .value (String.ofList (quoted rest).1) :: scan false false (quoted rest).2 := by
  rw [scan_cons, if_neg (by decide), if_pos rfl]

theorem scan_bracket : scan op bl ('[' :: rest) =
    .range (String.ofList ('[' :: (bracketed rest).1)) :: scan false false (bracketed rest).2 := by
  rw [scan_cons, if_neg (by decide), if_neg (by decide), if_pos rfl]

theorem scan_colon : scan op bl (':' :: rest) = .operator .colon :: scan true false rest := by
  rw [scan_cons, if_neg (by decide), if_neg (by decide), if_neg (by decide), if_pos rfl]

theorem scan_angle {c : Char} (h : c = '>' ∨ c = '<') : scan op bl (c :: rest) =
    .operator (comparison c rest).1 :: scan true false (comparison c rest).2 := by
  rcases h with rfl | rfl <;>
    rw [scan_cons, if_neg (by decide), if_neg (by decide), if_neg (by decide), if_neg (by decide),
      if_pos (by decide)]

theorem scan_paren {c : Char} (h : c = '(' ∨ c = ')') :
    scan op bl (c :: rest) = .paren c :: scan false false rest := by
  rcases h with rfl | rfl <;>
    rw [scan_cons, if_neg (by decide), if_neg (by decide), if_neg (by decide), if_neg (by decide),
      if_neg (by decide), if_pos (by decide)]

theorem scan_stray : scan op bl (']' :: rest) = scan op false rest := by
  rw [scan_cons, if_neg (by decide), if_neg (by decide), if_neg (by decide), if_neg (by decide),
    if_neg (by decide), if_neg (by decide), if_pos rfl]

/-- A word right behind an operator is a value. -/
theorem scan_value {c : Char} (h : isSpecial c = false) : scan true false (c :: rest) =
    .text (String.ofList (c :: rest.takeWhile (!endsValue ·))) ::
      scan false false (rest.dropWhile (!endsValue ·)) := by
  obtain ⟨hblank, hquote, hcolon, hopen, hclose, hbracket, hstray, hless, hgreater⟩ :=
    isSpecial_eq_false_iff.mp h
  rw [scan_cons]
  simp [hblank, hquote, hcolon, hopen, hclose, hbracket, hstray, hless, hgreater]

/-- Any other word is classified. -/
theorem scan_word {c : Char} (h : isSpecial c = false) (hapart : (op && !bl) = false) :
    scan op bl (c :: rest) =
      ofWord (c :: rest.takeWhile (!isSpecial ·)) (rest.dropWhile (!isSpecial ·)) ::
        scan false false (rest.dropWhile (!isSpecial ·)) := by
  obtain ⟨hblank, hquote, hcolon, hopen, hclose, hbracket, hstray, hless, hgreater⟩ :=
    isSpecial_eq_false_iff.mp h
  rw [scan_cons]
  simp [hblank, hquote, hcolon, hopen, hclose, hbracket, hstray, hless, hgreater, hapart]

end Steps

/-! ## Parts and rests -/

theorem quoted_cons {c : Char} {rest : List Char} (hquote : c ≠ '"')
    (hescape : c = '\\' → rest.head? ≠ some '"') :
    quoted (c :: rest) = (c :: (quoted rest).1, (quoted rest).2) := by
  rw [quoted]
  · exact hquote
  · rintro rest' hc rfl
    exact hescape hc rfl

theorem bracketed_append_rest (cs : List Char) : (bracketed cs).1 ++ (bracketed cs).2 = cs := by
  induction cs with
  | nil => rfl
  | cons c cs ih =>
    rw [bracketed]
    split
    · rfl
    · exact congrArg (c :: ·) ih

theorem length_bracketed (cs : List Char) : (bracketed cs).1.length =
    min ((cs.takeWhile (!· == ']')).length + 1) cs.length := by
  induction cs with
  | nil => rfl
  | cons c cs ih =>
    rw [bracketed, List.takeWhile_cons]
    by_cases hc : c = ']'
    · simp [hc]
    · simp [hc, ih]

theorem comparison_eq {c : Char} (h : c = '>' ∨ c = '<') (rest : List Char) :
    comparison c rest = (.ofAngle c (rest.head? == some '='),
      if rest.head? == some '=' then rest.tail else rest) := by
  cases rest with
  | nil => rcases h with rfl | rfl <;> rfl
  | cons d rest =>
    by_cases hd : d = '='
    · subst hd
      rcases h with rfl | rfl <;> rfl
    · have hother : (d == '=') = false := beq_eq_false_iff_ne.mpr hd
      rcases h with rfl | rfl <;> simp [comparison, hd, hother, Comparison.ofAngle]

theorem cons_takeWhile_append_dropWhile (p : Char → Bool) (c : Char) (rest : List Char) :
    c :: rest = (c :: rest.takeWhile p) ++ rest.dropWhile p := by
  rw [List.cons_append, List.takeWhile_append_dropWhile]

theorem isOperator_ofWord (word rest : List Char) : (ofWord word rest).isOperator = false := by
  unfold ofWord
  repeat' split
  all_goals rfl

/-! ## Characters at a position -/

theorem ok_bind {α β : Type} (a : α) (f : α → Except Fault β) : (Except.ok a >>= f) = f a := rfl

theorem pure_eq_ok {α : Type} (a : α) : (pure a : Except Fault α) = .ok a := rfl

section Positions

variable {cs : Array Char} {i j : Nat} {c : Char} {rest : List Char}

theorem lt_size_of_drop (h : cs.toList.drop i = c :: rest) : i < cs.size := by
  have hlength := congrArg List.length h
  rw [List.length_drop, List.length_cons, Array.length_toList] at hlength
  omega

theorem getElem?_of_drop (h : cs.toList.drop i = c :: rest) : cs[i]? = some c := by
  rw [← Array.getElem?_toList, ← List.head?_drop, h, List.head?_cons]

theorem charAt_of_drop (h : cs.toList.drop i = c :: rest) : charAt cs i = .ok c := by
  rw [charAt, getElem?_of_drop h]

theorem drop_succ (h : cs.toList.drop i = c :: rest) : cs.toList.drop (i + 1) = rest := by
  rw [← List.tail_drop, h, List.tail_cons]

theorem getElem?_succ (h : cs.toList.drop i = c :: rest) : cs[i + 1]? = rest.head? := by
  rw [← Array.getElem?_toList, ← List.head?_drop, drop_succ h]

theorem exists_drop_eq_cons (h : i < cs.size) : ∃ c rest, cs.toList.drop i = c :: rest :=
  ⟨_, _, List.drop_eq_getElem_cons (by simpa using h)⟩

theorem drop_eq_nil (h : ¬i < cs.size) : cs.toList.drop i = [] :=
  List.drop_eq_nil_of_le (by simpa using h)

theorem slice_eq (hij : i ≤ j) (hj : j ≤ cs.size) :
    slice cs i j = .ok ((cs.toList.drop i).take (j - i)) := by
  rw [slice, if_pos ⟨hij, hj⟩, Array.toList_extract, List.extract_eq_take_drop]

/-- The rest of a text is one of its stretches. -/
theorem slice_rest (h : i ≤ cs.size) : slice cs i cs.size = .ok (cs.toList.drop i) := by
  rw [slice_eq h le_rfl, List.take_of_length_le (by simp)]

/-! ## Walks -/

/-- A walk passes over the characters at which it does not stop. -/
theorem stopFrom_eq (stops : Char → Bool) (i : Nat) : stopFrom cs stops i =
    .ok (i + ((cs.toList.drop i).takeWhile (!stops ·)).length) := by
  induction hn : cs.size - i generalizing i with
  | zero =>
    have hend : ¬i < cs.size := by omega
    rw [stopFrom, if_neg hend, drop_eq_nil hend]
    rfl
  | succ n ih =>
    have hi : i < cs.size := by omega
    obtain ⟨c, rest, hdrop⟩ := exists_drop_eq_cons hi
    rw [stopFrom, if_pos hi, charAt_of_drop hdrop, ok_bind, ih (i + 1) (by omega),
      drop_succ hdrop, hdrop, List.takeWhile_cons]
    by_cases hc : stops c = true
    · simp [hc, pure_eq_ok]
    · simp [hc, Nat.add_assoc, Nat.add_comm 1]

/-- A stretch is read as it stands, and a position behind it is left with what follows. -/
theorem slice_of_drop {part behind : List Char} (hi : i ≤ cs.size)
    (h : cs.toList.drop i = part ++ behind) : i + part.length ≤ cs.size ∧
      slice cs i (i + part.length) = .ok part ∧ cs.toList.drop (i + part.length) = behind := by
  have hlength := congrArg List.length h
  rw [List.length_drop, List.length_append, Array.length_toList] at hlength
  refine ⟨by omega, ?_, ?_⟩
  · rw [slice_eq (by omega) (by omega), h, Nat.add_sub_cancel_left, List.take_left]
  · rw [← List.drop_drop, h, List.drop_left]

theorem escapesAt_eq (h : cs.toList.drop i = c :: rest) :
    escapesAt cs c i = .ok (c == '\\' && rest.head? == some '"') := by
  rw [escapesAt]
  split
  · rename_i hescape
    obtain ⟨d, rest', hdrop⟩ := exists_drop_eq_cons hescape.2
    rw [charAt_of_drop hdrop, ok_bind, pure_eq_ok]
    rw [drop_succ h] at hdrop
    simp [hescape.1, hdrop]
  · rename_i hescape
    have hfalse : (c == '\\' && rest.head? == some '"') = false := by
      by_contra htrue
      obtain ⟨hc, hhead⟩ : c = '\\' ∧ rest.head? = some '"' := by simpa using htrue
      obtain ⟨rest', hrest⟩ := List.head?_eq_some_iff.mp hhead
      exact hescape ⟨hc, lt_size_of_drop ((drop_succ h).trans hrest)⟩
    rw [hfalse]

/-- A quoted value is read up to its closing quote, or to the end of the text. -/
theorem quotedFrom_eq (i : Nat) : ∃ j, quotedFrom cs i = .ok ((quoted (cs.toList.drop i)).1, j) ∧
    i ≤ j ∧ cs.toList.drop (j + 1) = (quoted (cs.toList.drop i)).2 := by
  induction hn : cs.size - i using Nat.strongRecOn generalizing i with
  | ind n ih =>
  by_cases hi : i < cs.size
  · obtain ⟨c, rest, hdrop⟩ := exists_drop_eq_cons hi
    rw [quotedFrom, if_pos hi, charAt_of_drop hdrop, ok_bind, hdrop]
    by_cases hquote : c = '"'
    · rw [if_pos hquote, hquote]
      exact ⟨i, rfl, le_rfl, drop_succ hdrop⟩
    rw [if_neg hquote, escapesAt_eq hdrop, ok_bind]
    by_cases hescape : (c == '\\' && rest.head? == some '"') = true
    · obtain ⟨rfl, hhead⟩ : c = '\\' ∧ rest.head? = some '"' := by simpa using hescape
      obtain ⟨rest, rfl⟩ := List.head?_eq_some_iff.mp hhead
      have hnext := drop_succ (drop_succ hdrop)
      obtain ⟨j, hj, hij, hbehind⟩ := ih _ (by omega) (i + 2) rfl
      rw [hnext] at hj hbehind
      rw [if_pos hescape, hj, ok_bind]
      exact ⟨j, rfl, by omega, hbehind⟩
    · obtain ⟨j, hj, hij, hbehind⟩ := ih _ (by omega) (i + 1) rfl
      rw [drop_succ hdrop] at hj hbehind
      rw [if_neg hescape, hj, ok_bind, quoted_cons hquote (by simpa using hescape)]
      exact ⟨j, rfl, by omega, hbehind⟩
  · rw [quotedFrom, if_neg hi, drop_eq_nil hi]
    exact ⟨i, rfl, le_rfl, drop_eq_nil (by omega)⟩

/-! ## One token -/

theorem tokenAt_eq (h : cs.toList.drop i = c :: rest) (op : Bool) : tokenAt cs op i =
    if isBlank c then .ok (none, i + 1)
    else if c = '"' then do
      let (inside, j) ← quotedFrom cs (i + 1)
      return (some (.value (String.ofList inside)), j + 1)
    else if c = '[' then do
      let j ← stopFrom cs (· == ']') i
      let literal ← slice cs i (min (j + 1) cs.size)
      return (some (.range (String.ofList literal)), min (j + 1) cs.size)
    else if c = ':' then .ok (some (.operator .colon), i + 1)
    else if c = '>' ∨ c = '<' then
      .ok (some (.operator (.ofAngle c (rest.head? == some '='))),
        if rest.head? == some '=' then i + 2 else i + 1)
    else if c = '(' ∨ c = ')' then .ok (some (.paren c), i + 1)
    else if c = ']' then .ok (none, i + 1)
    else do
      let (token, j) ← wordAt cs op i
      return (some token, j) := by
  rw [tokenAt, charAt_of_drop h, ok_bind, getElem?_succ h]
  rfl

theorem tokenAt_quote (h : cs.toList.drop i = '"' :: rest) (op : Bool) :
    ∃ j, tokenAt cs op i = .ok (some (.value (String.ofList (quoted rest).1)), j) ∧ i < j ∧
      cs.toList.drop j = (quoted rest).2 := by
  obtain ⟨j, hj, hij, hbehind⟩ := @quotedFrom_eq cs (i + 1)
  rw [drop_succ h] at hj hbehind
  refine ⟨j + 1, ?_, by omega, hbehind⟩
  rw [tokenAt_eq h, if_neg (by decide), if_pos rfl, hj]
  rfl

theorem tokenAt_bracket (h : cs.toList.drop i = '[' :: rest) (op : Bool) :
    ∃ j, tokenAt cs op i = .ok (some (.range (String.ofList ('[' :: (bracketed rest).1))), j) ∧
      i < j ∧ cs.toList.drop j = (bracketed rest).2 := by
  have hi := lt_size_of_drop h
  have hlength := congrArg List.length h
  rw [List.length_drop, Array.length_toList, List.length_cons] at hlength
  have hsplit : cs.toList.drop i = ('[' :: (bracketed rest).1) ++ (bracketed rest).2 := by
    rw [h, List.cons_append, bracketed_append_rest]
  obtain ⟨-, hslice, hbehind⟩ := slice_of_drop hi.le hsplit
  have hj : min (i + ((cs.toList.drop i).takeWhile (!· == ']')).length + 1) cs.size =
      i + ('[' :: (bracketed rest).1).length := by
    rw [h, List.takeWhile_cons, if_pos (by decide), List.length_cons, List.length_cons,
      length_bracketed]
    omega
  refine ⟨i + ('[' :: (bracketed rest).1).length, ?_, by simp, hbehind⟩
  rw [tokenAt_eq h, if_neg (by decide), if_neg (by decide), if_pos rfl, stopFrom_eq, ok_bind, hj,
    hslice]
  rfl

theorem tokenAt_colon (h : cs.toList.drop i = ':' :: rest) (op : Bool) :
    tokenAt cs op i = .ok (some (.operator .colon), i + 1) := by
  rw [tokenAt_eq h, if_neg (by decide), if_neg (by decide), if_neg (by decide), if_pos rfl]

/-- Right behind an operator the reader looks back at white space. -/
theorem behindOperatorAt_succ (h : cs.toList.drop i = c :: rest) (op : Bool) :
    behindOperatorAt cs op (i + 1) = .ok (op && !isBlank c) := by
  cases op with
  | false => rfl
  | true => rw [behindOperatorAt, if_pos rfl, charBefore, charAt_of_drop h, ok_bind, pure_eq_ok,
      Bool.true_and]

theorem tokenAt_angle (hc : c = '>' ∨ c = '<') (h : cs.toList.drop i = c :: rest) (op : Bool) :
    ∃ j, tokenAt cs op i = .ok (some (.operator (comparison c rest).1), j) ∧ i < j ∧
      cs.toList.drop j = (comparison c rest).2 ∧ behindOperatorAt cs true j = .ok true := by
  have hat : tokenAt cs op i = .ok (some (.operator (.ofAngle c (rest.head? == some '='))),
      if rest.head? == some '=' then i + 2 else i + 1) := by
    rcases hc with rfl | rfl <;> rw [tokenAt_eq h] <;> rfl
  have hblank : isBlank c = false := by rcases hc with rfl | rfl <;> decide
  rw [hat, comparison_eq hc]
  by_cases hinclusive : (rest.head? == some '=') = true
  · obtain ⟨more, rfl⟩ := List.head?_eq_some_iff.mp (eq_of_beq hinclusive)
    rw [if_pos hinclusive, if_pos hinclusive]
    exact ⟨i + 2, rfl, by omega, drop_succ (drop_succ h), behindOperatorAt_succ (drop_succ h) true⟩
  · rw [if_neg hinclusive, if_neg hinclusive]
    exact ⟨i + 1, rfl, by omega, drop_succ h, by rw [behindOperatorAt_succ h, hblank]; rfl⟩

/-- A word is read up to where it ends, and is a value right behind an operator. -/
theorem tokenAt_word (h : cs.toList.drop i = c :: rest) (hc : isSpecial c = false) {op bl : Bool}
    (hback : behindOperatorAt cs op i = .ok (op && !bl)) :
    ∃ token j behind, tokenAt cs op i = .ok (some token, j) ∧ i < j ∧
      cs.toList.drop j = behind ∧ token.isOperator = false ∧
      scan op bl (c :: rest) = token :: scan false false behind := by
  obtain ⟨hblank, hquote, hcolon, hopen, hclose, hbracket, hstray, hless, hgreater⟩ :=
    isSpecial_eq_false_iff.mp hc
  have hat : tokenAt cs op i = (do let (token, j) ← wordAt cs op i; return (some token, j)) := by
    rw [tokenAt_eq h]
    simp [hblank, hquote, hcolon, hopen, hclose, hbracket, hstray, hless, hgreater]
  -- the walk passes over the first character, so the word is not empty and the position goes on
  have hwalk : ∀ stops : Char → Bool, stops c = false →
      ∃ j, i < j ∧ j ≤ cs.size ∧ stopFrom cs stops i = .ok j ∧
        slice cs i j = .ok (c :: rest.takeWhile (!stops ·)) ∧
        cs.toList.drop j = rest.dropWhile (!stops ·) := by
    intro stops hstops
    obtain ⟨hj, hslice, hrest⟩ := slice_of_drop (lt_size_of_drop h).le
      (h.trans (cons_takeWhile_append_dropWhile (!stops ·) c rest))
    refine ⟨_, by simp, hj, ?_, hslice, hrest⟩
    rw [stopFrom_eq, h, List.takeWhile_cons, if_pos (by simp [hstops])]
  rw [hat, wordAt, hback, ok_bind]
  by_cases hvalue : (op && !bl) = true
  · obtain ⟨rfl, rfl⟩ : op = true ∧ bl = false := by simpa using hvalue
    obtain ⟨j, hij, -, hstop, hslice, hrest⟩ :=
      hwalk endsValue (endsValue_of_isSpecial_eq_false hc)
    refine ⟨_, j, _, ?_, hij, hrest, rfl, scan_value rest hc⟩
    rw [if_pos hvalue, hstop, ok_bind, hslice]
    rfl
  · obtain ⟨j, hij, hj, hstop, hslice, hrest⟩ := hwalk isSpecial hc
    have hapart := Bool.eq_false_iff.mpr hvalue
    refine ⟨_, j, _, ?_, hij, hrest, isOperator_ofWord _ _, scan_word op bl rest hc hapart⟩
    rw [hapart, if_neg Bool.false_ne_true, hstop, ok_bind, hslice, ok_bind, slice_rest hj, hrest]
    rfl

/-! ## All tokens -/

theorem tokensFrom_pass {op : Bool} (hi : i < cs.size) (hij : i < j)
    (hstep : tokenAt cs op i = .ok (none, j)) : tokensFrom cs op i = tokensFrom cs op j := by
  rw [tokensFrom, if_pos hi, hstep, ok_bind]
  exact if_pos hij

theorem tokensFrom_token {op : Bool} {token : Token} {tokens : List Token} (hi : i < cs.size)
    (hij : i < j) (hstep : tokenAt cs op i = .ok (some token, j))
    (hrest : tokensFrom cs token.isOperator j = .ok tokens) :
    tokensFrom cs op i = .ok (token :: tokens) := by
  rw [tokensFrom, if_pos hi, hstep, ok_bind]
  refine (if_pos hij).trans ?_
  show (tokensFrom cs token.isOperator j >>= fun tokens => pure (token :: tokens)) = _
  rw [hrest, ok_bind, pure_eq_ok]

/-- The reader comes to the end of the text, and the tokens from a position on are those of the
rest.  The second flag is what the reader finds when it looks back. -/
theorem tokensFrom_eq_scan (i : Nat) {op bl : Bool}
    (hback : behindOperatorAt cs op i = .ok (op && !bl)) :
    tokensFrom cs op i = .ok (scan op bl (cs.toList.drop i)) := by
  induction hn : cs.size - i using Nat.strongRecOn generalizing i op bl with
  | ind n ih =>
  by_cases hi : i < cs.size
  · obtain ⟨c, rest, hdrop⟩ := exists_drop_eq_cons hi
    have hpass (hstep : tokenAt cs op i = .ok (none, i + 1)) :
        tokensFrom cs op i = .ok (scan op (isBlank c) rest) := by
      rw [tokensFrom_pass hi (Nat.lt_succ_self i) hstep,
        ih _ (by omega) (i + 1) (behindOperatorAt_succ hdrop op) rfl, drop_succ hdrop]
    have htoken {token : Token} {j : Nat} {behind : List Char} (hij : i < j)
        (hstep : tokenAt cs op i = .ok (some token, j)) (hbehind : cs.toList.drop j = behind)
        (hback : behindOperatorAt cs token.isOperator j = .ok (token.isOperator && !false)) :
        tokensFrom cs op i = .ok (token :: scan token.isOperator false behind) := by
      rw [← hbehind]
      exact tokensFrom_token hi hij hstep (ih _ (by omega) j hback rfl)
    rw [hdrop]
    rcases kind_cases c with hblank | rfl | rfl | rfl | hangle | hparen | rfl | hword
    · rw [hpass (by rw [tokenAt_eq hdrop, if_pos hblank]), scan_blank op bl rest hblank, hblank]
    · obtain ⟨j, hstep, hij, hbehind⟩ := tokenAt_quote hdrop op
      rw [htoken hij hstep hbehind rfl, scan_quote]
      rfl
    · obtain ⟨j, hstep, hij, hbehind⟩ := tokenAt_bracket hdrop op
      rw [htoken hij hstep hbehind rfl, scan_bracket]
      rfl
    · rw [htoken (Nat.lt_succ_self i) (tokenAt_colon hdrop op) (drop_succ hdrop)
        (behindOperatorAt_succ hdrop true), scan_colon]
      rfl
    · obtain ⟨j, hstep, hij, hbehind, hback⟩ := tokenAt_angle hangle hdrop op
      rw [htoken hij hstep hbehind hback, scan_angle op bl rest hangle]
      rfl
    · have hstep : tokenAt cs op i = .ok (some (.paren c), i + 1) := by
        rcases hparen with rfl | rfl <;> rw [tokenAt_eq hdrop] <;> rfl
      rw [htoken (Nat.lt_succ_self i) hstep (drop_succ hdrop) rfl, scan_paren op bl rest hparen]
      rfl
    · rw [hpass (by rw [tokenAt_eq hdrop]; rfl), scan_stray]
      rfl
    · obtain ⟨token, j, behind, hstep, hij, hbehind, hoperator, hscan⟩ :=
        tokenAt_word hdrop hword hback
      rw [htoken hij hstep hbehind (by rw [hoperator]; rfl), hoperator, hscan]
  · rw [tokensFrom, if_neg hi, drop_eq_nil hi, scan_nil]

end Positions

end Token

/-- The tokens of a text are those of the recursion over its characters. -/
theorem tokenize_eq_scan (s : String) : tokenize s = Token.scan false false s.toList := by
  rw [tokenize, Token.tokensFrom_eq_scan 0 rfl]
  rfl

end Query
end LogLens
