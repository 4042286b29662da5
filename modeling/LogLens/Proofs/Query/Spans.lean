/-
Tokens and the stretches of a text that say them.

A text is cut into pieces, without rest: stretches that say a token each, and between them white
space and closing brackets without a partner, which are passed over.  A piece fits if its token is
what the stretch says, words being taken whole, if a colon comes next behind the name of a field,
and if free text that is not right behind an operator is a plain word.  At each character the
scanner passes over it or finds a token with its stretch (`exists_first`).  Its flags tell how the
pieces before end, so whatever it adds to them fits (`exists_cut`), and the tokens of a text are
those of a cut (`tokenize_lossless`).
-/
import LogLens.Proofs.Query.Grammar

namespace LogLens
namespace Query

open Token

/-! ## What a stretch says -/

def Comparison.symbol : Comparison → List Char
  | colon => [':']
  | gt => ['>']
  | gte => ['>', '=']
  | lt => ['<']
  | lte => ['<', '=']

namespace Token

/-- Whether a stretch of the text is a whole word, when the text `behind` follows. -/
structure WholeWord (span behind : List Char) : Prop where
  nonempty : span ≠ []
  ended : ∀ c ∈ behind.head?, isSpecial c = true

/-- Whether a stretch of the text says a token, when the text `behind` follows. -/
def SaidBy (span behind : List Char) : Token → Prop
  | field name => span = name.toList ∧ WholeWord span behind
  | operator op => span = op.symbol
  | value s => ∃ inside closing, span = '"' :: (inside ++ closing) ∧
      s.toList = replacePair '\\' '"' '"' inside ∧
      -- each quote inside has a backslash before it, and the closing quote has none
      List.IsChain (fun c d => d = '"' → c = '\\') ('"' :: inside) ∧
      (closing = ['"'] ∧ inside.getLast? ≠ some '\\' ∨ closing = [] ∧ behind = [])
  | range literal => span = literal.toList ∧ ∃ inside closing, span = '[' :: (inside ++ closing) ∧
      ']' ∉ inside ∧ (closing = [']'] ∨ closing = [] ∧ behind = [])
  | text word => span = word.toList ∧ WholeWord span behind
  | paren c => span = [c] ∧ (c = '(' ∨ c = ')')
  | and => equalsIgnoringCase span "AND".toList = true ∧ WholeWord span behind
  | or => equalsIgnoringCase span "OR".toList = true ∧ WholeWord span behind
  | not => equalsIgnoringCase span "NOT".toList = true ∧ WholeWord span behind

/-- The quoted characters are the pairs and the others up to the closing quote. -/
theorem exists_quoted (cs : List Char) : ∃ inside closing, cs = inside ++ closing ++ (quoted cs).2 ∧
    (quoted cs).1 = replacePair '\\' '"' '"' inside ∧
    List.IsChain (fun c d => d = '"' → c = '\\') ('"' :: inside) ∧
    (closing = ['"'] ∧ inside.getLast? ≠ some '\\' ∨ closing = [] ∧ (quoted cs).2 = []) := by
  induction cs using closesQuote.induct with
  | case1 => exact ⟨[], [], rfl, rfl, by simp, Or.inr ⟨rfl, rfl⟩⟩
  | case2 rest => exact ⟨[], ['"'], rfl, rfl, by simp, Or.inl ⟨rfl, by simp⟩⟩
  | case3 rest ih =>
    obtain ⟨inside, closing, hsplit, hvalue, hchain, hclosing⟩ := ih
    rw [quoted]
    refine ⟨'\\' :: '"' :: inside, closing, congrArg ('\\' :: '"' :: ·) hsplit, ?_, ?_, ?_⟩
    · rw [replacePair, if_pos ⟨rfl, rfl⟩]
      exact congrArg ('"' :: ·) hvalue
    · exact List.isChain_cons_cons.mpr ⟨by simp, List.isChain_cons_cons.mpr ⟨by simp, hchain⟩⟩
    · refine hclosing.imp_left (And.imp_right fun hlast => ?_)
      cases inside with
      | nil => simp
      | cons d inside => simpa using hlast
  | case4 c rest hquote hescape ih =>
    obtain ⟨inside, closing, hsplit, hvalue, hchain, hclosing⟩ := ih
    have hescape' := head?_ne_quote hescape
    rw [quoted_cons hquote hescape']
    refine ⟨c :: inside, closing, congrArg (c :: ·) hsplit, ?_, ?_, ?_⟩
    · rw [hvalue]
      cases inside with
      | nil => rfl
      | cons d inside =>
        have hd : d ≠ '"' := fun hd => absurd ((List.isChain_cons_cons.mp hchain).1 hd) (by decide)
        rw [replacePair, if_neg fun h => hd h.2]
    · refine List.isChain_cons_cons.mpr ⟨fun hc => absurd hc hquote, ?_⟩
      cases inside with
      | nil => simp
      | cons d inside =>
        obtain ⟨hd, hinside⟩ := List.isChain_cons_cons.mp hchain
        exact List.isChain_cons_cons.mpr ⟨fun h => absurd (hd h) (by decide), hinside⟩
    · refine hclosing.imp_left ?_
      rintro ⟨rfl, hlast⟩
      refine ⟨rfl, ?_⟩
      cases inside with
      | nil =>
        -- the closing quote comes next, so it is not escaped
        intro hc
        exact hescape' (by simpa using hc) (by rw [hsplit]; rfl)
      | cons d inside => simpa using hlast

theorem exists_bracketed (cs : List Char) : ∃ inside closing, (bracketed cs).1 = inside ++ closing ∧
    ']' ∉ inside ∧ (closing = [']'] ∨ closing = [] ∧ (bracketed cs).2 = []) := by
  induction cs with
  | nil => exact ⟨[], [], rfl, by simp, Or.inr ⟨rfl, rfl⟩⟩
  | cons c cs ih =>
    rw [bracketed]
    by_cases hc : c = ']'
    · rw [if_pos hc]
      exact ⟨[], [c], rfl, by simp, Or.inl (by rw [hc])⟩
    · obtain ⟨inside, closing, heq, hinside, hclosing⟩ := ih
      rw [if_neg hc]
      exact ⟨c :: inside, closing, congrArg (c :: ·) heq,
        by simpa [Ne.symm hc] using hinside, hclosing⟩

theorem saidBy_quoted (rest : List Char) : ∃ span, '"' :: rest = span ++ (quoted rest).2 ∧
    (value (String.ofList (quoted rest).1)).SaidBy span (quoted rest).2 := by
  obtain ⟨inside, closing, hsplit, hvalue, hchain, hclosing⟩ := exists_quoted rest
  refine ⟨'"' :: (inside ++ closing), congrArg ('"' :: ·) hsplit, inside, closing, rfl, ?_, hchain,
    hclosing⟩
  rw [String.toList_ofList, hvalue]

theorem saidBy_bracketed (rest : List Char) :
    (range (String.ofList ('[' :: (bracketed rest).1))).SaidBy ('[' :: (bracketed rest).1)
      (bracketed rest).2 := by
  obtain ⟨inside, closing, hsplit, hinside, hclosing⟩ := exists_bracketed rest
  exact ⟨String.toList_ofList.symm, inside, closing, congrArg ('[' :: ·) hsplit, hinside, hclosing⟩

theorem saidBy_comparison {c : Char} (hc : c = '>' ∨ c = '<') (rest : List Char) :
    ∃ span, c :: rest = span ++ (comparison c rest).2 ∧ span = (comparison c rest).1.symbol := by
  rw [comparison_eq hc]
  by_cases hinclusive : (rest.head? == some '=') = true
  · obtain ⟨more, rfl⟩ := List.head?_eq_some_iff.mp (eq_of_beq hinclusive)
    rw [if_pos hinclusive, hinclusive]
    refine ⟨[c, '='], rfl, ?_⟩
    rcases hc with rfl | rfl <;> rfl
  · rw [if_neg hinclusive, Bool.eq_false_iff.mpr hinclusive]
    refine ⟨[c], rfl, ?_⟩
    rcases hc with rfl | rfl <;> rfl

/-- The meanings of a word that is not a value. -/
theorem saidBy_ofWord {word rest : List Char} (h : WholeWord word rest) :
    (ofWord word rest).SaidBy word rest := by
  rw [ofWord]
  split_ifs with hand hor hnot
  · exact ⟨hand, h⟩
  · exact ⟨hor, h⟩
  · exact ⟨hnot, h⟩
  · exact ⟨String.toList_ofList.symm, h⟩
  · exact ⟨String.toList_ofList.symm, h⟩

theorem plainWord_of_ofWord {word rest : List Char} {w : String} (hne : word ≠ [])
    (hplain : ∀ c ∈ word, isSpecial c = false) (h : ofWord word rest = .text w) :
    PlainWord w ∧ (trimStart rest).head? ≠ some ':' := by
  rw [ofWord] at h
  split_ifs at h with hand hor hnot hcolon
  obtain rfl : String.ofList word = w := by injection h
  refine ⟨⟨by simpa using hne, by rwa [String.toList_ofList], ?_⟩, by simpa using hcolon⟩
  rw [String.toList_ofList]
  simp only [List.mem_cons, List.not_mem_nil, or_false]
  rintro keyword (rfl | rfl | rfl)
  · exact Bool.eq_false_iff.mpr hand
  · exact Bool.eq_false_iff.mpr hor
  · exact Bool.eq_false_iff.mpr hnot

theorem isSpecial_of_endsValue {c : Char} (h : endsValue c = true) : isSpecial c = true := by
  by_contra hc
  rw [endsValue_of_isSpecial_eq_false (Bool.eq_false_iff.mpr hc)] at h
  exact Bool.false_ne_true h

theorem stops_of_mem_head?_dropWhile {stops : Char → Bool} {cs : List Char} :
    ∀ c ∈ (cs.dropWhile (!stops ·)).head?, stops c = true := by
  intro c hc
  have hstop := List.head?_dropWhile_not (!stops ·) cs
  rw [Option.mem_def.mp hc] at hstop
  simpa using hstop

/-! ## One step of the scanner -/

/-- White space and a closing bracket without a partner say nothing. -/
theorem scan_passed (op bl : Bool) {c : Char} (hc : isBlank c = true ∨ c = ']') (rest : List Char) :
    scan op bl (c :: rest) = scan op (isBlank c) rest := by
  rcases hc with hblank | rfl
  · rw [scan_blank op bl rest hblank, hblank]
  · exact scan_stray op bl rest

/-- The token that comes first in a text, which the stretch `span` says.  The flags say what came
before, as for the scanner. -/
structure First (op bl : Bool) (cs span behind : List Char) (token : Token) : Prop where
  split : cs = span ++ behind
  shorter : behind.length < cs.length
  scan_eq : scan op bl cs = token :: scan token.isOperator false behind
  said : token.SaidBy span behind
  /-- Behind the name of a field a colon comes next. -/
  colon : token.isField = true → (scan token.isOperator false behind).head? = some (operator .colon)
  /-- Right behind an operator a word goes on to where a value ends; other free text is a plain
  word, and no colon comes next to make a field of it. -/
  word : ∀ w, token = text w →
    if op && !bl then ∀ c ∈ behind.head?, endsValue c = true
    else PlainWord w ∧ (trimStart behind).head? ≠ some ':'

theorem first_word (op bl : Bool) {c : Char} (hc : isSpecial c = false) (rest : List Char) :
    ∃ span behind token, First op bl (c :: rest) span behind token := by
  have hsplit (p : Char → Bool) := cons_takeWhile_append_dropWhile p c rest
  have hshorter (p : Char → Bool) : (rest.dropWhile p).length < (c :: rest).length :=
    Nat.lt_succ_of_le (length_dropWhile_le p rest)
  by_cases hmode : (op && !bl) = true
  · obtain ⟨rfl, rfl⟩ : op = true ∧ bl = false := by simpa using hmode
    have hwhole : WholeWord (c :: rest.takeWhile (!endsValue ·)) (rest.dropWhile (!endsValue ·)) :=
      ⟨List.cons_ne_nil _ _,
        fun d hd => isSpecial_of_endsValue (stops_of_mem_head?_dropWhile d hd)⟩
    exact ⟨_, _, _, hsplit _, hshorter _, scan_value rest hc,
      ⟨String.toList_ofList.symm, hwhole⟩, nofun, fun _ _ => stops_of_mem_head?_dropWhile⟩
  · have hplain : ∀ d ∈ c :: rest.takeWhile (!isSpecial ·), isSpecial d = false := by
      refine List.forall_mem_cons.mpr ⟨hc, fun d hd => ?_⟩
      simpa using List.mem_takeWhile_imp hd
    have hwhole : WholeWord (c :: rest.takeWhile (!isSpecial ·)) (rest.dropWhile (!isSpecial ·)) :=
      ⟨List.cons_ne_nil _ _, stops_of_mem_head?_dropWhile⟩
    have hscan := scan_word op bl rest hc (Bool.eq_false_iff.mpr hmode)
    have hoperator := isOperator_ofWord (c :: rest.takeWhile (!isSpecial ·))
      (rest.dropWhile (!isSpecial ·))
    refine ⟨_, _, _, hsplit _, hshorter _, by rw [hscan, hoperator], saidBy_ofWord hwhole,
      fun hfield => ?_, fun w htext => ?_⟩
    · obtain ⟨more, hmore⟩ := scan_before_colon (colon_of_isField hfield) false false
      rw [hoperator, hmore, List.head?_cons]
    · rw [if_neg hmode]
      exact plainWord_of_ofWord hwhole.nonempty hplain htext

/-- At any character that is not passed over there is a token. -/
theorem exists_first (op bl : Bool) {c : Char} (hc : ¬(isBlank c = true ∨ c = ']'))
    (rest : List Char) : ∃ span behind token, First op bl (c :: rest) span behind token := by
  rcases kind_cases c with hblank | rfl | rfl | rfl | hangle | hparen | rfl | hword
  · exact absurd (Or.inl hblank) hc
  · obtain ⟨span, hsplit, hsaid⟩ := saidBy_quoted rest
    exact ⟨span, _, _, hsplit, Nat.lt_succ_of_le (length_quoted_le rest), scan_quote op bl rest,
      hsaid, nofun, nofun⟩
  · exact ⟨_, _, _, congrArg ('[' :: ·) (bracketed_append_rest rest).symm,
      Nat.lt_succ_of_le (length_bracketed_le rest), scan_bracket op bl rest, saidBy_bracketed rest,
      nofun, nofun⟩
  · exact ⟨[':'], _, _, rfl, Nat.lt_succ_self _, scan_colon op bl rest, rfl, nofun, nofun⟩
  · obtain ⟨span, hsplit, hsaid⟩ := saidBy_comparison hangle rest
    exact ⟨span, _, _, hsplit, Nat.lt_succ_of_le (length_comparison_le c rest),
      scan_angle op bl rest hangle, hsaid, nofun, nofun⟩
  · exact ⟨[c], _, _, rfl, Nat.lt_succ_self _, scan_paren op bl rest hparen, ⟨rfl, hparen⟩, nofun,
      nofun⟩
  · exact absurd (Or.inr rfl) hc
  · exact first_word op bl hword rest

end Token

/-! ## Pieces of a text -/

/-- A piece of a text: a character that is passed over, or a stretch that says a token. -/
inductive Piece where
  | passed (c : Char)
  | spoken (span : List Char) (token : Token)

namespace Piece

def chars : Piece → List Char
  | passed c => [c]
  | spoken span _ => span

def token? : Piece → Option Token
  | passed _ => none
  | spoken _ token => some token

/-- Whether a word behind the pieces is a value: their last token is an operator, and they do not
end in white space. -/
def leadToValue (before : List Piece) : Bool :=
  endsInOperator false (before.filterMap token?) &&
    !(before.flatMap chars).getLast?.any isBlank

/-- Whether a piece may stand between the pieces before it and those behind it. -/
def Fits (before behind : List Piece) : Piece → Prop
  | passed c => isBlank c = true ∨ c = ']'
  | spoken span token =>
    token.SaidBy span (behind.flatMap chars) ∧
    (token.isField = true → (behind.filterMap token?).head? = some (.operator .colon)) ∧
    ∀ w, token = .text w →
      if leadToValue before then ∀ c ∈ (behind.flatMap chars).head?, endsValue c = true
      else PlainWord w ∧ (trimStart (behind.flatMap chars)).head? ≠ some ':'

end Piece

/-- The flags of the scanner say how the pieces `before` end. -/
structure Reached (before : List Piece) (op bl : Bool) : Prop where
  operator : endsInOperator false (before.filterMap Piece.token?) = op
  blank : op = true → (before.flatMap Piece.chars).getLast?.any isBlank = bl

namespace Reached

variable {before : List Piece} {op bl : Bool}

theorem passed (h : Reached before op bl) (c : Char) :
    Reached (before ++ [.passed c]) op (isBlank c) where
  operator := by
    rw [List.filterMap_append, List.filterMap_cons_none (by rfl), List.filterMap_nil,
      List.append_nil]
    exact h.operator
  blank _ := by simp [Piece.chars]

theorem spoken {span behind : List Char} {token : Token} (h : token.SaidBy span behind) :
    Reached (before ++ [.spoken span token]) token.isOperator false where
  operator := by
    rw [List.filterMap_append, List.filterMap_cons_some (by rfl), List.filterMap_nil,
      endsInOperator_concat]
  blank hoperator := by
    cases token with
    | operator op =>
      have hspan : span = op.symbol := h
      rw [hspan]
      cases op <;> simp [Piece.chars, Comparison.symbol] <;> decide
    | _ => cases hoperator

theorem leadToValue_eq (h : Reached before op bl) :
    Piece.leadToValue before = (op && !bl) := by
  rw [Piece.leadToValue, h.operator]
  cases op with
  | false => rfl
  | true => rw [h.blank rfl]

end Reached

/-- Behind the pieces `before`, the pieces make up a text and its tokens, and each of them fits. -/
structure Cut (before : List Piece) (cs : List Char) (tokens : List Token) (pieces : List Piece) :
    Prop where
  chars : pieces.flatMap Piece.chars = cs
  tokens : pieces.filterMap Piece.token? = tokens
  fits : ∀ passed p behind, pieces = passed ++ p :: behind → p.Fits (before ++ passed) behind

namespace Cut

variable {before pieces : List Piece} {cs : List Char} {tokens : List Token}

theorem nil (before : List Piece) : Cut before [] [] [] where
  chars := rfl
  tokens := rfl
  fits passed p behind h := absurd h (by simp)

theorem cons {p : Piece} (hp : p.Fits before pieces) (h : Cut (before ++ [p]) cs tokens pieces) :
    Cut before (p.chars ++ cs) (p.token?.toList ++ tokens) (p :: pieces) where
  chars := by rw [List.flatMap_cons, h.chars]
  tokens := by
    rw [← h.tokens]
    cases p <;> rfl
  fits passed q behind heq := by
    cases passed with
    | nil =>
      obtain ⟨rfl, rfl⟩ := List.cons.inj heq
      rwa [List.append_nil]
    | cons q' passed =>
      obtain ⟨rfl, hpieces⟩ := List.cons.inj heq
      have hq := h.fits passed q behind hpieces
      rwa [List.append_assoc, List.singleton_append] at hq

end Cut

/-- What the scanner reads behind some pieces is cut into pieces that fit behind them. -/
theorem exists_cut (cs : List Char) {before : List Piece} {op bl : Bool}
    (h : Reached before op bl) : ∃ pieces, Cut before cs (scan op bl cs) pieces := by
  -- A token may take many characters, so the induction is on the length.
  induction hlength : cs.length using Nat.strongRecOn generalizing before op bl cs with
  | ind n ih =>
  subst hlength
  cases cs with
  | nil =>
    rw [scan_nil]
    exact ⟨[], Cut.nil before⟩
  | cons c rest =>
    by_cases hc : isBlank c = true ∨ c = ']'
    · obtain ⟨pieces, hpieces⟩ := ih _ (Nat.lt_succ_self _) rest (h.passed c) rfl
      rw [scan_passed op bl hc]
      exact ⟨.passed c :: pieces, Cut.cons (p := .passed c) hc hpieces⟩
    · obtain ⟨span, behind, token, hfirst⟩ := exists_first op bl hc rest
      obtain ⟨pieces, hpieces⟩ := ih _ hfirst.shorter behind (Reached.spoken hfirst.said) rfl
      rw [hfirst.scan_eq, hfirst.split]
      refine ⟨.spoken span token :: pieces,
        Cut.cons (p := .spoken span token) ⟨?_, ?_, ?_⟩ hpieces⟩
      · rw [hpieces.chars]
        exact hfirst.said
      · rw [hpieces.tokens]
        exact hfirst.colon
      · rw [hpieces.chars, h.leadToValue_eq]
        exact hfirst.word

/-- The reader asks for no character outside the text and comes to its end.  The text is cut into
pieces without rest: its tokens in order, and what is passed over. -/
theorem tokenize_lossless (s : String) :
    tokensFrom s.toList.toArray false 0 = .ok (tokenize s) ∧
      ∃ pieces, Cut [] s.toList (tokenize s) pieces := by
  rw [tokenize_eq_scan]
  exact ⟨tokensFrom_eq_scan 0 rfl, exists_cut s.toList ⟨rfl, nofun⟩⟩

/-- A bracket and a quote that are not closed, and times away from an operator and right behind
one. -/
example : tokenize "]at:[1 TO \"x" = [.field "at", .operator .colon, .range "[1 TO \"x"] ∧
    tokenize "> 9:30 >9:30 \"say \\\"hi" = [.operator .gt, .field "9", .operator .colon, .text "30",
      .operator .gt, .text "9:30", .value "say \"hi"] := by
  decide +kernel

end Query
end LogLens
